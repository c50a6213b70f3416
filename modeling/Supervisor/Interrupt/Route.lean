import Supervisor.Interrupt.Board
import Supervisor.Interrupt.Exception

/-!
# Routing a delivery

`Board.route` takes the frame of one interrupt to where it belongs. Exceptions
follow the rule of their class and touch neither ports nor locks. A vector that
the interrupt controller delivers is checked for a spurious line, goes to the
handler registered when it arrives, and is acknowledged after the handler has
returned, on the line it came in on. Any other vector goes to its handler, if
there is one.

The answer is the frame as the handler left it, or the exception nobody could
handle, in which case the frame is as it was.
-/

namespace Supervisor.Board

variable {η ω : Type}

/-- What handlers do to a frame and the board. -/
abbrev Behaviour (η ω : Type) := η → Frame → BoardM η ω Frame

/-- Runs a handler, if there is one. -/
def handle (behave : Behaviour η ω) (handler : Option η) (f : Frame) : BoardM η ω Frame :=
  match handler with
  | some h => behave h f
  | none => return f

/-- The handler an exception may use. A vector of the fatal class never looks
at the table. -/
def exceptionHandler (vector : UInt8) : BoardM η ω (Option η) := do
  match Severity.of vector with
  | .fatal => return none
  | _ => return (← get).handlers vector

/-- Routes an exception. -/
def routeException (behave : Behaviour η ω) (f : Frame) :
    BoardM η ω (Except Unhandled Frame) := do
  match verdict f.number (← exceptionHandler f.number) with
  | .handle h => .ok <$> behave h f
  | .swallow => return .ok f
  | .fatal => return .error (.ofFrame f)

/-- Routes an interrupt that came in on a line of the controller. -/
def routeLine (behave : Behaviour η ω) (line : UInt8) (f : Frame) : BoardM η ω Frame := do
  if ← withPic fun _ => Pic.dismissSpurious line then
    return f
  let handled ← handle behave ((← get).handlers f.number) f
  withPic fun _ => Pic.acknowledge line
  return handled

/-- Routes one delivery. -/
def route (behave : Behaviour η ω) (f : Frame) : BoardM η ω (Except Unhandled Frame) := do
  if f.number.toNat < exceptionCount then
    routeException behave f
  else
    match ← withPic fun pic => return pic.lineOf f.number with
    | some line => .ok <$> routeLine behave line f
    | none => .ok <$> handle behave ((← get).handlers f.number) f

end Supervisor.Board
