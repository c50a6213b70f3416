import Supervisor.Console.Basic

/-!
# Log lines

A log line carries the uptime, its level, the subsystem it comes from and a
message; a debug line also names its source place.

- `Log.Level`: the levels, from debug to panic.
- `Log.Entry`, `Log.Entry.text`: a line and how it reads on the serial port.
- `Log.Entry.pieces`, `Log.Entry.display`: the same line in colours on the
  console, laid out piece by piece. The console keeps its colours.
- `Log.Settings`: the threshold and whether the console shows the log
  too.
-/

namespace Supervisor.Log

/-- How serious a line is. -/
inductive Level where
  | debug
  | info
  | warn
  | error
  | panic
  deriving DecidableEq, Repr, Inhabited

namespace Level

/-- The rank of a level, which orders them. -/
def rank : Level → Nat
  | debug => 0
  | info => 1
  | warn => 2
  | error => 3
  | panic => 4

/-- The level with a rank; every larger number is `panic`. -/
def ofRank : Nat → Level
  | 0 => debug
  | 1 => info
  | 2 => warn
  | 3 => error
  | _ => panic

/-- The more serious of two levels. -/
def max (a b : Level) : Level :=
  if a.rank ≤ b.rank then b else a

/-- A level in five characters. -/
def label : Level → String
  | debug => "DEBUG"
  | info => "INFO "
  | warn => "WARN "
  | error => "ERROR"
  | panic => "PANIC"

/-- The colour of a level on the console. -/
def color : Level → Color
  | debug => .darkGray
  | info => .white
  | warn => .yellow
  | error => .lightRed
  | panic => .red

end Level

/-- A place in the source: a file and a line. -/
structure Place where
  file : String := ""
  line : Nat := 0
  deriving DecidableEq, Repr, Inhabited

/-- A place as `file:line`. -/
def Place.text (p : Place) : String :=
  p.file ++ ":" ++ Text.decimal p.line

/-- One log line. -/
structure Entry where
  level : Level
  /-- Where it was written; only debug lines show it. -/
  place : Place := {}
  /-- The subsystem it comes from. -/
  origin : String
  message : String
  deriving DecidableEq, Repr, Inhabited

namespace Entry

/-- The whole line, at an uptime in milliseconds. -/
def text (e : Entry) (ms : Nat) : String :=
  "[t=" ++ Text.decimal (ms / 1000) ++ "." ++ Text.decimalPadded 3 (ms % 1000) ++ "s] [" ++
    e.level.label ++ "] [" ++ e.origin ++ "] " ++ e.message ++
    (if e.level = .debug then " (" ++ e.place.text ++ ")" else "") ++ "\n"

/-- The uptime in seconds with three decimals. -/
def timestamp (ms : Nat) : String :=
  "[t=" ++ Text.decimal (ms / 1000) ++ "." ++ Text.decimalPadded 3 (ms % 1000) ++ "s] "

/-- The level in brackets. -/
def levelTag (e : Entry) : String :=
  "[" ++ e.level.label ++ "] "

/-- The origin in brackets. -/
def originTag (e : Entry) : String :=
  "[" ++ e.origin ++ "] "

/-- The source place of a debug line. -/
def placeTag (e : Entry) : String :=
  if e.level = .debug then " (" ++ e.place.text ++ ")" else ""

/-- The line in coloured pieces, without its end. -/
def pieces (e : Entry) (ms : Nat) : List (Color × String) :=
  [(.darkGray, timestamp ms), (e.level.color, e.levelTag), (.lightBlue, e.originTag),
   (.white, e.message ++ e.placeTag)]

/-- Writes coloured pieces on black. -/
def paint : List (Color × String) → Console → PortM Console
  | [], c => return c
  | (color, s) :: rest, c => do
    paint rest (← (c.recolor color .black).writeText s)

/-- Writes the line on the console, which keeps its colours. -/
def display (e : Entry) (ms : Nat) (c : Console) : PortM Console := do
  let painted ← paint (e.pieces ms) c
  let ended ← painted.writeByte 0x0A
  return ended.recolor c.pen.fg c.pen.bg

end Entry

/-- What is logged and where. -/
structure Settings where
  /-- Lines below this level are dropped. -/
  threshold : Level := .debug
  /-- Whether the console shows the log too. -/
  onConsole : Bool := false
  deriving DecidableEq, Repr, Inhabited

/-- Whether a line passes the threshold. -/
def Settings.admits (s : Settings) (e : Entry) : Bool :=
  s.threshold.rank ≤ e.level.rank

end Supervisor.Log
