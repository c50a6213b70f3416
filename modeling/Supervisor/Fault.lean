/-!
# Checked machine words

Addresses, sizes and counters are natural numbers below `wordLimit`. Every
sum, difference and product that the supervisor forms on them is checked: a
result that leaves the range is a `Fault`, never a wrapped value.

- `Fault`: what stops a computation, with its wording in `Fault.message`.
- `Checked.add`, `Checked.sub`, `Checked.mul`: the checked operations; each
  either returns the exact result or names the operation that failed.
- `Checked.alignUp`: the next multiple of an alignment, formed from a checked
  sum.

A computation with state runs in `EStateM Fault σ`: when it faults, the state
it leaves is the one reached at the fault.
-/

namespace Supervisor

/-- One past the largest machine word. -/
abbrev wordLimit : Nat := 0x10000000000000000

/-- Why a computation on machine words stopped. -/
inductive Fault where
  /-- A sum left the word range. -/
  | addOverflow
  /-- A difference fell below zero. -/
  | subOverflow
  /-- A product left the word range. -/
  | mulOverflow
  /-- An index ran past a table of the given length. -/
  | indexOutOfBounds (length index : Nat)
  deriving DecidableEq, Repr, Inhabited

/-- The wording of a fault. -/
def Fault.message : Fault → String
  | .addOverflow => "attempt to add with overflow"
  | .subOverflow => "attempt to subtract with overflow"
  | .mulOverflow => "attempt to multiply with overflow"
  | .indexOutOfBounds length index =>
    "index out of bounds: the len is " ++ Nat.repr length ++ " but the index is " ++ Nat.repr index

namespace Checked

/-- The sum, if it is a word. -/
def add (a b : Nat) : Except Fault Nat :=
  if a + b < wordLimit then .ok (a + b) else .error .addOverflow

/-- The difference, if it is not negative. -/
def sub (a b : Nat) : Except Fault Nat :=
  if b ≤ a then .ok (a - b) else .error .subOverflow

/-- The product, if it is a word. -/
def mul (a b : Nat) : Except Fault Nat :=
  if a * b < wordLimit then .ok (a * b) else .error .mulOverflow

/-- The least multiple of `align` that is at least `value`. The sum
`value + align` is formed on the way and has to be a word. -/
def alignUp (value align : Nat) : Except Fault Nat := do
  let sum ← add value align
  let last ← sub sum 1
  return last / align * align

/-! ## When the operations succeed -/

theorem add_eq_ok {a b : Nat} (h : a + b < wordLimit) : add a b = .ok (a + b) :=
  if_pos h

theorem sub_eq_ok {a b : Nat} (h : b ≤ a) : sub a b = .ok (a - b) :=
  if_pos h

theorem mul_eq_ok {a b : Nat} (h : a * b < wordLimit) : mul a b = .ok (a * b) :=
  if_pos h

theorem alignUp_eq_ok {value align : Nat} (hpos : 0 < align) (h : value + align < wordLimit) :
    alignUp value align = .ok ((value + align - 1) / align * align) := by
  have hsub : 1 ≤ value + align := by omega
  simp [alignUp, add_eq_ok h, sub_eq_ok hsub, bind, Except.bind, pure, Except.pure]

end Checked

/-- A checked word operation inside a computation with state. -/
instance {σ : Type} : MonadLift (Except Fault) (EStateM Fault σ) where
  monadLift
    | .ok a => pure a
    | .error e => throw e

end Supervisor
