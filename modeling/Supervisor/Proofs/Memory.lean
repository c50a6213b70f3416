import Mathlib
import Supervisor.Fault
import Supervisor.Memory

/-!
# Words and runs of bytes in memory

What the multi-byte operations of `Memory` change and what they leave alone.

- `Memory.ChangedIn m n a count`: going from `m` to `n` changes no byte outside
  `[a, a + count)`. Every store comes with such a range, and a read that stays
  out of the range is carried over by `read_eq`, `word_eq`.
- `word_setWord_self`: a word is read back from where it was stored.
- `read_writeBytes`: bytes that were written in a run are read back.
- `read_copy_of_lt`: a copy between disjoint ranges puts the old bytes of the
  source into the target.
-/

namespace Supervisor

namespace Memory

/-- Going from `m` to `n` changes no byte outside `[a, a + count)`. -/
def ChangedIn (m n : Memory) (a count : Nat) : Prop :=
  ∀ x, x < a ∨ a + count ≤ x → n.read x = m.read x

namespace ChangedIn

variable {m n o : Memory} {a b count count' : Nat}

theorem refl (m : Memory) (a count : Nat) : ChangedIn m m a count :=
  fun _ _ => rfl

theorem trans (h : ChangedIn m n a count) (h' : ChangedIn n o a count) :
    ChangedIn m o a count :=
  fun x hx => (h' x hx).trans (h x hx)

/-- A larger range is changed all the more. -/
theorem mono (h : ChangedIn m n b count') (hlo : a ≤ b) (hhi : b + count' ≤ a + count) :
    ChangedIn m n a count := by
  intro x hx
  exact h x (by omega)

theorem read_eq (h : ChangedIn m n a count) {x : Nat} (hx : x < a ∨ a + count ≤ x) :
    n.read x = m.read x :=
  h x hx

theorem word_eq (h : ChangedIn m n a count) (hb : b + 8 ≤ a ∨ a + count ≤ b) :
    n.word b = m.word b := by
  refine load_congr fun x hlo hhi => h x ?_
  omega

end ChangedIn

/-! ## Bytes -/

theorem changedIn_write (m : Memory) (a : Nat) (byte : UInt8) :
    ChangedIn m (m.write a byte) a 1 := by
  intro x hx
  exact read_write_of_ne m byte (by omega)

/-! ## Words -/

theorem load_lt (m : Memory) (a count : Nat) : m.load a count < 256 ^ count := by
  induction count generalizing a with
  | zero => simp [load]
  | succ count ih =>
    have hbyte := (m.read a).toNat_lt
    have hrest := ih (a + 1)
    rw [load, Nat.pow_succ]
    omega

/-- A number is read back from where it was stored. -/
theorem load_store_self (m : Memory) (a count value : Nat) :
    (m.store a count value).load a count = value % 256 ^ count := by
  induction count generalizing m a value with
  | zero => simp [load, Nat.mod_one]
  | succ count ih =>
    have hlow : (UInt8.ofNat value).toNat = value % 256 := by simp
    rw [load, store, ih, read_store_of_lt _ _ _ (Nat.lt_succ_self a), read_write_self, hlow,
      Nat.pow_succ, Nat.mul_comm (256 ^ count) 256, Nat.mod_mul]

theorem word_lt (m : Memory) (a : Nat) : m.word a < wordLimit :=
  calc m.word a < 256 ^ 8 := load_lt m a 8
    _ = wordLimit := by decide

theorem changedIn_setWord (m : Memory) (a value : Nat) :
    ChangedIn m (m.setWord a value) a 8 := by
  intro x hx
  rcases hx with hx | hx
  · exact read_store_of_lt _ _ _ hx
  · exact read_store_of_ge _ _ _ hx

/-- A word is read back from where it was stored. -/
theorem word_setWord_self (m : Memory) (a : Nat) {value : Nat} (h : value < wordLimit) :
    (m.setWord a value).word a = value := by
  have hbytes : 256 ^ 8 = wordLimit := by decide
  rw [word, setWord, load_store_self, hbytes]
  exact Nat.mod_eq_of_lt h

/-- The first byte of a stored word is its lowest. -/
theorem read_setWord_self (m : Memory) (a value : Nat) :
    (m.setWord a value).read a = UInt8.ofNat value := by
  rw [setWord, store, read_store_of_lt _ _ _ (Nat.lt_succ_self a), read_write_self]

theorem load_eq_zero {m : Memory} {a count : Nat}
    (h : ∀ x, a ≤ x → x < a + count → m.read x = 0) : m.load a count = 0 := by
  induction count generalizing a with
  | zero => rfl
  | succ count ih =>
    rw [load, h a (Nat.le_refl a) (by omega), ih fun x hlo hhi => h x (by omega) (by omega)]
    rfl

/-- A word with zeros behind its first byte is that byte. -/
theorem word_eq_toNat {m : Memory} {a : Nat} (h : ∀ x, a < x → x < a + 8 → m.read x = 0) :
    m.word a = (m.read a).toNat := by
  rw [word, load, load_eq_zero fun x hlo hhi => h x (by omega) (by omega), Nat.mul_zero,
    Nat.add_zero]

/-! ## Runs of bytes -/

theorem changedIn_writeBytes (m : Memory) (a : Nat) (bytes : List UInt8) :
    ChangedIn m (m.writeBytes a bytes) a bytes.length := by
  induction bytes generalizing m a with
  | nil => exact .refl m a 0
  | cons byte rest ih =>
    have hfirst : ChangedIn m (m.write a byte) a (rest.length + 1) :=
      (changedIn_write m a byte).mono (by omega) (by omega)
    have hrest : ChangedIn (m.write a byte) ((m.write a byte).writeBytes (a + 1) rest) a
        (rest.length + 1) := (ih (m.write a byte) (a + 1)).mono (by omega) (by omega)
    exact hfirst.trans hrest

/-- A byte is read back from where it was written. -/
theorem read_writeBytes (m : Memory) (a : Nat) {bytes : List UInt8} {i : Nat}
    (h : i < bytes.length) : (m.writeBytes a bytes).read (a + i) = bytes[i] := by
  induction bytes generalizing m a i with
  | nil => cases h
  | cons byte rest ih =>
    rw [writeBytes]
    cases i with
    | zero =>
      -- the rest of the bytes starts behind the first one
      have hrest := changedIn_writeBytes (m.write a byte) (a + 1) rest
      rw [hrest.read_eq (by omega)]
      exact read_write_self m a byte
    | succ i =>
      rw [show a + (i + 1) = a + 1 + i by omega, ih _ _ (Nat.lt_of_succ_lt_succ h)]
      rfl

/-! ## Copies -/

/-- A copy changes its target only. -/
theorem changedIn_copy (m : Memory) (source target count : Nat) :
    ChangedIn m (m.copy source target count) target count := by
  induction count generalizing m source target with
  | zero => exact .refl m target 0
  | succ count ih =>
    let m' := m.write target (m.read source)
    have hfirst : ChangedIn m m' target (count + 1) :=
      (changedIn_write m target (m.read source)).mono (by omega) (by omega)
    have hrest : ChangedIn m' (m'.copy (source + 1) (target + 1) count) target (count + 1) :=
      (ih m' (source + 1) (target + 1)).mono (by omega) (by omega)
    exact hfirst.trans hrest

/-- A copy between disjoint ranges puts the old bytes of the source into the
target. -/
theorem read_copy_of_lt (m : Memory) {source target count i : Nat}
    (hapart : source + count ≤ target ∨ target + count ≤ source) (hi : i < count) :
    (m.copy source target count).read (target + i) = m.read (source + i) := by
  induction count generalizing m source target i with
  | zero => omega
  | succ count ih =>
    rw [copy]
    cases i with
    | zero =>
      -- the rest of the copy starts behind the first byte
      have hrest := changedIn_copy (m.write target (m.read source)) (source + 1) (target + 1) count
      rw [hrest.read_eq (by omega)]
      exact read_write_self m target (m.read source)
    | succ i =>
      let m' := m.write target (m.read source)
      have hstep : (m'.copy (source + 1) (target + 1) count).read (target + 1 + i)
          = m'.read (source + 1 + i) := ih m' (by omega) (by omega)
      rw [show target + (i + 1) = target + 1 + i by omega, hstep,
        show source + (i + 1) = source + 1 + i by omega]
      exact read_write_of_ne m _ (by omega)

end Memory

end Supervisor
