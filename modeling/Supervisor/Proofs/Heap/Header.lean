import Supervisor.Fault
import Supervisor.Heap.Header
import Supervisor.Proofs.Memory

/-!
# Reading headers back

Every write of a header, whole or one field of it, stays inside the 32 bytes of
that header (`changedIn_writeAt` and its sisters), so the headers apart from it
read as before (`readAt_of_changedIn`). What the written header itself reads as
afterwards is the record with that field replaced (`readAt_writeAt`,
`readAt_setSizeAt`, `readAt_setFreeAt`, `readAt_setNextAt`, `readAt_setPrevAt`).
-/

namespace Supervisor

namespace Header

open Memory

variable {m n : Memory} {b c : Nat}

/-- A header that is known whole is known field by field. -/
theorem fields_of_readAt {h : Header} (e : readAt m b = h) :
    sizeAt m b = h.size ∧ freeAt m b = h.free ∧ nextAt m b = h.next ∧ prevAt m b = h.prev := by
  subst e
  exact ⟨rfl, rfl, rfl, rfl⟩

theorem fields_eq (e : readAt n b = readAt m b) :
    sizeAt n b = sizeAt m b ∧ freeAt n b = freeAt m b ∧ nextAt n b = nextAt m b ∧
      prevAt n b = prevAt m b := by
  simpa only [readAt, Header.mk.injEq] using e

/-! ## Headers that are left alone -/

/-- A header depends on its own bytes only. -/
theorem readAt_congr (h : ∀ x, b ≤ x → x < b + bytes → n.read x = m.read x) :
    readAt n b = readAt m b := by
  have hword : ∀ i, i + 8 ≤ bytes → n.word (b + i) = m.word (b + i) := by
    intro i hi
    exact load_congr fun x hlo hhi => h x (by omega) (by omega)
  have hflag : n.read (b + 8) = m.read (b + 8) :=
    h (b + 8) (Nat.le_add_right b 8) (Nat.add_lt_add_left (by decide) b)
  simp only [readAt, sizeAt, freeAt, nextAt, prevAt, hflag, hword 16 (by decide),
    hword 24 (by decide)]
  rw [show n.word b = m.word b from hword 0 (by decide)]

/-- Zeros behind its first byte make a header that is not free and has no links. -/
theorem readAt_of_zeros (h : ∀ x, b < x → x < b + bytes → m.read x = 0) :
    readAt m b = ⟨(m.read b).toNat, false, 0, 0⟩ := by
  have hbytes : bytes = 32 := rfl
  have hsize : m.word b = (m.read b).toNat :=
    word_eq_toNat fun x hlo hhi => h x hlo (by omega)
  have hflag : m.read (b + 8) = 0 := h (b + 8) (by omega) (by omega)
  have hword : ∀ i, 0 < i → i + 8 ≤ bytes → m.word (b + i) = 0 := by
    intro i hpos hi
    exact load_eq_zero fun x hlo hhi => h x (by omega) (by omega)
  simp only [readAt, sizeAt, freeAt, nextAt, prevAt, hsize, hflag, hword 16 (by decide) (by decide),
    hword 24 (by decide) (by decide)]
  rfl

theorem readAt_of_changedIn (h : ChangedIn m n c bytes) (hapart : b + bytes ≤ c ∨ c + bytes ≤ b) :
    readAt n b = readAt m b :=
  readAt_congr fun x hlo hhi => h x (by omega)

/-! ## Writes stay inside their header -/

theorem changedIn_field (m : Memory) (b value : Nat) {i : Nat} (hi : i + 8 ≤ bytes) :
    ChangedIn m (m.setWord (b + i) value) b bytes :=
  (changedIn_setWord m (b + i) value).mono (by omega) (by omega)

theorem changedIn_setSizeAt (m : Memory) (b size : Nat) :
    ChangedIn m (setSizeAt m b size) b bytes :=
  changedIn_field m b size (i := 0) (by decide)

theorem changedIn_setFreeAt (m : Memory) (b : Nat) (free : Bool) :
    ChangedIn m (setFreeAt m b free) b bytes :=
  (changedIn_write m (b + 8) free.toUInt8).mono (Nat.le_add_right b 8)
    (Nat.add_le_add_left (by decide : 8 + 1 ≤ bytes) b)

theorem changedIn_setNextAt (m : Memory) (b next : Nat) :
    ChangedIn m (setNextAt m b next) b bytes :=
  changedIn_field m b next (by decide)

theorem changedIn_setPrevAt (m : Memory) (b prev : Nat) :
    ChangedIn m (setPrevAt m b prev) b bytes :=
  changedIn_field m b prev (by decide)

theorem changedIn_writeAt (m : Memory) (b : Nat) (h : Header) :
    ChangedIn m (writeAt m b h) b bytes := by
  have hsize := changedIn_field m b h.size (i := 0) (by decide)
  have hflag := changedIn_field (m.setWord b h.size) b h.free.toNat (i := 8) (by decide)
  exact ((hsize.trans hflag).trans (changedIn_field _ b h.next (by decide))).trans
    (changedIn_field _ b h.prev (by decide))

/-! ## What a written header reads as -/

theorem readAt_setSizeAt (m : Memory) (b : Nat) {size : Nat} (h : size < wordLimit) :
    readAt (setSizeAt m b size) b = { readAt m b with size := size } := by
  have hw := changedIn_setWord m b size
  simp only [readAt, sizeAt, freeAt, nextAt, prevAt, setSizeAt]
  rw [word_setWord_self m b h, hw.read_eq (by omega), hw.word_eq (by omega), hw.word_eq (by omega)]

theorem readAt_setNextAt (m : Memory) (b : Nat) {next : Nat} (h : next < wordLimit) :
    readAt (setNextAt m b next) b = { readAt m b with next := next } := by
  have hw := changedIn_setWord m (b + 16) next
  simp only [readAt, sizeAt, freeAt, nextAt, prevAt, setNextAt]
  rw [word_setWord_self m (b + 16) h, hw.read_eq (by omega), hw.word_eq (by omega),
    hw.word_eq (by omega)]

theorem readAt_setPrevAt (m : Memory) (b : Nat) {prev : Nat} (h : prev < wordLimit) :
    readAt (setPrevAt m b prev) b = { readAt m b with prev := prev } := by
  have hw := changedIn_setWord m (b + 24) prev
  simp only [readAt, sizeAt, freeAt, nextAt, prevAt, setPrevAt]
  rw [word_setWord_self m (b + 24) h, hw.read_eq (by omega), hw.word_eq (by omega),
    hw.word_eq (by omega)]

theorem readAt_setFreeAt (m : Memory) (b : Nat) (free : Bool) :
    readAt (setFreeAt m b free) b = { readAt m b with free := free } := by
  have hw := changedIn_write m (b + 8) free.toUInt8
  simp only [readAt, sizeAt, freeAt, nextAt, prevAt, setFreeAt]
  rw [read_write_self, hw.word_eq (by omega), hw.word_eq (by omega), hw.word_eq (by omega)]
  cases free <;> rfl

/-- A whole header is read back as it was written. -/
theorem readAt_writeAt (m : Memory) (b : Nat) {h : Header} (hsize : h.size < wordLimit)
    (hnext : h.next < wordLimit) (hprev : h.prev < wordLimit) :
    readAt (writeAt m b h) b = h := by
  obtain ⟨size, free, next, prev⟩ := h
  -- the fields are written in the order of their addresses
  let m₁ := m.setWord b size
  let m₂ := m₁.setWord (b + 8) free.toNat
  let m₃ := m₂.setWord (b + 16) next
  have hflag := changedIn_setWord m₁ (b + 8) free.toNat
  have hlink := changedIn_setWord m₂ (b + 16) next
  have hback := changedIn_setWord m₃ (b + 24) prev
  have h₁ : sizeAt (m₃.setWord (b + 24) prev) b = size := by
    rw [sizeAt, hback.word_eq (by omega), hlink.word_eq (by omega), hflag.word_eq (by omega)]
    exact word_setWord_self m b hsize
  have h₂ : freeAt (m₃.setWord (b + 24) prev) b = free := by
    rw [freeAt, hback.read_eq (by omega), hlink.read_eq (by omega), read_setWord_self]
    cases free <;> rfl
  have h₃ : nextAt (m₃.setWord (b + 24) prev) b = next := by
    rw [nextAt, hback.word_eq (by omega)]
    exact word_setWord_self m₂ (b + 16) hnext
  have h₄ : prevAt (m₃.setWord (b + 24) prev) b = prev := word_setWord_self m₃ (b + 24) hprev
  show Header.mk (sizeAt (m₃.setWord (b + 24) prev) b) (freeAt (m₃.setWord (b + 24) prev) b)
    (nextAt (m₃.setWord (b + 24) prev) b) (prevAt (m₃.setWord (b + 24) prev) b) = _
  rw [h₁, h₂, h₃, h₄]

end Header

end Supervisor
