import Supervisor.Proofs.Heap.Validation

/-!
# Sizes that lead out of the region

The check of a pointer adds the size in front of it to an address, to see where its block
would end. The size may be anything that a client wrote to its data. A sum beyond the region
is what the check is there for, but a sum beyond the words faults instead of being refused.

- `Heap.Overruns`: the pointers for which it does.
- `Heap.Stops`, `Heap.Answered`: the operations on a pointer fault, or come to an answer.
- `Reachable.store`: a client can have any number in front of a pointer.
- `reachable_checked`: the operations stop at the pointers that overrun. Every other one is
  checked without a fault, and refused if its block would leave the region. What is done
  after the check may fault too, but only for a forged pointer that it let through.
- `page_overrun`: a client that makes the heap stop.
-/

namespace Supervisor

namespace Heap

open Memory Header

/-- Where the block of `p` would end, by the size in front of `p`. -/
def endOf (a : Arena) (p : Nat) : Nat :=
  p - Header.bytes + sizeAt a.memory (p - Header.bytes)

/-- A multiple of eight in the region. -/
structure Inside (a : Arena) (p : Nat) : Prop where
  lower : a.heap.start ≤ p
  upper : p < a.heap.limit
  aligned : p % grain = 0

/-- A pointer with room for a header in front, by which its block would end beyond the
words. -/
structure Overruns (a : Arena) (p : Nat) : Prop extends Inside a p where
  headed : a.heap.start + Header.bytes ≤ p
  beyond : wordLimit ≤ endOf a p

/-- Every operation that takes a pointer comes to an answer for `p`. -/
structure Answered (a : Arena) (p : Nat) : Prop where
  freed : ∃ answer a', (free p).run a = .ok answer a'
  resized : ∀ n, ∃ answer a', (realloc (some p) n).run a = .ok answer a'
  measured : ∃ bytes, (capacity p).run a = .ok bytes a

/-- Every operation that takes a pointer stops at `p`, with nothing changed. -/
structure Stops (a : Arena) (p : Nat) (fault : Fault) : Prop where
  freed : (free p).run a = .error fault a
  resized : ∀ n, (realloc (some p) n).run a = .error fault a
  measured : (capacity p).run a = .error fault a

section Checks

variable {region : Region} {a : Arena} {s : Session} {bs : List Block} {p : Nat} {fault : Fault}
  {e : PointerError}

theorem Refused.answered (h : Refused a p e) : Answered a p :=
  ⟨⟨_, _, h.freed⟩, fun n => ⟨_, _, h.resized n⟩, ⟨_, h.measured⟩⟩

theorem Stops.not_answered (h : Stops a p fault) : ¬ Answered a p := by
  rintro ⟨⟨answer, a', hrun⟩, -, -⟩
  rw [h.freed] at hrun
  injection hrun

/-- Where the check stops, every operation does. -/
theorem stops_of_validate (h : (validate p).run a = .error fault a) : Stops a p fault := by
  have hfree : (free p).run a = .error fault a := by
    rw [free, run_bind_error h]
  refine ⟨hfree, fun n => ?_, ?_⟩
  · by_cases hn : n = 0
    · rw [hn, run_realloc_zero, hfree]
    · rw [realloc, if_neg hn, run_bind_error h]
  · rw [capacity, run_bind_error h]

/-- The check stops at a pointer that overruns. -/
theorem run_validate_of_overruns (h : Sound a bs) (hp : Overruns a p) :
    (validate p).run a = .error .addOverflow a := by
  obtain ⟨⟨-, hupper, haligned⟩, hheaded, hbeyond⟩ := hp
  have hbounded := h.laid.bounded
  have hend : wordLimit ≤ p - Header.bytes + sizeAt a.memory (p - Header.bytes) := hbeyond
  -- in the lower half of the words, only a size with room for a header overruns
  rw [run_validate h, if_neg (by omega), if_pos hend]

/-- The check answers for every other pointer, and lets it through only if the size in
front of it has room for a header. -/
theorem run_validate_of_not_overruns (h : Sound a bs) (hp : ¬ Overruns a p) :
    (∃ e, (validate p).run a = .ok (.error e) a) ∨
      Header.bytes ≤ sizeAt a.memory (p - Header.bytes) ∧
        (validate p).run a = .ok (.ok (p - Header.bytes)) a := by
  rw [run_validate h]
  split
  next => exact .inl ⟨_, rfl⟩
  next hin =>
    split
    next hword => exact absurd ⟨⟨by omega, by omega, by omega⟩, by omega, hword⟩ hp
    next =>
      split
      next => exact .inl ⟨_, rfl⟩
      next =>
        split
        next => exact .inl ⟨_, rfl⟩
        next => exact .inr ⟨by omega, rfl⟩

/-- It refuses a pointer whose block would leave the region. -/
theorem run_validate_beyond (h : Sound a bs) (hp : ¬ Overruns a p) (hin : Inside a p)
    (hend : a.heap.limit < endOf a p) :
    (validate p).run a = .ok (.error (.invalidPointer p)) a := by
  have hleaves : a.heap.limit < p - Header.bytes + sizeAt a.memory (p - Header.bytes) := hend
  rw [run_validate h, if_pos hleaves]
  split
  next => rfl
  next hchecked =>
    have hword : ¬ wordLimit ≤ p - Header.bytes + sizeAt a.memory (p - Header.bytes) :=
      fun hword => hp ⟨hin, by omega, hword⟩
    exact if_neg hword

/-- A pointer that is held is answered. -/
theorem Keeps.answered (h : Keeps region s bs) (hp : p ∈ s.held) : Answered s.arena p := by
  refine ⟨?_, fun n => ?_, ?_⟩
  · obtain ⟨a', -, hrun, -⟩ := effect_free h.sound h.held hp
    exact ⟨_, a', hrun⟩
  · obtain ⟨answer, a', -, hrun, -⟩ := effect_realloc h.sound h.held hp n
    exact ⟨_, a', hrun⟩
  · obtain ⟨bytes, hrun, -⟩ := effect_size h.sound h.held hp
    exact ⟨bytes, hrun⟩

/-- A pointer that is let through is not freed if the size in front of it is more than is in
use. -/
theorem run_free_exceeding (h : (validate p).run a = .ok (.ok (p - Header.bytes)) a)
    (hused : a.heap.used < sizeAt a.memory (p - Header.bytes)) :
    ∃ a', (free p).run a = .error .subOverflow a' := by
  generalize p - Header.bytes = block at *
  obtain ⟨hsize, -⟩ := fields_of_readAt (readAt_setFreeAt a.memory block true)
  have hsame : sizeAt (setFreeAt a.memory block true) block = sizeAt a.memory block := hsize
  have hsub : Checked.sub a.heap.used (sizeAt a.memory block) = .error .subOverflow :=
    if_neg (Nat.not_le_of_lt hused)
  refine ⟨{ a with memory := setFreeAt a.memory block true }, ?_⟩
  rw [free, run_bind_ok h]
  simp only [run_change_bind, run_inspect_bind, hsame]
  refine run_bind_error ?_ _
  rw [subUsed, run_get_bind, hsub, run_lift_error_bind]

end Checks

/-! ## Numbers that a client writes -/

section Stores

variable {region : Region} {bs : List Block} {b : Block} {held : List Nat} {a : Arena}
  {value : Nat}

/-- A client can store any number in its allocation, one byte after the other. -/
theorem Reachable.store (h : Reachable region ⟨a, held⟩) (hkeeps : Keeps region ⟨a, held⟩ bs)
    (hb : b ∈ live bs) (x count value : Nat) (hin : ∀ y, x ≤ y → y < x + count → b.Holds y) :
    Reachable region ⟨{ a with memory := a.memory.store x count value }, held⟩ ∧
      Keeps region ⟨{ a with memory := a.memory.store x count value }, held⟩ bs := by
  induction count generalizing a x value with
  | zero => exact ⟨h, hkeeps⟩
  | succ count ih =>
    have howns := owns_of_holds hkeeps.sound hkeeps.held hb (hin x (Nat.le_refl x) (by omega))
    have heffect := effect_write hkeeps.sound hkeeps.held howns (UInt8.ofNat value)
    have hstep : Step ⟨a, held⟩ (.write x (UInt8.ofNat value)) none
        ⟨{ a with memory := a.memory.write x (UInt8.ofNat value) }, held⟩ :=
      ⟨howns, run_map_ok (run_change _ a) _, rfl⟩
    exact ih (h.step hstep) (heffect.keeps hkeeps) (x + 1) (value / 256)
      fun y hlo hhi => hin y (by omega) (by omega)

/-- A page whose first allocation starts with any word and a zero, and so with the size and
the flag of a live block. -/
theorem exists_stored (hvalue : value < wordLimit) :
    ∃ a, Reachable page ⟨a, [0x100020]⟩ ∧
      Keeps page ⟨a, [0x100020]⟩ [⟨0x100000, 136, false⟩, ⟨0x100088, 3960, true⟩] ∧
      sizeAt a.memory 0x100020 = value ∧ freeAt a.memory 0x100020 = false := by
  have hsize : blockSize? 100 = some 136 := by decide
  obtain ⟨a, hreach, hkeeps, -⟩ := exists_first_alloc page {} (by decide) (by decide) hsize
    (by decide)
  have hlist : served [] page.whole 136 []
      = [⟨0x100000, 136, false⟩, ⟨0x100088, 3960, true⟩] := by decide
  rw [hlist] at hkeeps
  have hin : ∀ y, 0x100020 ≤ y → y < 0x100030 → Block.Holds ⟨0x100000, 136, false⟩ y := by
    intro y hlo hhi
    exact ⟨hlo, Nat.lt_of_lt_of_le hhi (by decide)⟩
  obtain ⟨hreach', hkeeps'⟩ := hreach.store hkeeps List.mem_cons_self 0x100028 8 0
    fun y hlo hhi => hin y (by omega) (by omega)
  obtain ⟨hreach'', hkeeps''⟩ := hreach'.store hkeeps' List.mem_cons_self 0x100020 8 value
    fun y hlo hhi => hin y (by omega) (by omega)
  refine ⟨_, hreach'', hkeeps'', word_setWord_self _ 0x100020 hvalue, ?_⟩
  have hflag : ((a.memory.setWord 0x100028 0).setWord 0x100020 value).read 0x100028 = 0 := by
    rw [setWord, read_store_of_ge _ _ _ (by decide)]
    exact read_setWord_self a.memory 0x100028 0
  show freeAt ((a.memory.setWord 0x100028 0).setWord 0x100020 value) 0x100020 = false
  rw [freeAt, hflag]
  decide

/-- The pointer 32 bytes into that allocation is judged by that word. -/
theorem inside_stored (hkeeps : Keeps page ⟨a, held⟩ bs)
    (hvalue : sizeAt a.memory 0x100020 = value) :
    Inside a 0x100040 ∧ a.heap.start + Header.bytes ≤ 0x100040 ∧ a.heap.limit = 0x101000 ∧
      endOf a 0x100040 = 0x100020 + value := by
  have hstart : a.heap.start = 0x100000 := hkeeps.start.trans (by decide)
  have hlimit : a.heap.limit = 0x101000 := hkeeps.limit.trans (by decide)
  have hback : 0x100040 - Header.bytes = 0x100020 := by decide
  have hbytes : Header.bytes = 32 := rfl
  refine ⟨⟨by omega, by omega, by decide⟩, by omega, hlimit, ?_⟩
  rw [endOf, hback, hvalue]

end Stores

section Reachable

variable {region : Region} {s : Session}

/-- Wherever a session over a region gets:
1. the operations stop at a pointer that overruns, and change nothing;
2. any other pointer is checked and measured without a fault, and refused if its block would
   leave the region;
3. a pointer that is held, or does not look live, comes to an answer;
4. a forged one that is let through does not always: the heap stops if more would be freed
   than is in use. -/
theorem reachable_checked (h : Reachable region s) (p : Nat) :
    (Overruns s.arena p → Stops s.arena p .addOverflow) ∧
    (¬ Overruns s.arena p → (∃ answer, (validate p).run s.arena = .ok answer s.arena) ∧
      (∃ bytes, (capacity p).run s.arena = .ok bytes s.arena) ∧
      (Inside s.arena p → s.arena.heap.limit < endOf s.arena p →
        Refused s.arena p (.invalidPointer p))) ∧
    (p ∈ s.held ∨ ¬ LooksLive s.arena p → Answered s.arena p) ∧
    (LooksLive s.arena p → ¬ Overruns s.arena p →
      s.arena.heap.used < sizeAt s.arena.memory (p - Header.bytes) →
        ∃ a', (free p).run s.arena = .error .subOverflow a') := by
  obtain ⟨bs, hkeeps⟩ := h.keeps
  have hsound := hkeeps.sound
  refine ⟨?stops, ?checked, ?answered, ?exceeding⟩
  case stops =>
    intro hp
    exact stops_of_validate (run_validate_of_overruns hsound hp)
  case checked =>
    intro hp
    have hbeyond : Inside s.arena p → s.arena.heap.limit < endOf s.arena p →
        Refused s.arena p (.invalidPointer p) := fun hin hend =>
      refused_of_validate (run_validate_beyond hsound hp hin hend)
    rcases run_validate_of_not_overruns hsound hp with ⟨e, hrun⟩ | ⟨hsize, hrun⟩
    · exact ⟨⟨_, hrun⟩, ⟨_, (refused_of_validate hrun).measured⟩, hbeyond⟩
    · exact ⟨⟨_, hrun⟩, ⟨_, run_capacity_of_validate hrun hsize⟩, hbeyond⟩
  case answered =>
    rintro (hheld | hnot)
    · exact hkeeps.answered hheld
    · obtain ⟨e, -, hrun⟩ := run_validate_of_not_looksLive hsound hnot
      exact (refused_of_validate hrun).answered
  case exceeding =>
    intro hlooks hp hused
    rcases run_validate_of_not_overruns hsound hp with ⟨e, hrun⟩ | ⟨-, hrun⟩
    · exact absurd (refused_of_validate hrun).freed (free_ne_refused hsound hlooks e)
    · exact run_free_exceeding hrun hused

/-- A client that was given a hundred bytes in a page writes a number to the first of them,
which makes it the size in front of the pointer 32 bytes further on. If it leads out of the
page, the pointer is refused. If it is only more than is in use, freeing the pointer stops
the heap. -/
theorem page_checked :
    (∃ s, Reachable page s ∧ s.held = [0x100020] ∧ Answered s.arena 0x100020 ∧
      Inside s.arena 0x100040 ∧ s.arena.heap.limit < endOf s.arena 0x100040 ∧
      Refused s.arena 0x100040 (.invalidPointer 0x100040)) ∧
    ∃ s a', Reachable page s ∧ s.held = [0x100020] ∧ endOf s.arena 0x100040 = 0x100220 ∧
      (free 0x100040).run s.arena = .error .subOverflow a' := by
  constructor
  · obtain ⟨a, hreach, hkeeps, hvalue, -⟩ := exists_stored (by decide : 0x2000 < wordLimit)
    obtain ⟨hin, -, hlimit, hend⟩ := inside_stored hkeeps hvalue
    have hleaves : a.heap.limit < endOf a 0x100040 := by
      rw [hend, hlimit]
      decide
    have hword : ¬ Overruns a 0x100040 := fun hp => absurd (hend ▸ hp.beyond) (by decide)
    obtain ⟨-, -, hanswered, -⟩ := reachable_checked hreach 0x100020
    obtain ⟨-, hchecked, -⟩ := reachable_checked hreach 0x100040
    obtain ⟨-, -, hrefused⟩ := hchecked hword
    exact ⟨_, hreach, rfl, hanswered (.inl List.mem_cons_self), hin, hleaves,
      hrefused hin hleaves⟩
  · obtain ⟨a, hreach, hkeeps, hvalue, hlive⟩ := exists_stored (by decide : 0x200 < wordLimit)
    obtain ⟨⟨-, hupper, haligned⟩, hheaded, hlimit, hend⟩ := inside_stored hkeeps hvalue
    have hused : a.heap.used = 136 := hkeeps.sound.used.trans (by decide)
    have hback : 0x100040 - Header.bytes = 0x100020 := by decide
    have hlooks : LooksLive a 0x100040 := by
      refine ⟨hheaded, hupper, haligned, ?_, .inr ?_⟩
      · rw [hback, hvalue]
        decide
      · rw [hback, hvalue, hlimit]
        exact ⟨by decide, hlive⟩
    have hword : ¬ Overruns a 0x100040 := fun hp => absurd (hend ▸ hp.beyond) (by decide)
    obtain ⟨-, -, -, hexceeding⟩ := reachable_checked hreach 0x100040
    obtain ⟨a', hrun⟩ := hexceeding hlooks hword (by rw [hback, hvalue, hused]; decide)
    exact ⟨_, a', hreach, rfl, hend, hrun⟩

/-- If the number is the last word, the pointer is not refused: the heap stops, whatever is
done with the pointer. -/
theorem page_overrun : ∃ s, Reachable page s ∧ s.held = [0x100020] ∧ Inside s.arena 0x100040 ∧
    s.arena.heap.limit < endOf s.arena 0x100040 ∧ Stops s.arena 0x100040 .addOverflow ∧
    ¬ Answered s.arena 0x100040 := by
  obtain ⟨a, hreach, hkeeps, hvalue, -⟩ :=
    exists_stored (by decide : 0xffffffffffffffff < wordLimit)
  obtain ⟨hin, hheaded, hlimit, hend⟩ := inside_stored hkeeps hvalue
  have hleaves : a.heap.limit < endOf a 0x100040 := by
    rw [hend, hlimit]
    decide
  have hbeyond : wordLimit ≤ endOf a 0x100040 := by
    rw [hend]
    decide
  have hstops := stops_of_validate
    (run_validate_of_overruns hkeeps.sound ⟨hin, hheaded, hbeyond⟩)
  exact ⟨_, hreach, rfl, hin, hleaves, hstops, hstops.not_answered⟩

end Reachable

end Heap

end Supervisor
