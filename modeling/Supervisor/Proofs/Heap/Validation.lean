import Supervisor.Proofs.Heap.Effect

/-!
# Pointers that are freed

`Heap.free` does not look for the block of a pointer in the list. It takes the 32
bytes in front of the pointer for a header and checks that this header could be that
of a live block. Nothing keeps other bytes from passing: the headers of blocks that
were merged away stay in memory, and a client may write anything to its data.

- `Heap.LooksLive`: what the check lets through, or faults on.
- `Heap.Refused`: what the check refuses, freeing, resizing and measuring refuse alike.
- `run_free_of_not_looksLive`, `free_ne_refused`: everything else is refused and
  changes nothing, and nothing of it is refused.
- `freesExactly_iff`: hence freeing treats a pointer as it should exactly when the
  pointer is that of a live block or does not look like one.
- `page_forged`: a pointer into an allocation that is accepted because the client
  wrote a number in front of it.
-/

namespace Supervisor

namespace Heap

open Memory Header

/-- The bytes in front of `p` pass for the header of a live block: `p` is aligned and
in the region, the size has room for a header and stays in the region, and the block
is not marked free. A size that leads beyond the words counts too, as computing the
end of the block faults before the flag is read. -/
structure LooksLive (a : Arena) (p : Nat) : Prop where
  above : a.heap.start + Header.bytes ≤ p
  below : p < a.heap.limit
  aligned : p % grain = 0
  sized : Header.bytes ≤ sizeAt a.memory (p - Header.bytes)
  ends : wordLimit ≤ p - Header.bytes + sizeAt a.memory (p - Header.bytes) ∨
    p - Header.bytes + sizeAt a.memory (p - Header.bytes) ≤ a.heap.limit ∧
      freeAt a.memory (p - Header.bytes) = false

/-- Freeing `p` does what it should: a pointer of a live block is accepted, and any
other one is refused by its name and changes nothing. -/
def FreesExactly (a : Arena) (p : Nat) : Prop :=
  ((∃ b ∈ live (blocks a), b.data = p) → ∃ a', (free p).run a = .ok (.ok ()) a') ∧
  ((¬ ∃ b ∈ live (blocks a), b.data = p) → ∃ e, (e = .invalidPointer p ∨ e = .doubleFree p) ∧
    (free p).run a = .ok (.error e) a)

/-- Every operation refuses `p` and changes nothing: freeing and resizing answer with `e`,
and the capacity is answered with 0. -/
structure Refused (a : Arena) (p : Nat) (e : PointerError) : Prop where
  freed : (free p).run a = .ok (.error e) a
  resized : ∀ n, (realloc (some p) n).run a = .ok (.error e) a
  measured : (capacity p).run a = .ok 0 a

section Validation

variable {region : Region} {a a' : Arena} {s : Session} {bs : List Block} {p : Nat}
  {e : PointerError}

/-- What the check refuses, every operation does. -/
theorem refused_of_validate (h : (validate p).run a = .ok (.error e) a) : Refused a p e := by
  have hfree : (free p).run a = .ok (.error e) a := by
    rw [free, run_bind_ok h]
    exact EStateM.run_pure _ a
  refine ⟨hfree, fun n => ?_, ?_⟩
  · by_cases hn : n = 0
    · rw [hn, run_realloc_zero, hfree]
    · rw [realloc, if_neg hn, run_bind_ok h]
      exact EStateM.run_pure _ a
  · rw [capacity, run_bind_ok h]
    exact EStateM.run_pure _ a

/-- The check lets a pointer that looks live through, or faults on it. -/
theorem run_validate_of_looksLive (h : Sound a bs) (hp : LooksLive a p) :
    (validate p).run a = .ok (.ok (p - Header.bytes)) a ∨
      (validate p).run a = .error .addOverflow a := by
  obtain ⟨habove, hbelow, haligned, hsized, hends⟩ := hp
  rw [run_validate h p, if_neg (by omega)]
  by_cases hword : wordLimit ≤ p - Header.bytes + sizeAt a.memory (p - Header.bytes)
  · exact .inr (if_pos hword)
  · obtain ⟨hend, hlive⟩ := hends.resolve_left hword
    rw [if_neg hword, if_neg (Nat.not_lt_of_le hend), hlive]
    exact .inl (if_neg Bool.false_ne_true)

/-- The check refuses every other pointer. -/
theorem run_validate_of_not_looksLive (h : Sound a bs) (hp : ¬ LooksLive a p) :
    ∃ e, (e = .invalidPointer p ∨ e = .doubleFree p) ∧
      (validate p).run a = .ok (.error e) a := by
  rw [run_validate h p]
  split
  next => exact ⟨_, .inl rfl, rfl⟩
  next hin =>
    have hfields : ∀ hends, LooksLive a p := fun hends =>
      ⟨by omega, by omega, by omega, by omega, hends⟩
    split
    next hword => exact absurd (hfields (.inl hword)) hp
    next =>
      split
      next => exact ⟨_, .inl rfl, rfl⟩
      next hend =>
        split
        next => exact ⟨_, .inr rfl, rfl⟩
        next hlive =>
          have hfree : freeAt a.memory (p - Header.bytes) = false := by simpa using hlive
          exact absurd (hfields (.inr ⟨Nat.le_of_not_lt hend, hfree⟩)) hp

/-- A pointer that does not look live is refused, and nothing changes. -/
theorem run_free_of_not_looksLive (h : Sound a bs) (hp : ¬ LooksLive a p) :
    ∃ e, (e = .invalidPointer p ∨ e = .doubleFree p) ∧ (free p).run a = .ok (.error e) a := by
  obtain ⟨e, he, hrun⟩ := run_validate_of_not_looksLive h hp
  exact ⟨e, he, (refused_of_validate hrun).freed⟩

/-- A program that can only end well or fault is not refused. -/
theorem run_discard_ne_refused (x : HeapM Unit) (a a' : Arena) (e : PointerError) :
    EStateM.run (x >>= fun _ => pure (.ok ()) : HeapM (Except PointerError Unit)) a
      ≠ .ok (.error e) a' := by
  rw [EStateM.run_bind]
  intro hrun
  cases hx : x.run a with
  | ok u a'' =>
    rw [hx] at hrun
    injection hrun with hanswer
    injection hanswer
  | error fault a'' =>
    rw [hx] at hrun
    injection hrun

/-- A pointer that looks live is not refused. -/
theorem free_ne_refused (h : Sound a bs) (hp : LooksLive a p) (e : PointerError) :
    (free p).run a ≠ .ok (.error e) a' := by
  rcases run_validate_of_looksLive h hp with hrun | hrun
  · rw [free, run_bind_ok hrun]
    have hcont := run_discard_ne_refused (do
      change (setFreeAt · (p - Header.bytes) true)
      subUsed (← inspect (sizeAt · (p - Header.bytes)))
      subCount
      coalesce (p - Header.bytes)) a a' e
    simpa only [bind_assoc] using hcont
  · rw [free, run_bind_error hrun]
    intro hfault
    injection hfault

/-- Wherever a session over a region gets, freeing treats a pointer as it should exactly
when the pointer is that of a live block or does not look like one. -/
theorem freesExactly_iff (h : Reachable region s) (p : Nat) :
    FreesExactly s.arena p ↔
      (∃ b ∈ live (blocks s.arena), b.data = p) ∨ ¬ LooksLive s.arena p := by
  obtain ⟨bs, hkeeps⟩ := h.keeps
  obtain rfl : blocks s.arena = bs := hkeeps.sound.blocks_eq
  constructor
  · rintro ⟨-, hrefused⟩
    by_contra hnot
    obtain ⟨hdead, hlooks⟩ := not_or.mp hnot
    obtain ⟨e, -, hrun⟩ := hrefused hdead
    exact free_ne_refused hkeeps.sound (not_not.mp hlooks) e hrun
  · intro hp
    refine ⟨?_, fun hdead => run_free_of_not_looksLive hkeeps.sound (hp.resolve_left hdead)⟩
    rintro ⟨b, hb, rfl⟩
    obtain ⟨a', -, -, hrun, -⟩ := free_cases hkeeps.sound hb
    exact ⟨a', hrun⟩

/-- The first allocation of a page is freed, and the address four bytes further on is
refused. -/
theorem page_freesExactly : ∃ s, Reachable page s ∧ FreesExactly s.arena 0x100020 ∧
    FreesExactly s.arena 0x100024 := by
  have hsize : blockSize? 100 = some 136 := by decide
  obtain ⟨a, hreach, ⟨hsound, -⟩, -⟩ := exists_first_alloc page zeroed (by decide)
    (by decide) hsize (by decide)
  have hlive : taken page.whole 136 ∈ live (blocks a) := by
    rw [hsound.blocks_eq, live_served]
    exact List.mem_cons_self
  have hdata : (taken page.whole 136).data = 0x100020 := taken_data _ _
  have hodd : ¬ LooksLive a 0x100024 := fun hlooks => absurd hlooks.aligned (by decide)
  exact ⟨_, hreach, (freesExactly_iff hreach 0x100020).mpr (.inl ⟨_, hlive, hdata⟩),
    (freesExactly_iff hreach 0x100024).mpr (.inr hodd)⟩

/-! ## A forged header -/

/-- A block whose links lead nowhere merges with nothing. -/
theorem run_coalesce_unlinked {block : Nat} (hnext : nextAt a.memory block = 0)
    (hprev : prevAt a.memory block = 0) : (coalesce block).run a = .ok () a := by
  have hnowhere : (isFreeLink 0).run a = .ok false a := run_isFreeLink 0 a
  rw [coalesce, run_inspect_bind, hnext, run_bind_ok hnowhere, if_neg Bool.false_ne_true,
    run_inspect_bind, hprev, run_bind_ok hnowhere, if_neg Bool.false_ne_true, EStateM.run_pure]

/-- A pointer that is let through is freed if the links of its header lead nowhere and
the counters have room for it. -/
theorem run_free_unlinked (h : (validate p).run a = .ok (.ok (p - Header.bytes)) a)
    (hnext : nextAt a.memory (p - Header.bytes) = 0)
    (hprev : prevAt a.memory (p - Header.bytes) = 0)
    (hused : sizeAt a.memory (p - Header.bytes) ≤ a.heap.used) (hcount : 1 ≤ a.heap.count) :
    ∃ a', (free p).run a = .ok (.ok ()) a' := by
  generalize p - Header.bytes = block at *
  obtain ⟨hsize, -, hlink, hback⟩ := fields_of_readAt (readAt_setFreeAt a.memory block true)
  obtain ⟨m, hm⟩ : ∃ m, setFreeAt a.memory block true = m := ⟨_, rfl⟩
  rw [hm] at hsize hlink hback
  have hsame : sizeAt m block = sizeAt a.memory block := hsize
  let heap := { a.heap with
    used := a.heap.used - sizeAt a.memory block, count := a.heap.count - 1 }
  have hcoalesce : (coalesce block).run ⟨heap, m⟩ = .ok () ⟨heap, m⟩ :=
    run_coalesce_unlinked (hlink.trans hnext) (hback.trans hprev)
  refine ⟨⟨heap, m⟩, ?_⟩
  rw [free, run_bind_ok h]
  simp only [run_change_bind, run_inspect_bind, hm, hsame]
  rw [run_bind_ok (run_subUsed (by exact hused)), run_bind_ok (run_subCount (by exact hcount))]
  exact (run_bind_ok hcoalesce _).trans (EStateM.run_pure _ _)

/-- Of a page that was all zeros, the first allocation is given zeros. -/
theorem read_first_alloc {m : Memory} {x : Nat}
    (hkept : KeepsOff (served [] page.whole 136 []) (page.fresh zeroed).memory m)
    (hlo : 0x100020 ≤ x) (hhi : x < 0x100088) : m.read x = 0 := by
  have hserved : served [] page.whole 136 []
      = [⟨0x100000, 136, false⟩, ⟨0x100088, 3960, true⟩] := by decide
  have hbytes : Header.bytes = 32 := rfl
  have hwhole := changedIn_writeAt zeroed page.start ⟨page.room, true, 0, 0⟩
  have hstart : page.start = 0x100000 := by decide
  rw [hkept x ?_, ← read_zeroed x]
  · exact hwhole.read_eq (.inr (by omega))
  · rintro ⟨b, hb, hin⟩
    rw [hserved] at hb
    rcases List.mem_cons.mp hb with rfl | hb
    · exact absurd hin (by simp only; omega)
    · rw [List.mem_singleton.mp hb] at hin
      simp only at hin
      omega

/-- A client that was given a hundred bytes writes the number 40 to the first of them,
and the heap lets it free the address 32 bytes further on, which it never handed
out. -/
theorem page_forged : ∃ s a', Reachable page s ∧ s.held = [0x100020] ∧
    (¬ ∃ b ∈ live (blocks s.arena), b.data = 0x100040) ∧
    (free 0x100040).run s.arena = .ok (.ok ()) a' ∧ ¬ FreesExactly s.arena 0x100040 := by
  have hsize : blockSize? 100 = some 136 := by decide
  obtain ⟨a, hreach, hkeeps, hkept⟩ := exists_first_alloc page zeroed (by decide)
    (by decide) hsize (by decide)
  have hlive : taken page.whole 136 ∈ live (served [] page.whole 136 []) := by
    rw [live_served]
    exact List.mem_cons_self
  have hdata : (taken page.whole 136).data = 0x100020 := by decide
  have hbytes : (taken page.whole 136).capacity = 104 := by decide
  have hcapacity := run_capacity hkeeps.sound hlive
  rw [hdata, hbytes] at hcapacity
  -- the client writes to its first byte
  have howns : Session.Owns ⟨a, [0x100020]⟩ 0x100020 :=
    ⟨0x100020, List.mem_cons_self, 104, hcapacity, by decide, by decide⟩
  have hsound := (effect_write hkeeps.sound hkeeps.held howns 40).sound
  have hstep : Step ⟨a, [0x100020]⟩ (.write 0x100020 40) none
      ⟨{ a with memory := a.memory.write 0x100020 40 }, [0x100020]⟩ :=
    ⟨howns, run_map_ok (run_change _ a) _, rfl⟩
  have hzero : ∀ x, 0x100020 < x → x < 0x100020 + Header.bytes →
      (a.memory.write 0x100020 40).read x = 0 := by
    intro x hlo hhi
    have hin : x < 0x100088 := Nat.lt_of_lt_of_le hhi (by decide)
    rw [read_write_of_ne a.memory 40 (Nat.ne_of_lt hlo)]
    exact read_first_alloc hkept (Nat.le_of_lt hlo) hin
  have hfirst : (a.memory.write 0x100020 40).read 0x100020 = 40 := read_write_self _ _ _
  have hreach' := hreach.step hstep
  generalize a.memory.write 0x100020 40 = m at hsound hreach' hzero hfirst
  -- which makes it and what follows it the header of a block of 40 bytes
  obtain ⟨hsizeAt, hfreeAt, hnextAt, hprevAt⟩ := fields_of_readAt (readAt_of_zeros hzero)
  rw [hfirst] at hsizeAt
  have hstart : a.heap.start = 0x100000 := hkeeps.start.trans (by decide)
  have hlimit : a.heap.limit = 0x101000 := hkeeps.limit.trans (by decide)
  have hback : 0x100040 - Header.bytes = 0x100020 := by decide
  have hvalid : (validate 0x100040).run { a with memory := m }
      = .ok (.ok (0x100040 - Header.bytes)) { a with memory := m } := by
    rw [run_validate hsound, hback, hsizeAt, hfreeAt, hstart, hlimit]
    rw [if_neg (by decide), if_neg (by decide), if_neg (by decide), if_neg Bool.false_ne_true]
  have hused : a.heap.used = 136 := hkeeps.sound.used.trans (by decide)
  have hcount : a.heap.count = 1 := hkeeps.sound.count.trans (by decide)
  rw [← hback] at hsizeAt hnextAt hprevAt
  obtain ⟨a', hfreed⟩ := run_free_unlinked hvalid hnextAt hprevAt
    (by rw [hsizeAt, hused]; decide) (by rw [hcount])
  have hdead : ¬ ∃ b ∈ live (blocks { a with memory := m }), b.data = 0x100040 := by
    rintro ⟨b, hb, hforged⟩
    rw [hsound.blocks_eq, live_served] at hb
    rw [List.mem_singleton.mp hb, hdata] at hforged
    exact absurd hforged (by decide)
  refine ⟨_, a', hreach', rfl, hdead, hfreed, fun hexact => ?_⟩
  obtain ⟨e, -, hrefused⟩ := hexact.2 hdead
  rw [hfreed] at hrefused
  injection hrefused with hanswer
  injection hanswer

end Validation

end Heap

end Supervisor
