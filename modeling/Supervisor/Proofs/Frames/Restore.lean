import Supervisor.Proofs.Frames.Service

/-!
# Giving back what was just allocated

Giving back clears bits, but not those of low memory, while an allocation sets the bits of any
run of free frames. The two undo one another because low memory is never free.

- `FrameMap.InService.low`: low memory that was reserved stays in use, whatever is given back.
- `Sets.undo`: a change of bits that all had the other value is undone by changing them back.
  The frames of a run that was handed out are those that giving it back is about
  (`IsRun.covered_eq`).
- `FrameMap.Undoes`: a program leads back to the map before an allocation, and the request can
  be made again. Giving back the run does that, and so does giving back its pages, in any order
  (`inService_undone`).
-/

namespace Supervisor

namespace FrameMap

/-- The addresses of `count` pages from `address` on. -/
def pageList (address count : Nat) : List Nat :=
  (List.range count).map (address + · * Page.bytes)

/-- An allocation that led from the map `f` to the map `f'` is undone by a program:
1. the map is `f` again, the words of the storage that it does not use and the counters
   included;
2. the request, made again, is answered with the same address and does the same. -/
structure Undoes (x : FrameM Unit) (r : Request) (address : Nat) (f f' : FrameMap) : Prop where
  back : x.run f' = .ok () f
  again : (x >>= fun _ => r.perform).run f' = .ok (some address) f'

section Undoing

variable {upperBound : Nat} {storage : Array (BitVec 64)} {reserved : List Span}
  {f f' : FrameMap} {b : Bool} {s : Finset Nat} {r : Request} {address count start : Nat}

/-- Whatever a map in service has been through, low memory is in use if it was reserved. -/
theorem InService.low (h : InService upperBound storage reserved f)
    (hlow : ⟨0, lowMemory⟩ ∈ reserved) :
    ∀ i < lowMemory / Page.bytes, i < f.total → f.bit i = true := by
  induction h with
  | built hbound hbuild =>
    intro i hi htotal
    refine (bit_of_build hbound hbuild htotal).mpr ⟨_, hlow, ?_⟩
    rw [Span.frames, Finset.mem_filter, Finset.mem_range]
    refine ⟨htotal, Nat.zero_le _, ?_⟩
    unfold lowMemory Page.bytes at *
    omega
  | answered h hrun ih => exact ((h.sound.effect hrun).2.above_low ih).1

/-- Bits that all had the other value are changed back. -/
theorem Sets.undo (h : Sets b s f f') (hs : ∀ i ∈ s, f.bit i = !b) : Sets (!b) s f' f := by
  refine ⟨h.total.symm, h.size.symm, ?_, ?_⟩
  · intro i hi
    exact (h.beyond i (h.words ▸ hi)).symm
  · intro i
    by_cases hi : i ∈ s
    · rw [if_pos hi, hs i hi]
    · rw [if_neg hi, h.bit, if_neg hi]

/-- Giving back a run that lies behind low memory is about its frames. -/
theorem IsRun.covered_eq (h : f.IsRun count start) (hlow : lowMemory ≤ start * Page.bytes) :
    f.covered (start * Page.bytes) count = Finset.Ico start (start + count) := by
  have hend := h.1
  have hfirst : lowMemory / Page.bytes ≤ start := Nat.div_le_of_le_mul (by rwa [Nat.mul_comm])
  ext i
  rw [mem_covered, Finset.mem_Ico, Nat.mul_mod_left, Nat.mul_div_cancel _ (by decide)]
  omega

/-- The pages of a run are words. -/
theorem mem_pageList_iff (hf : Sound f) (h : f.IsRun count start) {x : Nat} :
    x ∈ pageList (start * Page.bytes) count ↔ x ∈ pages (start * Page.bytes) count := by
  simp only [pageList, pages, List.mem_map, List.mem_range, Set.mem_ofPred_eq]
  constructor
  · rintro ⟨k, hk, rfl⟩
    have hword : (start + k) * Page.bytes < wordLimit :=
      Nat.lt_of_le_of_lt (Nat.mul_le_mul_right _ (by have := h.1; omega)) hf.addressable
    exact ⟨by rwa [Nat.add_mul] at hword, k, hk, rfl⟩
  · rintro ⟨-, k, hk, rfl⟩
    exact ⟨k, hk, rfl⟩

/-- A program that clears the bits of the frames which were allocated undoes the allocation:
the counter follows from the bits. -/
theorem Sound.undoes {x : FrameM Unit} {f'' : FrameMap} (hf : Sound f) (hf'' : Sound f'')
    (hsets : Sets true s f f') (hclear : ∀ i ∈ s, f.bit i = false)
    (hrun : r.perform.run f = .ok (some address) f') (hx : x.run f' = .ok () f'')
    (hback : Sets false s f' f'') : Undoes x r address f f' := by
  obtain rfl : f'' = f := hback.unique (hsets.undo hclear) hf'' hf
  exact ⟨hx, by rw [run_bind_ok hx, hrun]⟩

/-- Whatever a map in service has been through, frames that it hands out can be given back, as a
run or page by page in any order, and then nothing has happened. -/
theorem inService_undone (h : InService upperBound storage reserved f)
    (hlow : ⟨0, lowMemory⟩ ∈ reserved) (hasks : r.asks = some count)
    (hrun : r.perform.run f = .ok (some address) f') :
    Undoes (freeRun address count) r address f f' ∧
      ∀ xs : List Nat, xs.Perm (pageList address count) →
        Undoes (xs.forM freeFrame) r address f f' := by
  have hf := h.sound
  obtain ⟨hf', heffect⟩ := hf.effect hrun
  have habove : lowMemory ≤ address := (heffect.above_low (h.low hlow)).2 address rfl
  obtain ⟨count', start, rfl, hasks', -, ⟨-, hfirst, -⟩, hsets⟩ := heffect.of_some
  obtain rfl := Option.some.inj (hasks.symm.trans hasks')
  have hclear : ∀ i ∈ Finset.Ico start (start + count), f.bit i = false := fun i hi =>
    (mem_freeFrames.mp (hfirst.subset_freeFrames hi)).2
  have hcovered : f'.covered (start * Page.bytes) count = Finset.Ico start (start + count) := by
    rw [hsets.covered_eq, hfirst.covered_eq habove]
  constructor
  · obtain ⟨f'', hfree, hf'', hback⟩ := run_freeRun hf' (start * Page.bytes) count
    exact hf.undoes hf'' hsets hclear hrun hfree (hcovered ▸ hback)
  · intro xs hxs
    obtain ⟨f'', hfree, hf'', hback⟩ := run_pages hf' fun x =>
      (hxs.mem_iff (a := x)).trans (mem_pageList_iff hf hfirst)
    exact hf.undoes hf'' hsets hclear hrun hfree (hcovered ▸ hback)

/-- Behind the frame in use, four frames are taken and given back: as a run, and as pages that
come back in no order. -/
theorem obstructed_undone :
    ∃ f f', InService 0x200000 (Array.replicate 8 0) [⟨0, lowMemory⟩, ⟨0x103000, 0x104000⟩] f ∧
      (Request.allocRun 4).perform.run f = .ok (some 0x104000) f' ∧ f ≠ f' ∧
      Undoes (freeRun 0x104000 4) (.allocRun 4) 0x104000 f f' ∧
      Undoes ([0x107000, 0x105000, 0x104000, 0x106000].forM freeFrame) (.allocRun 4) 0x104000
        f f' := by
  obtain ⟨f, hservice, htotal, hbit⟩ := exists_obstructed
  have hfree : ∀ i < 512, f.bit i = false ↔ 256 ≤ i ∧ i ≠ 259 := by
    intro i hi
    rw [hbit i hi, decide_eq_false_iff_not]
    omega
  have hfirst : f.FirstRun 4 0 (some 260) := by
    refine ⟨Nat.zero_le _, ⟨by omega, fun i hlo hhi => (hfree i (by omega)).mpr (by omega)⟩, ?_⟩
    rintro t - ht ⟨-, hclear⟩
    have hstart := (hfree t (by omega)).mp (hclear t (Nat.le_refl t) (by omega))
    exact absurd rfl ((hfree 259 (by omega)).mp (hclear 259 (by omega) (by omega))).2
  obtain ⟨answer, f', hrun, -, heffect⟩ := exists_effect hservice.sound (.allocRun 4)
  obtain ⟨rfl, hsets⟩ := heffect.eq_some rfl (by decide) hfirst
  obtain ⟨hback, hpages⟩ := inService_undone hservice List.mem_cons_self rfl hrun
  refine ⟨f, f', hservice, hrun, ?_, hback, hpages _ (by decide)⟩
  rintro rfl
  have hset := hsets.bit 260
  rw [(hfree 260 (by decide)).mpr (by decide), if_pos (by decide)] at hset
  cases hset

end Undoing

end FrameMap

end Supervisor
