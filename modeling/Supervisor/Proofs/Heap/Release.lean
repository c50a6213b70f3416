import Supervisor.Proofs.Heap.Sound

/-!
# Releasing

What `Heap.free` and `Heap.capacity` do with a live block of a sound arena.

- `Loose.coalesce`: a free block merges with the free ones around it, after
  which the arena is sound again.
- `run_validate_live`: the data address of a live block is accepted, and the
  answer is the block it belongs to.
- `run_free`, `run_capacity`: what follows for the two operations.
-/

namespace Supervisor

namespace Heap

open Memory Header

/-! ## Merging with free neighbours -/

theorem run_isFreeLink (block : Nat) (a : Arena) :
    (isFreeLink block).run a = .ok (block ≠ 0 && freeAt a.memory block) a :=
  run_inspect _ a

section Merge

variable {start limit : Nat} {a : Arena} {l r : List Block} {b p : Block}

/-- Whether the block behind `b` is free. -/
theorem run_isFreeLink_next (h : Laid start limit a.memory (l ++ b :: r)) :
    (isFreeLink (nextAt a.memory b.address)).run a = .ok (r.head?.any Block.free) a := by
  rw [run_isFreeLink, h.next_eq]
  cases r with
  | nil => rfl
  | cons c r =>
    have h' := h.next_block
    have hne : c.address ≠ 0 := Nat.ne_of_gt (h'.address_pos List.mem_append_cons_self)
    simp [firstLink, hne, h'.free_eq]

/-- A free block takes in its successor if that is free too. -/
theorem run_mergeFree {β : Type} (h : Laid start limit a.memory (l ++ b :: r))
    (hb : b.free = true) :
    ∃ m, (∀ k : HeapM β, EStateM.run (if r.head?.any Block.free = true then
          mergeNext b.address >>= fun _ => k else k) a = k.run { a with memory := m }) ∧
      Laid start limit m (l ++ push b r) ∧ KeepsOff (l ++ push b r) a.memory m := by
  cases r with
  | nil => exact ⟨a.memory, fun _ => rfl, h, fun _ _ => rfl⟩
  | cons c r =>
    cases hc : c.free with
    | false =>
      rw [push, if_neg (by simp [hc])]
      refine ⟨a.memory, fun k => ?_, h, fun _ _ => rfl⟩
      rw [if_neg (by simp [hc])]
    | true =>
      have h' := h.next_block
      have hnext : nextAt a.memory b.address = c.address := h.next_eq
      have hcaddr : c.address = b.address + b.size := h.tiled_right.1
      have hbsize := (h.bounds List.mem_append_cons_self).2.1
      have hend := h'.end_lt
      have hsum : sizeAt a.memory b.address + sizeAt a.memory (nextAt a.memory b.address)
          < wordLimit := by
        rw [hnext, h.size_eq, h'.size_eq]
        omega
      have hapart : b.address + Header.bytes ≤ nextAt a.memory b.address := by
        rw [hnext]
        omega
      have hrun := run_mergeNext hapart hsum
      refine ⟨joinAt a.memory b.address, fun k => ?_, ?_⟩
      · rw [if_pos (by simp [hc]), run_bind_ok hrun]
      · rw [push, if_pos (by simp [hb, hc])]
        exact laid_joinAt h

end Merge

/-- From `m` to `n`, memory was rewritten into a layout of `bs`, and only the headers of
`bs` were written to. -/
structure Relaid (start limit : Nat) (m n : Memory) (bs : List Block) : Prop where
  laid : Laid start limit n bs
  kept : KeepsOff bs m n

/-- A free block that comes between spaced lists merges with both its neighbours: first
with the one behind it, then with the one in front. -/
theorem run_coalesce {start limit : Nat} {a : Arena} {l r : List Block} {b : Block}
    (h : Laid start limit a.memory (l ++ b :: r)) (hb : b.free = true) (hl : Spaced l)
    (hr : Spaced r) :
    ∃ m n, (coalesce b.address).run a = .ok () { a with memory := n } ∧
      Relaid start limit a.memory m (l ++ push b r) ∧
      Relaid start limit m n (merged (l ++ b :: r)) := by
  obtain ⟨m, hrun, hlaid, hkept⟩ := run_mergeFree (β := Unit) h hb
  obtain ⟨c, r', hpush, haddr, hfree⟩ := push_eq_cons b r
  -- the block in front of `b` is looked up after the one behind it was taken in
  have hprev : prevAt m b.address = lastLink 0 l := by
    rw [hpush] at hlaid
    rw [← haddr]
    exact hlaid.prev_eq
  have hstep : (coalesce b.address).run a = EStateM.run (isFreeLink (lastLink 0 l) >>= fun free =>
      if free then mergeNext (lastLink 0 l) else pure ()) { a with memory := m } := by
    simp only [coalesce, run_inspect_bind]
    rw [run_bind_ok (run_isFreeLink_next h), hrun, run_inspect_bind, hprev]
  rcases List.eq_nil_or_concat' l with rfl | ⟨l, p, rfl⟩
  · refine ⟨m, m, ?_, ⟨hlaid, hkept⟩, ?_, fun _ _ => rfl⟩
    · rw [hstep, run_bind_ok (run_isFreeLink _ _)]
      exact EStateM.run_pure () _
    · rw [List.nil_append, merged_cons b hr]
      exact hlaid
  · have hlaid' : Laid start limit m (l ++ p :: push b r) := by rwa [List.append_cons]
    have hne : p.address ≠ 0 :=
      Nat.ne_of_gt (hlaid'.address_pos List.mem_append_cons_self)
    have hflag : (isFreeLink p.address).run { a with memory := m }
        = .ok p.free { a with memory := m } := by
      rw [run_isFreeLink]
      simp [hne, hlaid'.free_eq]
    rw [lastLink_concat] at hstep
    rw [hstep, run_bind_ok hflag, merged_concat_cons b hl hr]
    cases hp : p.free with
    | false =>
      refine ⟨m, m, EStateM.run_pure () _, ⟨hlaid, hkept⟩, ?_, fun _ _ => rfl⟩
      rwa [hpush, push, if_neg (by simp [hp]), ← hpush]
    | true =>
      obtain ⟨n, hrun', hlaid'', hkept'⟩ :=
        run_mergeFree (β := Unit) (a := { a with memory := m }) hlaid' hp
      have hhead : (push b r).head?.any Block.free = true := by simp [hpush, hfree, hb]
      have hmerge := hrun' (pure ())
      rw [if_pos hhead, bind_pure_unit, EStateM.run_pure] at hmerge
      exact ⟨m, n, by rw [if_pos rfl]; exact hmerge, ⟨hlaid, hkept⟩, hlaid'', hkept'⟩

/-- Merging writes to no header that was not there before. -/
theorem keepsOff_of_merged {l r : List Block} {b : Block} {m n o : Memory}
    (h : KeepsOff (l ++ push b r) m n) (h' : KeepsOff (merged (l ++ b :: r)) n o) :
    KeepsOff (l ++ b :: r) m o := by
  refine (h.mono fun d hd => ?_).trans (h'.mono fun d hd => merged_address hd)
  rcases List.mem_append.mp hd with hd | hd
  · exact ⟨d, List.mem_append_left _ hd, rfl⟩
  · obtain ⟨e, he, heq⟩ := push_address hd
    exact ⟨e, List.mem_append_right l he, heq⟩

/-- The counters are those of the list in which free neighbours are put together,
so merging makes the arena sound. -/
theorem Loose.coalesce {a : Arena} {l r : List Block} {b : Block} (h : Loose a l b r) :
    ∃ a' m, (coalesce b.address).run a = .ok () a' ∧
      Becomes a (l ++ b :: r) a' (merged (l ++ b :: r)) ∧
      Relaid a.heap.start a.heap.limit a.memory m (l ++ push b r) ∧
      Relaid a.heap.start a.heap.limit m a'.memory (merged (l ++ b :: r)) := by
  obtain ⟨m, n, hrun, hnext, hprev⟩ := run_coalesce h.laid h.free h.left h.right
  have hlive : live (merged (l ++ b :: r)) = live l ++ live r := by
    rw [live_merged, live_append, live_cons_free h.free]
  refine ⟨_, m, hrun, ⟨⟨hprev.laid, h.head, spaced_merged _, ?roomy, ?used, ?count⟩, rfl, rfl,
    keepsOff_of_merged hnext.kept hprev.kept⟩, hnext, hprev⟩
  case roomy =>
    intro c hc hfree
    have hmem : c ∈ live l ++ live r := hlive ▸ mem_live.mpr ⟨hc, hfree⟩
    rw [← live_append] at hmem
    exact h.roomy c (mem_live.mp hmem).1 hfree
  case used =>
    rw [usedBytes, hlive, List.map_append, List.sum_append]
    exact h.used
  case count =>
    rw [hlive, List.length_append]
    exact h.count

/-! ## Pointers of live blocks -/

section Live

variable {a : Arena} {bs l r : List Block} {b : Block}

/-- What the check comes to in a sound arena. -/
theorem run_validate (h : Sound a bs) (p : Nat) :
    (validate p).run a =
      if (p < a.heap.start + Header.bytes ∨ a.heap.limit ≤ p ∨ p % grain ≠ 0) ∨
          sizeAt a.memory (p - Header.bytes) < Header.bytes then
        .ok (.error (.invalidPointer p)) a
      else if wordLimit ≤ p - Header.bytes + sizeAt a.memory (p - Header.bytes) then
        .error .addOverflow a
      else if a.heap.limit < p - Header.bytes + sizeAt a.memory (p - Header.bytes) then
        .ok (.error (.invalidPointer p)) a
      else if freeAt a.memory (p - Header.bytes) = true then .ok (.error (.doubleFree p)) a
      else .ok (.ok (p - Header.bytes)) a := by
  have hpos := h.laid.positive
  have hstart := h.laid.inhabited
  have hbounded := h.laid.bounded
  have hhead : a.heap.head ≠ 0 := by
    rw [h.head]
    omega
  have hdata : Checked.add a.heap.start Header.bytes = .ok (a.heap.start + Header.bytes) :=
    Checked.add_eq_ok (by omega)
  have hrange_iff : (p < a.heap.start + Header.bytes || a.heap.limit ≤ p || p % grain ≠ 0) = true ↔
      p < a.heap.start + Header.bytes ∨ a.heap.limit ≤ p ∨ p % grain ≠ 0 := by
    simp only [Bool.or_eq_true, decide_eq_true_eq, or_assoc]
  simp only [validate, run_get_bind]
  rw [if_neg hhead, hdata, run_lift_ok_bind]
  -- the checks in their order, up to the first that answers
  generalize hread : sizeAt a.memory (p - Header.bytes) = size
  by_cases hrange : p < a.heap.start + Header.bytes ∨ a.heap.limit ≤ p ∨ p % grain ≠ 0
  · rw [if_pos (hrange_iff.mpr hrange), if_pos (.inl hrange)]
    exact EStateM.run_pure _ a
  rw [if_neg (mt hrange_iff.mp hrange), run_inspect_bind, hread]
  by_cases hsize : size < Header.bytes
  · rw [if_pos hsize, if_pos (.inr hsize)]
    exact EStateM.run_pure _ a
  rw [if_neg hsize, if_neg (not_or.mpr ⟨hrange, hsize⟩)]
  by_cases hword : wordLimit ≤ p - Header.bytes + size
  · have hover : Checked.add (p - Header.bytes) size = .error .addOverflow :=
      if_neg (Nat.not_lt_of_le hword)
    rw [if_pos hword, hover, run_lift_error_bind]
  rw [if_neg hword, Checked.add_eq_ok (Nat.lt_of_not_le hword), run_lift_ok_bind]
  by_cases hend : a.heap.limit < p - Header.bytes + size
  · rw [if_pos hend, if_pos hend]
    exact EStateM.run_pure _ a
  rw [if_neg hend, if_neg hend, run_inspect_bind]
  split
  next => exact EStateM.run_pure _ a
  next => exact EStateM.run_pure _ a

/-- The data address of a live block is accepted. -/
theorem run_validate_live (h : Sound a bs) (hb : b ∈ live bs) :
    (validate b.data).run a = .ok (.ok b.address) a := by
  obtain ⟨hmem, hlive⟩ := mem_live.mp hb
  obtain ⟨l, r, rfl⟩ := List.append_of_mem hmem
  have hbounds := h.laid.bounds hmem
  have hroom := h.roomy b hmem hlive
  have hend := h.laid.end_lt
  have haligned := h.laid.data_aligned hmem
  have hdata : b.data = b.address + Header.bytes := rfl
  have hback : b.data - Header.bytes = b.address := by omega
  rw [run_validate h, hback, h.laid.size_eq, h.laid.free_eq, hlive, if_neg (by omega),
    if_neg (by omega), if_neg (by omega), if_neg Bool.false_ne_true]

/-- The capacity of a pointer that is let through is what the size in front of it leaves. -/
theorem run_capacity_of_validate {p block : Nat} (h : (validate p).run a = .ok (.ok block) a)
    (hsize : Header.bytes ≤ sizeAt a.memory block) :
    (capacity p).run a = .ok (sizeAt a.memory block - Header.bytes) a := by
  rw [capacity, run_bind_ok h]
  simp only [run_inspect_bind]
  rw [Checked.sub_eq_ok hsize, run_lift_ok]

/-- What is known of the capacity of a live block is all there is. -/
theorem run_capacity (h : Sound a bs) (hb : b ∈ live bs) :
    (capacity b.data).run a = .ok b.capacity a := by
  obtain ⟨hmem, hlive⟩ := mem_live.mp hb
  obtain ⟨l, r, rfl⟩ := List.append_of_mem hmem
  have hsize : sizeAt a.memory b.address = b.size := h.laid.size_eq
  have hroom := h.roomy b hmem hlive
  rw [run_capacity_of_validate (run_validate_live h hb) (by omega), hsize]
  rfl

/-- A live block that is marked free is left out by the counters. -/
theorem loose_release (h : Sound a (l ++ b :: r)) (hb : b.free = false) :
    Loose ⟨{ a.heap with used := a.heap.used - b.size, count := a.heap.count - 1 },
      setFreeAt a.memory b.address true⟩ l (b.mark true) r where
  laid := (laid_setFreeAt h.laid true).1
  head := h.head
  free := rfl
  left := h.spaced.left
  right := h.spaced.right.tail
  roomy := h.roomy_around
  used := by
    have hused := (h.counters_live hb).1
    show a.heap.used - b.size = _
    omega
  count := by
    have hcount := (h.counters_live hb).2
    show a.heap.count - 1 = _
    omega

/-- Memory goes from `m` to `n` as `b` is freed: first its flag is set, then it takes in the
block behind it, then the block in front takes it in, as far as those are free. -/
def Releases (start limit : Nat) (m n : Memory) (l : List Block) (b : Block) (r : List Block) :
    Prop :=
  ∃ m₁ m₂, Relaid start limit m m₁ (l ++ b.mark true :: r) ∧
    Relaid start limit m₁ m₂ (l ++ push (b.mark true) r) ∧
    Relaid start limit m₂ n (merged (l ++ b.mark true :: r))

/-- A live block is freed, and the free blocks around it are put together. -/
theorem run_free (h : Sound a (l ++ b :: r)) (hb : b.free = false) :
    ∃ a', (free b.data).run a = .ok (.ok ()) a' ∧
      Becomes a (l ++ b :: r) a' (merged (l ++ b.mark true :: r)) ∧
      Releases a.heap.start a.heap.limit a.memory a'.memory l b r := by
  have hmem : b ∈ live (l ++ b :: r) :=
    mem_live.mpr ⟨List.mem_append_cons_self, hb⟩
  obtain ⟨hused, hcount⟩ := h.counters_live hb
  have hle : b.size ≤ a.heap.used := by omega
  have hone : 1 ≤ a.heap.count := by omega
  obtain ⟨hmarked, hflag⟩ := laid_setFreeAt h.laid true
  have hsize : sizeAt (setFreeAt a.memory b.address true) b.address = b.size := hmarked.size_eq
  obtain ⟨a', m, hrun, ⟨hsound, hstart, hlimit, hkept⟩, hnext, hprev⟩ :=
    (loose_release h hb).coalesce
  have hmark : Relaid a.heap.start a.heap.limit a.memory (setFreeAt a.memory b.address true)
      (l ++ b.mark true :: r) := ⟨hmarked, hflag.of_singleton (c := b.mark true) rfl l r⟩
  refine ⟨a', ?_, ⟨hsound, hstart, hlimit, ?_⟩, ⟨_, m, hmark, hnext, hprev⟩⟩
  · rw [free, run_bind_ok (run_validate_live h hmem)]
    simp only [run_change_bind, run_inspect_bind, hsize]
    rw [run_bind_ok (run_subUsed (by exact hle)), run_bind_ok (run_subCount (by exact hone))]
    exact (run_bind_ok hrun _).trans (EStateM.run_pure _ a')
  · exact (hflag.of_singleton rfl l r).trans (hkept.replace rfl fun _ hc => hc)

/-- Freeing a live block takes it off the live blocks and leaves the others. -/
theorem free_cases (h : Sound a bs) (hb : b ∈ live bs) :
    ∃ a' bs' rest, (free b.data).run a = .ok (.ok ()) a' ∧ Exchange a bs [b] [] rest a' bs' := by
  obtain ⟨hmem, hlive⟩ := mem_live.mp hb
  obtain ⟨l, r, rfl⟩ := List.append_of_mem hmem
  obtain ⟨a', hrun, hbecomes, -⟩ := run_free h hlive
  refine ⟨a', _, live l ++ live r, hrun,
    hbecomes.exchange h.laid (fun _ hc => mem_of_live_around [b] hc) ?_ ?_⟩
  · rw [live_append, live_cons_live hlive]
    exact List.perm_middle
  · rw [live_merged, live_append, live_cons_free rfl]
    exact .refl _

end Live

end Heap

end Supervisor
