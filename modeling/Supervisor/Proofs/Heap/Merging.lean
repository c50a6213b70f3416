import Supervisor.Proofs.Heap.Effect

/-!
# What merging keeps

A free block takes in its free neighbours, so the list of blocks after a free is the
merged one (`Heap.merged`). What several frees in a row come to, and what is left of a
block that was merged away, follows from three facts about merging:

- `merged_map_merged`: merging early makes no difference. A change to the list that
  leaves free blocks alone may be made before or after it.
- `tiled_merged`, `covers_merged`: the merged list tiles the same region, and every free
  block lies within a free block of it (`Block.Within`, `Heap.Covers`).
- `Laid.map_release`: freeing a block is such a change to the list, `Block.release`.

`Keeps.step_free` puts them beside what a step that frees does in memory.
-/

namespace Supervisor

namespace Block

/-- `b` takes up a part of `c`: it starts where `c` does, or behind the header of `c`. -/
structure Within (b c : Block) : Prop where
  lower : c.address ≤ b.address
  upper : b.address + b.size ≤ c.address + c.size
  headed : c.address = b.address ∨ c.address + Header.bytes ≤ b.address

/-- The block, freed if its pointer is one of `ps`. -/
def release (ps : List Nat) (b : Block) : Block :=
  if b.data ∈ ps then b.mark true else b

namespace Within

variable {b c d : Block}

theorem refl (b : Block) : b.Within b :=
  ⟨Nat.le_refl _, Nat.le_refl _, .inl rfl⟩

theorem trans (h : b.Within c) (h' : c.Within d) : b.Within d := by
  refine ⟨Nat.le_trans h'.lower h.lower, Nat.le_trans h.upper h'.upper, ?_⟩
  rcases h'.headed with heq | hbehind
  · rw [heq]
    exact h.headed
  · exact .inr (Nat.le_trans hbehind h.lower)

/-- The first of two neighbours lies within the two of them. -/
theorem join_left (b c : Block) : b.Within (b.join c) :=
  ⟨Nat.le_refl _, Nat.add_le_add_left (Nat.le_add_right _ _) _, .inl rfl⟩

/-- So does the second, if the first has room for its header. -/
theorem join_right (haddr : c.address = b.address + b.size) (hsize : Header.bytes ≤ b.size) :
    c.Within (b.join c) := by
  refine ⟨?_, ?_, .inr ?_⟩
  · show b.address ≤ c.address
    omega
  · show c.address + c.size ≤ b.address + (b.size + c.size)
    omega
  · show b.address + Header.bytes ≤ c.address
    omega

end Within

theorem mark_of_free {b : Block} (h : b.free = true) : b.mark true = b := by
  obtain ⟨address, size, free⟩ := b
  simp only at h
  rw [h]
  rfl

/-- A block that is free stays as it is. -/
theorem release_of_free {b : Block} (ps : List Nat) (h : b.free = true) : b.release ps = b := by
  rw [release, mark_of_free h, ite_self]

theorem release_nil (b : Block) : b.release [] = b :=
  if_neg List.not_mem_nil

/-- Blocks may be freed one after the other. -/
theorem release_comp (p : Nat) (ps : List Nat) :
    release ps ∘ release [p] = release (p :: ps) := by
  funext b
  show (b.release [p]).release ps = b.release (p :: ps)
  by_cases hp : b.data = p
  · have hone : b.release [p] = b.mark true := if_pos (List.mem_singleton.mpr hp)
    have hall : b.release (p :: ps) = b.mark true := if_pos (hp ▸ List.mem_cons_self)
    rw [hone, hall]
    exact release_of_free ps rfl
  · have hone : b.release [p] = b := if_neg (by simpa using hp)
    rw [hone, release, release]
    simp [hp]

theorem release_congr {ps qs : List Nat} (h : ∀ p, p ∈ ps ↔ p ∈ qs) :
    release ps = release qs := by
  funext b
  simp only [release, h]

end Block

namespace Heap

open Memory Header

/-! ## Merging early -/

section Merged

variable {start limit : Nat} {r bs : List Block} {b c : Block}

/-- Two free blocks may be put together before what follows is added to them. -/
theorem push_join (hb : b.free = true) (hc : c.free = true) (r : List Block) :
    push (b.join c) r = push b (push c r) := by
  have hjoin : (b.join c).free = true := hb
  cases r with
  | nil => simp [push, hb, hc]
  | cons d r =>
    cases hd : d.free with
    | true => simp [push, hb, hc, hd, Block.join, Nat.add_assoc]
    | false => simp [push, hb, hc, hd, hjoin]

/-- A change that leaves free blocks alone may be made before a block is added or after
it. -/
theorem merged_map_push {f : Block → Block} (hf : ∀ b, b.free = true → f b = b) (b : Block)
    (r : List Block) : merged ((push b r).map f) = push (f b) (merged (r.map f)) := by
  cases r with
  | nil => rfl
  | cons c r =>
    rw [push]
    split
    next hboth =>
      obtain ⟨hb, hc⟩ := Bool.and_eq_true_iff.mp hboth
      have hjoin : f (b.join c) = b.join c := hf _ hb
      rw [List.map_cons, List.map_cons, hjoin, hf b hb, hf c hc]
      exact push_join hb hc _
    next => rfl

/-- Merging before a change that leaves free blocks alone makes no difference to what
merging after it gives. -/
theorem merged_map_merged {f : Block → Block} (hf : ∀ b, b.free = true → f b = b)
    (bs : List Block) : merged ((merged bs).map f) = merged (bs.map f) := by
  induction bs with
  | nil => rfl
  | cons b bs ih =>
    calc merged ((push b (merged bs)).map f)
        = push (f b) (merged ((merged bs).map f)) := merged_map_push hf b _
      _ = push (f b) (merged (bs.map f)) := by rw [ih]

/-! ## What merged blocks cover -/

/-- Every free block of `bs` lies within a free block of `bs'`. -/
def Covers (bs' bs : List Block) : Prop :=
  ∀ b ∈ bs, b.free = true → ∃ c ∈ bs', c.free = true ∧ b.Within c

theorem Covers.trans {bs bs' bs'' : List Block} (h' : Covers bs'' bs') (h : Covers bs' bs) :
    Covers bs'' bs := by
  intro b hb hfree
  obtain ⟨c, hc, hcfree, hwithin⟩ := h b hb hfree
  obtain ⟨d, hd, hdfree, hwithin'⟩ := h' c hc hcfree
  exact ⟨d, hd, hdfree, hwithin.trans hwithin'⟩

theorem tiled_push (h : Tiled start (b :: r) limit) : Tiled start (push b r) limit := by
  cases r with
  | nil => exact h
  | cons c r =>
    rw [push]
    split
    next =>
      obtain ⟨haddr, -, hrest⟩ := h
      refine ⟨haddr, ?_⟩
      show Tiled (start + (b.size + c.size)) r limit
      rwa [← Nat.add_assoc]
    next => exact h

theorem tiled_merged (h : Tiled start bs limit) : Tiled start (merged bs) limit := by
  induction bs generalizing start with
  | nil => exact h
  | cons b bs ih => exact tiled_push ⟨h.1, ih h.2⟩

/-- A list is covered by what becomes of it when its first block is merged with the
others. -/
theorem covers_push (h : Tiled start (b :: r) limit) (hsize : Header.bytes ≤ b.size) :
    Covers (push b r) (b :: r) := by
  intro d hd hfree
  cases r with
  | nil => exact ⟨d, hd, hfree, .refl d⟩
  | cons c r =>
    rw [push]
    split
    next hboth =>
      have hb : b.free = true := (Bool.and_eq_true_iff.mp hboth).1
      obtain ⟨rfl, haddr, -⟩ := h
      rcases List.mem_cons.mp hd with rfl | hd
      · exact ⟨d.join c, List.mem_cons_self, hb, .join_left d c⟩
      · rcases List.mem_cons.mp hd with rfl | hd
        · exact ⟨b.join d, List.mem_cons_self, hb, .join_right haddr hsize⟩
        · exact ⟨d, List.mem_cons_of_mem _ hd, hfree, .refl d⟩
    next => exact ⟨d, hd, hfree, .refl d⟩

theorem Covers.append {bs bs' : List Block} (h : Covers bs' bs) (l : List Block) :
    Covers (l ++ bs') (l ++ bs) := by
  intro b hb hfree
  rcases List.mem_append.mp hb with hb | hb
  · exact ⟨b, List.mem_append_left bs' hb, hfree, .refl b⟩
  · obtain ⟨c, hc, hcfree, hwithin⟩ := h b hb hfree
    exact ⟨c, List.mem_append_right l hc, hcfree, hwithin⟩

/-- A list is covered by the merged one. -/
theorem covers_merged (h : Tiled start bs limit) (hsize : ∀ c ∈ bs, Header.bytes ≤ c.size) :
    Covers (merged bs) bs := by
  induction bs generalizing start with
  | nil => exact fun _ hb => nomatch hb
  | cons b bs ih =>
    obtain ⟨haddr, hrest⟩ := h
    have hpush : Covers (push b (merged bs)) (b :: merged bs) :=
      covers_push ⟨haddr, tiled_merged hrest⟩ (hsize b List.mem_cons_self)
    exact hpush.trans ((ih hrest fun c hc => hsize c (List.mem_cons_of_mem b hc)).append [b])

end Merged

/-! ## Freeing -/

section Freeing

variable {start limit p : Nat} {m : Memory} {l r bs : List Block} {b : Block} {region : Region}
  {s s' : Session} {answer : Option Nat}

/-- Only the block that a pointer belongs to is freed with it. -/
theorem Laid.map_release (h : Laid start limit m (l ++ b :: r)) :
    (l ++ b :: r).map (Block.release [b.data]) = l ++ b.mark true :: r := by
  have hself : b.release [b.data] = b.mark true := if_pos (List.mem_singleton.mpr rfl)
  have hothers : ∀ cs : List Block, (∀ c ∈ cs, c ∈ l ++ r) →
      cs.map (Block.release [b.data]) = cs := by
    intro cs hcs
    refine (List.map_congr_left fun c hc => if_neg fun hdata => ?_).trans (List.map_id cs)
    -- a block with that pointer is `b`, which the list has once only
    have hmem := List.perm_middle.symm.mem_iff.mp (List.mem_cons_of_mem b (hcs c hc))
    obtain rfl : c = b := h.eq_of_address hmem List.mem_append_cons_self
      (Nat.add_right_cancel (List.mem_singleton.mp hdata))
    exact (List.nodup_cons.mp (List.nodup_middle.mp h.nodup)).1 (hcs c hc)
  rw [List.map_append, List.map_cons, hself, hothers l fun _ => List.mem_append_left r,
    hothers r fun _ => List.mem_append_right l]

/-- A block that is marked free leaves the others as they are. -/
theorem covers_mark (hb : b.free = false) (l r : List Block) :
    Covers (l ++ b.mark true :: r) (l ++ b :: r) := by
  intro c hc hfree
  refine ⟨c, ?_, hfree, .refl c⟩
  rcases List.mem_append.mp hc with hc | hc
  · exact List.mem_append_left _ hc
  · rcases List.mem_cons.mp hc with rfl | hc
    · rw [hb] at hfree
      contradiction
    · exact List.mem_append_right l (List.mem_cons_of_mem _ hc)

/-- A laid out list is covered by the merged one. -/
theorem Laid.covers_merged (h : Laid start limit m bs) : Covers (merged bs) bs :=
  Heap.covers_merged h.tiled fun c hc => (h.sized c hc).1

/-- What was free before a block was freed is covered afterwards. -/
theorem Laid.covers_freed (h : Laid start limit m (l ++ b :: r)) (hb : b.free = false) :
    Covers (merged (l ++ b.mark true :: r)) (l ++ b :: r) :=
  (laid_setFreeAt h true).1.covers_merged.trans (covers_mark hb l r)

/-- What a step that frees a pointer does: the block of the pointer is freed and merged
with the free blocks around it. -/
theorem Keeps.step_free (h : Keeps region s bs) (hstep : Step s (.free p) answer s') :
    answer = none ∧ ∃ l b r, bs = l ++ b :: r ∧ b.free = false ∧ b.data = p ∧
      Keeps region s' (merged (l ++ b.mark true :: r)) ∧
      Releases s.arena.heap.start s.arena.heap.limit s.arena.memory s'.arena.memory l b r := by
  obtain ⟨b, hb, rfl⟩ := live_of_held h.held hstep.allowed
  obtain ⟨hmem, hlive⟩ := mem_live.mp hb
  obtain ⟨l, r, rfl⟩ := List.append_of_mem hmem
  obtain ⟨a', hrun, hbecomes, hreleases⟩ := run_free h.sound hlive
  -- the program has one outcome, so the step is the one found there
  obtain ⟨w, hran, hanswer⟩ := run_map_eq_ok hstep.ran
  rw [hrun] at hran
  injection hran with hw harena
  subst hw harena
  exact ⟨(Except.ok.inj hanswer).symm, l, b, r, rfl, hlive, rfl, h.becomes hstep hbecomes,
    hreleases⟩

/-- The list after a step that frees a pointer, in terms of the one before it. -/
theorem Keeps.released (h : Keeps region s bs) (hstep : Step s (.free p) answer s') :
    Keeps region s' (merged (bs.map (Block.release [p]))) := by
  obtain ⟨-, l, b, r, rfl, -, rfl, hkeeps, -⟩ := h.step_free hstep
  rwa [h.sound.laid.map_release]

/-- A page with two allocations side by side. -/
theorem exists_two_allocs : ∃ a, Reachable page ⟨a, [0x1000a8, 0x100020]⟩ ∧
    Keeps page ⟨a, [0x1000a8, 0x100020]⟩
      [⟨0x100000, 136, false⟩, ⟨0x100088, 136, false⟩, ⟨0x100110, 3824, true⟩] := by
  have hsize : blockSize? 100 = some 136 := by decide
  obtain ⟨a, hreach, hkeeps, -⟩ := exists_first_alloc page {} (by decide) (by decide) hsize
    (by decide)
  have hlist : served [] page.whole 136 []
      = [⟨0x100000, 136, false⟩] ++ ⟨0x100088, 3960, true⟩ :: [] := by decide
  rw [hlist] at hkeeps
  obtain ⟨a', hrun, hbecomes⟩ := run_alloc_some hkeeps.sound (by decide) hsize (by decide)
    (by decide)
  have hstep : Step ⟨a, [page.whole.data]⟩ (.alloc 100) (some 0x1000a8)
      ⟨a', [0x1000a8, 0x100020]⟩ := ⟨trivial, run_map_ok hrun _, rfl⟩
  exact ⟨a', hreach.step hstep, hkeeps.becomes hstep hbecomes⟩

end Freeing

end Heap

end Supervisor
