import Supervisor.Proofs.Heap.Integrity
import Supervisor.Proofs.Heap.Merging
import Supervisor.Proofs.Heap.Restore

/-!
# The order of frees

Each free merges with whatever happens to be free around it at that moment, so the blocks
that take others in, and the order in which they do, depend on the order of the frees. The
outcome does not: it is the list with all the freed blocks marked, merged once.

- `Keeps.run_frees`: what a run of frees comes to, by induction on the run from
  `Keeps.released`; merging after every free is merging at the end
  (`merged_map_merged`).
- `Keeps.exists_run_frees`: pointers that are held, each one once, can be freed in a row.
- `reachable_confluent`: hence two orders in which the same pointers are freed lead to the
  same heap.
-/

namespace Supervisor

namespace Heap

section Frees

variable {region : Region} {s s' : Session} {bs : List Block} {ps : List Nat}

/-- After a run of frees, the list is the one in which all their blocks are free, merged,
and their pointers are not held any more. -/
theorem Keeps.run_frees (h : Keeps region s bs) (hrun : Run s (ps.map .free) s') :
    Keeps region s' (merged (bs.map (Block.release ps))) ∧ s'.held = s.held.diff ps := by
  induction ps generalizing s bs with
  | nil =>
    cases hrun
    have hsame : bs.map (Block.release []) = bs :=
      (List.map_congr_left fun b _ => Block.release_nil b).trans (List.map_id bs)
    rw [hsame, merged_of_spaced h.sound.spaced]
    exact ⟨h, rfl⟩
  | cons p ps ih =>
    cases hrun with
    | step hstep hrest =>
      obtain ⟨hfreed, hheld⟩ := ih (h.released hstep) hrest
      constructor
      · -- the first free and the others, as one change to the list
        rwa [merged_map_merged fun _ hfree => Block.release_of_free ps hfree, List.map_map,
          Block.release_comp] at hfreed
      · rw [hheld, List.diff_cons, hstep.held]
        rfl

/-- What is left depends on which pointers were freed, not on their order. -/
theorem Keeps.run_frees_perm {qs : List Nat} (h : Keeps region s bs) (hperm : qs.Perm ps)
    (hrun : Run s (qs.map .free) s') :
    Keeps region s' (merged (bs.map (Block.release ps))) ∧ s'.held = s.held.diff ps := by
  obtain ⟨hkeeps, hleft⟩ := h.run_frees hrun
  rw [Block.release_congr fun p => hperm.mem_iff] at hkeeps
  exact ⟨hkeeps, hleft.trans (hperm.diff_left s.held)⟩

/-- Pointers that are held, each listed once, can be freed one after the other. -/
theorem Keeps.exists_run_frees (h : Keeps region s bs) (hps : ps.Nodup)
    (hheld : ∀ p ∈ ps, p ∈ s.held) : ∃ s', Run s (ps.map .free) s' := by
  induction ps generalizing s bs with
  | nil => exact ⟨s, .done s⟩
  | cons p ps ih =>
    obtain ⟨hnot, hps⟩ := List.nodup_cons.mp hps
    have hallowed : Request.Allowed s (.free p) := hheld p List.mem_cons_self
    obtain ⟨answer, s₁, hstep⟩ := h.exists_step hallowed
    have hheld₁ : ∀ q ∈ ps, q ∈ s₁.held := by
      intro q hq
      have hne : q ≠ p := fun heq => hnot (heq ▸ hq)
      rw [hstep.held]
      exact (List.mem_erase_of_ne hne).mpr (hheld q (List.mem_cons_of_mem p hq))
    obtain ⟨s', hrun⟩ := ih (h.released hstep) hps hheld₁
    exact ⟨s', .step hstep hrun⟩

end Frees

/-- Sessions over a region with the same list and the same pointers are alike in everything
that the heap goes by. -/
theorem Keeps.restored {region : Region} {s s' : Session} {bs : List Block}
    (h : Keeps region s bs) (h' : Keeps region s' bs) (hheld : s'.held = s.held) :
    Restored s s' := by
  have hblocks := h.sound.blocks_eq
  refine ⟨?heap, h'.sound.blocks_eq.trans hblocks.symm, ?headers, hheld⟩
  case heap =>
    exact h.sound.heap_eq h'.sound (h'.start.trans h.start.symm) (h'.limit.trans h.limit.symm)
  case headers =>
    rw [hblocks]
    intro b hb
    exact h.sound.headers_eq h'.sound hb

/-- When the pointers of all live blocks are freed, none is left. -/
theorem live_map_release {bs : List Block} {ps : List Nat} (h : ∀ b ∈ live bs, b.data ∈ ps) :
    live (bs.map (Block.release ps)) = [] := by
  refine List.filter_eq_nil_iff.mpr ?_
  intro c hc
  obtain ⟨b, hb, rfl⟩ := List.mem_map.mp hc
  suffices hfree : (b.release ps).free = true by simp [hfree]
  cases hlive : b.free with
  | true => rw [Block.release_of_free ps hlive, hlive]
  | false =>
    have hmem : b.data ∈ ps := h b (mem_live.mpr ⟨hb, hlive⟩)
    rw [Block.release, if_pos hmem]
    rfl

section Confluence

variable {region : Region} {s : Session} {ps : List Nat}

/-- Wherever a session over a region gets, pointers that are held can be freed in any
order, and the order makes no difference: the heap is left with the same blocks, links
and counters. If no pointer remains, that is one free block of full size. -/
theorem reachable_confluent (h : Reachable region s) (hps : ps.Nodup)
    (hheld : ∀ p ∈ ps, p ∈ s.held) :
    (∀ qs : List Nat, qs.Perm ps → ∃ s', Run s (qs.map .free) s') ∧
    ∀ (qs qs' : List Nat) (s₁ s₂ : Session), qs.Perm ps → qs'.Perm ps →
      Run s (qs.map .free) s₁ → Run s (qs'.map .free) s₂ →
      Restored s₁ s₂ ∧ blocks s₁.arena = merged ((blocks s.arena).map (Block.release ps)) ∧
        ((∀ p ∈ s.held, p ∈ ps) → blocks s₁.arena = [region.whole]) := by
  obtain ⟨bs, hkeeps⟩ := h.keeps
  obtain rfl : blocks s.arena = bs := hkeeps.sound.blocks_eq
  constructor
  · intro qs hperm
    exact hkeeps.exists_run_frees (hperm.nodup_iff.mpr hps) fun p hp =>
      hheld p (hperm.mem_iff.mp hp)
  · intro qs qs' s₁ s₂ hperm hperm' hrun hrun'
    obtain ⟨h₁, hleft₁⟩ := hkeeps.run_frees_perm hperm hrun
    obtain ⟨h₂, hleft₂⟩ := hkeeps.run_frees_perm hperm' hrun'
    have hblocks := h₁.sound.blocks_eq
    refine ⟨h₁.restored h₂ (hleft₂.trans hleft₁.symm), hblocks, fun hall => ?_⟩
    refine hblocks.trans (h₁.eq_whole ?_)
    rw [live_merged]
    exact live_map_release fun b hb =>
      hall b.data (hkeeps.held.mem_iff.mpr (List.mem_map_of_mem hb))

/-- The two allocations of a page are freed in both orders. -/
theorem page_confluent : ∃ s s₁ s₂, Reachable page s ∧ s.held = [0x1000a8, 0x100020] ∧
    Run s [.free 0x1000a8, .free 0x100020] s₁ ∧ Run s [.free 0x100020, .free 0x1000a8] s₂ ∧
    Restored s₁ s₂ ∧ blocks s₁.arena = [⟨0x100000, 0x1000, true⟩] := by
  obtain ⟨a, hreach, -⟩ := exists_two_allocs
  have hswap : [0x100020, 0x1000a8].Perm [0x1000a8, 0x100020] := .swap _ _ _
  have hnodup : [0x1000a8, 0x100020].Nodup := by decide
  obtain ⟨hruns, hsame⟩ := reachable_confluent hreach hnodup fun _ hp => hp
  obtain ⟨s₁, hrun₁⟩ := hruns _ (.refl _)
  obtain ⟨s₂, hrun₂⟩ := hruns _ hswap
  obtain ⟨hrestored, -, hwhole⟩ := hsame _ _ s₁ s₂ (.refl _) hswap hrun₁ hrun₂
  exact ⟨_, s₁, s₂, hreach, rfl, hrun₁, hrun₂, hrestored, hwhole fun _ hp => hp⟩

end Confluence

end Heap

end Supervisor
