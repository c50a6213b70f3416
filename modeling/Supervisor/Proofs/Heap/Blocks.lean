import Mathlib.Data.List.Chain
import Supervisor.Proofs.Heap.Layout

/-!
# Live blocks, spacing and merging

What the allocator keeps true of its list of blocks besides the layout, as
statements about lists.

- `Heap.live`: the live blocks of a list, and `Heap.usedBytes` their sizes.
- `Heap.Spaced`: no two neighbours are both free.
- `Heap.merged`: the list with every run of free neighbours put together. It is
  spaced (`spaced_merged`), has the same live blocks (`live_merged`) and is the
  list itself when that is spaced (`merged_of_spaced`), so a free block that
  comes between spaced lists merges with its two neighbours at most
  (`merged_concat_cons`).
-/

namespace Supervisor

namespace Heap

/-! ## Live blocks -/

/-- The live blocks of a list. -/
def live (bs : List Block) : List Block :=
  bs.filter fun b => !b.free

/-- The bytes in live blocks, headers included. -/
def usedBytes (bs : List Block) : Nat :=
  ((live bs).map Block.size).sum

theorem mem_live {b : Block} {bs : List Block} : b ∈ live bs ↔ b ∈ bs ∧ b.free = false := by
  simp [live]

@[simp] theorem live_append (l r : List Block) : live (l ++ r) = live l ++ live r :=
  List.filter_append l r

/-- The live blocks around some blocks are in the list with those. -/
theorem mem_of_live_around {l r : List Block} {c : Block} (middle : List Block)
    (h : c ∈ live l ++ live r) : c ∈ l ++ (middle ++ r) := by
  rw [← live_append] at h
  rcases List.mem_append.mp (mem_live.mp h).1 with hl | hr
  · exact List.mem_append_left _ hl
  · exact List.mem_append_right l (List.mem_append_right middle hr)

theorem live_cons_free {b : Block} (h : b.free = true) (r : List Block) :
    live (b :: r) = live r := by
  simp [live, h]

theorem live_cons_live {b : Block} (h : b.free = false) (r : List Block) :
    live (b :: r) = b :: live r := by
  simp [live, h]

@[simp] theorem live_nil : live [] = [] := rfl

@[simp] theorem usedBytes_append (l r : List Block) :
    usedBytes (l ++ r) = usedBytes l + usedBytes r := by
  simp [usedBytes]

theorem usedBytes_cons_free {b : Block} (h : b.free = true) (r : List Block) :
    usedBytes (b :: r) = usedBytes r := by
  rw [usedBytes, live_cons_free h, usedBytes]

theorem usedBytes_cons_live {b : Block} (h : b.free = false) (r : List Block) :
    usedBytes (b :: r) = b.size + usedBytes r := by
  rw [usedBytes, live_cons_live h, List.map_cons, List.sum_cons, usedBytes]

theorem usedBytes_le_sum (bs : List Block) : usedBytes bs ≤ (bs.map Block.size).sum := by
  induction bs with
  | nil => exact Nat.le_refl 0
  | cons b bs ih =>
    rw [List.map_cons, List.sum_cons]
    cases hfree : b.free with
    | true =>
      rw [usedBytes_cons_free hfree]
      omega
    | false =>
      rw [usedBytes_cons_live hfree]
      omega

theorem length_live_le (bs : List Block) : (live bs).length ≤ bs.length :=
  List.length_filter_le _ bs

/-! ## Spacing -/

/-- No two neighbours are both free. -/
def Spaced (bs : List Block) : Prop :=
  bs.IsChain fun b c => ¬ (b.free = true ∧ c.free = true)

theorem Spaced.left {l r : List Block} (h : Spaced (l ++ r)) : Spaced l :=
  List.IsChain.left_of_append h

theorem Spaced.right {l r : List Block} (h : Spaced (l ++ r)) : Spaced r :=
  List.IsChain.right_of_append h

/-- Around a live block, anything spaced may stand. -/
theorem spaced_insert_live {l r : List Block} {b : Block} (hl : Spaced l) (hr : Spaced r)
    (hb : b.free = false) : Spaced (l ++ b :: r) := by
  refine List.IsChain.append hl (List.IsChain.cons hr ?_) ?_
  · intro c _
    simp [hb]
  · intro c _ d hd
    simp only [List.head?_cons, Option.mem_some_iff] at hd
    simp [← hd, hb]

/-! ## Merging -/

/-- Puts a block in front of a list, together with the first one if both are
free. -/
def push (b : Block) : List Block → List Block
  | [] => [b]
  | c :: r => if b.free && c.free then b.join c :: r else b :: c :: r

/-- The list with every run of free neighbours put together. -/
def merged (bs : List Block) : List Block :=
  bs.foldr push []

theorem push_of_spaced {b : Block} {r : List Block} (h : Spaced (b :: r)) :
    push b r = b :: r := by
  cases r with
  | nil => rfl
  | cons c r =>
    have hbc := (List.isChain_cons_cons.mp h).1
    rw [push, if_neg (by simpa using hbc)]

theorem spaced_push {b : Block} {r : List Block} (h : Spaced r) : Spaced (push b r) := by
  cases r with
  | nil => exact List.isChain_singleton b
  | cons c r =>
    rw [push]
    split
    next hboth =>
      -- the joined block is free as its second half was
      have hc : c.free = true := (Bool.and_eq_true_iff.mp hboth).2
      refine List.IsChain.cons h.tail ?_
      intro d hd hfree
      exact h.rel_head? hd ⟨hc, hfree.2⟩
    next hboth => exact List.isChain_cons_cons.mpr ⟨by simpa using hboth, h⟩

theorem live_push (b : Block) (r : List Block) : live (push b r) = live (b :: r) := by
  cases r with
  | nil => rfl
  | cons c r =>
    rw [push]
    split
    next hboth =>
      obtain ⟨hb, hc⟩ := Bool.and_eq_true_iff.mp hboth
      rw [live_cons_free (b := b.join c) hb, live_cons_free hb, live_cons_free hc]
    next => rfl

theorem foldr_push_of_spaced {l r : List Block} (h : Spaced (l ++ r)) :
    l.foldr push r = l ++ r := by
  induction l with
  | nil => rfl
  | cons b l ih =>
    rw [List.foldr_cons, ih h.tail]
    exact push_of_spaced h

theorem merged_of_spaced {bs : List Block} (h : Spaced bs) : merged bs = bs := by
  rw [merged, foldr_push_of_spaced (by rwa [List.append_nil]), List.append_nil]

theorem spaced_merged (bs : List Block) : Spaced (merged bs) := by
  induction bs with
  | nil => exact List.isChain_nil
  | cons b bs ih => exact spaced_push ih

theorem live_merged (bs : List Block) : live (merged bs) = live bs := by
  induction bs with
  | nil => rfl
  | cons b bs ih =>
    show live (push b (merged bs)) = _
    rw [live_push]
    cases hfree : b.free with
    | true => rw [live_cons_free hfree, live_cons_free hfree, ih]
    | false => rw [live_cons_live hfree, live_cons_live hfree, ih]

theorem merged_append (l r : List Block) : merged (l ++ r) = l.foldr push (merged r) :=
  List.foldr_append

/-- The block that `push` puts in front keeps its place and its flag. -/
theorem push_eq_cons (b : Block) (r : List Block) :
    ∃ c r', push b r = c :: r' ∧ c.address = b.address ∧ c.free = b.free := by
  cases r with
  | nil => exact ⟨b, [], rfl, rfl, rfl⟩
  | cons c r =>
    rw [push]
    split
    next => exact ⟨b.join c, r, rfl, rfl, rfl⟩
    next => exact ⟨b, c :: r, rfl, rfl, rfl⟩

/-- No block of the list comes to lie anywhere else. -/
theorem push_address {b c : Block} {r : List Block} (h : c ∈ push b r) :
    ∃ d ∈ b :: r, d.address = c.address := by
  cases r with
  | nil => exact ⟨c, h, rfl⟩
  | cons d r =>
    rw [push] at h
    split at h
    next =>
      rcases List.mem_cons.mp h with rfl | h
      · exact ⟨b, List.mem_cons_self, rfl⟩
      · exact ⟨c, List.mem_cons_of_mem b (List.mem_cons_of_mem d h), rfl⟩
    next => exact ⟨c, h, rfl⟩

theorem merged_address {c : Block} {bs : List Block} (h : c ∈ merged bs) :
    ∃ d ∈ bs, d.address = c.address := by
  induction bs generalizing c with
  | nil => contradiction
  | cons b bs ih =>
    obtain ⟨d, hd, haddr⟩ := push_address (h : c ∈ push b (merged bs))
    rcases List.mem_cons.mp hd with rfl | hd
    · exact ⟨d, List.mem_cons_self, haddr⟩
    · obtain ⟨e, he, heq⟩ := ih hd
      exact ⟨e, List.mem_cons_of_mem b he, heq.trans haddr⟩

theorem spaced_append_push {l r : List Block} {p : Block} (hl : Spaced (l ++ [p]))
    (hr : Spaced r) : Spaced (l ++ push p r) := by
  obtain ⟨c, r', hpush, -, hfree⟩ := push_eq_cons p r
  have hright : Spaced (push p r) := spaced_push hr
  rw [hpush] at hright ⊢
  refine List.IsChain.append hl.left hright ?_
  intro x hx y hy
  have hlast := (List.isChain_append.mp hl).2.2 x hx p rfl
  simp only [List.head?_cons, Option.mem_some_iff] at hy
  rwa [← hy, hfree]

/-- A block in front of a spaced list merges with its first block at most. -/
theorem merged_cons {r : List Block} (b : Block) (hr : Spaced r) :
    merged (b :: r) = push b r := by
  show push b (merged r) = _
  rw [merged_of_spaced hr]

/-- A block between spaced lists merges with its two neighbours at most. -/
theorem merged_concat_cons {l r : List Block} {p : Block} (b : Block)
    (hl : Spaced (l ++ [p])) (hr : Spaced r) :
    merged (l ++ [p] ++ b :: r) = l ++ push p (push b r) := by
  rw [merged_append, merged_cons b hr, List.foldr_append]
  exact foldr_push_of_spaced (spaced_append_push hl (spaced_push hr))

/-- Merging a block with what follows it early makes no difference to the merged list. -/
theorem merged_append_push {r : List Block} (l : List Block) (b : Block) (hr : Spaced r) :
    merged (l ++ push b r) = merged (l ++ b :: r) := by
  rw [merged_append, merged_append, merged_cons b hr, merged_of_spaced (spaced_push hr)]

end Heap

end Supervisor
