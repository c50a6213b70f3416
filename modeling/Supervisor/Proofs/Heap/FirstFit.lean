import Supervisor.Proofs.Heap.Effect

/-!
# First fit

Where in a heap a request is served, and what becomes of the block that serves it.

- `Heap.rounded`: the block size that a request comes to; the heap works with it
  whenever it is a word (`blockSize?_eq`).
- `Heap.Lowest`: the block with the lowest address among those with a property. In
  a layout that is the first one on the list (`Laid.lowest`).
- `Heap.Grants`: a free block became live, cut to size if much was left over, and
  everything around it stayed (`Becomes.grants`).
- `reachable_firstFit`: wherever a session has got, a request is served by the lowest
  free block that is large enough, and only without such a block by none.
-/

namespace Supervisor

namespace Heap

/-- The block size that a request for `n` bytes comes to: with a header of 32 bytes,
rounded up to a multiple of eight. -/
def rounded (n : Nat) : Nat :=
  (n + 39) / 8 * 8

/-- Among the blocks of a list that have a property, `b` lies lowest. -/
structure Lowest (p : Block → Prop) (bs : List Block) (b : Block) : Prop where
  mem : b ∈ bs
  holds : p b
  le : ∀ c ∈ bs, p c → b.address ≤ c.address

/-- From `a` to `a'` the free block `b` between `l` and `r` served a request for a
block of `required` bytes with the pointer `q`:
1. the pointer is the data address of the block;
2. a block with more than `splitSlack` bytes to spare is cut: the request gets its
   size exactly, and what is left over is a free block right behind it;
3. any other block is given away whole;
4. the blocks around it stay, and the counters grow by the one live block. -/
structure Grants (a : Arena) (l : List Block) (b : Block) (required : Nat) (r : List Block)
    (q : Nat) (a' : Arena) : Prop where
  pointer : q = b.address + Header.bytes
  cut : required + splitSlack < b.size →
    blocks a' = l ++ ⟨b.address, required, false⟩ ::
        ⟨b.address + required, b.size - required, true⟩ :: r ∧
      a'.heap.used = a.heap.used + required
  whole : b.size ≤ required + splitSlack →
    blocks a' = l ++ ⟨b.address, b.size, false⟩ :: r ∧ a'.heap.used = a.heap.used + b.size
  count : a'.heap.count = a.heap.count + 1

/-- What the answer to a request for `n` bytes means:
1. there is none exactly when the rounded request is no word or larger than every
   free block;
2. then nothing changes;
3. otherwise the lowest free block that is large enough serves the request. -/
structure FirstFit (s : Session) (n : Nat) (answer : Option Nat) (s' : Session) : Prop where
  refused : answer = none ↔ wordLimit ≤ rounded n ∨
    ∀ b ∈ blocks s.arena, b.free = true → b.size < rounded n
  unchanged : answer = none → s' = s
  granted : ∀ q, answer = some q → ∃ l b r, blocks s.arena = l ++ b :: r ∧
    Lowest (fun c => c.free = true ∧ rounded n ≤ c.size) (blocks s.arena) b ∧
    Grants s.arena l b (rounded n) r q s'.arena

section Requests

variable {n required : Nat}

/-- The sum that the heap forms is a word exactly when the rounded request is one. -/
theorem blockSize?_eq (n : Nat) :
    blockSize? n = if rounded n < wordLimit then some (rounded n) else none := by
  have hbytes : Header.bytes + grain - 1 = 39 := rfl
  have hlimit : wordLimit = 8 * 0x2000000000000000 := rfl
  -- the words end at a multiple of eight
  have hword : n + 39 < wordLimit ↔ rounded n < wordLimit := by
    rw [rounded, hlimit]
    omega
  simp only [blockSize?, hbytes, hword]
  rfl

theorem blockSize?_eq_some_iff :
    blockSize? n = some required ↔ rounded n < wordLimit ∧ rounded n = required := by
  rw [blockSize?_eq]
  split
  next hword => simp [hword]
  next hword => simp [hword]

/-- No block serves a request exactly when it comes to no word or is too large for
every free block. -/
theorem forall_not_fits_iff {bs : List Block} :
    (∀ required, blockSize? n = some required → ∀ b ∈ bs, ¬ Fits required b) ↔
      wordLimit ≤ rounded n ∨ ∀ b ∈ bs, b.free = true → b.size < rounded n := by
  constructor
  · intro hnone
    by_cases hword : rounded n < wordLimit
    · right
      intro b hb hfree
      have hnot := hnone _ (blockSize?_eq_some_iff.mpr ⟨hword, rfl⟩) b hb
      exact Nat.lt_of_not_le fun hle => hnot ⟨hfree, hle⟩
    · exact .inl (Nat.le_of_not_lt hword)
  · rintro hnone required hsize b hb ⟨hfree, hle⟩
    obtain ⟨hword, rfl⟩ := blockSize?_eq_some_iff.mp hsize
    rcases hnone with hover | hsmall
    · omega
    · have hlt := hsmall b hb hfree
      omega

end Requests

section Blocks

variable {start limit required : Nat} {m : Memory} {a a' : Arena} {bs l r : List Block} {b : Block}

/-- Blocks are listed in the order of their addresses, so the first one with a
property lies lowest. -/
theorem Laid.lowest {p : Block → Prop} (h : Laid start limit m (l ++ b :: r)) (hb : p b)
    (hfirst : ∀ c ∈ l, ¬ p c) : Lowest p (l ++ b :: r) b := by
  refine ⟨List.mem_append_cons_self, hb, ?_⟩
  intro c hc hp
  rcases List.mem_append.mp hc with hl | hr
  · exact absurd hp (hfirst c hl)
  · rcases List.mem_cons.mp hr with rfl | hr
    · exact Nat.le_refl _
    · exact Nat.le_of_add_right_le (h.after hr).2

theorem served_of_cut (h : Cuttable b required) :
    served l b required r = l ++ ⟨b.address, required, false⟩ ::
      ⟨b.address + required, b.size - required, true⟩ :: r := by
  rw [served, taken, trimmed, leftover, if_pos h, if_pos h]
  rfl

theorem served_of_not_cut (h : ¬ Cuttable b required) :
    served l b required r = l ++ ⟨b.address, b.size, false⟩ :: r := by
  rw [served, taken, trimmed, leftover, if_neg h, if_neg h]
  rfl

/-- What serving a request does to a sound arena, in terms of what its headers say. -/
theorem Becomes.grants (h : Becomes a (served l b required r) a' (served l b required r))
    (hsound : Sound a bs) (hlive : live bs = live l ++ live r) :
    Grants a l b required r b.data a' := by
  have hblocks := h.sound.blocks_eq
  have hused : a.heap.used = usedBytes l + usedBytes r := by
    rw [hsound.used, usedBytes, hlive, List.map_append, List.sum_append, usedBytes, usedBytes]
  have hused' : a'.heap.used = usedBytes l + (taken b required).size + usedBytes r := by
    rw [h.sound.used, usedBytes_served]
  refine ⟨rfl, ?_, ?_, ?_⟩
  · intro hcut
    have hsize := taken_size_of_cut hcut
    exact ⟨hblocks.trans (served_of_cut hcut), by omega⟩
  · intro hwhole
    have hcut : ¬ Cuttable b required := Nat.not_lt_of_le hwhole
    have hsize := taken_size_of_not_cut hcut
    exact ⟨hblocks.trans (served_of_not_cut hcut), by omega⟩
  · rw [h.sound.count, hsound.count, live_served, hlive, List.length_append, List.length_append,
      List.length_cons]
    rfl

/-- Of two blocks the second one is the free one, so it is the one that was found. -/
theorem split_second {x y : Block} (h : [x, y] = l ++ b :: r) (hx : x.free = false)
    (hb : b.free = true) : l = [x] ∧ b = y ∧ r = [] := by
  match l with
  | [] =>
    obtain ⟨rfl, -⟩ := List.cons.inj h
    rw [hx] at hb
    contradiction
  | [c] => simpa [eq_comm] using h
  | c :: d :: l => simp at h

end Blocks

section FirstFit

variable {region : Region} {s : Session} {n : Nat}

/-- Wherever a session over a region gets, a request for at least one byte is served by
the lowest free block that is large enough, and nothing changes if there is none. -/
theorem reachable_firstFit (h : Reachable region s) (hn : n ≠ 0) :
    ∃ answer s', Step s (.alloc n) answer s' ∧ FirstFit s n answer s' := by
  obtain ⟨bs, hkeeps⟩ := h.keeps
  have hblocks := hkeeps.sound.blocks_eq
  rcases alloc_firstFit hkeeps.sound hn with ⟨hrun, hnone⟩ |
    ⟨l, b, r, required, a', rfl, hsize, hfit, hfirst, hrun, hbecomes⟩
  · refine ⟨none, s, ⟨trivial, run_map_ok hrun _, rfl⟩,
      ⟨?_, fun _ => rfl, fun _ hq => nomatch hq⟩⟩
    rw [hblocks]
    exact iff_of_true rfl (forall_not_fits_iff.mp hnone)
  · obtain ⟨-, rfl⟩ := blockSize?_eq_some_iff.mp hsize
    refine ⟨some b.data, ⟨a', b.data :: s.held⟩, ⟨trivial, run_map_ok hrun _, rfl⟩,
      ⟨?refused, fun hq => (nomatch hq), ?granted⟩⟩
    case refused =>
      rw [hblocks]
      refine iff_of_false (fun hq => nomatch hq) fun hnone => ?_
      exact forall_not_fits_iff.mpr hnone _ hsize b List.mem_append_cons_self hfit
    case granted =>
      rintro _ ⟨rfl⟩
      refine ⟨l, b, r, hblocks, ?_, hbecomes.grants hkeeps.sound ?_⟩
      · rw [hblocks]
        exact hkeeps.sound.laid.lowest hfit hfirst
      · rw [live_append, live_cons_free hfit.1]

/-- Behind the first allocation of a page, a request that nearly fills the rest is given
all of it. -/
theorem page_firstFit : ∃ s s', Reachable page s ∧
    blocks s.arena = [⟨0x100000, 136, false⟩, ⟨0x100088, 3960, true⟩] ∧
    Step s (.alloc 3900) (some 0x1000a8) s' ∧
    blocks s'.arena = [⟨0x100000, 136, false⟩, ⟨0x100088, 3960, false⟩] := by
  have hsize : blockSize? 100 = some 136 := by decide
  obtain ⟨a, hreach, ⟨hsound, -⟩, -⟩ := exists_first_alloc page {} (by decide)
    (by decide) hsize (by decide)
  have hblocks : blocks a = [⟨0x100000, 136, false⟩, ⟨0x100088, 3960, true⟩] :=
    hsound.blocks_eq.trans (by decide)
  obtain ⟨answer, s', hstep, hrefused, -, hgranted⟩ :=
    reachable_firstFit hreach (show 3900 ≠ 0 by decide)
  simp only [hblocks] at hrefused hgranted
  cases answer with
  | none =>
    rcases hrefused.mp rfl with hover | hsmall
    · exact absurd hover (by decide)
    · exact absurd (hsmall _ (List.mem_cons_of_mem _ List.mem_cons_self) rfl) (by decide)
  | some q =>
    obtain ⟨l, b, r, hsplit, hlowest, hgrants⟩ := hgranted q rfl
    obtain ⟨rfl, rfl, rfl⟩ := split_second hsplit rfl hlowest.holds.1
    obtain ⟨hafter, -⟩ := hgrants.whole (by decide)
    obtain rfl : q = 0x1000a8 := hgrants.pointer
    exact ⟨_, s', hreach, hblocks, hstep, hafter⟩

end FirstFit

end Heap

end Supervisor
