import Supervisor.Proofs.Heap.Sound

/-!
# Allocating

What `Heap.alloc` does to a sound arena, block by block.

- `Loose.occupy`: a free block becomes live, cut to size if much is left over.
- `run_alloc_some`, `run_alloc_none`: this happens to the first free block that
  is large enough, or nothing changes.
- `alloc_firstFit`: one of the two always happens; `alloc_cases` has it as an
  exchange of live blocks.
-/

namespace Supervisor

namespace Heap

open Memory Header

/-! ## Requests -/

/-- A block size has room for the header and the request, and is a multiple of
eight. -/
theorem blockSize?_spec {n required : Nat} (h : blockSize? n = some required) :
    n + Header.bytes ≤ required ∧ required % 8 = 0 := by
  simp only [blockSize?] at h
  split at h
  next hword =>
    simp only [Option.some.injEq] at h
    have hbytes : Header.bytes = 32 := rfl
    have hgrain : grain = 8 := rfl
    rw [hgrain, hbytes] at h
    omega
  next => exact absurd h (by simp)

/-- A block that serves a request for at least one byte has room for data. -/
theorem blockSize?_pos {n required : Nat} (h : blockSize? n = some required) (hn : n ≠ 0) :
    Header.bytes < required := by
  have hspec := blockSize?_spec h
  omega

/-! ## Searching -/

/-- A search whose choice never faults is a search for the first choice. -/
theorem findSomeM?_eq_ok {α : Type} {choose : Block → Except Fault (Option α)}
    {f : Block → Option α} {bs : List Block} (h : ∀ b ∈ bs, choose b = .ok (f b)) :
    bs.findSomeM? choose = .ok (bs.findSome? f) := by
  induction bs with
  | nil => rfl
  | cons b bs ih =>
    rw [List.findSomeM?_cons, h b List.mem_cons_self, List.findSome?_cons]
    have hrest := ih fun c hc => h c (List.mem_cons_of_mem b hc)
    cases f b with
    | none => exact hrest
    | some v => rfl

theorem run_find {α : Type} {a : Arena} {bs : List Block} (h : Sound a bs)
    {choose : Block → Except Fault (Option α)} {f : Block → Option α}
    (hf : ∀ b ∈ bs, choose b = .ok (f b)) :
    (find choose).run a = .ok (bs.findSome? f) a := by
  have hwalk := h.walk_eq (Nat.le_of_lt h.laid.length_lt)
  rw [find, run_get_bind, search_eq_findSomeM?, hwalk, findSomeM?_eq_ok hf, run_lift_ok]

/-! ## Occupying a block -/

/-- Whether so much is left over that a block is cut. -/
def Cuttable (b : Block) (required : Nat) : Prop :=
  required + splitSlack < b.size

instance (b : Block) (required : Nat) : Decidable (Cuttable b required) :=
  inferInstanceAs (Decidable (_ < _))

/-- What a request keeps of the block that serves it. -/
def trimmed (b : Block) (required : Nat) : Block :=
  if Cuttable b required then b.front required else b

/-- What is left over of the block, as a free block or as nothing. -/
def leftover (b : Block) (required : Nat) : List Block :=
  if Cuttable b required then [b.rest required] else []

/-- The live block that a request makes of the free block that serves it. -/
def taken (b : Block) (required : Nat) : Block :=
  (trimmed b required).mark false

@[simp] theorem trimmed_address (b : Block) (required : Nat) :
    (trimmed b required).address = b.address := by
  unfold trimmed
  split <;> rfl

@[simp] theorem trimmed_free (b : Block) (required : Nat) :
    (trimmed b required).free = b.free := by
  unfold trimmed
  split <;> rfl

theorem le_trimmed_size {b : Block} {required : Nat} (h : required ≤ b.size) :
    required ≤ (trimmed b required).size := by
  unfold trimmed
  split
  · exact Nat.le_refl required
  · exact h

theorem trimmed_size_le (b : Block) (required : Nat) : (trimmed b required).size ≤ b.size := by
  unfold trimmed
  split
  next hcut =>
    rw [Cuttable] at hcut
    exact Nat.le_of_lt (Nat.lt_of_le_of_lt (Nat.le_add_right required splitSlack) hcut)
  next => exact Nat.le_refl b.size

@[simp] theorem taken_address (b : Block) (required : Nat) :
    (taken b required).address = b.address :=
  trimmed_address b required

@[simp] theorem taken_data (b : Block) (required : Nat) : (taken b required).data = b.data := by
  rw [Block.data, taken_address, Block.data]

theorem taken_size_of_cut {b : Block} {required : Nat} (h : Cuttable b required) :
    (taken b required).size = required := by
  rw [taken, trimmed, if_pos h]
  rfl

theorem taken_size_of_not_cut {b : Block} {required : Nat} (h : ¬ Cuttable b required) :
    (taken b required).size = b.size := by
  rw [taken, trimmed, if_neg h]
  rfl

theorem leftover_free {b c : Block} {required : Nat} (h : c ∈ leftover b required) :
    c.free = true := by
  unfold leftover at h
  split at h
  · rw [List.mem_singleton.mp h]
    rfl
  · exact absurd h List.not_mem_nil

theorem live_leftover (b : Block) (required : Nat) : live (leftover b required) = [] := by
  refine List.filter_eq_nil_iff.mpr ?_
  intro c hc
  simp [leftover_free hc]

/-- The leftover takes the place of a free block in a spaced list. -/
theorem spaced_leftover {b c : Block} {r : List Block} {required : Nat} (hc : c.free = true)
    (h : Spaced (c :: r)) : Spaced (leftover b required ++ r) := by
  unfold leftover
  split
  · exact h.replace_head (c := b.rest required) hc.symm
  · exact h.tail

section Occupy

variable {start limit required : Nat} {a : Arena} {l r : List Block} {b : Block}

/-- A block is cut down to a request if much is left over. -/
theorem run_trim (h : Laid start limit a.memory (l ++ b :: r)) (hlo : Header.bytes ≤ required)
    (hgrain : required % grain = 0) (hfit : required ≤ b.size) :
    ∃ m, (Cuttable b required → (split b.address required).run a
        = .ok (b.address + required) { a with memory := m }) ∧
      (¬ Cuttable b required → m = a.memory) ∧
      Laid start limit m (l ++ trimmed b required :: (leftover b required ++ r)) ∧
      KeepsOff (l ++ trimmed b required :: (leftover b required ++ r)) a.memory m := by
  rw [trimmed, leftover]
  by_cases hcut : Cuttable b required
  · have hend := h.end_lt
    have hlt : required + splitSlack < b.size := hcut
    have hslack : Header.bytes ≤ splitSlack := by decide
    have hrun := run_split (a := a) hlo (h.size_eq.symm ▸ hfit) (by omega)
    rw [if_pos hcut, if_pos hcut]
    exact ⟨cutAt a.memory b.address required, fun _ => hrun, fun hno => absurd hcut hno,
      laid_cutAt h hlo hgrain (by omega)⟩
  · rw [if_neg hcut, if_neg hcut]
    exact ⟨a.memory, fun hyes => absurd hyes hcut, fun _ => rfl, h, fun _ _ => rfl⟩

theorem run_occupy (h : Laid start limit a.memory (l ++ b :: r)) (hlo : Header.bytes ≤ required)
    (hgrain : required % grain = 0) (hfit : required ≤ b.size)
    (hused : a.heap.used + b.size < wordLimit) (hcount : a.heap.count + 1 < wordLimit) :
    ∃ m, (occupy b.address required).run a = .ok b.data
        ⟨{ a.heap with
            used := a.heap.used + (taken b required).size, count := a.heap.count + 1 }, m⟩ ∧
      Laid start limit m (l ++ taken b required :: (leftover b required ++ r)) ∧
      KeepsOff (l ++ taken b required :: (leftover b required ++ r)) a.memory m := by
  have hslack := h.slack_lt
  obtain ⟨m, hsplit, hsame, hlaid, hkept⟩ := run_trim h hlo hgrain hfit
  -- with the cut or without it, the rest of the program runs from `m`
  have hrun : ∀ k : HeapM Nat, EStateM.run (if required + splitSlack < b.size then
      discard (split b.address required) >>= fun _ => k else k) a
        = k.run { a with memory := m } := by
    intro k
    by_cases hcut : required + splitSlack < b.size
    · rw [if_pos hcut, run_bind_ok (run_discard_ok (hsplit hcut))]
    · rw [if_neg hcut, hsame hcut]
  -- marking the block live keeps the layout
  obtain ⟨hmarked, hflag⟩ := laid_setFreeAt hlaid false
  change Laid _ _ _ (l ++ taken b required :: _) at hmarked
  have hsize := hmarked.size_eq
  rw [trimmed_address] at hmarked hflag hsize
  rw [taken_address] at hsize
  have hle : (taken b required).size ≤ b.size := trimmed_size_le b required
  refine ⟨setFreeAt m b.address false, ?_, hmarked, ?_⟩
  · simp only [occupy, Checked.add_eq_ok (show required + splitSlack < wordLimit by omega),
      run_lift_ok_bind, run_inspect_bind, h.size_eq]
    rw [hrun]
    simp only [run_change_bind, run_inspect_bind, hsize]
    rw [run_bind_ok (run_addUsed (by simp only; omega)),
      run_bind_ok (run_addCount (by exact hcount)), EStateM.run_pure]
    rfl
  · have htrimmed : (taken b required).address = (trimmed b required).address := rfl
    exact (hkept.replace htrimmed fun _ hc => hc).trans (hflag.of_singleton htrimmed l _)

end Occupy

/-! ## The list after a request -/

/-- The list in which `b`, between `l` and `r`, serves a request. -/
def served (l : List Block) (b : Block) (required : Nat) (r : List Block) : List Block :=
  l ++ taken b required :: (leftover b required ++ r)

section Served

variable {l r : List Block} {b : Block} {required : Nat}

theorem live_served : live (served l b required r) = live l ++ taken b required :: live r := by
  rw [served, live_append, live_cons_live rfl, live_append, live_leftover, List.nil_append]

theorem usedBytes_served :
    usedBytes (served l b required r) = usedBytes l + (taken b required).size + usedBytes r := by
  simp only [usedBytes, live_served, List.map_append, List.map_cons, List.sum_append,
    List.sum_cons]
  omega

/-- A request is served between spaced lists if what is left over had no free
successor before. -/
theorem spaced_served {c : Block} (hl : Spaced l) (hr : Spaced (c :: r)) (hc : c.free = true) :
    Spaced (served l b required r) :=
  spaced_insert_live hl (spaced_leftover hc hr) rfl

theorem roomy_served (h : ∀ c ∈ l ++ r, c.free = false → Header.bytes < c.size)
    (hlo : Header.bytes < required) (hfit : required ≤ b.size) :
    ∀ c ∈ served l b required r, c.free = false → Header.bytes < c.size := by
  intro c hc hlive
  rcases List.mem_append.mp hc with hc | hc
  · exact h c (List.mem_append_left r hc) hlive
  · rcases List.mem_cons.mp hc with rfl | hc
    · exact Nat.lt_of_lt_of_le hlo (le_trimmed_size hfit)
    · rcases List.mem_append.mp hc with hc | hc
      · rw [leftover_free hc] at hlive
        contradiction
      · exact h c (List.mem_append_right l hc) hlive

/-- Serving a request adds one live block. -/
theorem Becomes.exchange_served {a a' : Arena} {bs : List Block}
    (h : Becomes a (served l b required r) a' (served l b required r))
    (hlive : live bs = live l ++ live r) :
    Exchange a bs [] [taken b required] (live bs) a' (served l b required r) := by
  have hafter : (live (served l b required r)).Perm (taken b required :: live bs) := by
    rw [live_served, hlive]
    exact List.perm_middle
  refine h.exchange h.sound.laid ?_ (.refl _) hafter
  intro c hc
  exact (mem_live.mp (hafter.mem_iff.mpr (List.mem_cons_of_mem _ hc))).1

theorem le_taken_capacity {n : Nat} (hsize : blockSize? n = some required)
    (hfit : required ≤ b.size) : n ≤ (taken b required).capacity := by
  have hspec := (blockSize?_spec hsize).1
  have hle : required ≤ (taken b required).size := le_trimmed_size hfit
  rw [Block.capacity]
  omega

/-- A free block that has no free successor serves a request. -/
theorem Loose.occupy {a : Arena} (h : Loose a l b r) (hr : Spaced (b :: r))
    (hlo : Header.bytes < required) (hgrain : required % grain = 0) (hfit : required ≤ b.size) :
    ∃ a', (occupy b.address required).run a = .ok b.data a' ∧
      Becomes a (served l b required r) a' (served l b required r) := by
  obtain ⟨m, hrun, hlaid, hkept⟩ :=
    run_occupy h.laid (Nat.le_of_lt hlo) hgrain hfit h.used_add_lt h.count_lt
  have hused := h.used
  have hcount := h.count
  refine ⟨_, hrun, ⟨hlaid, h.head, ?spaced, ?roomy, ?used, ?count⟩, rfl, rfl, hkept⟩
  case spaced => exact spaced_served h.left hr h.free
  case roomy => exact roomy_served h.roomy hlo hfit
  case used =>
    show a.heap.used + (taken b required).size = _
    rw [usedBytes_served]
    omega
  case count =>
    show a.heap.count + 1 = _
    rw [live_served, List.length_append, List.length_cons]
    omega

end Served

/-! ## First fit -/

/-- Either some block of a list is the first with a property, or none has it. -/
theorem exists_first (p : Block → Prop) [DecidablePred p] (bs : List Block) :
    (∃ l b r, bs = l ++ b :: r ∧ p b ∧ ∀ c ∈ l, ¬ p c) ∨ ∀ b ∈ bs, ¬ p b := by
  cases hfind : bs.find? (fun b => decide (p b)) with
  | none =>
    right
    intro b hb
    simpa using List.find?_eq_none.mp hfind b hb
  | some b =>
    left
    obtain ⟨hb, l, r, rfl, hl⟩ := List.find?_eq_some_iff_append.mp hfind
    exact ⟨l, b, r, rfl, by simpa using hb, fun c hc => by simpa using hl c hc⟩

/-- Whether a block can serve a request. -/
def Fits (required : Nat) (b : Block) : Prop :=
  b.free = true ∧ required ≤ b.size

instance (required : Nat) : DecidablePred (Fits required) :=
  fun _ => inferInstanceAs (Decidable (_ ∧ _))

theorem fit?_eq_some {required : Nat} {b : Block} (h : Fits required b) :
    fit? required b = some b.address :=
  if_pos (by simpa [Fits] using h)

theorem fit?_eq_none {required : Nat} {b : Block} (h : ¬ Fits required b) :
    fit? required b = none :=
  if_neg (by simpa [Fits] using h)

section Alloc

variable {a : Arena} {bs l r : List Block} {b : Block} {n required : Nat}

/-- Of the blocks that can serve a request, the first one does. -/
theorem run_alloc_some (h : Sound a (l ++ b :: r)) (hn : n ≠ 0)
    (hsize : blockSize? n = some required) (hfit : Fits required b)
    (hfirst : ∀ c ∈ l, ¬ Fits required c) :
    ∃ a', (alloc n).run a = .ok (some b.data) a' ∧
      Becomes a (served l b required r) a' (served l b required r) := by
  obtain ⟨hb, hle⟩ := hfit
  have hreq := blockSize?_pos hsize hn
  have hfound : (l ++ b :: r).findSome? (fit? required) = some b.address :=
    List.findSome?_eq_some_iff.mpr
      ⟨l, b, r, rfl, fit?_eq_some ⟨hb, hle⟩, fun c hc => fit?_eq_none (hfirst c hc)⟩
  obtain ⟨a', hrun, hbecomes⟩ :=
    (h.loose hb).occupy h.spaced.right hreq (blockSize?_spec hsize).2 hle
  refine ⟨a', ?_, hbecomes⟩
  rw [alloc, if_neg hn]
  simp only [hsize]
  rw [run_bind_ok (run_find h fun _ _ => rfl), hfound]
  exact run_map_ok hrun some

/-- Without a block for it, a request changes nothing. -/
theorem run_alloc_none (h : Sound a bs)
    (hnone : ∀ required, blockSize? n = some required → ∀ b ∈ bs, ¬ Fits required b) :
    (alloc n).run a = .ok none a := by
  rw [alloc]
  by_cases hn : n = 0
  · rw [if_pos hn, EStateM.run_pure]
  · rw [if_neg hn]
    cases hsize : blockSize? n with
    | none => simp only [EStateM.run_pure]
    | some required =>
      have hfound : bs.findSome? (fit? required) = none :=
        List.findSome?_eq_none_iff.mpr fun b hb => fit?_eq_none (hnone required hsize b hb)
      simp only
      rw [run_bind_ok (run_find h fun _ _ => rfl), hfound]
      exact EStateM.run_pure none a

/-- Only a request for at least one byte is given a pointer. -/
theorem ne_zero_of_alloc {a' : Arena} {p : Nat} (hrun : (alloc n).run a = .ok (some p) a') :
    n ≠ 0 := by
  rintro rfl
  rw [alloc, if_pos rfl] at hrun
  injection hrun with hnone
  contradiction

/-- The first block that can serve a request does, or there is none and nothing
changes. -/
theorem alloc_firstFit (h : Sound a bs) (hn : n ≠ 0) :
    ((alloc n).run a = .ok none a ∧
      ∀ required, blockSize? n = some required → ∀ b ∈ bs, ¬ Fits required b) ∨
    ∃ l b r required a', bs = l ++ b :: r ∧ blockSize? n = some required ∧ Fits required b ∧
      (∀ c ∈ l, ¬ Fits required c) ∧ (alloc n).run a = .ok (some b.data) a' ∧
      Becomes a (served l b required r) a' (served l b required r) := by
  cases hsize : blockSize? n with
  | none =>
    have hnone : ∀ required, blockSize? n = some required → ∀ b ∈ bs, ¬ Fits required b := by
      simp [hsize]
    exact .inl ⟨run_alloc_none h hnone, hsize ▸ hnone⟩
  | some required =>
    rcases exists_first (Fits required) bs with ⟨l, b, r, rfl, hfit, hfirst⟩ | hnone
    · obtain ⟨a', hrun, hbecomes⟩ := run_alloc_some h hn hsize hfit hfirst
      exact .inr ⟨l, b, r, required, a', rfl, rfl, hfit, hfirst, hrun, hbecomes⟩
    · have hnone' : ∀ q, blockSize? n = some q → ∀ b ∈ bs, ¬ Fits q b := by
        intro q hq
        rw [hsize, Option.some.injEq] at hq
        exact hq ▸ hnone
      exact .inl ⟨run_alloc_none h hnone', hsize ▸ hnone'⟩

/-- A request adds a live block that has room for it, or nothing changes and no
block could have served it. -/
theorem alloc_cases (h : Sound a bs) (n : Nat) :
    ((alloc n).run a = .ok none a ∧
      (n = 0 ∨ ∀ required, blockSize? n = some required → ∀ b ∈ bs, ¬ Fits required b)) ∨
    ∃ q a' bs', n ≠ 0 ∧ (alloc n).run a = .ok (some q.data) a' ∧ n ≤ q.capacity ∧
      Exchange a bs [] [q] (live bs) a' bs' := by
  by_cases hn : n = 0
  · refine .inl ⟨?_, .inl hn⟩
    rw [alloc, if_pos hn, EStateM.run_pure]
  · rcases alloc_firstFit h hn with ⟨hrun, hnone⟩ |
      ⟨l, b, r, required, a', rfl, hsize, hfit, -, hrun, hbecomes⟩
    · exact .inl ⟨hrun, .inr hnone⟩
    · rw [← taken_data b required] at hrun
      refine .inr ⟨taken b required, a', served l b required r, hn, hrun,
        le_taken_capacity hsize hfit.2, hbecomes.exchange_served ?_⟩
      rw [live_append, live_cons_free hfit.1]

end Alloc

end Heap

end Supervisor
