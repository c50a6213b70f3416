import Supervisor.Proofs.Heap.Allocate
import Supervisor.Proofs.Heap.Release

/-!
# Resizing

What `Heap.realloc` does with a live block of a sound arena.

- `Resized`: one live block gave way to another, which starts with the same bytes.
- `run_resize_fits`, `run_resize_grow`: the block stays where it is, cut down to
  the request or grown into a free successor.
- `Exchange.moved`: a block whose data is copied to a new one, and which is then freed,
  gave way to that one; hence `relocate_cases`: the block moves, or nothing changes.
- `resize_cases`: which of these happens when.
-/

namespace Supervisor

namespace Heap

open Memory Header

/-- The live block `p` gave way to `q`, which has room for `n` bytes and starts with
as many of the bytes of `p` as that is. -/
structure Resized (a : Arena) (bs : List Block) (p : Block) (n : Nat) (q : Block)
    (rest : List Block) (a' : Arena) (bs' : List Block) : Prop
    extends Exchange a bs [p] [q] rest a' bs' where
  room : n ≤ q.capacity
  data : ∀ i, i < min p.capacity n →
    a'.memory.read (q.data + i) = a.memory.read (p.data + i)

/-! ## In place -/

section InPlace

variable {a a' : Arena} {l r bs' touched : List Block} {p q c : Block} {n required : Nat}

/-- A block keeps its data if it keeps its place among the blocks whose headers
are written. -/
theorem Becomes.resized (h : Becomes a touched a' bs') {m : Memory} {start limit : Nat}
    (hlaid : Laid start limit m touched) (hp : p.free = false)
    (hrest : ∀ c ∈ live l ++ live r, c ∈ touched)
    (hq : q ∈ touched) (haddr : q.address = p.address) (hroom : n ≤ q.capacity)
    (hafter : live bs' = live l ++ q :: live r) :
    Resized a (l ++ p :: r) p n q (live l ++ live r) a' bs' where
  toExchange := by
    refine h.exchange hlaid hrest ?_ ?_
    · rw [live_append, live_cons_live hp]
      exact List.perm_middle
    · rw [hafter]
      exact List.perm_middle
  room := hroom
  data := by
    intro i hi
    have hdata : q.data = p.data := by rw [Block.data, haddr, Block.data]
    have hheld : q.Holds (p.data + i) := hdata ▸ Block.holds_data_add (by omega)
    rw [hdata]
    exact h.kept _ (hlaid.not_headerByte hq hheld)

/-- A block that is cut down leaves a free block behind it. -/
theorem loose_shrink (h : Sound a (l ++ p :: r)) (hp : p.free = false)
    (hlo : Header.bytes < required) (hgrain : required % grain = 0)
    (hcut : required + Header.bytes ≤ p.size) :
    Loose ⟨{ a.heap with used := a.heap.used - (p.size - required) },
      cutAt a.memory p.address required⟩ (l ++ [p.front required]) (p.rest required) r where
  laid := by
    rw [List.append_assoc, List.singleton_append]
    exact (laid_cutAt h.laid (Nat.le_of_lt hlo) hgrain hcut).1
  head := h.head
  free := rfl
  left := by
    have hspaced := h.spaced
    rw [List.append_cons] at hspaced
    exact hspaced.left.replace_last rfl
  right := h.spaced.right.tail
  roomy := by
    intro c hc hlive
    rw [List.append_assoc, List.mem_append] at hc
    rcases hc with hc | hc
    · exact h.roomy_around c (List.mem_append_left r hc) hlive
    · rcases List.mem_cons.mp hc with rfl | hc
      · exact hlo
      · exact h.roomy_around c (List.mem_append_right l hc) hlive
  used := by
    have hused := (h.counters_live hp).1
    have hfront : (p.front required).free = false := hp
    rw [usedBytes_append, usedBytes_cons_live hfront]
    show a.heap.used - (p.size - required) = usedBytes l + (required + 0) + usedBytes r
    omega
  count := by
    have hcount := (h.counters_live hp).2
    have hfront : (p.front required).free = false := hp
    rw [live_append, live_cons_live hfront, List.length_append]
    show a.heap.count = (live l).length + 1 + (live r).length
    omega

/-- A request that fits the block leaves it in place, cut down if much is left
over. -/
theorem run_resize_fits (h : Sound a (l ++ p :: r)) (hp : p.free = false)
    (hlo : Header.bytes < required) (hgrain : required % grain = 0) (hfit : required ≤ p.size)
    (hn : n + Header.bytes ≤ required) :
    ∃ q a' bs', (resize p.address p.data n required).run a = .ok (.ok (some p.data)) a' ∧
      q.address = p.address ∧ Resized a (l ++ p :: r) p n q (live l ++ live r) a' bs' := by
  have hslack := h.laid.slack_lt
  have hbound : Checked.add required splitSlack = .ok (required + splitSlack) :=
    Checked.add_eq_ok (by omega)
  have hstep : (resize p.address p.data n required).run a = EStateM.run
      (if required + splitSlack < p.size then do
        let tail ← split p.address required
        subUsed (← Checked.sub p.size required)
        coalesce tail
        return .ok (some p.data)
      else return .ok (some p.data)) a := by
    simp only [resize, run_inspect_bind, h.laid.size_eq]
    rw [if_pos hfit, hbound, run_lift_ok_bind]
  by_cases hcut : required + splitSlack < p.size
  · have hbytes : Header.bytes ≤ splitSlack := by decide
    have hused : p.size - required ≤ a.heap.used := by
      have hcounters := (h.counters_live hp).1
      omega
    have hend := h.laid.end_lt
    have hsplit := run_split (a := a) (Nat.le_of_lt hlo) (h.laid.size_eq.symm ▸ hfit) (by omega)
    have hmid := laid_cutAt h.laid (Nat.le_of_lt hlo) hgrain (by omega)
    -- what is cut off merges with a free block behind it
    obtain ⟨a', -, hrun, ⟨hsound, hstart, hlimit, hkept⟩, -⟩ :=
      (loose_shrink h hp hlo hgrain (by omega)).coalesce
    rw [List.append_assoc, List.singleton_append] at hsound hkept
    have hbecomes : Becomes a (l ++ p.front required :: p.rest required :: r) a'
        (merged (l ++ p.front required :: p.rest required :: r)) :=
      ⟨hsound, hstart, hlimit, hmid.2.trans hkept⟩
    refine ⟨p.front required, a', _, ?_, rfl,
      hbecomes.resized hmid.1 hp (fun _ hc => mem_of_live_around [_, _] hc)
        List.mem_append_cons_self rfl ?_ ?_⟩
    · rw [hstep, if_pos hcut, run_bind_ok hsplit, Checked.sub_eq_ok hfit, run_lift_ok_bind,
        run_bind_ok (run_subUsed (by exact hused))]
      exact (run_bind_ok hrun _).trans (EStateM.run_pure _ a')
    · exact Nat.le_sub_of_add_le hn
    · rw [live_merged, live_append, live_cons_live (b := p.front required) hp, live_cons_free rfl]
  · refine ⟨p, a, _, ?_, rfl,
      Becomes.resized ⟨h, rfl, rfl, fun _ _ => rfl⟩ h.laid hp
        (fun _ hc => mem_of_live_around [p] hc) List.mem_append_cons_self rfl ?_ ?_⟩
    · rw [hstep, if_neg hcut, EStateM.run_pure]
    · rw [Block.capacity]
      omega
    · rw [live_append, live_cons_live hp]

theorem taken_of_live (hp : p.free = false) : taken p required = trimmed p required := by
  have hfree : (trimmed p required).free = false := (trimmed_free p required).trans hp
  rw [taken]
  generalize trimmed p required = q at hfree
  obtain ⟨address, size, free⟩ := q
  rw [hfree.symm]
  rfl

/-- A block that takes in its free successor and is cut down to the request: what the
program does to memory, and that the counter of bytes comes out right. -/
theorem run_grow (h : Sound a (l ++ p :: c :: r)) (hp : p.free = false) (hc : c.free = true)
    (hlo : Header.bytes < required) (hgrain : required % grain = 0)
    (hsmall : ¬ required ≤ p.size) (hfit : required ≤ p.size + c.size) :
    ∃ m, (resize p.address p.data n required).run a = .ok (.ok (some p.data))
        ⟨{ a.heap with used := usedBytes (served l (p.join c) required r) }, m⟩ ∧
      Laid a.heap.start a.heap.limit m (served l (p.join c) required r) ∧
      KeepsOff (served l (p.join c) required r) a.memory m := by
  have h' := h.next_block
  have hnext : nextAt a.memory p.address = c.address := h.laid.next_eq
  have haddr : c.address = p.address + p.size := h.laid.tiled_right.1
  have hbounds := h.laid.bounds List.mem_append_cons_self
  have hend := h'.laid.end_lt
  have hroom := (h'.loose hc).used_add_lt
  have hused := (h.counters_live hp).1
  rw [usedBytes_cons_free hc] at hused
  -- the two blocks become one
  obtain ⟨hjoined, hjoinKept⟩ := laid_joinAt h.laid
  have hmerge := run_mergeNext (a := { a with heap.used := a.heap.used + c.size })
    (by rw [hnext]; omega) (by rw [hnext, h.laid.size_eq, h'.laid.size_eq]; omega)
  obtain ⟨m₁, hm₁⟩ : ∃ m, joinAt a.memory p.address = m := ⟨_, rfl⟩
  rw [hm₁] at hjoined hjoinKept hmerge
  have hslack : p.size + c.size + splitSlack < wordLimit := hjoined.slack_lt
  have hgrown : sizeAt m₁ p.address = p.size + c.size := hjoined.size_eq
  -- and that one is cut down to the request
  obtain ⟨m, hsplit, hsame, hlaid, hkept⟩ :=
    run_trim (a := ⟨{ a.heap with used := a.heap.used + c.size }, m₁⟩) hjoined (Nat.le_of_lt hlo)
      hgrain hfit
  have hlive : (p.join c).free = false := hp
  rw [← taken_of_live hlive] at hlaid hkept
  have hsub := hjoinKept.replace (taken_address (p.join c) required) fun d hd =>
    List.mem_append_right (leftover (p.join c) required) hd
  refine ⟨m, ?_, hlaid, hsub.trans hkept⟩
  have hbound : Checked.add required splitSlack = .ok (required + splitSlack) :=
    Checked.add_eq_ok (by omega)
  have hsum : Checked.add p.size c.size = .ok (p.size + c.size) :=
    Checked.add_eq_ok (by omega)
  simp only [resize, run_inspect_bind, h.laid.size_eq]
  rw [if_neg hsmall, run_inspect_bind, run_bind_ok (run_isFreeLink_next h.laid),
    if_pos (by simp [hc]), run_inspect_bind, hnext, h'.laid.size_eq, hsum, run_lift_ok_bind,
    if_pos hfit, run_bind_ok (run_addUsed (by exact hroom)), run_bind_ok hmerge,
    run_inspect_bind, hgrown, hbound, run_lift_ok_bind, usedBytes_served]
  by_cases hcut : Cuttable (p.join c) required
  · -- the successor was counted whole, so what is cut off is taken off again
    have hsize := taken_size_of_cut hcut
    have hfinal : a.heap.used + c.size - (p.size + c.size - required)
        = usedBytes l + (taken (p.join c) required).size + usedBytes r := by omega
    have hcutOff : Checked.sub (p.size + c.size) required = .ok (p.size + c.size - required) :=
      Checked.sub_eq_ok hfit
    rw [if_pos (by exact hcut), hcutOff, ← hfinal]
    refine (run_bind_ok (run_discard_ok (hsplit hcut)) _).trans ?_
    rw [run_lift_ok_bind]
    refine (run_bind_ok (run_subUsed ?_) _).trans (EStateM.run_pure _ _)
    show p.size + c.size - required ≤ a.heap.used + c.size
    omega
  · have hsize := taken_size_of_not_cut hcut
    have hjoin : (p.join c).size = p.size + c.size := rfl
    have hfinal : a.heap.used + c.size
        = usedBytes l + (taken (p.join c) required).size + usedBytes r := by omega
    rw [if_neg (by exact hcut), hsame hcut, ← hfinal]
    exact EStateM.run_pure _ _

/-- A block that takes in its free successor serves a request in its own place. -/
theorem run_resize_grow (h : Sound a (l ++ p :: c :: r)) (hp : p.free = false)
    (hc : c.free = true) (hlo : Header.bytes < required) (hgrain : required % grain = 0)
    (hsmall : ¬ required ≤ p.size) (hfit : required ≤ p.size + c.size)
    (hn : n + Header.bytes ≤ required) :
    ∃ q a' bs', (resize p.address p.data n required).run a = .ok (.ok (some p.data)) a' ∧
      q.address = p.address ∧
      Resized a (l ++ p :: c :: r) p n q (live l ++ live (c :: r)) a' bs' := by
  obtain ⟨m, hrun, hlaid, hkept⟩ := run_grow h hp hc hlo hgrain hsmall hfit (n := n)
  have hafter : live (served l (p.join c) required r)
      = live l ++ taken (p.join c) required :: live (c :: r) := by
    rw [live_served, live_cons_free hc]
  have hbecomes : Becomes a (served l (p.join c) required r)
      ⟨{ a.heap with used := usedBytes (served l (p.join c) required r) }, m⟩
      (served l (p.join c) required r) := by
    refine ⟨⟨hlaid, h.head, ?spaced, ?roomy, rfl, ?count⟩, rfl, rfl, hkept⟩
    case spaced => exact spaced_served h.spaced.left h.spaced.right.tail hc
    case roomy =>
      refine roomy_served (fun d hd => h.roomy_around d ?_) hlo hfit
      rw [List.mem_append] at hd ⊢
      exact hd.imp_right (List.mem_cons_of_mem c)
    case count =>
      show a.heap.count = _
      rw [(h.counters_live hp).2, hafter, List.length_append, List.length_cons]
      omega
  have hle : required ≤ (taken (p.join c) required).size := le_trimmed_size hfit
  refine ⟨taken (p.join c) required, _, _, hrun, taken_address _ _,
    hbecomes.resized hlaid hp ?_ List.mem_append_cons_self (taken_address _ _) ?_ hafter⟩
  · intro d hd
    have hmem : d ∈ live (served l (p.join c) required r) := by
      rw [hafter]
      exact List.perm_middle.mem_iff.mpr (List.mem_cons_of_mem _ hd)
    exact (mem_live.mp hmem).1
  · rw [Block.capacity]
    omega

end InPlace

/-! ## Moving -/

section Move

variable {a : Arena} {bs : List Block} {p q : Block} {n : Nat}

/-- A copy into a live block leaves the arena sound and the data of the other live
blocks alone. -/
theorem sound_copy (h : Sound a bs) (hq : q ∈ live bs) (source : Nat) {count : Nat}
    (hcount : count ≤ q.capacity) :
    Sound { a with memory := a.memory.copy source q.data count } bs ∧
      ∀ c ∈ live bs, c ≠ q → ∀ x, c.Holds x →
        (a.memory.copy source q.data count).read x = a.memory.read x := by
  have hmem := (mem_live.mp hq).1
  have hchanged := changedIn_copy a.memory source q.data count
  have hheld : ∀ x, q.data ≤ x → x < q.data + count → q.Holds x := by
    intro x hlo hhi
    have := Block.holds_data_add (b := q) (i := x - q.data) (by omega)
    rwa [Nat.add_sub_of_le hlo] at this
  refine ⟨h.of_memory fun x hx => hchanged.read_eq ?_, fun c hc hne x hx => hchanged.read_eq ?_⟩
  · by_contra hin
    exact h.laid.not_headerByte hmem (hheld x (by omega) (by omega)) hx
  · by_contra hin
    exact h.laid.not_holds_of_ne (mem_live.mp hc).1 hmem hne hx (hheld x (by omega) (by omega))

/-- A live block whose first bytes are copied to one that was just added, and which is
then freed, has given way to that one. -/
theorem Exchange.moved {a₁ : Arena} {bs₁ : List Block} {keep : Nat}
    (h : Exchange a bs [] [q] (live bs) a₁ bs₁) (hp : p ∈ live bs) (hkeep : keep ≤ p.capacity)
    (hroom : keep ≤ q.capacity) :
    ∃ rest a' bs', (free p.data).run { a₁ with memory := a₁.memory.copy p.data q.data keep }
        = .ok (.ok ()) a' ∧ Exchange a bs [p] [q] rest a' bs' ∧
      ∀ i, i < keep → a'.memory.read (q.data + i) = a.memory.read (p.data + i) := by
  -- the live blocks in the three lists
  let others := (live bs).erase p
  have hbs : (live bs).Perm (p :: others) := List.perm_cons_erase hp
  have hbs₁ : (live bs₁).Perm (p :: q :: others) :=
    (h.after.trans (hbs.cons q)).trans (List.Perm.swap p q others)
  have hdistinct := hbs₁.nodup_iff.mp h.sound.nodup_live
  have hp₁ : p ∈ live bs₁ := hbs₁.mem_iff.mpr List.mem_cons_self
  have hq₁ : q ∈ live bs₁ := hbs₁.mem_iff.mpr (List.mem_cons_of_mem p List.mem_cons_self)
  have hqp : q ≠ p := fun heq => (List.nodup_cons.mp hdistinct).1 (heq ▸ List.mem_cons_self)
  obtain ⟨hcopied, hcopyKept⟩ := sound_copy h.sound hq₁ p.data hroom
  obtain ⟨a', bs', rest, hfree, hex⟩ := free_cases hcopied hp₁
  have hrest : rest.Perm (q :: others) := (hex.before.symm.trans hbs₁).cons_inv
  refine ⟨others, a', bs', hfree, ⟨hex.sound, hex.start.trans h.start,
    hex.limit.trans h.limit, hbs, hex.after.trans hrest, ?kept⟩, ?data⟩
  case kept =>
    intro c hc x hx
    have hcq : c ≠ q := fun heq =>
      (List.nodup_cons.mp (List.nodup_cons.mp hdistinct).2).1 (heq ▸ hc)
    have hc₁ : c ∈ live bs₁ :=
      hbs₁.mem_iff.mpr (List.mem_cons_of_mem p (List.mem_cons_of_mem q hc))
    calc a'.memory.read x = _ := hex.kept c (hrest.mem_iff.mpr (List.mem_cons_of_mem q hc)) x hx
      _ = a₁.memory.read x := hcopyKept c hc₁ hcq x hx
      _ = a.memory.read x := h.kept c (hbs.mem_iff.mpr (List.mem_cons_of_mem p hc)) x hx
  case data =>
    intro i hi
    -- the old block is freed after the copy, so the two do not overlap
    have hapart := h.sound.laid.tiled.eq_or_apart (mem_live.mp hp₁).1 (mem_live.mp hq₁).1
    have hranges : p.data + keep ≤ q.data ∨ q.data + keep ≤ p.data := by
      have hpq := hapart.resolve_left (Ne.symm hqp)
      simp only [Block.data, payload, Block.capacity] at hkeep hroom ⊢
      omega
    calc a'.memory.read (q.data + i)
        = _ := hex.kept q (hrest.mem_iff.mpr List.mem_cons_self) _
          (Block.holds_data_add (by omega))
      _ = a₁.memory.read (p.data + i) := read_copy_of_lt a₁.memory hranges hi
      _ = a.memory.read (p.data + i) := h.kept p hp _ (Block.holds_data_add (by omega))

/-- A block moves to where a request of that size is served, or nothing changes. -/
theorem relocate_cases (h : Sound a bs) (hp : p ∈ live bs) (hn : n ≠ 0) :
    ((relocate p.data p.size n).run a = .ok (.ok none) a ∧
      ∀ required, blockSize? n = some required → ∀ b ∈ bs, ¬ Fits required b) ∨
    ∃ q rest a' bs', (relocate p.data p.size n).run a = .ok (.ok (some q.data)) a' ∧
      Resized a bs p n q rest a' bs' := by
  rcases alloc_cases h n with ⟨hrun, hnone⟩ | ⟨q, a₁, bs₁, -, hrun, hroom, hex⟩
  · refine .inl ⟨?_, hnone.resolve_left hn⟩
    rw [relocate, run_bind_ok hrun]
    exact EStateM.run_pure _ a
  · right
    have hsize : Header.bytes ≤ p.size := (h.laid.sized p (mem_live.mp hp).1).1
    obtain ⟨rest, a', bs', hfree, hmoved, hdata⟩ :=
      hex.moved hp (Nat.min_le_left p.capacity n) (Nat.le_trans (Nat.min_le_right _ n) hroom)
    refine ⟨q, rest, a', bs', ?_, ⟨hmoved, hroom, hdata⟩⟩
    have hkept : Checked.sub p.size Header.bytes = .ok p.capacity := Checked.sub_eq_ok hsize
    rw [relocate, run_bind_ok hrun]
    simp only [hkept, run_lift_ok_bind, run_change_bind]
    rw [run_bind_ok hfree]
    exact EStateM.run_pure _ a'

end Move

/-! ## Every case -/

section Realloc

variable {a : Arena} {bs l r : List Block} {p : Block} {n required : Nat}

/-- Whether a request fits the live block `p` as it is, or together with a free
block right behind it. -/
def InPlace (bs : List Block) (p : Block) (required : Nat) : Prop :=
  required ≤ p.size ∨
    ∃ c ∈ bs, c.free = true ∧ c.address = p.address + p.size ∧ required ≤ p.size + c.size

/-- Only the block behind `p` can be the free one that helps. -/
theorem inPlace_iff (h : Laid a.heap.start a.heap.limit a.memory (l ++ p :: r)) :
    InPlace (l ++ p :: r) p required ↔
      required ≤ p.size ∨ ∃ c r', r = c :: r' ∧ c.free = true ∧ required ≤ p.size + c.size := by
  refine or_congr_right ⟨?_, ?_⟩
  · rintro ⟨c, hc, hfree, haddr, hfit⟩
    cases r with
    | nil =>
      have hend := (h.bounds hc).2
      have hlast : p.address + p.size = a.heap.limit := h.tiled_right
      have hpos : 0 < Header.bytes := by decide
      omega
    | cons d r =>
      -- both start where `p` ends
      have hd : d ∈ l ++ p :: d :: r :=
        List.mem_append_right l (List.mem_cons_of_mem p List.mem_cons_self)
      have heq : c = d := h.eq_of_address hc hd (haddr.trans h.tiled_right.1.symm)
      exact ⟨c, r, by rw [heq], hfree, hfit⟩
  · rintro ⟨c, r, rfl, hfree, hfit⟩
    exact ⟨c, List.mem_append_right l (List.mem_cons_of_mem p List.mem_cons_self), hfree,
      h.tiled_right.1, hfit⟩

/-- A request that does not fit in place is a move. -/
theorem run_resize_move (h : Sound a (l ++ p :: r))
    (hout : ¬ InPlace (l ++ p :: r) p required) :
    (resize p.address p.data n required).run a = (relocate p.data p.size n).run a := by
  rw [inPlace_iff h.laid] at hout
  obtain ⟨hsmall, hnext⟩ := not_or.mp hout
  simp only [resize, run_inspect_bind, h.laid.size_eq]
  rw [if_neg hsmall, run_inspect_bind, run_bind_ok (run_isFreeLink_next h.laid)]
  cases r with
  | nil => rfl
  | cons c r =>
    cases hc : c.free with
    | false => rw [if_neg (by simp [hc])]
    | true =>
      have hsmall' : ¬ required ≤ p.size + c.size := fun hfit => hnext ⟨c, r, rfl, hc, hfit⟩
      have h' := h.laid.next_block
      have hlink : nextAt a.memory p.address = c.address := h.laid.next_eq
      have haddr : c.address = p.address + p.size := h.laid.tiled_right.1
      have hend := h'.end_lt
      have hsum : Checked.add p.size c.size = .ok (p.size + c.size) :=
        Checked.add_eq_ok (by omega)
      rw [if_pos (by simp [hc]), run_inspect_bind, hlink, h'.size_eq, hsum, run_lift_ok_bind,
        if_neg hsmall']

/-- A live block stays in place if it can; if it cannot, it moves to where the
request is served, and without such a place nothing changes. -/
theorem resize_cases (h : Sound a bs) (hp : p ∈ live bs) (hn : n ≠ 0)
    (hsize : blockSize? n = some required) :
    (InPlace bs p required ∧ ∃ q rest a' bs', q.address = p.address ∧
      (resize p.address p.data n required).run a = .ok (.ok (some q.data)) a' ∧
      Resized a bs p n q rest a' bs') ∨
    (¬ InPlace bs p required ∧ ∃ q rest a' bs',
      (resize p.address p.data n required).run a = .ok (.ok (some q.data)) a' ∧
      Resized a bs p n q rest a' bs') ∨
    (¬ InPlace bs p required ∧ (∀ b ∈ bs, ¬ Fits required b) ∧
      (resize p.address p.data n required).run a = .ok (.ok none) a) := by
  obtain ⟨hmem, hlive⟩ := mem_live.mp hp
  obtain ⟨l, r, rfl⟩ := List.append_of_mem hmem
  have hlo := blockSize?_pos hsize hn
  obtain ⟨hroom, hgrain⟩ := blockSize?_spec hsize
  have hdata : ∀ q : Block, q.address = p.address → p.data = q.data := fun q hq => by
    rw [Block.data, Block.data, hq]
  by_cases hin : InPlace (l ++ p :: r) p required
  · refine .inl ⟨hin, ?_⟩
    by_cases hfit : required ≤ p.size
    · obtain ⟨q, a', bs', hrun, haddr, hresized⟩ :=
        run_resize_fits h hlive hlo hgrain hfit hroom
      exact ⟨q, _, a', bs', haddr, hdata q haddr ▸ hrun, hresized⟩
    · obtain ⟨c, r, rfl, hc, hgrown⟩ := ((inPlace_iff h.laid).mp hin).resolve_left hfit
      obtain ⟨q, a', bs', hrun, haddr, hresized⟩ :=
        run_resize_grow h hlive hc hlo hgrain hfit hgrown hroom
      exact ⟨q, _, a', bs', haddr, hdata q haddr ▸ hrun, hresized⟩
  · rw [run_resize_move h hin]
    rcases relocate_cases h hp hn with ⟨hrun, hnone⟩ | ⟨q, rest, a', bs', hrun, hresized⟩
    · exact .inr (.inr ⟨hin, hnone required hsize, hrun⟩)
    · exact .inr (.inl ⟨hin, q, rest, a', bs', hrun, hresized⟩)

/-- Resizing a live block is a matter of its header and the rounded request. -/
theorem run_realloc_live (h : Sound a bs) (hp : p ∈ live bs) (hn : n ≠ 0) :
    (realloc (some p.data) n).run a = match blockSize? n with
      | none => .ok (.ok none) a
      | some required => (resize p.address p.data n required).run a := by
  rw [realloc, if_neg hn, run_bind_ok (run_validate_live h hp)]
  cases blockSize? n with
  | none => exact EStateM.run_pure _ a
  | some required => rfl

/-- Resizing to nothing is freeing, with no address as its answer. -/
theorem run_realloc_zero (address : Nat) (a : Arena) :
    (realloc (some address) 0).run a = match (free address).run a with
      | .ok (.ok ()) a' => .ok (.ok none) a'
      | .ok (.error e) a' => .ok (.error e) a'
      | .error e a' => .error e a' := by
  simp only [realloc, if_true]
  rw [EStateM.run_bind]
  cases (free address).run a with
  | error e a' => rfl
  | ok answer a' => cases answer <;> rfl

/-- Resizing no allocation is allocating. -/
theorem run_realloc_none (n : Nat) (a : Arena) :
    (realloc none n).run a = match (alloc n).run a with
      | .ok address a' => .ok (.ok address) a'
      | .error e a' => .error e a' := by
  rw [realloc, ← bind_pure_comp, EStateM.run_bind]
  cases (alloc n).run a <;> rfl

end Realloc

end Heap

end Supervisor
