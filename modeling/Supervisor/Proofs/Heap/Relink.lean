import Supervisor.Proofs.Heap.Layout
import Supervisor.Proofs.Heap.Run

/-!
# Cutting and joining blocks

The three ways in which an operation edits the block list, first as changes to
memory, then as what they do to a layout:

- `cutAt`: a block becomes two, the second one free (`laid_cutAt`);
- `joinAt`: two neighbours become one (`laid_joinAt`);
- a block changes its flag (`laid_setFreeAt`).

Each of them rewrites a header or two and the link of the next block back to
them. `KeepsOff` says that nothing outside the headers of the new list changed.
`run_split` and `run_mergeNext` tie the first two to the heap's own programs.
-/

namespace Supervisor

namespace Block

/-- The first `size` bytes of a block. -/
def front (b : Block) (size : Nat) : Block :=
  { b with size := size }

/-- What is left of a block behind its first `size` bytes, as a free block. -/
def rest (b : Block) (size : Nat) : Block :=
  ⟨b.address + size, b.size - size, true⟩

/-- The block with another flag. -/
def mark (b : Block) (free : Bool) : Block :=
  { b with free := free }

end Block

namespace Heap

open Memory Header

/-- No byte outside the headers of `bs` changes. -/
def KeepsOff (bs : List Block) (m n : Memory) : Prop :=
  ∀ x, ¬ HeaderByte bs x → n.read x = m.read x

theorem KeepsOff.trans {bs : List Block} {m n o : Memory} (h : KeepsOff bs m n)
    (h' : KeepsOff bs n o) : KeepsOff bs m o :=
  fun x hx => (h' x hx).trans (h x hx)

theorem KeepsOff.mono {bs bs' : List Block} {m n : Memory} (h : KeepsOff bs m n)
    (hsub : ∀ b ∈ bs, ∃ c ∈ bs', c.address = b.address) : KeepsOff bs' m n := by
  refine fun x hx => h x ?_
  rintro ⟨b, hb, hin⟩
  obtain ⟨c, hc, haddr⟩ := hsub b hb
  exact hx ⟨c, hc, haddr ▸ hin⟩

/-- Other blocks may follow, and another one may start where `b` does. -/
theorem KeepsOff.replace {l r r' : List Block} {b c : Block} {m n : Memory}
    (h : KeepsOff (l ++ b :: r) m n) (haddr : c.address = b.address) (hr : ∀ d ∈ r, d ∈ r') :
    KeepsOff (l ++ c :: r') m n := by
  refine h.mono ?_
  intro d hd
  rcases List.mem_append.mp hd with hd | hd
  · exact ⟨d, List.mem_append_left _ hd, rfl⟩
  · rcases List.mem_cons.mp hd with rfl | hd
    · exact ⟨c, List.mem_append_cons_self, haddr⟩
    · exact ⟨d, List.mem_append_right l (List.mem_cons_of_mem c (hr d hd)), rfl⟩

theorem KeepsOff.of_singleton {b c : Block} {m n : Memory} (h : KeepsOff [b] m n)
    (haddr : c.address = b.address) (l r : List Block) : KeepsOff (l ++ c :: r) m n := by
  refine h.mono fun d hd => ⟨c, List.mem_append_cons_self, ?_⟩
  rw [List.mem_singleton.mp hd, haddr]

/-! ## The changes to memory -/

/-- Points the block at `next`, if there is one, back to `prev`. -/
def relinkPrev (m : Memory) (next prev : Nat) : Memory :=
  if next = 0 then m else setPrevAt m next prev

/-- Memory after a cut of `block` behind `size` bytes. -/
def cutAt (m : Memory) (block size : Nat) : Memory :=
  let tail := block + size
  let next := nextAt m block
  let m := relinkPrev (writeAt m tail ⟨sizeAt m block - size, true, next, block⟩) next tail
  setSizeAt (setNextAt m block tail) block size

/-- Memory after `block` has taken in the block behind it. -/
def joinAt (m : Memory) (block : Nat) : Memory :=
  let next := nextAt m block
  let after := nextAt m next
  relinkPrev (setNextAt (setSizeAt m block (sizeAt m block + sizeAt m next)) block after) after
    block

/-! ## Running the two programs -/

/-- The conditional relinking in the middle of a program. -/
theorem run_relink_bind {α : Type} (next prev : Nat) (k : HeapM α) (a : Arena) :
    EStateM.run (if next ≠ 0 then change (setPrevAt · next prev) >>= fun _ => k else k) a =
      k.run { a with memory := relinkPrev a.memory next prev } := by
  by_cases hz : next = 0
  · rw [if_neg (not_not_intro hz), relinkPrev, if_pos hz]
  · rw [if_pos hz, run_change_bind, relinkPrev, if_neg hz]

/-- The conditional relinking at the end of a program. -/
theorem run_relink (next prev : Nat) (a : Arena) :
    EStateM.run (if next ≠ 0 then change (setPrevAt · next prev) else pure ()) a =
      .ok () { a with memory := relinkPrev a.memory next prev } := by
  by_cases hz : next = 0
  · rw [if_neg (not_not_intro hz), relinkPrev, if_pos hz, EStateM.run_pure]
  · rw [if_pos hz, run_change, relinkPrev, if_neg hz]

theorem run_split {a : Arena} {block size : Nat} (hlo : Header.bytes ≤ size)
    (hhi : size ≤ sizeAt a.memory block) (hsum : block + size < wordLimit) :
    (split block size).run a =
      .ok (block + size) { a with memory := cutAt a.memory block size } := by
  -- writing the header behind the block leaves the block's own link
  have hnext : ∀ h, nextAt (writeAt a.memory (block + size) h) block = nextAt a.memory block := by
    intro h
    have hsame := readAt_of_changedIn (b := block)
      (changedIn_writeAt a.memory (block + size) h) (by omega)
    exact (fields_eq hsame).2.2.1
  simp only [split, Checked.add_eq_ok hsum, Checked.sub_eq_ok hhi, run_lift_ok_bind,
    run_inspect_bind, run_change_bind, run_relink_bind, EStateM.run_pure, hnext, cutAt]

theorem run_mergeNext {a : Arena} {block : Nat}
    (hapart : block + Header.bytes ≤ nextAt a.memory block)
    (hsum : sizeAt a.memory block + sizeAt a.memory (nextAt a.memory block) < wordLimit) :
    (mergeNext block).run a = .ok () { a with memory := joinAt a.memory block } := by
  -- neither write to the block's header reaches the header behind it
  have hsize : ∀ n size, nextAt (setSizeAt n block size) (nextAt a.memory block)
      = nextAt n (nextAt a.memory block) := fun n size =>
    (fields_eq (readAt_of_changedIn (changedIn_setSizeAt n block size) (.inr hapart))).2.2.1
  have hlink : ∀ n link, nextAt (setNextAt n block link) (nextAt a.memory block)
      = nextAt n (nextAt a.memory block) := fun n link =>
    (fields_eq (readAt_of_changedIn (changedIn_setNextAt n block link) (.inr hapart))).2.2.1
  simp only [mergeNext, Checked.add_eq_ok hsum, run_lift_ok_bind, run_inspect_bind,
    run_change_bind, run_relink, hsize, hlink, joinAt]

/-! ## Relinking the next block -/

section Relink

variable {m : Memory} {r : List Block} {prev q : Nat}

/-- Relinking the first block of `r` is a write to its header, or nothing. -/
theorem relinkPrev_cases (m : Memory) (r : List Block) (prev : Nat) :
    relinkPrev m (firstLink r 0) prev = m ∨
      ∃ c ∈ r, relinkPrev m (firstLink r 0) prev = setPrevAt m c.address prev := by
  cases r with
  | nil => exact .inl rfl
  | cons c r =>
    by_cases hz : c.address = 0
    · exact .inl (if_pos hz)
    · exact .inr ⟨c, List.mem_cons_self, if_neg hz⟩

theorem readAt_relinkPrev {b : Nat}
    (hapart : ∀ c ∈ r, b + Header.bytes ≤ c.address ∨ c.address + Header.bytes ≤ b) :
    readAt (relinkPrev m (firstLink r 0) prev) b = readAt m b := by
  rcases relinkPrev_cases m r prev with h | ⟨c, hc, h⟩
  · rw [h]
  · rw [h]
    exact readAt_of_changedIn (changedIn_setPrevAt m c.address prev) (hapart c hc)

theorem read_relinkPrev {x : Nat} (hx : ¬ HeaderByte r x) :
    (relinkPrev m (firstLink r 0) prev).read x = m.read x := by
  rcases relinkPrev_cases m r prev with h | ⟨c, hc, h⟩
  · rw [h]
  · rw [h]
    refine (changedIn_setPrevAt m c.address prev).read_eq ?_
    have hout : ¬ (c.address ≤ x ∧ x < c.address + Header.bytes) := fun hin => hx ⟨c, hc, hin⟩
    omega

/-- After relinking, the list hangs on its new predecessor. -/
theorem linked_relinkPrev {start limit : Nat} (h : Linked m prev r 0) (hpos : 0 < start)
    (htiled : Tiled start r limit) (hsize : ∀ c ∈ r, Header.bytes ≤ c.size)
    (hq : q < wordLimit) : Linked (relinkPrev m (firstLink r 0) q) q r 0 := by
  cases r with
  | nil => trivial
  | cons c r =>
    obtain ⟨hc, hr⟩ := h
    obtain ⟨hstart, htiled⟩ := htiled
    have hne : c.address ≠ 0 := by omega
    have hset : relinkPrev m (firstLink (c :: r) 0) q = setPrevAt m c.address q := if_neg hne
    rw [hset]
    refine ⟨?_, hr.of_changedIn (changedIn_setPrevAt m c.address q) fun d hd => ?_⟩
    · rw [readAt_setPrevAt m c.address hq, hc]
    · have hcsize := hsize c List.mem_cons_self
      have hd := (htiled.bounds hd).1
      omega

end Relink

/-! ## What they do to a layout -/

section Layouts

variable {start limit size : Nat} {m n : Memory} {l r : List Block} {b c : Block}

/-- Every number of a layout is a word. -/
theorem Laid.end_lt (h : Laid start limit m (l ++ b :: r)) :
    b.address + b.size < wordLimit := by
  have hend := (h.bounds List.mem_append_cons_self).2.2
  have hbounded := h.bounded
  omega

/-- Words hold every block size of a layout with the slack of a cut. -/
theorem Laid.slack_lt (h : Laid start limit m (l ++ b :: r)) :
    b.size + splitSlack < wordLimit := by
  have hend := (h.bounds List.mem_append_cons_self).2.2
  have hbounded := h.bounded
  have hslack : splitSlack < wordLimit / 2 := by decide
  omega

/-- In a layout, some blocks give way to others that take up the same place. -/
theorem Laid.replace (old new : List Block) (h : Laid start limit m (l ++ (old ++ r)))
    (htiled : ∀ {first last}, Tiled first old last → Tiled first new last)
    (hsized : ∀ c ∈ new, Header.bytes ≤ c.size ∧ c.size % grain = 0)
    (hlinked : Linked n 0 (l ++ (new ++ r)) 0) : Laid start limit n (l ++ (new ++ r)) := by
  refine ⟨h.positive, h.inhabited, h.aligned, h.bounded, ?tiled, ?sized, hlinked⟩
  case tiled =>
    obtain ⟨first, hl, hright⟩ := tiled_append.mp h.tiled
    obtain ⟨last, hold, hr⟩ := tiled_append.mp hright
    exact tiled_append.mpr ⟨first, hl, tiled_append.mpr ⟨last, htiled hold, hr⟩⟩
  case sized =>
    intro c hc
    rcases List.mem_append.mp hc with hc | hc
    · exact h.sized c (List.mem_append_left _ hc)
    · rcases List.mem_append.mp hc with hc | hc
      · exact hsized c hc
      · exact h.sized c (List.mem_append_right l (List.mem_append_right old hc))

/-- The blocks in front of `b` keep their links when only headers from `b` on change. -/
theorem Laid.linked_left (h : Laid start limit m (l ++ b :: r)) {bs : List Block}
    (hkept : KeepsOff bs m n) (hbs : ∀ c ∈ bs, b.address ≤ c.address) :
    Linked n 0 l b.address := by
  refine (linked_append.mp h.linked).1.congr fun c hc => readAt_congr fun x _ hhi => hkept x ?_
  rintro ⟨d, hd, hlo, -⟩
  have hbefore := h.before hc
  have hfrom := hbs d hd
  omega

/-- The link to the next block is a word. -/
theorem Laid.link_lt (h : Laid start limit m (l ++ b :: r)) : firstLink r 0 < wordLimit := by
  rw [← h.next_eq]
  exact word_lt m _

/-! ### Cuts -/

/-- A cut, in terms of the list: the new header, the link back to it, and the two fields
of the old one. -/
theorem cutAt_eq (h : Laid start limit m (l ++ b :: r)) :
    cutAt m b.address size =
      setSizeAt (setNextAt (relinkPrev (writeAt m (b.address + size)
        ⟨b.size - size, true, firstLink r 0, b.address⟩) (firstLink r 0) (b.address + size))
          b.address (b.address + size)) b.address size := by
  simp only [cutAt, h.next_eq, h.size_eq]

theorem keepsOff_cutAt (h : Laid start limit m (l ++ b :: r)) (size : Nat) :
    KeepsOff (b.front size :: b.rest size :: r) m (cutAt m b.address size) := by
  intro x hx
  simp only [headerByte_cons, Block.front, Block.rest, not_or] at hx
  obtain ⟨hxb, hxt, hxr⟩ := hx
  rw [cutAt_eq h, (changedIn_setSizeAt _ b.address size).read_eq (by omega),
    (changedIn_setNextAt _ b.address _).read_eq (by omega), read_relinkPrev hxr,
    (changedIn_writeAt m _ _).read_eq (by omega)]

/-- After a cut, the two parts and what follows them are linked up. -/
theorem linked_cutAt (h : Laid start limit m (l ++ b :: r)) (hlo : Header.bytes ≤ size)
    (hhi : size + Header.bytes ≤ b.size) :
    Linked (cutAt m b.address size) (lastLink 0 l) (b.front size :: b.rest size :: r) 0 := by
  have hword := h.end_lt
  have hpos := h.address_pos List.mem_append_cons_self
  have hafter : ∀ c ∈ r, b.address + b.size ≤ c.address := fun c hc => (h.after hc).2
  -- the four writes, in their order
  let tail := b.address + size
  let m₁ := writeAt m tail ⟨b.size - size, true, firstLink r 0, b.address⟩
  let m₂ := relinkPrev m₁ (firstLink r 0) tail
  let m₃ := setNextAt m₂ b.address tail
  let m₄ := setSizeAt m₃ b.address size
  have h₁ : ChangedIn m m₁ tail Header.bytes := changedIn_writeAt m tail _
  have h₃ : ChangedIn m₂ m₃ b.address Header.bytes := changedIn_setNextAt m₂ b.address tail
  have h₄ : ChangedIn m₃ m₄ b.address Header.bytes := changedIn_setSizeAt m₃ b.address size
  have hfront : readAt m₄ b.address = ⟨size, b.free, tail, lastLink 0 l⟩ := by
    rw [readAt_setSizeAt m₃ b.address (by omega), readAt_setNextAt m₂ b.address (by omega),
      readAt_relinkPrev (fun c hc => .inl ?_), readAt_of_changedIn h₁ (by omega), h.header_eq]
    have := hafter c hc
    omega
  have hrest : readAt m₄ tail = ⟨b.size - size, true, firstLink r 0, b.address⟩ := by
    rw [readAt_of_changedIn h₄ (by omega), readAt_of_changedIn h₃ (by omega),
      readAt_relinkPrev (fun c hc => .inl ?_), readAt_writeAt m tail (by simp only; omega)
        h.link_lt (by simp only; omega)]
    have := hafter c hc
    omega
  have hright : Linked m₄ tail r 0 := by
    -- behind the new header, the list first hangs on the old block
    have hold : Linked m₁ b.address r 0 := by
      refine (linked_append.mp h.linked).2.2.of_changedIn h₁ fun c hc => ?_
      have := hafter c hc
      omega
    have hnew : Linked m₂ tail r 0 := by
      refine linked_relinkPrev hold (by omega) h.tiled_right (fun c hc => ?_) (by omega)
      exact (h.sized c (List.mem_append_right l (List.mem_cons_of_mem b hc))).1
    refine (hnew.of_changedIn h₃ fun c hc => ?_).of_changedIn h₄ fun c hc => ?_
    · have := hafter c hc
      omega
    · have := hafter c hc
      omega
  rw [cutAt_eq h]
  exact ⟨hfront, hrest, hright⟩

/-- A cut makes two blocks of one and touches no byte outside their headers and
that of the next block. -/
theorem laid_cutAt (h : Laid start limit m (l ++ b :: r)) (hlo : Header.bytes ≤ size)
    (hgrain : size % grain = 0) (hhi : size + Header.bytes ≤ b.size) :
    Laid start limit (cutAt m b.address size) (l ++ b.front size :: b.rest size :: r) ∧
      KeepsOff (l ++ b.front size :: b.rest size :: r) m (cutAt m b.address size) := by
  have hb := h.sized b List.mem_append_cons_self
  have hkept := keepsOff_cutAt h size
  constructor
  · refine Laid.replace [b] [b.front size, b.rest size] h ?tiled ?sized ?linked
    case tiled =>
      rintro first last ⟨rfl, hend⟩
      refine ⟨rfl, rfl, ?_⟩
      have hlast : b.address + b.size = last := hend
      show b.address + size + (b.size - size) = last
      omega
    case sized =>
      intro c hc
      rcases List.mem_cons.mp hc with rfl | hc
      · exact ⟨hlo, hgrain⟩
      · rw [List.mem_singleton.mp hc]
        have hsize : b.size % 8 = 0 := hb.2
        have hfront : size % 8 = 0 := hgrain
        exact ⟨Nat.le_sub_of_add_le' hhi, (by omega : (b.size - size) % 8 = 0)⟩
    case linked =>
      refine linked_append.mpr ⟨h.linked_left hkept fun c hc => ?_, linked_cutAt h hlo hhi⟩
      rcases List.mem_cons.mp hc with rfl | hc
      · exact Nat.le_refl _
      · rcases List.mem_cons.mp hc with rfl | hc
        · exact Nat.le_add_right _ _
        · exact Nat.le_of_add_right_le (h.after hc).2
  · exact hkept.mono fun c hc => ⟨c, List.mem_append_right l hc, rfl⟩

/-! ### Joins -/

/-- A join, in terms of the list: the two fields of the header, and the link back to it. -/
theorem joinAt_eq (h : Laid start limit m (l ++ b :: c :: r)) :
    joinAt m b.address =
      relinkPrev (setNextAt (setSizeAt m b.address (b.size + c.size)) b.address
        (firstLink r 0)) (firstLink r 0) b.address := by
  have h' := h.next_block
  simp only [joinAt, h.next_eq, h.size_eq, firstLink, h'.size_eq, h'.next_eq]

theorem keepsOff_joinAt (h : Laid start limit m (l ++ b :: c :: r)) :
    KeepsOff (b.join c :: r) m (joinAt m b.address) := by
  intro x hx
  simp only [headerByte_cons, Block.join, not_or] at hx
  obtain ⟨hxb, hxr⟩ := hx
  rw [joinAt_eq h, read_relinkPrev hxr, (changedIn_setNextAt _ b.address _).read_eq (by omega),
    (changedIn_setSizeAt m b.address _).read_eq (by omega)]

/-- After a join, the new block and what follows it are linked up. -/
theorem linked_joinAt (h : Laid start limit m (l ++ b :: c :: r)) :
    Linked (joinAt m b.address) (lastLink 0 l) (b.join c :: r) 0 := by
  have h' := h.next_block
  have hword := h'.end_lt
  have hpos := h.address_pos List.mem_append_cons_self
  have hstart := h.tiled_right.1
  have hb := h.sized b List.mem_append_cons_self
  have hafter : ∀ d ∈ r, c.address + c.size ≤ d.address := fun d hd => (h'.after hd).2
  -- the three writes, in their order
  let m₁ := setSizeAt m b.address (b.size + c.size)
  let m₂ := setNextAt m₁ b.address (firstLink r 0)
  let m₃ := relinkPrev m₂ (firstLink r 0) b.address
  have h₁ : ChangedIn m m₁ b.address Header.bytes := changedIn_setSizeAt m b.address _
  have h₂ : ChangedIn m₁ m₂ b.address Header.bytes := changedIn_setNextAt m₁ b.address _
  have hjoined : readAt m₃ b.address = ⟨b.size + c.size, b.free, firstLink r 0, lastLink 0 l⟩ := by
    rw [readAt_relinkPrev (fun d hd => .inl ?_), readAt_setNextAt m₁ b.address h'.link_lt,
      readAt_setSizeAt m b.address (by omega), h.header_eq]
    have := hafter d hd
    omega
  have hright : Linked m₃ b.address r 0 := by
    -- up to the last write, the list still hangs on the block that is gone
    have hold : Linked m₂ c.address r 0 := by
      refine ((linked_append.mp h'.linked).2.2.of_changedIn h₁ fun d hd => ?_).of_changedIn h₂
        fun d hd => ?_
      · have := hafter d hd
        omega
      · have := hafter d hd
        omega
    refine linked_relinkPrev hold (by omega) h'.tiled_right (fun d hd => ?_) (by omega)
    exact (h'.sized d (List.mem_append_right _ (List.mem_cons_of_mem c hd))).1
  rw [joinAt_eq h]
  exact ⟨hjoined, hright⟩

/-- A join makes one block of two and touches no byte outside the headers of
the new list. -/
theorem laid_joinAt (h : Laid start limit m (l ++ b :: c :: r)) :
    Laid start limit (joinAt m b.address) (l ++ b.join c :: r) ∧
      KeepsOff (l ++ b.join c :: r) m (joinAt m b.address) := by
  have hb := h.sized b List.mem_append_cons_self
  have hc := h.sized c (List.mem_append_right l (List.mem_cons_of_mem b List.mem_cons_self))
  have hkept := keepsOff_joinAt h
  constructor
  · refine Laid.replace [b, c] [b.join c] h ?tiled ?sized ?linked
    case tiled =>
      rintro first last ⟨hfirst, -, hend⟩
      have hlast : first + b.size + c.size = last := hend
      exact ⟨hfirst, (by omega : first + (b.size + c.size) = last)⟩
    case sized =>
      intro d hd
      rw [List.mem_singleton.mp hd]
      have hbgrain : b.size % 8 = 0 := hb.2
      have hcgrain : c.size % 8 = 0 := hc.2
      exact ⟨Nat.le_add_right_of_le hb.1, (by omega : (b.size + c.size) % 8 = 0)⟩
    case linked =>
      refine linked_append.mpr ⟨h.linked_left hkept fun d hd => ?_, linked_joinAt h⟩
      rcases List.mem_cons.mp hd with rfl | hd
      · exact Nat.le_refl _
      · exact Nat.le_of_add_right_le (h.after (List.mem_cons_of_mem c hd)).2
  · exact hkept.mono fun d hd => ⟨d, List.mem_append_right l hd, rfl⟩

/-! ### Flags -/

/-- Marking a block changes its flag and touches its header only. -/
theorem laid_setFreeAt (h : Laid start limit m (l ++ b :: r)) (free : Bool) :
    Laid start limit (setFreeAt m b.address free) (l ++ b.mark free :: r) ∧
      KeepsOff [b] m (setFreeAt m b.address free) := by
  have hset := changedIn_setFreeAt m b.address free
  have hb := h.sized b List.mem_append_cons_self
  have hkept : KeepsOff [b] m (setFreeAt m b.address free) := by
    intro x hx
    refine hset.read_eq ?_
    have hout : ¬ (b.address ≤ x ∧ x < b.address + Header.bytes) := fun hin =>
      hx ⟨b, List.mem_cons_self, hin⟩
    omega
  refine ⟨Laid.replace [b] [b.mark free] h id ?sized ?linked, hkept⟩
  case sized =>
    intro c hc
    rw [List.mem_singleton.mp hc]
    exact hb
  case linked =>
    refine linked_append.mpr ⟨h.linked_left hkept fun c hc => ?_, ?_, ?_⟩
    · rw [List.mem_singleton.mp hc]
    · show readAt (setFreeAt m b.address free) b.address = _
      rw [readAt_setFreeAt, h.header_eq]
      rfl
    · refine (linked_append.mp h.linked).2.2.of_changedIn hset fun c hc => .inr ?_
      have := h.after hc
      omega

end Layouts

end Heap

end Supervisor
