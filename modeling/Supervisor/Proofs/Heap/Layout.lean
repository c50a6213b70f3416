import Supervisor.Boot
import Supervisor.Heap.Basic
import Supervisor.Proofs.Heap.Header

/-!
# Block lists laid out in memory

The heap's list of blocks is threaded through memory; here it is a plain
`List Block` together with what ties it to the bytes.

- `Heap.Tiled start bs limit`: the blocks follow one another without gap from
  `start` to `limit`.
- `Heap.Linked m prev bs next`: the header of every block says what the list
  says, its links lead to its two neighbours, and the ends are linked to `prev`
  and `next`.
- `Heap.Laid start limit m bs`: both, with blocks of a legal size, in a region
  that lies in the lower half of the address space, a header below its end.

`walk_eq` says that following the links of a laid out list gives the list, and
`Laid.congr` that only the headers matter.
-/

namespace Supervisor

namespace Block

/-- The address a client gets for the block. -/
def data (b : Block) : Nat :=
  Heap.payload b.address

/-- Whether `x` is the address of one of the block's data bytes. -/
def Holds (b : Block) (x : Nat) : Prop :=
  b.data ≤ x ∧ x < b.address + b.size

/-- How many data bytes the block has. -/
def capacity (b : Block) : Nat :=
  b.size - Header.bytes

/-- Two neighbours in one block, with the flag of the first. -/
def join (b c : Block) : Block :=
  { b with size := b.size + c.size }

theorem holds_data_add {b : Block} {i : Nat} (h : i < b.capacity) : b.Holds (b.data + i) := by
  rw [capacity] at h
  rw [Holds, data, Heap.payload]
  omega

end Block

namespace Heap

open Memory Header

/-- Whether `x` is the address of a byte of one of the headers. -/
def HeaderByte (bs : List Block) (x : Nat) : Prop :=
  ∃ b ∈ bs, b.address ≤ x ∧ x < b.address + Header.bytes

theorem headerByte_cons {b : Block} {r : List Block} {x : Nat} :
    HeaderByte (b :: r) x ↔ (b.address ≤ x ∧ x < b.address + Header.bytes) ∨ HeaderByte r x := by
  simp [HeaderByte]

/-! ## Tilings -/

/-- The blocks follow one another without gap from the first address to the
second. -/
def Tiled : Nat → List Block → Nat → Prop
  | start, [], limit => start = limit
  | start, b :: rest, limit => b.address = start ∧ Tiled (start + b.size) rest limit

theorem tiled_append {start limit : Nat} {l r : List Block} :
    Tiled start (l ++ r) limit ↔ ∃ middle, Tiled start l middle ∧ Tiled middle r limit := by
  induction l generalizing start with
  | nil => simp [Tiled]
  | cons b l ih => simp [Tiled, ih, and_assoc]

theorem tiled_append_cons {start limit : Nat} {l r : List Block} {b : Block} :
    Tiled start (l ++ b :: r) limit ↔
      Tiled start l b.address ∧ Tiled (b.address + b.size) r limit := by
  rw [tiled_append]
  constructor
  · rintro ⟨_, hl, rfl, hr⟩
    exact ⟨hl, hr⟩
  · rintro ⟨hl, hr⟩
    exact ⟨b.address, hl, rfl, hr⟩

theorem Tiled.length_le {start limit k : Nat} {bs : List Block} (h : Tiled start bs limit)
    (hsize : ∀ b ∈ bs, k ≤ b.size) : start + k * bs.length ≤ limit := by
  induction bs generalizing start with
  | nil => exact Nat.le_of_eq h
  | cons b bs ih =>
    have hb := hsize b List.mem_cons_self
    have hrest := ih h.2 fun c hc => hsize c (List.mem_cons_of_mem b hc)
    rw [List.length_cons, Nat.mul_succ]
    omega

theorem Tiled.le {start limit : Nat} {bs : List Block} (h : Tiled start bs limit) :
    start ≤ limit := by
  have := h.length_le (k := 0) fun _ _ => Nat.zero_le _
  omega

theorem Tiled.bounds {start limit : Nat} {bs : List Block} (h : Tiled start bs limit)
    {b : Block} (hb : b ∈ bs) : start ≤ b.address ∧ b.address + b.size ≤ limit := by
  obtain ⟨l, r, rfl⟩ := List.append_of_mem hb
  obtain ⟨hl, hr⟩ := tiled_append_cons.mp h
  exact ⟨hl.le, hr.le⟩

/-- The sizes of the blocks add up to the size of the region. -/
theorem Tiled.sum {start limit : Nat} {bs : List Block} (h : Tiled start bs limit) :
    start + (bs.map Block.size).sum = limit := by
  induction bs generalizing start with
  | nil => exact h
  | cons b bs ih =>
    have hrest := ih h.2
    rw [List.map_cons, List.sum_cons]
    omega

/-- The end of a tiling is as aligned as its start. -/
theorem Tiled.aligned {start limit : Nat} {bs : List Block} (h : Tiled start bs limit)
    (hstart : start % grain = 0) (hsize : ∀ b ∈ bs, b.size % grain = 0) : limit % grain = 0 := by
  induction bs generalizing start with
  | nil => exact h ▸ hstart
  | cons b bs ih =>
    have hb := hsize b List.mem_cons_self
    have hnext : (start + b.size) % grain = 0 := by
      rw [Nat.add_mod, hstart, hb]
      rfl
    exact ih h.2 hnext fun c hc => hsize c (List.mem_cons_of_mem b hc)

/-- A tiling lists no block twice. -/
theorem Tiled.nodup {start limit : Nat} {bs : List Block} (h : Tiled start bs limit)
    (hsize : ∀ b ∈ bs, 0 < b.size) : bs.Nodup := by
  induction bs generalizing start with
  | nil => exact List.nodup_nil
  | cons b bs ih =>
    constructor
    · -- what follows `b` starts behind it
      rintro c hc rfl
      have hpos := hsize b List.mem_cons_self
      have hlo := (h.2.bounds hc).1
      have hstart := h.1
      omega
    · exact ih h.2 fun c hc => hsize c (List.mem_cons_of_mem b hc)

/-- Two blocks of a tiling are the same or do not overlap. -/
theorem Tiled.eq_or_apart {start limit : Nat} {bs : List Block} (h : Tiled start bs limit)
    {b c : Block} (hb : b ∈ bs) (hc : c ∈ bs) :
    b = c ∨ b.address + b.size ≤ c.address ∨ c.address + c.size ≤ b.address := by
  obtain ⟨l, r, rfl⟩ := List.append_of_mem hb
  obtain ⟨hl, hr⟩ := tiled_append_cons.mp h
  rcases List.mem_append.mp hc with hc | hc
  · exact .inr (.inr (hl.bounds hc).2)
  · rcases List.mem_cons.mp hc with rfl | hc
    · exact .inl rfl
    · exact .inr (.inl (hr.bounds hc).1)

/-! ## Links -/

/-- The link that leads to a list: the address of its first block, or `next` if
it has none. -/
def firstLink : List Block → Nat → Nat
  | [], next => next
  | b :: _, _ => b.address

/-- The link that leads back to a list: the address of its last block, or
`prev` if it has none. -/
def lastLink : Nat → List Block → Nat
  | prev, [] => prev
  | _, b :: rest => lastLink b.address rest

/-- The headers of the blocks say what the list says, and their links lead from
block to block in both directions. -/
def Linked (m : Memory) : Nat → List Block → Nat → Prop
  | _, [], _ => True
  | prev, b :: rest, next =>
    readAt m b.address = ⟨b.size, b.free, firstLink rest next, prev⟩ ∧
      Linked m b.address rest next

theorem firstLink_append (l r : List Block) (next : Nat) :
    firstLink (l ++ r) next = firstLink l (firstLink r next) := by
  cases l <;> rfl

theorem lastLink_concat (prev : Nat) (l : List Block) (b : Block) :
    lastLink prev (l ++ [b]) = b.address := by
  induction l generalizing prev with
  | nil => rfl
  | cons c l ih => exact ih c.address

theorem linked_append {m : Memory} {prev next : Nat} {l r : List Block} :
    Linked m prev (l ++ r) next ↔
      Linked m prev l (firstLink r next) ∧ Linked m (lastLink prev l) r next := by
  induction l generalizing prev with
  | nil => simp [Linked, lastLink]
  | cons b l ih => simp [Linked, lastLink, ih, firstLink_append, and_assoc]

theorem Linked.readAt_eq {m : Memory} {prev next : Nat} {l r : List Block} {b : Block}
    (h : Linked m prev (l ++ b :: r) next) :
    readAt m b.address = ⟨b.size, b.free, firstLink r next, lastLink prev l⟩ :=
  (linked_append.mp h).2.1

/-- The links depend on the headers only. -/
theorem Linked.congr {m n : Memory} {prev next : Nat} {bs : List Block}
    (h : Linked m prev bs next)
    (hsame : ∀ b ∈ bs, readAt n b.address = readAt m b.address) : Linked n prev bs next := by
  induction bs generalizing prev with
  | nil => trivial
  | cons b bs ih =>
    refine ⟨(hsame b List.mem_cons_self).trans h.1, ih h.2 ?_⟩
    intro c hc
    exact hsame c (List.mem_cons_of_mem b hc)

/-- A write to one header leaves the links of the blocks apart from it. -/
theorem Linked.of_changedIn {m n : Memory} {prev next a : Nat} {bs : List Block}
    (h : Linked m prev bs next) (hn : ChangedIn m n a Header.bytes)
    (hapart : ∀ b ∈ bs, b.address + Header.bytes ≤ a ∨ a + Header.bytes ≤ b.address) :
    Linked n prev bs next :=
  h.congr fun b hb => readAt_of_changedIn hn (hapart b hb)

/-- Following the links gives the list. -/
theorem walk_eq {m : Memory} {prev fuel : Nat} {bs : List Block} (h : Linked m prev bs 0)
    (hpos : ∀ b ∈ bs, 0 < b.address) (hfuel : bs.length ≤ fuel) :
    walk m fuel (firstLink bs 0) = bs := by
  induction bs generalizing prev fuel with
  | nil => cases fuel <;> rfl
  | cons b bs ih =>
    obtain ⟨hb, hrest⟩ := h
    obtain ⟨fuel, rfl⟩ : ∃ k, fuel = k + 1 := ⟨fuel - 1, by rw [List.length_cons] at hfuel; omega⟩
    -- the link to a block is not the one that ends the walk
    have hne : b.address ≠ 0 := Nat.ne_of_gt (hpos b List.mem_cons_self)
    obtain ⟨hsize, hfree, hnext, -⟩ := fields_of_readAt hb
    rw [firstLink, walk, if_neg hne, hnext, ih hrest
      (fun c hc => hpos c (List.mem_cons_of_mem b hc)) (Nat.le_of_succ_le_succ hfuel)]
    simp only [blockAt, hsize, hfree]

/-! ## Layouts -/

/-- The blocks tile `[start, limit)` and are linked up in memory; every block
has room for its header and a size that is a multiple of eight. An address one
header behind the limit can still be rounded up to any alignment. -/
structure Laid (start limit : Nat) (m : Memory) (bs : List Block) : Prop where
  positive : 0 < start
  inhabited : start < limit
  aligned : start % grain = 0
  bounded : 2 * (limit + Header.bytes) < wordLimit
  tiled : Tiled start bs limit
  sized : ∀ b ∈ bs, Header.bytes ≤ b.size ∧ b.size % grain = 0
  linked : Linked m 0 bs 0

namespace Laid

variable {start limit : Nat} {m n : Memory} {bs l r : List Block} {b c : Block}

theorem tiled_left (h : Laid start limit m (l ++ b :: r)) : Tiled start l b.address :=
  (tiled_append_cons.mp h.tiled).1

theorem tiled_right (h : Laid start limit m (l ++ b :: r)) :
    Tiled (b.address + b.size) r limit :=
  (tiled_append_cons.mp h.tiled).2

/-- The same layout, seen from the next block. -/
theorem next_block (h : Laid start limit m (l ++ b :: c :: r)) :
    Laid start limit m ((l ++ [b]) ++ c :: r) := by
  rwa [List.append_assoc, List.singleton_append]

theorem header_eq (h : Laid start limit m (l ++ b :: r)) :
    readAt m b.address = ⟨b.size, b.free, firstLink r 0, lastLink 0 l⟩ :=
  h.linked.readAt_eq

theorem size_eq (h : Laid start limit m (l ++ b :: r)) : sizeAt m b.address = b.size :=
  (fields_of_readAt h.header_eq).1

theorem free_eq (h : Laid start limit m (l ++ b :: r)) : freeAt m b.address = b.free :=
  (fields_of_readAt h.header_eq).2.1

theorem next_eq (h : Laid start limit m (l ++ b :: r)) : nextAt m b.address = firstLink r 0 :=
  (fields_of_readAt h.header_eq).2.2.1

theorem prev_eq (h : Laid start limit m (l ++ b :: r)) : prevAt m b.address = lastLink 0 l :=
  (fields_of_readAt h.header_eq).2.2.2

/-- Where a block may lie. -/
theorem bounds (h : Laid start limit m bs) (hb : b ∈ bs) :
    start ≤ b.address ∧ b.address + Header.bytes ≤ b.address + b.size ∧
      b.address + b.size ≤ limit := by
  obtain ⟨hlo, hhi⟩ := h.tiled.bounds hb
  have hsize := (h.sized b hb).1
  exact ⟨hlo, by omega, hhi⟩

theorem address_pos (h : Laid start limit m bs) (hb : b ∈ bs) : 0 < b.address :=
  Nat.lt_of_lt_of_le h.positive (h.bounds hb).1

/-- Every block starts at a multiple of eight. -/
theorem address_aligned (h : Laid start limit m (l ++ b :: r)) : b.address % grain = 0 :=
  h.tiled_left.aligned h.aligned fun c hc => (h.sized c (List.mem_append_left _ hc)).2

/-- So does its data. -/
theorem data_aligned (h : Laid start limit m bs) (hb : b ∈ bs) : b.data % grain = 0 := by
  obtain ⟨l, r, rfl⟩ := List.append_of_mem hb
  have haddr : b.address % 8 = 0 := h.address_aligned
  have hbytes : Header.bytes = 32 := rfl
  show (b.address + Header.bytes) % 8 = 0
  omega

/-- The blocks in front of `b` end before it. -/
theorem before (h : Laid start limit m (l ++ b :: r)) (hc : c ∈ l) :
    c.address + Header.bytes ≤ c.address + c.size ∧ c.address + c.size ≤ b.address :=
  ⟨(h.bounds (List.mem_append_left _ hc)).2.1, (h.tiled_left.bounds hc).2⟩

/-- The blocks behind `b` start where it ends or later. -/
theorem after (h : Laid start limit m (l ++ b :: r)) (hc : c ∈ r) :
    b.address + Header.bytes ≤ b.address + b.size ∧ b.address + b.size ≤ c.address :=
  ⟨(h.bounds List.mem_append_cons_self).2.1, (h.tiled_right.bounds hc).1⟩

/-- Data bytes of a block belong to no header. -/
theorem not_headerByte (h : Laid start limit m bs) (hb : b ∈ bs) {x : Nat} (hx : b.Holds x) :
    ¬ HeaderByte bs x := by
  rintro ⟨c, hc, hlo, hhi⟩
  have hbytes := (h.bounds hc).2.1
  obtain ⟨hdata, hend⟩ := hx
  rw [Block.data, payload] at hdata
  rcases h.tiled.eq_or_apart hb hc with rfl | hapart | hapart
  · omega
  · omega
  · omega

/-- Blocks that start at the same address are the same. -/
theorem eq_of_address (h : Laid start limit m bs) (hb : b ∈ bs) (hc : c ∈ bs)
    (heq : b.address = c.address) : b = c := by
  have hbsize := h.sized b hb
  have hcsize := h.sized c hc
  have hpos : 0 < Header.bytes := by decide
  rcases h.tiled.eq_or_apart hb hc with hsame | hapart | hapart
  · exact hsame
  · omega
  · omega

theorem nodup (h : Laid start limit m bs) : bs.Nodup :=
  h.tiled.nodup fun b hb => Nat.lt_of_lt_of_le (by decide) (h.sized b hb).1

/-- Different blocks share no data byte. -/
theorem not_holds_of_ne (h : Laid start limit m bs) (hb : b ∈ bs) (hc : c ∈ bs) (hne : b ≠ c)
    {x : Nat} (hx : b.Holds x) : ¬ c.Holds x := by
  obtain ⟨hlo, hhi⟩ := hx
  rintro ⟨hlo', hhi'⟩
  rw [Block.data, payload] at hlo hlo'
  rcases h.tiled.eq_or_apart hb hc with hsame | hapart | hapart
  · exact hne hsame
  · omega
  · omega

/-- Only the headers matter. -/
theorem congr (h : Laid start limit m bs) (hsame : ∀ x, HeaderByte bs x → n.read x = m.read x) :
    Laid start limit n bs :=
  { h with
    linked := h.linked.congr fun b hb =>
      readAt_congr fun x hlo hhi => hsame x ⟨b, hb, hlo, hhi⟩ }

/-- There are fewer blocks than words. -/
theorem length_lt (h : Laid start limit m bs) : bs.length < wordLimit := by
  have hlen := h.tiled.length_le (k := 1) fun b hb =>
    Nat.le_trans (by decide) (h.sized b hb).1
  have hbounded := h.bounded
  omega

/-- There is a block, and the first one starts the region. -/
theorem firstLink_eq (h : Laid start limit m bs) : firstLink bs 0 = start := by
  cases bs with
  | nil => exact absurd h.tiled (Nat.ne_of_lt h.inhabited)
  | cons b bs => exact h.tiled.1

/-- Following the links from the start of the region gives the list. -/
theorem walk_eq (h : Laid start limit m bs) {fuel : Nat} (hfuel : bs.length ≤ fuel) :
    walk m fuel start = bs := by
  have hfirst := h.firstLink_eq
  rw [← hfirst]
  exact Heap.walk_eq h.linked (fun b hb => h.address_pos hb) hfuel

end Laid

end Heap

end Supervisor
