import Supervisor.Proofs.Heap.Effect

/-!
# Isolation of allocations

What a client of the heap can rely on for the memory it is given.

- `Heap.Serves`: a pointer is aligned, lies in the region with all its bytes, and
  shares none of them with a header or with another live allocation.
- `Run.spared`: an allocation that no request of a run frees or resizes stays where
  it is, and its bytes change by the client's own writes only.
- `reachable_isolated`: both, wherever a session has got, and with them that a byte
  that was written is read back.
-/

namespace Supervisor

namespace Heap

open Memory Header

/-- The pointer `q` is good for `n` bytes at a multiple of `align`:
1. it is held, and a multiple of eight and of `align`;
2. its bytes lie behind the first header and inside the region;
3. none of them belongs to a header or to another live block. -/
structure Serves (region : Region) (s : Session) (q n align : Nat) : Prop where
  held : q ∈ s.held
  grained : q % grain = 0
  aligned : q % align = 0
  above : region.start + Header.bytes ≤ q
  below : q + n ≤ region.start + region.room
  apart : ∀ x, q ≤ x → x < q + n → ¬ HeaderByte (blocks s.arena) x ∧
    ∀ b ∈ live (blocks s.arena), b.data ≠ q → ¬ b.Holds x

section Isolation

variable {region : Region} {s s' : Session} {bs : List Block} {r : Request}
  {answer : Option Nat} {rs : List Request} {b : Block}

/-- The pointer of a live block is good for as many bytes as the block has. -/
theorem Keeps.serves (h : Keeps region s bs) (hb : b ∈ live bs) {n align : Nat}
    (hroom : n ≤ b.capacity) (halign : b.data % align = 0) :
    Serves region s b.data n align := by
  have hmem := (mem_live.mp hb).1
  have hbounds := h.sound.laid.bounds hmem
  rw [h.start, h.limit] at hbounds
  have hblocks := h.sound.blocks_eq
  have hdata : b.data = b.address + Header.bytes := rfl
  have hcapacity : b.capacity = b.size - Header.bytes := rfl
  refine ⟨h.held.mem_iff.mpr (List.mem_map_of_mem hb), h.sound.laid.data_aligned hmem, halign,
    by omega, by omega, ?_⟩
  intro x hlo hhi
  have hholds := Block.holds_data_add (b := b) (i := x - b.data) (by omega)
  rw [Nat.add_sub_of_le hlo] at hholds
  rw [hblocks]
  refine ⟨h.sound.laid.not_headerByte hmem hholds, ?_⟩
  intro c hc hne
  exact h.sound.laid.not_holds_of_ne hmem (mem_live.mp hc).1 (fun heq => hne (heq ▸ rfl)) hholds

/-- Along a run that spares it, a live block stays live, and a byte of it that is not
written stays as it is. -/
theorem Run.spared (hrun : Run s rs s') (h : Keeps region s bs) (hb : b ∈ live bs) {x : Nat}
    (hx : b.Holds x) (hspared : ∀ r ∈ rs, r.Spares b.data ∧ ¬ r.WritesTo x) :
    ∃ bs', Keeps region s' bs' ∧ b ∈ live bs' ∧
      s'.arena.memory.read x = s.arena.memory.read x := by
  induction hrun generalizing bs with
  | done s => exact ⟨bs, h, hb, rfl⟩
  | step hstep _ ih =>
    obtain ⟨bs', heffect⟩ := h.effect hstep
    obtain ⟨hspare, hquiet⟩ := hspared _ List.mem_cons_self
    obtain ⟨bs'', hkeeps, hlive, hread⟩ := ih (heffect.keeps h) (heffect.spared b hb hspare)
      fun r hr => hspared r (List.mem_cons_of_mem _ hr)
    exact ⟨bs'', hkeeps, hlive, hread.trans (heffect.kept b hb hspare x hx hquiet)⟩

/-- A write puts its byte where it is for. -/
theorem Step.read_write {x : Nat} {byte : UInt8} (h : Step s (.write x byte) answer s') :
    s'.arena.memory.read x = byte := by
  rw [h.arena_write]
  exact read_write_self s.arena.memory x byte

/-- Wherever a session over a region gets:
1. an allowed request is answered, and a pointer it hands out is good for what was
   asked;
2. it changes neither the place nor the capacity nor a data byte of a live block
   other than its own, but for the byte that the client itself writes;
3. a byte written to an allocation is read back after any run of requests that
   neither free nor resize that allocation nor write to the byte again. -/
theorem reachable_isolated (h : Reachable region s) :
    (∀ r : Request, r.Allowed s → ∃ answer s', Step s r answer s' ∧
      (∀ q n align, answer = some q → r.asks = some (n, align) → Serves region s' q n align) ∧
      ∀ b ∈ live (blocks s.arena), r.Spares b.data → b ∈ live (blocks s'.arena) ∧
        ∀ x, b.Holds x → ¬ r.WritesTo x →
          s'.arena.memory.read x = s.arena.memory.read x) ∧
    ∀ p ∈ s.held, ∀ bytes, (capacity p).run s.arena = .ok bytes s.arena →
      ∀ x, p ≤ x → x < p + bytes → ∀ byte answer s₁ rs s₂, Step s (.write x byte) answer s₁ →
        Run s₁ rs s₂ → (∀ r ∈ rs, r.Spares p ∧ ¬ r.WritesTo x) →
        s₂.arena.memory.read x = byte ∧ p ∈ s₂.held ∧
          (capacity p).run s₂.arena = .ok bytes s₂.arena := by
  obtain ⟨bs, hkeeps⟩ := h.keeps
  constructor
  · intro r hr
    obtain ⟨answer, s', hstep⟩ := hkeeps.exists_step hr
    obtain ⟨bs', heffect⟩ := hkeeps.effect hstep
    refine ⟨answer, s', hstep, ?_⟩
    rw [hkeeps.sound.blocks_eq, heffect.sound.blocks_eq]
    constructor
    · intro q n align hanswer hasks
      obtain ⟨b, hb, rfl, hroom, halign⟩ := heffect.granted q n align hanswer hasks
      exact (heffect.keeps hkeeps).serves hb hroom halign
    · intro b hb hspare
      exact ⟨heffect.spared b hb hspare, heffect.kept b hb hspare⟩
  · -- the write leaves the block live, and the run after it leaves the byte
    intro p hp bytes hbytes x hlo hhi byte answer s₁ rs s₂ hwrite hrun hspared
    obtain ⟨b, hb, rfl⟩ := live_of_held hkeeps.held hp
    rw [run_capacity hkeeps.sound hb] at hbytes
    injection hbytes with hbytes
    have hx := Block.holds_data_add (b := b) (i := x - b.data) (by omega)
    rw [Nat.add_sub_of_le hlo] at hx
    obtain ⟨bs₁, heffect⟩ := hkeeps.effect hwrite
    obtain ⟨bs₂, hkeeps₂, hb₂, hread⟩ := hrun.spared (heffect.keeps hkeeps)
      (heffect.spared b hb trivial) hx hspared
    exact ⟨hread.trans hwrite.read_write, hkeeps₂.held.mem_iff.mpr (List.mem_map_of_mem hb₂),
      hbytes ▸ run_capacity hkeeps₂.sound hb₂⟩

/-- A byte written to the first allocation of a page outlives a second one, which is
given other bytes. -/
theorem page_isolated : ∃ s s₁ s₂ answer answer', Reachable page s ∧
    Step s (.write 0x100020 7) answer s₁ ∧ Step s₁ (.alloc 24) answer' s₂ ∧
    s₂.arena.memory.read 0x100020 = 7 ∧
    ∀ q, answer' = some q → Serves page s₂ q 24 grain := by
  have hsize : blockSize? 100 = some 136 := by decide
  obtain ⟨a, hreach, ⟨hsound, -⟩, -⟩ := exists_first_alloc page {} (by decide)
    (by decide) hsize (by decide)
  have hlive : taken page.whole 136 ∈ live (served [] page.whole 136 []) := by
    rw [live_served]
    exact List.mem_cons_self
  have hcapacity : (capacity page.whole.data).run a = .ok 104 a := run_capacity hsound hlive
  have howns : Session.Owns ⟨a, [page.whole.data]⟩ 0x100020 :=
    ⟨page.whole.data, List.mem_cons_self, 104, hcapacity, by decide, by decide⟩
  obtain ⟨hstep, hback⟩ := reachable_isolated hreach
  obtain ⟨answer, s₁, hwrite, -⟩ := hstep (.write 0x100020 7) howns
  obtain ⟨answer', s₂, halloc, hserves, -⟩ :=
    (reachable_isolated (hreach.step hwrite)).1 (.alloc 24) trivial
  obtain ⟨hread, -, -⟩ := hback page.whole.data List.mem_cons_self 104 hcapacity 0x100020
    (by decide) (by decide) 7 answer s₁ _ s₂ hwrite (.step halloc (.done s₂))
    (fun r hr => by rw [List.mem_singleton.mp hr]; exact ⟨trivial, id⟩)
  exact ⟨_, s₁, s₂, answer, answer', hreach, hwrite, halloc, hread, fun q hq =>
    hserves q 24 grain hq rfl⟩

end Isolation

end Heap

end Supervisor
