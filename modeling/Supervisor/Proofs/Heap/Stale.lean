import Supervisor.Proofs.Heap.Merging
import Supervisor.Proofs.Heap.Validation

/-!
# Pointers that were freed

A pointer that is freed leaves its header behind. The header may go on to be the one of a
larger free block, or become data of a free block that took it in, and then the list of
blocks does not mention it any more. Freeing the pointer again is judged by that header.

- `Heap.Stale`: a header that says it is that of a free block, and lies, with all the bytes
  it counts, within one.
- `run_validate_stale`: for this reason the check takes it for a block freed before.
- `Stale.relaid`: headers stay stale when memory is rewritten into a layout that covers the
  old one, since merging writes only to the headers of blocks that remain. Hence they stay
  so in a step that frees (`Releases.stale`) and in every step that takes no memory
  (`Keeps.step_stale`), and by induction along a run of such steps (`Keeps.run_stale`).
- `reachable_doubleFree`: a second free is reported as such until memory is taken again.
-/

namespace Supervisor

namespace Heap

open Memory Header

/-- Whether a request takes no memory from the free blocks: it frees, measures or writes. -/
def Request.TakesNothing : Request → Prop
  | free _ => True
  | size _ => True
  | write _ _ => True
  | _ => False

/-- The header at `block` is marked free, and what it counts, which is more than itself,
lies within a free block. -/
structure Stale (m : Memory) (bs : List Block) (block : Nat) : Prop where
  flagged : freeAt m block = true
  sized : Header.bytes < sizeAt m block
  covered : ∃ c ∈ bs, c.free = true ∧ (blockAt m block).Within c

section Headers

variable {start limit block p : Nat} {a : Arena} {m n : Memory} {bs bs' l r : List Block}
  {b : Block}

/-- The header of a free block of the list is one. -/
theorem Laid.stale (h : Laid start limit m bs) (hb : b ∈ bs) (hfree : b.free = true)
    (hsize : Header.bytes < b.size) : Stale m bs b.address := by
  obtain ⟨l, r, rfl⟩ := List.append_of_mem hb
  have hself : blockAt m b.address = b := by rw [blockAt, h.size_eq, h.free_eq]
  have hsized : Header.bytes < sizeAt m b.address := by rwa [h.size_eq]
  have hwithin : (blockAt m b.address).Within b := by
    rw [hself]
    exact .refl b
  exact ⟨h.free_eq.trans hfree, hsized, b, hb, hfree, hwithin⟩

/-- So is a header that reads the same as one and is still covered. -/
theorem Stale.congr (h : Stale m bs block) (hread : readAt n block = readAt m block)
    (hcovered : ∃ c ∈ bs', c.free = true ∧ (blockAt m block).Within c) : Stale n bs' block := by
  obtain ⟨hsize, hfree, -⟩ := fields_eq hread
  have hself : blockAt n block = blockAt m block := by rw [blockAt, blockAt, hsize, hfree]
  rw [← hself] at hcovered
  have hsized : Header.bytes < sizeAt n block := by
    rw [hsize]
    exact h.sized
  exact ⟨hfree.trans h.flagged, hsized, hcovered⟩

/-- A header stays stale when the blocks are laid out anew and those that were free are
covered: either it is the header of a block still, or no header reaches it. -/
theorem Stale.relaid (h : Stale m bs block) (hnew : Relaid start limit m n bs')
    (hcovers : Covers bs' bs) : Stale n bs' block := by
  obtain ⟨c, hc, hfree, hwithin⟩ := h.covered
  obtain ⟨d, hd, hdfree, hwithin'⟩ := hcovers c hc hfree
  have hin : (blockAt m block).Within d := hwithin.trans hwithin'
  have hlower : d.address ≤ block := hin.lower
  have hupper : block + sizeAt m block ≤ d.address + d.size := hin.upper
  have hsize := h.sized
  rcases hin.headed with heq | hbehind
  · obtain rfl : d.address = block := heq
    exact hnew.laid.stale hd hdfree (by omega)
  · -- the bytes of the header are data of `d`
    have hdata : d.address + Header.bytes ≤ block := hbehind
    refine h.congr (readAt_congr fun x hlo hhi => hnew.kept x ?_) ⟨d, hd, hdfree, hin⟩
    refine hnew.laid.not_headerByte hd ⟨?_, ?_⟩
    · show d.address + Header.bytes ≤ x
      omega
    · omega

/-- Freeing a block keeps the headers that are stale, its own among them once its flag is
set. -/
theorem Releases.stale (h : Releases start limit m n l b r) (hr : Spaced r) :
    ∃ m', Relaid start limit m m' (l ++ b.mark true :: r) ∧
      ∀ block, Stale m' (l ++ b.mark true :: r) block →
        Stale n (merged (l ++ b.mark true :: r)) block := by
  obtain ⟨m₁, m₂, hmarked, hnext, hprev⟩ := h
  have hcovers : Covers (l ++ push (b.mark true) r) (l ++ b.mark true :: r) :=
    (covers_push ⟨rfl, hmarked.laid.tiled_right⟩
      (hmarked.laid.sized _ List.mem_append_cons_self).1).append l
  have hcovers' : Covers (merged (l ++ b.mark true :: r)) (l ++ push (b.mark true) r) := by
    rw [← merged_append_push l (b.mark true) hr]
    exact hnext.laid.covers_merged
  exact ⟨m₁, hmarked, fun _ hstale => (hstale.relaid hnext hcovers).relaid hprev hcovers'⟩

theorem Stale.bounds (h : Stale m bs block) :
    ∃ c ∈ bs, c.free = true ∧ c.address ≤ block ∧
      block + sizeAt m block ≤ c.address + c.size := by
  obtain ⟨c, hc, hfree, hwithin⟩ := h.covered
  exact ⟨c, hc, hfree, hwithin.lower, hwithin.upper⟩

/-- No byte of a stale header is data of a live block. -/
theorem Stale.apart (h : Stale m bs block) (hlaid : Laid start limit m bs) (hb : b ∈ live bs)
    {x : Nat} (hx : b.Holds x) : ¬ (block ≤ x ∧ x < block + Header.bytes) := by
  rintro ⟨hlo, hhi⟩
  obtain ⟨c, hc, hfree, hlower, hupper⟩ := h.bounds
  have hsize := h.sized
  obtain ⟨hdata, hend⟩ := hx
  have hfirst : b.address ≤ x := Nat.le_trans (Nat.le_add_right _ _) hdata
  obtain ⟨hmem, hlive⟩ := mem_live.mp hb
  rcases hlaid.tiled.eq_or_apart hmem hc with rfl | hapart | hapart
  · exact absurd (hlive.symm.trans hfree) Bool.false_ne_true
  · omega
  · omega

/-- The check takes the pointer of a stale header for one that was freed before. -/
theorem run_validate_stale (h : Sound a bs) (haligned : p % grain = 0)
    (hp : Header.bytes ≤ p) (hstale : Stale a.memory bs (p - Header.bytes)) :
    (validate p).run a = .ok (.error (.doubleFree p)) a := by
  obtain ⟨c, hc, -, hlower, hupper⟩ := hstale.bounds
  obtain ⟨hlo, -, hhi⟩ := h.laid.bounds hc
  have hsize := hstale.sized
  have hbounded := h.laid.bounded
  rw [run_validate h, hstale.flagged, if_neg (by omega), if_neg (by omega), if_neg (by omega),
    if_pos rfl]

end Headers

section Steps

variable {region : Region} {s s' s₁ s₂ : Session} {bs : List Block} {p block : Nat} {r : Request}
  {answer : Option Nat} {rs : List Request}

/-- A step that frees a pointer makes its header stale, and keeps those that are. -/
theorem Keeps.step_free_stale (h : Keeps region s bs) (hstep : Step s (.free p) answer s') :
    ∃ bs', Keeps region s' bs' ∧ Stale s'.arena.memory bs' (p - Header.bytes) ∧
      ∀ block, Stale s.arena.memory bs block → Stale s'.arena.memory bs' block := by
  obtain ⟨-, l, b, r, rfl, hlive, rfl, hkeeps, hreleases⟩ := h.step_free hstep
  obtain ⟨m, hmarked, hstale⟩ := hreleases.stale h.sound.spaced.right.tail
  have hroom := h.sound.roomy b List.mem_append_cons_self hlive
  refine ⟨_, hkeeps, hstale _ ?_, fun block hold => hstale block ?_⟩
  · exact hmarked.laid.stale (b := b.mark true) List.mem_append_cons_self rfl hroom
  · exact hold.relaid hmarked (covers_mark hlive l r)

/-- A step that takes no memory keeps the headers that are stale: a client writes to live
blocks only. -/
theorem Keeps.step_stale (h : Keeps region s bs) (hr : r.TakesNothing)
    (hstep : Step s r answer s') :
    ∃ bs', Keeps region s' bs' ∧
      ∀ block, Stale s.arena.memory bs block → Stale s'.arena.memory bs' block := by
  obtain ⟨arena, held⟩ := s'
  obtain ⟨hallowed, hran, rfl⟩ := hstep
  cases r with
  | free p =>
    obtain ⟨bs', hkeeps, -, hstale⟩ := h.step_free_stale ⟨hallowed, hran, rfl⟩
    exact ⟨bs', hkeeps, hstale⟩
  | size p =>
    obtain ⟨bytes, hrun, heffect⟩ := effect_size h.sound h.held hallowed
    rw [Request.perform, run_map_ok hrun] at hran
    injection hran with _ harena
    obtain rfl : s.arena = arena := harena
    exact ⟨bs, heffect.keeps h, fun _ hstale => hstale⟩
  | write x byte =>
    obtain rfl : arena = _ := Step.arena_write ⟨hallowed, hran, rfl⟩
    have heffect := effect_write h.sound h.held hallowed byte
    refine ⟨bs, heffect.keeps h, fun block hstale => ?_⟩
    obtain ⟨b, hb, hholds⟩ := exists_holds_of_owns h.sound h.held hallowed
    refine hstale.congr (readAt_congr fun y hlo hhi => ?_) hstale.covered
    refine read_write_of_ne _ byte fun heq => ?_
    exact hstale.apart h.sound.laid hb hholds (heq ▸ ⟨hlo, hhi⟩)
  | alloc n => exact hr.elim
  | allocAligned n align => exact hr.elim
  | realloc q n => exact hr.elim

/-- So does a run of such steps. -/
theorem Keeps.run_stale (h : Keeps region s bs) (hrun : Run s rs s')
    (hrs : ∀ r ∈ rs, r.TakesNothing) (hstale : Stale s.arena.memory bs block) :
    ∃ bs', Keeps region s' bs' ∧ Stale s'.arena.memory bs' block := by
  induction hrun generalizing bs with
  | done s => exact ⟨bs, h, hstale⟩
  | step hstep _ ih =>
    obtain ⟨bs', hkeeps, hkept⟩ := h.step_stale (hrs _ List.mem_cons_self) hstep
    exact ih hkeeps (fun r hr => hrs r (List.mem_cons_of_mem _ hr)) (hkept block hstale)

/-- Wherever a session over a region gets, a pointer that is freed is refused from then on
as freed before, as long as only frees, sizes and the client's writes follow, though its
block may be part of another one by then. -/
theorem reachable_doubleFree (h : Reachable region s) (hfree : Step s (.free p) answer s₁)
    (hrun : Run s₁ rs s₂) (hrs : ∀ r ∈ rs, r.TakesNothing) :
    Refused s₂.arena p (.doubleFree p) := by
  obtain ⟨bs, hkeeps⟩ := h.keeps
  obtain ⟨b, hb, rfl⟩ := live_of_held hkeeps.held hfree.allowed
  have haligned := hkeeps.sound.laid.data_aligned (mem_live.mp hb).1
  obtain ⟨bs₁, hkeeps₁, hstale₁, -⟩ := hkeeps.step_free_stale hfree
  obtain ⟨bs₂, hkeeps₂, hstale₂⟩ := hkeeps₁.run_stale hrun hrs hstale₁
  exact refused_of_validate
    (run_validate_stale hkeeps₂.sound haligned (Nat.le_add_left _ _) hstale₂)

/-- In a page, the block of a pointer that was freed is taken in by the one in front of it
when that is freed too. The pointer is refused as freed before all the same. -/
theorem page_doubleFree : ∃ s s₁ s₂, Reachable page s ∧ Step s (.free 0x1000a8) none s₁ ∧
    Run s₁ [.free 0x100020] s₂ ∧ blocks s₂.arena = [⟨0x100000, 0x1000, true⟩] ∧
    Refused s₂.arena 0x1000a8 (.doubleFree 0x1000a8) := by
  obtain ⟨a, hreach, hkeeps⟩ := exists_two_allocs
  obtain ⟨answer, s₁, hfirst⟩ := hkeeps.exists_step (r := .free 0x1000a8) List.mem_cons_self
  obtain rfl : answer = none := (hkeeps.step_free hfirst).1
  have hkeeps₁ := hkeeps.released hfirst
  have hheld : s₁.held = [0x100020] := hfirst.held
  obtain ⟨answer', s₂, hsecond⟩ := hkeeps₁.exists_step (r := .free 0x100020)
    (by rw [Request.Allowed, hheld]; exact List.mem_cons_self)
  have hrun : Run s₁ [.free 0x100020] s₂ := .step hsecond (.done s₂)
  refine ⟨_, s₁, s₂, hreach, hfirst, hrun,
    (hkeeps₁.released hsecond).sound.blocks_eq.trans (by decide),
    reachable_doubleFree hreach hfirst hrun fun r hr => ?_⟩
  rw [List.mem_singleton.mp hr]
  trivial

end Steps

end Heap

end Supervisor
