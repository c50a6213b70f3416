import Supervisor.Proofs.Heap.Aligned
import Supervisor.Proofs.Heap.Resize

/-!
# Sessions

A client that sets a heap up over a region of memory and then sends it requests,
one after the other, in any order. The client keeps to two rules: it frees,
resizes and measures only pointers that it holds, and it writes only to bytes
that such a pointer gives it.

- `Heap.Request`, `Request.perform`: the requests and the programs behind them.
- `Heap.Region`: where a heap may lie; `Region.ofMapped` is any place in mapped
  memory.
- `Heap.Session`: the arena, and the pointers that are handed out and neither
  freed nor moved since (`Request.handOver`).
- `Heap.Step`, `Heap.Run`, `Heap.Reachable`: what can happen, one request at a
  time.
- `Region.fresh`: what `init` makes of a region (`run_init`), a sound arena with
  one free block (`Region.sound_fresh`).
- `Heap.Keeps`: the invariant of a session, true when the heap is set up
  (`Opens.keeps`).
-/

namespace Supervisor

namespace Heap

open Memory Header

/-! ## Requests -/

/-- What a client asks for: the operations of the heap, and its own writes. -/
inductive Request where
  | alloc (size : Nat)
  | allocAligned (size align : Nat)
  | free (address : Nat)
  | realloc (address : Option Nat) (size : Nat)
  | size (address : Nat)
  | write (address : Nat) (byte : UInt8)
  deriving DecidableEq, Repr

namespace Request

/-- The program behind a request. The answer is a pointer or a number, if any. -/
def perform : Request → HeapM (Except PointerError (Option Nat))
  | alloc n => .ok <$> Heap.alloc n
  | allocAligned n align => .ok <$> Heap.allocAligned n align
  | free p => Except.map (fun _ => none) <$> Heap.free p
  | realloc p n => Heap.realloc p n
  | size p => (fun bytes => .ok (some bytes)) <$> capacity p
  | write x byte => (fun _ => .ok none) <$> change (Memory.write · x byte)

/-- The pointers held once a request was answered: what was handed out is new, what
was freed or moved is gone. -/
def handOver (held : List Nat) : Request → Option Nat → List Nat
  | alloc _, some q => q :: held
  | allocAligned _ _, some q => q :: held
  | free p, _ => held.erase p
  | realloc none _, some q => q :: held
  | realloc (some p) _, some q => q :: held.erase p
  | realloc (some p) 0, none => held.erase p
  | _, _ => held

/-- The bytes and the alignment that the answer to a request is good for. -/
def asks : Request → Option (Nat × Nat)
  | alloc n => some (n, grain)
  | allocAligned n align => some (n, align)
  | realloc _ n => some (n, grain)
  | _ => none

/-- Whether a request leaves the allocation at `p` alone: it neither frees nor
resizes it. -/
def Spares (p : Nat) : Request → Prop
  | free q => q ≠ p
  | realloc (some q) _ => q ≠ p
  | _ => True

/-- Whether a request is the client's own write to `x`. -/
def WritesTo (x : Nat) : Request → Prop
  | write y _ => y = x
  | _ => False

end Request

/-! ## Sessions -/

/-- Memory that a heap can be set up over: writable, which address 0 is not, and
so low that an address one header behind its end can still be rounded up to any
alignment. The largest alignment is half of the words. -/
structure Region where
  base : Nat
  size : Nat
  positive : 0 < base
  bounded : 2 * (base + size + Header.bytes) < wordLimit

namespace Region

/-- All of the mapped memory is low enough. -/
def ofMapped (base size : Nat) (hpos : 0 < base) (hmapped : base + size ≤ Config.mappedTop) :
    Region where
  base
  size
  positive := hpos
  bounded := by
    have htop : 2 * (Config.mappedTop + Header.bytes) < wordLimit := by decide
    omega

/-- Where the first block of the region starts. -/
def start (region : Region) : Nat :=
  roundUp region.base regionAlign

/-- The bytes of the region that blocks can take up. -/
def room (region : Region) : Nat :=
  (region.size - (region.start - region.base)) / grain * grain

/-- The block that takes up the whole region. -/
def whole (region : Region) : Block :=
  ⟨region.start, region.room, true⟩

/-- The heap that consists of that block. -/
def fresh (region : Region) (m : Memory) : Arena :=
  ⟨⟨region.start, region.start + region.room, region.start, 0, 0⟩,
    writeAt m region.start ⟨region.room, true, 0, 0⟩⟩

end Region

/-- A page at one megabyte. -/
def page : Region where
  base := 0x100000
  size := 0x1000
  positive := by decide
  bounded := by decide

/-- A heap in use. -/
structure Session where
  arena : Arena
  /-- The pointers handed out and neither freed nor moved since. -/
  held : List Nat

/-- Whether `x` is one of the bytes that a pointer held gives its client, by what
the heap says about the size of the allocation. -/
def Session.Owns (s : Session) (x : Nat) : Prop :=
  ∃ p ∈ s.held, ∃ bytes, (capacity p).run s.arena = .ok bytes s.arena ∧ p ≤ x ∧ x < p + bytes

/-- Whether a request keeps to the client's rules. Alignments are words. -/
def Request.Allowed (s : Session) : Request → Prop
  | .allocAligned _ align => align < wordLimit
  | .free p => p ∈ s.held
  | .realloc (some p) _ => p ∈ s.held
  | .size p => p ∈ s.held
  | .write x _ => s.Owns x
  | _ => True

/-- A request is allowed and goes through. -/
structure Step (s : Session) (r : Request) (answer : Option Nat) (s' : Session) : Prop where
  allowed : r.Allowed s
  ran : r.perform.run s.arena = .ok (.ok answer) s'.arena
  held : s'.held = r.handOver s.held answer

/-- Requests go through one after the other. -/
inductive Run : Session → List Request → Session → Prop
  | done (s : Session) : Run s [] s
  | step {s s' s'' : Session} {r : Request} {rs : List Request} {answer : Option Nat} :
    Step s r answer s' → Run s' rs s'' → Run s (r :: rs) s''

/-- A heap that was set up over a region, whatever was there before, and found room
for itself. -/
structure Opens (region : Region) (s : Session) : Prop where
  ran : ∃ a, (init region.base region.size).run a = .ok () s.arena
  accepted : ∃ usage, stats.run s.arena = .ok usage s.arena ∧ 0 < usage.total
  held : s.held = []

/-- What a session over a region can come to. -/
def Reachable (region : Region) (s : Session) : Prop :=
  ∃ s₀ rs, Opens region s₀ ∧ Run s₀ rs s

/-! ## Setting up -/

namespace Region

variable (region : Region)

theorem base_le_start : region.base ≤ region.start :=
  le_roundUp (by decide) region.base

theorem start_aligned : region.start % 8 = 0 := by
  have hmod : region.start % 16 = 0 := roundUp_mod region.base regionAlign
  omega

/-- A region that has room for a block is not left by it. -/
theorem end_le (h : 0 < region.room) : region.start + region.room ≤ region.base + region.size := by
  have hroom : region.room ≤ region.size - (region.start - region.base) := Nat.div_mul_le_self _ _
  have hbase := region.base_le_start
  omega

variable {region}

/-- The heap that consists of one free block is sound. -/
theorem sound_fresh (h : Header.bytes + grain ≤ region.room) (m : Memory) :
    Sound (region.fresh m) [region.whole] := by
  have hbytes : 0 < Header.bytes := by decide
  have hend := region.end_le (by omega)
  have hbase := region.base_le_start
  have hpos := region.positive
  have hbounded := region.bounded
  have hzero : (0 : Nat) < wordLimit := by decide
  have hlaid : Laid region.start (region.start + region.room) (region.fresh m).memory
      [region.whole] := by
    refine ⟨by omega, by omega, region.start_aligned, by omega, ⟨rfl, rfl⟩, ?_, ?_⟩
    · intro b hb
      rw [List.mem_singleton.mp hb]
      exact ⟨Nat.le_of_add_right_le h, Nat.mul_mod_left _ _⟩
    · have hword : region.room < wordLimit := by omega
      exact ⟨readAt_writeAt m region.start hword hzero hzero, trivial⟩
  refine ⟨hlaid, rfl, List.isChain_singleton _, ?_, rfl, rfl⟩
  intro b hb hlive
  rw [List.mem_singleton.mp hb] at hlive
  contradiction

end Region

/-- Setting up makes the whole region one free block, or leaves the heap empty. -/
theorem run_init (region : Region) (a : Arena) :
    (init region.base region.size).run a = .ok ()
      (if Header.bytes + grain ≤ region.room then region.fresh a.memory else ⟨{}, a.memory⟩) := by
  have hbounded := region.bounded
  have hbase := region.base_le_start
  have halign : regionAlign < wordLimit / 2 := by decide
  have hup : Checked.alignUp region.base regionAlign = .ok region.start :=
    Checked.alignUp_eq_ok (by decide) (by omega)
  have hsub : Checked.sub region.start region.base = .ok (region.start - region.base) :=
    Checked.sub_eq_ok hbase
  -- the heap is emptied before the region is looked at
  rw [init, hup, run_lift_ok_bind, hsub, run_lift_ok_bind, run_modify_bind]
  change EStateM.run (if Header.bytes + grain ≤ region.room then _ else _) _ = _
  by_cases hroom : Header.bytes + grain ≤ region.room
  · have hbytes : 0 < Header.bytes := by decide
    have hend := region.end_le (by omega)
    have hlimit : Checked.add region.start region.room = .ok (region.start + region.room) :=
      Checked.add_eq_ok (by omega)
    rw [if_pos hroom, if_pos hroom, run_change_bind, run_modify_bind]
    rw [show (region.size - (region.start - region.base)) / grain * grain = region.room from rfl,
      hlimit, run_lift_ok_bind, EStateM.run_modify]
    rfl
  · rw [if_neg hroom, if_neg hroom, EStateM.run_pure]

/-- The usage that a heap reports when it was just set up. -/
theorem run_stats (a : Arena) (h : a.heap.start ≤ a.heap.limit) :
    stats.run a = .ok ⟨a.heap.limit - a.heap.start, a.heap.used, a.heap.count⟩ a := by
  rw [stats, run_get_bind]
  simp only [Checked.sub_eq_ok h, run_lift_ok_bind, EStateM.run_pure]

/-- A heap opens exactly when its region has room for a header and eight bytes. -/
theorem opens_iff {region : Region} {s : Session} :
    Opens region s ↔ Header.bytes + grain ≤ region.room ∧ s.held = [] ∧
      ∃ m, s.arena = region.fresh m := by
  constructor
  · rintro ⟨⟨a, hrun⟩, ⟨usage, hstats, htotal⟩, hheld⟩
    rw [run_init] at hrun
    injection hrun with _ harena
    by_cases hroom : Header.bytes + grain ≤ region.room
    · rw [if_pos hroom] at harena
      exact ⟨hroom, hheld, a.memory, harena.symm⟩
    · -- a heap without room reports a region of no bytes
      rw [if_neg hroom] at harena
      rw [← harena, run_stats _ (Nat.le_refl _)] at hstats
      injection hstats with husage
      rw [← husage] at htotal
      exact absurd htotal (Nat.lt_irrefl 0)
  · rintro ⟨hroom, hheld, m, harena⟩
    have hbytes : 0 < Header.bytes := by decide
    refine ⟨⟨⟨{}, m⟩, ?_⟩, ⟨⟨region.room, 0, 0⟩, ?_, by show 0 < region.room; omega⟩, hheld⟩
    · rw [run_init, if_pos hroom, harena]
    · rw [harena, run_stats _ (Nat.le_add_right _ _)]
      simp [Region.fresh]

/-! ## The invariant of a session -/

/-- What is true all through a session: the arena is sound, its region is the one it
was set up over, and the pointers held are the data addresses of its live blocks. -/
structure Keeps (region : Region) (s : Session) (bs : List Block) : Prop where
  sound : Sound s.arena bs
  start : s.arena.heap.start = region.start
  limit : s.arena.heap.limit = region.start + region.room
  held : s.held.Perm ((live bs).map Block.data)

/-- A heap that was set up and found room is one free block. -/
theorem Opens.keeps {region : Region} {s : Session} (h : Opens region s) :
    Keeps region s [region.whole] := by
  obtain ⟨hroom, hheld, m, harena⟩ := opens_iff.mp h
  refine ⟨by rw [harena]; exact region.sound_fresh hroom m, by rw [harena]; rfl,
    by rw [harena]; rfl, ?_⟩
  rw [hheld]
  exact .refl _

end Heap

end Supervisor
