import Supervisor.Proofs.Heap.Session
import Supervisor.Proofs.Machine.Fatal
import Supervisor.Proofs.Machine.Plan

/-!
# Where the frame map and the heap come to lie

The kernel sets up its frame map behind its image and the heap behind the frame map, from
what the loader reported about memory. It stops if either does not fit.

- `Machine.exists_framesInit`: with room for the bitmap, the frame map is there, and low
  memory, the image and the bitmap are in use. `run_framesInit_noRoom` and
  `run_framesInit_overflow` are what happens otherwise.
- `Machine.Mapped.exists_takeHeapFrames`: the heap gets the frames behind the bitmap, in the
  larger or the smaller number.
- `Machine.exists_heapInit`: it is set up over them, and nothing else changes.
- `Machine.Placed`: what holds once both are there. `memory_placed` puts the parts together;
  `lastPages_overflow` is an image behind which the end of the bitmap overflows.
-/

namespace Supervisor

namespace Machine

variable {p : Plan} {b b' : Machine}

/-! ## The frame map -/

theorem run_framesInit_overflow (h : p.Overflows) :
    (framesInit p.top p.kernel).run b = .error (.fault .addOverflow) b := by
  rw [framesInit]
  dsimp only
  rw [p.mul_words, run_bind_ok (Board.run_lift_ok _ _)]
  rw [Plan.kernel, p.ofStart_kernelEnd]
  by_cases hstart : wordLimit ≤ p.kernelEnd + Page.bytes
  · rw [if_pos hstart]
    exact run_bind_error (Board.run_lift_error _ _) _
  · rw [if_neg hstart, run_bind_ok (Board.run_lift_ok _ _), p.alloc_bitmap,
      if_pos (h.resolve_left hstart)]
    exact run_bind_error (Board.run_lift_error _ _) _

theorem run_framesInit_noRoom (h : ¬ p.Overflows) (hroom : p.top < p.base) :
    (framesInit p.top p.kernel).run b = .ok (.error (.noRoomForBitmap (8 * p.words))) b := by
  rw [Plan.Overflows, not_or] at h
  rw [framesInit]
  dsimp only
  rw [p.mul_words, run_bind_ok (Board.run_lift_ok _ _), Plan.kernel, p.ofStart_kernelEnd,
    if_neg h.1, run_bind_ok (Board.run_lift_ok _ _), p.alloc_bitmap, if_neg h.2, if_pos hroom,
    run_bind_ok (Board.run_lift_ok _ _)]
  rfl

/-- Whatever is in memory, a map can be built there. -/
theorem Plan.exists_build (p : Plan) (m : Memory) :
    ∃ f, FrameMap.build p.top (frameMapOf m p.blankArea).storage p.reserved = .ok (.ok f) ∧
      f.Sound ∧ f.total = p.frames ∧ f.storage.size = p.words ∧
      ∀ i < p.frames, f.bit i = decide (i < p.base / Page.bytes) := by
  have htop : p.top < wordLimit := Nat.lt_of_le_of_lt p.mapped (by decide)
  have hsize : (frameMapOf m p.blankArea).storage.size = p.words := Array.size_ofFn
  obtain ⟨f, hbuild, hf, hsets⟩ := FrameMap.exists_build p.top _ p.reserved htop
    (Nat.le_of_eq hsize.symm)
  have htotal : f.total = p.frames := hsets.total
  refine ⟨f, hbuild, hf, htotal, hsets.size.trans (FrameMap.size_blank.trans hsize), ?_⟩
  intro i hi
  rw [Bool.eq_iff_iff, decide_eq_true_iff, ← p.mem_reserved_iff hi,
    FrameMap.bit_of_build htop hbuild (htotal ▸ hi), htotal]

/-- A map is put into memory for the first time. -/
theorem run_putFrameMap (hfree : Lock.frames ∉ b.held) (area : FrameArea) (f : FrameMap) :
    (Board.locked .frames (change (putFrameMap area f)) : MachineM Unit).run b =
      .ok () { b.passed with rest := putFrameMap area f b.rest } := by
  refine Board.run_locked_only hfree ?_
  rw [← Board.hushed_rest b]
  rfl

theorem exists_framesInit (hready : Ready b) (hroom : p.base ≤ p.top) :
    ∃ stats b', (framesInit p.top p.kernel).run b = .ok (.ok stats) b' ∧ Mapped p p.base b' ∧
      Steady b b' ∧ stats.total ≤ p.frames ∧ stats.free ≤ p.frames := by
  have hfits := p.not_overflows (p.kernelEnd_le hroom)
  rw [Plan.Overflows, not_or] at hfits
  obtain ⟨f, hbuild, hf, htotal, hsize, hbits⟩ := p.exists_build b.rest.memory
  have hlook : (look (·.memory) : MachineM Memory).run b = .ok b.rest.memory b := rfl
  have hput := run_putFrameMap hready.frames p.blankArea f
  have hsteady : Steady b { b.passed with rest := putFrameMap p.blankArea f b.rest } :=
    ⟨Board.passed_held b, rfl⟩
  have htracks : Tracks p { b.passed with rest := putFrameMap p.blankArea f b.rest } f :=
    tracks_putFrameMap rfl rfl hsize htotal hf rfl
  rw [Plan.blankArea, Plan.words, Plan.frames] at hbuild hput
  rw [Plan.reserved, Plan.kernel] at hbuild
  rw [framesInit]
  dsimp only
  rw [p.mul_words, run_bind_ok (Board.run_lift_ok _ _), Plan.kernel, p.ofStart_kernelEnd,
    if_neg hfits.1, run_bind_ok (Board.run_lift_ok _ _), p.alloc_bitmap, if_neg hfits.2,
    if_neg (Nat.not_lt.mpr hroom), run_bind_ok (Board.run_lift_ok _ _)]
  dsimp only
  rw [run_bind_ok hlook, hbuild, run_bind_ok (Board.run_lift_ok _ _)]
  dsimp only
  rw [hf.stats_eq, run_bind_ok (Board.run_lift_ok _ _), run_bind_ok hput]
  refine ⟨_, (hready.of_steady hsteady).exists_log_bind fun b' hprinted => ⟨b', rfl, ?_⟩⟩
  have hmapped : Mapped p p.base b' :=
    ⟨f, htracks.undisturbed (hprinted.undisturbed p), hbits⟩
  exact ⟨hmapped, hsteady.trans hprinted.steady, Nat.le_of_eq htotal, htotal ▸ hf.free_le⟩

/-! ## The frames of the heap -/

/-- The report of a failure that `b` comes to. -/
def failure (b : Machine) (message : String) : Panic.Report where
  kind := .normal
  message := message
  origin := some b.rest.site.origin
  registers := b.rest.site.registers
  control := b.rest.control
  trace := b.rest.site.trace

theorem Steady.failure_eq (h : Steady b b') (message : String) :
    failure b' message = failure b message := by
  rw [failure, failure, h.rest]

/-- Without room for the large heap, the small one is tried. -/
theorem Mapped.exists_retry (h : Mapped p p.base b) (hready : Ready b)
    (hfew : p.frames < p.base / Page.bytes + 1024) :
    ∃ c, (takeHeapFrames (4 * mebibyte) mebibyte).run b = (do
        if let some base ← allocFrames 256 then
          return (base, mebibyte)
        panic .normal "cannot reserve kernel heap" : MachineM (Nat × Nat)).run c ∧
      Mapped p p.base c ∧ Steady b c := by
  obtain ⟨b₁, hsteady, hfirst⟩ := h.exists_allocFrames hready p.base_mod 1024 (by decide)
  obtain ⟨-, hrun, hmapped⟩ := hfirst.resolve_left fun h => by omega
  have hcount : 4 * mebibyte / Page.bytes = 1024 := rfl
  rw [takeHeapFrames, hcount, run_bind_ok hrun]
  refine (hready.of_steady hsteady).exists_log_bind (r := fun c => EStateM.run _ c)
    fun c hprinted => ⟨c, rfl, ?_⟩
  exact ⟨hmapped.undisturbed (hprinted.undisturbed p), hsteady.trans hprinted.steady⟩

/-- The heap gets the frames behind the bitmap. -/
theorem Mapped.exists_takeHeapFrames {size : Nat} (h : Mapped p p.base b) (hready : Ready b)
    (hsize : p.heapSize = some size) :
    ∃ b', (takeHeapFrames (4 * mebibyte) mebibyte).run b = .ok (p.base, size) b' ∧
      Mapped p (p.base + size) b' ∧ Steady b b' := by
  rcases p.heapSize_eq_some hsize with ⟨rfl, hfits⟩ | ⟨rfl, hfew, hfits⟩
  · obtain ⟨b', hsteady, htaken⟩ := h.exists_allocFrames hready p.base_mod 1024 (by decide)
    obtain ⟨-, hrun, hmapped⟩ := htaken.resolve_right fun h => by omega
    refine ⟨b', ?_, hmapped, hsteady⟩
    have hcount : 4 * mebibyte / Page.bytes = 1024 := rfl
    rw [takeHeapFrames, hcount, run_bind_ok hrun]
    rfl
  · obtain ⟨c, hretry, hmapped, hsteady⟩ := h.exists_retry hready hfew
    obtain ⟨b', hsteady', htaken⟩ :=
      hmapped.exists_allocFrames (hready.of_steady hsteady) p.base_mod 256 (by decide)
    obtain ⟨-, hrun, hmapped'⟩ := htaken.resolve_right fun h => by omega
    refine ⟨b', ?_, hmapped', hsteady.trans hsteady'⟩
    rw [hretry, run_bind_ok hrun]
    rfl

/-- Without room for any heap, the kernel stops. -/
theorem Mapped.exists_takeHeapFrames_none (h : Mapped p p.base b) (hready : Ready b)
    (hnone : p.heapSize = none) :
    ∃ b', (takeHeapFrames (4 * mebibyte) mebibyte).run b = .error .halted b' ∧
      Mapped p p.base b' ∧
      ∃ c, Steady b c ∧ Reported (failure b "cannot reserve kernel heap") c b' := by
  have hfew := p.heapSize_eq_none hnone
  obtain ⟨c, hretry, hmapped, hsteady⟩ := h.exists_retry hready (by omega)
  obtain ⟨c', hsteady', htaken⟩ :=
    hmapped.exists_allocFrames (hready.of_steady hsteady) p.base_mod 256 (by decide)
  obtain ⟨-, hrun, hmapped'⟩ := htaken.resolve_left fun h => by omega
  have hsteady := hsteady.trans hsteady'
  obtain ⟨b', hpanic, hreported⟩ := exists_run_panic (α := Nat × Nat) .normal
    "cannot reserve kernel heap" (hready.of_steady hsteady).quiet
  refine ⟨b', ?_, hmapped'.undisturbed (hreported.undisturbed p), c', hsteady, ?_⟩
  · rw [hretry, run_bind_ok hrun]
    exact hpanic
  · rw [← hsteady.failure_eq]
    exact hreported

/-! ## The heap -/

/-- The heap is one free block of `size` bytes at `base`. -/
structure HeapAt (base size : Nat) (b : Machine) : Prop where
  start : b.rest.heap.start = base
  limit : b.rest.heap.limit = base + size
  sound : Heap.Sound ⟨b.rest.heap, b.rest.memory⟩ [⟨base, size, true⟩]

/-- A region of whole pages is taken up by the heap entirely. -/
theorem fresh_of_pages (region : Heap.Region) (hbase : region.base % Page.bytes = 0)
    (hsize : region.size % Page.bytes = 0) :
    region.start = region.base ∧ region.room = region.size := by
  have hstart : region.start = region.base := by
    rw [Heap.Region.start, Heap.roundUp, Heap.regionAlign]
    unfold Page.bytes at hbase
    omega
  refine ⟨hstart, ?_⟩
  rw [Heap.Region.room, hstart, Heap.grain]
  unfold Page.bytes at hsize
  omega

theorem HeapAt.printed {base size : Nat} (h : HeapAt base size b) (hprinted : Printed b b')
    (hlow : FrameMap.lowMemory ≤ base) : HeapAt base size b' := by
  have hheap : b'.rest.heap = b.rest.heap := by
    rw [hprinted.rest]
  refine ⟨hheap ▸ h.start, hheap ▸ h.limit, ?_⟩
  rw [hheap]
  refine h.sound.of_memory ?_
  rintro x ⟨c, hc, hx, -⟩
  rw [List.mem_singleton.mp hc] at hx
  exact read_behind_screen hprinted.memory (Nat.le_trans hlow hx)

/-- Setting up the heap over whole pages changes nothing but these pages. -/
theorem exists_run_init (region : Heap.Region) (hfree : Lock.heap ∉ b.held)
    (hbase : region.base % Page.bytes = 0) (hsize : region.size % Page.bytes = 0)
    (hpos : 0 < region.size) (hapart : p.kernelEnd + 8 * p.words ≤ region.base) :
    ∃ c, (onHeap (do Heap.init region.base region.size; Heap.stats)).run b =
        .ok ⟨region.size, 0, 0⟩ c ∧
      HeapAt region.base region.size c ∧ Undisturbed p b c ∧ Steady b c := by
  obtain ⟨hstart, hwhole⟩ := fresh_of_pages region hbase hsize
  have hroom : Header.bytes + Heap.grain ≤ region.room := by
    rw [hwhole]
    unfold Header.bytes Heap.grain
    unfold Page.bytes at hsize
    omega
  have hinit := Heap.run_init region ⟨b.rest.heap, b.rest.memory⟩
  rw [if_pos hroom] at hinit
  have hstats : Heap.stats.run (region.fresh b.rest.memory) =
      .ok ⟨region.size, 0, 0⟩ (region.fresh b.rest.memory) := by
    have htotal : (region.fresh b.rest.memory).heap.limit - (region.fresh b.rest.memory).heap.start
        = region.size := by
      show region.start + region.room - region.start = _
      rw [Nat.add_sub_cancel_left, hwhole]
    rw [Heap.run_stats _ (Nat.le_add_right _ _), htotal]
    rfl
  have hsound := region.sound_fresh hroom b.rest.memory
  rw [Heap.Region.whole, hstart, hwhole] at hsound
  refine ⟨_, run_onHeap hfree (by rw [run_bind_ok hinit, hstats]), ?heap, ?same, ?steady⟩
  case heap =>
    refine ⟨hstart, ?_, hsound⟩
    show region.start + region.room = _
    rw [hstart, hwhole]
  case same =>
    refine ⟨rfl, fun x _ hx => ?_⟩
    refine (Header.changedIn_writeAt b.rest.memory region.start _).read_eq (.inl ?_)
    omega
  case steady => exact ⟨Board.passed_held b, rfl⟩

theorem run_assertThat {holds : Bool} (h : holds = true) (expression : String)
    (details : Option String) (b : Machine) :
    (assertThat holds expression details).run b = .ok () b := by
  rw [assertThat, h]
  rfl

theorem exists_heapInit (region : Heap.Region) (hready : Ready b)
    (hbase : region.base % Page.bytes = 0) (hsize : region.size % Page.bytes = 0)
    (hpos : 0 < region.size) (hlow : FrameMap.lowMemory ≤ region.base)
    (hapart : p.kernelEnd + 8 * p.words ≤ region.base) :
    ∃ b', (heapInit region.base region.size).run b = .ok () b' ∧
      HeapAt region.base region.size b' ∧ Undisturbed p b b' ∧ Steady b b' := by
  obtain ⟨c, hset, hheap, hsame, hsteady⟩ :=
    exists_run_init region hready.heap hbase hsize hpos hapart
  rw [heapInit, run_bind_ok hset, run_bind_ok (run_assertThat (decide_eq_true hpos) _ _ c)]
  refine (hready.of_steady hsteady).exists_log fun b' hprinted => ?_
  exact ⟨hheap.printed hprinted hlow, hsame.trans (hprinted.undisturbed p),
    hsteady.trans hprinted.steady⟩

/-! ## Both -/

/-- Frame map and heap are where the plan puts them.
1. The words of the frame map are behind the kernel; the frames in use are those up to the
   end of the heap.
2. The heap is one free block on the first page boundary behind the bitmap.
3. It starts on a page boundary,
4. behind low memory, the kernel and the bitmap,
5. and ends where memory ends or before that, in the memory that is mapped.
6. Requests for frames are answered from then on, but with none in front of the end of the
   heap, unless such a frame was given back. -/
structure Placed (p : Plan) (size : Nat) (b : Machine) : Prop where
  map : Mapped p (p.base + size) b
  heap : HeapAt p.base size b
  aligned : p.base % Page.bytes = 0
  behind : ∀ span ∈ p.reserved, span.stop ≤ p.base
  inside : p.base + size ≤ p.top
  mapped : p.top ≤ Config.mappedTop
  served : ∀ c, Later p (p.base + size) b c → ∀ r : FrameMap.Request, r.Spares (p.base + size) →
    ∃ answer d, (ask r).run c = .ok answer d ∧
      ∀ address, answer = some address → p.base + size ≤ address

section Store

variable {size : Nat}

theorem run_storeInit_overflow (h : p.Overflows) :
    (storeInit p.top (4 * mebibyte) mebibyte p.kernel).run b = .error (.fault .addOverflow) b := by
  rw [storeInit]
  exact run_bind_error (run_framesInit_overflow h) _

theorem exists_storeInit_noRoom (hready : Ready b) (h : ¬ p.Overflows) (hroom : p.top < p.base) :
    ∃ b', (storeInit p.top (4 * mebibyte) mebibyte p.kernel).run b = .error .halted b' ∧
      Reported (failure b p.noRoomMessage) b b' := by
  rw [storeInit, run_bind_ok (run_framesInit_noRoom h hroom)]
  exact exists_run_panic .normal p.noRoomMessage hready.quiet

/-- With room for the bitmap, what comes behind it is all about the heap. -/
theorem exists_storeInit_map (hready : Ready b) (hroom : p.base ≤ p.top) :
    ∃ c, (storeInit p.top (4 * mebibyte) mebibyte p.kernel).run b = (do
        let (base, size) ← takeHeapFrames (4 * mebibyte) mebibyte
        heapInit base size : MachineM Unit).run c ∧
      Mapped p p.base c ∧ Steady b c := by
  obtain ⟨stats, b₁, hrun, hmapped, hsteady, htotal, hfree⟩ := exists_framesInit hready hroom
  have hframes := p.frames_le
  have htotal' : stats.totalBytes = .ok (stats.total * Page.bytes) :=
    Checked.mul_eq_ok (by unfold Page.bytes wordLimit; omega)
  have hfree' : stats.freeBytes = .ok (stats.free * Page.bytes) :=
    Checked.mul_eq_ok (by unfold Page.bytes wordLimit; omega)
  rw [storeInit, run_bind_ok hrun]
  dsimp only
  rw [htotal', run_bind_ok (Board.run_lift_ok _ _), hfree', run_bind_ok (Board.run_lift_ok _ _)]
  refine (hready.of_steady hsteady).exists_log_bind (r := fun c => EStateM.run _ c)
    fun c hprinted => ⟨c, rfl, ?_⟩
  exact ⟨hmapped.undisturbed (hprinted.undisturbed p), hsteady.trans hprinted.steady⟩

theorem exists_storeInit_noHeap (hready : Ready b) (hroom : p.base ≤ p.top)
    (hnone : p.heapSize = none) :
    ∃ b', (storeInit p.top (4 * mebibyte) mebibyte p.kernel).run b = .error .halted b' ∧
      Mapped p p.base b' ∧
      ∃ c, Steady b c ∧ Reported (failure b "cannot reserve kernel heap") c b' := by
  obtain ⟨c, hrun, hmapped, hsteady⟩ := exists_storeInit_map hready hroom
  obtain ⟨b', htake, hmapped', d, hsteady', hreported⟩ :=
    hmapped.exists_takeHeapFrames_none (hready.of_steady hsteady) hnone
  refine ⟨b', ?_, hmapped', d, hsteady.trans hsteady', hsteady.failure_eq _ ▸ hreported⟩
  rw [hrun, run_bind_error htake]

theorem exists_storeInit (hready : Ready b) (hroom : p.base ≤ p.top)
    (hsize : p.heapSize = some size) :
    ∃ b', (storeInit p.top (4 * mebibyte) mebibyte p.kernel).run b = .ok () b' ∧
      Steady b b' ∧ Placed p size b' := by
  obtain ⟨c, hrun, hmapped, hsteady⟩ := exists_storeInit_map hready hroom
  obtain ⟨d, htake, hmapped, hsteady'⟩ :=
    hmapped.exists_takeHeapFrames (hready.of_steady hsteady) hsize
  have hsteady := hsteady.trans hsteady'
  obtain ⟨hpages, hpos⟩ := p.heapSize_mod hsize
  have hinside := p.heap_inside hsize
  have hbitmap := p.bitmap_le_base
  have hlow : FrameMap.lowMemory ≤ p.base :=
    Nat.le_trans p.behind (Nat.le_of_add_right_le hbitmap)
  let region : Heap.Region := .ofMapped p.base size (Nat.lt_of_lt_of_le (by decide) hlow)
    (Nat.le_trans hinside p.mapped)
  obtain ⟨b', hinit, hheap, hsame, hsteady'⟩ :=
    exists_heapInit (p := p) region (hready.of_steady hsteady) p.base_mod hpages hpos hlow hbitmap
  have hsteady := hsteady.trans hsteady'
  have hmapped := hmapped.undisturbed hsame
  have hlimit : (p.base + size) % Page.bytes = 0 := by
    rw [Nat.add_mod, p.base_mod, hpages]
    rfl
  refine ⟨b', by rw [hrun, run_bind_ok htake]; exact hinit, hsteady, hmapped, hheap, p.base_mod,
    fun _ h => p.behind_base h, hinside, p.mapped, fun c hlater r hspares => ?_⟩
  exact hlater.exists_ask hlimit (hready.of_steady hsteady).frames hmapped.guarded hspares

end Store

end Machine

end Supervisor
