import Supervisor.Proofs.Frames.Ownership
import Supervisor.Proofs.Frames.Window
import Supervisor.Proofs.Heap.Session
import Supervisor.Proofs.Machine.Fatal
import Supervisor.Proofs.Machine.Store

/-!
# The layout of memory

When the kernel comes up, the words of the frame map are put behind its image, and the heap
behind them.

- `Machine.Plan`: from where memory ends and where the image ends follows everything else.
- `Machine.Tracks`: the machine has a sound frame map where the plan puts it. Whatever
  leaves its words alone (`Undisturbed`) keeps it, and a request to the machine is a request
  to it (`Tracks.exists_ask`).
- `Machine.Mapped`: exactly the frames below a limit are in use.
  `Mapped.exists_allocFrames` takes a run of frames at the limit.
- `Machine.Guarded`: all frames below a limit are in use. This is kept (`Later.guarded`) as
  long as none of them is given back, and then what is handed out lies behind the limit
  (`Later.exists_ask`).
-/

namespace Supervisor

open Heap (roundUp)

namespace Machine

/-! ## The plan -/

/-- What the layout of memory is computed from: where memory ends, of which no more than the
first gigabyte is used, and where the image of the kernel ends, which starts at one
megabyte and ends on a page boundary. -/
structure Plan where
  top : Nat
  kernelEnd : Nat
  mapped : top ≤ Config.mappedTop
  behind : FrameMap.lowMemory ≤ kernelEnd
  aligned : kernelEnd % Page.bytes = 0

namespace Plan

variable (p : Plan)

/-- The image of the kernel. -/
def kernel : Span :=
  ⟨FrameMap.lowMemory, p.kernelEnd⟩

/-- Number of frames. -/
def frames : Nat :=
  p.top / Page.bytes

/-- Words of the bitmap. -/
def words : Nat :=
  FrameMap.wordCount p.frames

/-- The first page boundary behind the bitmap, which starts where the kernel ends. -/
def base : Nat :=
  p.kernelEnd + roundUp (8 * p.words) Page.bytes

/-- The spans that are in use from the beginning: low memory, the image and the bitmap. -/
def reserved : List Span :=
  [⟨0, FrameMap.lowMemory⟩, p.kernel, ⟨p.kernelEnd, p.base⟩]

/-- The size of the heap: four megabytes, or one if they do not fit. -/
def heapSize : Option Nat :=
  if 1024 ≤ p.frames - p.base / Page.bytes then some (4 * mebibyte)
  else if 256 ≤ p.frames - p.base / Page.bytes then some mebibyte
  else none

/-- The bitmap ends so close to the end of the address space that its end cannot be rounded
up to a page boundary. -/
def Overflows : Prop :=
  wordLimit ≤ p.kernelEnd + Page.bytes ∨
    p.kernelEnd + 8 * p.words < wordLimit ∧ wordLimit ≤ p.kernelEnd + 8 * p.words + Page.bytes

/-- The report that the bitmap does not fit. -/
def noRoomMessage : String :=
  "pmm init failed: " ++ (FrameError.noRoomForBitmap (8 * p.words)).message

/-- The area of the frame map before there is one. -/
def blankArea : FrameArea :=
  ⟨p.kernelEnd, p.words, 0, 0⟩

/-- The plan for what the loader reported. -/
def ofBoot (header : Option LoaderBlock) (recovery : Bool) (kernelEnd : Nat)
    (behind : FrameMap.lowMemory ≤ kernelEnd) (aligned : kernelEnd % Page.bytes = 0) : Plan where
  top := (Config.ofBoot (.ofBlock header recovery)).memoryTop
  kernelEnd := kernelEnd
  mapped := Nat.min_le_right _ _
  behind := behind
  aligned := aligned

variable {size i : Nat} {span : Span}

theorem frames_le : p.frames ≤ 262144 := by
  have hmapped := p.mapped
  unfold frames Config.mappedTop Page.bytes at *
  omega

theorem words_le : 8 * p.words ≤ 32768 := by
  have hframes := p.frames_le
  unfold words FrameMap.wordCount FrameMap.wordBits
  omega

theorem base_mod : p.base % Page.bytes = 0 := by
  have haligned := p.aligned
  have hround := Heap.roundUp_mod (8 * p.words) Page.bytes
  rw [base, Nat.add_mod, haligned, hround]
  rfl

theorem bitmap_le_base : p.kernelEnd + 8 * p.words ≤ p.base :=
  Nat.add_le_add_left (Heap.le_roundUp (by decide) _) _

/-- Behind an image in mapped memory, nothing overflows. -/
theorem not_overflows (h : p.kernelEnd ≤ Config.mappedTop) : ¬ p.Overflows := by
  have hwords := p.words_le
  unfold Overflows Config.mappedTop Page.bytes wordLimit at *
  omega

theorem kernelEnd_le (h : p.base ≤ p.top) : p.kernelEnd ≤ Config.mappedTop :=
  Nat.le_trans (Nat.le_of_add_right_le p.bitmap_le_base) (Nat.le_trans h p.mapped)

theorem behind_base (h : span ∈ p.reserved) : span.stop ≤ p.base := by
  have hbehind := p.behind
  have hbitmap := p.bitmap_le_base
  simp only [reserved, List.mem_cons, List.not_mem_nil, or_false] at h
  rcases h with rfl | rfl | rfl
  · show FrameMap.lowMemory ≤ p.base
    omega
  · show p.kernelEnd ≤ p.base
    omega
  · exact Nat.le_refl _

/-- The reserved spans follow one another, from the first frame on. -/
theorem mem_reserved_iff (hi : i < p.frames) :
    (∃ span ∈ p.reserved, i ∈ span.frames p.frames) ↔ i < p.base / Page.bytes := by
  have haligned := p.aligned
  have hbehind := p.behind
  have hbase := p.bitmap_le_base
  have hmod := p.base_mod
  simp only [reserved, kernel, Span.frames, List.mem_cons, List.not_mem_nil, or_false,
    exists_eq_or_imp, exists_eq_left, Finset.mem_filter, Finset.mem_range]
  unfold FrameMap.lowMemory Page.bytes at *
  omega

theorem heapSize_eq_some (h : p.heapSize = some size) :
    size = 4 * mebibyte ∧ p.base / Page.bytes + 1024 ≤ p.frames ∨
      size = mebibyte ∧ p.frames < p.base / Page.bytes + 1024 ∧
        p.base / Page.bytes + 256 ≤ p.frames := by
  unfold heapSize at h
  split at h
  · exact .inl ⟨(Option.some.inj h).symm, by omega⟩
  · split at h
    · exact .inr ⟨(Option.some.inj h).symm, by omega⟩
    · cases h

theorem heapSize_eq_none (h : p.heapSize = none) :
    p.frames < p.base / Page.bytes + 256 := by
  unfold heapSize at h
  split at h
  · cases h
  · split at h
    · cases h
    · omega

theorem heapSize_mod (h : p.heapSize = some size) :
    size % Page.bytes = 0 ∧ 0 < size := by
  rcases p.heapSize_eq_some h with ⟨rfl, -⟩ | ⟨rfl, -⟩ <;> decide

theorem heap_inside (h : p.heapSize = some size) : p.base + size ≤ p.top := by
  have hmod := p.base_mod
  rcases p.heapSize_eq_some h with ⟨rfl, hfits⟩ | ⟨rfl, -, hfits⟩ <;>
  · unfold frames Page.bytes mebibyte at *
    omega

/-- Rounding up behind the kernel is rounding up the size of the bitmap. -/
theorem roundUp_kernelEnd : roundUp (p.kernelEnd + 8 * p.words) Page.bytes = p.base := by
  have haligned := p.aligned
  unfold base roundUp Page.bytes at *
  omega

theorem roundUp_kernel : roundUp p.kernelEnd Page.bytes = p.kernelEnd := by
  have haligned := p.aligned
  unfold roundUp Page.bytes at *
  omega

theorem mul_words : Checked.mul (FrameMap.wordCount (p.top / Page.bytes)) 8 =
    .ok (8 * p.words) := by
  have hwords : p.words * 8 < wordLimit := by
    rw [Nat.mul_comm]
    exact Nat.lt_of_le_of_lt p.words_le (by decide)
  rw [Nat.mul_comm 8]
  exact Checked.mul_eq_ok hwords

theorem ofStart_kernelEnd : Bump.ofStart p.kernelEnd p.top =
    if wordLimit ≤ p.kernelEnd + Page.bytes then .error .addOverflow
    else .ok ⟨p.kernelEnd, p.top⟩ := by
  rw [Bump.ofStart_eq, p.roundUp_kernel]

theorem alloc_bitmap :
    Bump.alloc ⟨p.kernelEnd, p.top⟩ (8 * p.words) =
      if p.kernelEnd + 8 * p.words < wordLimit ∧ wordLimit ≤ p.kernelEnd + 8 * p.words + Page.bytes
      then .error .addOverflow
      else if p.top < p.base then .ok (none, ⟨p.kernelEnd, p.top⟩)
      else .ok (some ⟨p.kernelEnd, p.base⟩, ⟨p.base, p.top⟩) := by
  have htop : p.top < wordLimit := Nat.lt_of_le_of_lt p.mapped (by decide)
  have hbase := p.bitmap_le_base
  rw [Bump.alloc_eq]
  dsimp only
  rw [p.roundUp_kernelEnd]
  by_cases hend : wordLimit ≤ p.kernelEnd + 8 * p.words
  · rw [if_pos hend, if_neg (by omega), if_pos (by omega)]
  · by_cases hover : wordLimit ≤ p.kernelEnd + 8 * p.words + Page.bytes
    · rw [if_neg hend, if_pos hover, if_pos ⟨Nat.not_le.mp hend, hover⟩]
    · rw [if_neg hend, if_neg hover, if_neg (not_and_of_not_right _ hover)]

end Plan

variable {p : Plan} {b b' b'' : Machine} {f f' : FrameMap} {limit : Nat}

/-! ## The frame map where the plan puts it -/

/-- The area of a frame map that is where the plan puts it. -/
def Plan.area (p : Plan) (f : FrameMap) : FrameArea :=
  ⟨p.kernelEnd, p.words, f.total, f.free⟩

/-- The machine has the frame map `f`, in the words behind the kernel. -/
structure Tracks (p : Plan) (b : Machine) (f : FrameMap) : Prop where
  area : b.rest.frames = some (p.area f)
  read : frameMapOf b.rest.memory (p.area f) = f
  total : f.total = p.frames
  sound : f.Sound

/-- Of all frames, those below `limit` are in use and the others are free. -/
def Mapped (p : Plan) (limit : Nat) (b : Machine) : Prop :=
  ∃ f, Tracks p b f ∧ ∀ i < p.frames, f.bit i = decide (i < limit / Page.bytes)

/-- All frames below `limit` are in use. -/
def Guarded (p : Plan) (limit : Nat) (b : Machine) : Prop :=
  ∃ f, Tracks p b f ∧ ∀ i < limit / Page.bytes, i < p.frames → f.bit i = true

/-- The frame map is left alone. -/
structure Undisturbed (p : Plan) (b b' : Machine) : Prop where
  frames : b'.rest.frames = b.rest.frames
  memory : ∀ x, p.kernelEnd ≤ x → x < p.kernelEnd + 8 * p.words →
    b'.rest.memory.read x = b.rest.memory.read x

theorem Undisturbed.trans (h : Undisturbed p b b') (h' : Undisturbed p b' b'') :
    Undisturbed p b b'' where
  frames := h'.frames.trans h.frames
  memory := fun x hlow hhigh => (h'.memory x hlow hhigh).trans (h.memory x hlow hhigh)

/-- A request to the frame map of the machine. -/
def ask (r : FrameMap.Request) : MachineM (Option Nat) :=
  onFrames none r.perform

theorem Tracks.size (h : Tracks p b f) : f.storage.size = p.words := by
  rw [← h.read, frameMapOf, Array.size_ofFn]
  rfl

theorem Tracks.undisturbed (h : Tracks p b f) (hsame : Undisturbed p b b') : Tracks p b' f where
  area := hsame.frames.trans h.area
  read := (frameMapOf_congr hsame.memory).trans h.read
  total := h.total
  sound := h.sound

theorem Mapped.undisturbed (h : Mapped p limit b) (hsame : Undisturbed p b b') :
    Mapped p limit b' := by
  obtain ⟨f, htracks, hbits⟩ := h
  exact ⟨f, htracks.undisturbed hsame, hbits⟩

/-- A frame map that is put where the plan says is there. -/
theorem tracks_putFrameMap {area : FrameArea} (hbase : area.base = p.kernelEnd)
    (hwords : area.words = p.words) (hsize : f.storage.size = p.words)
    (htotal : f.total = p.frames) (hf : f.Sound)
    (hrest : b'.rest = putFrameMap area f b.rest) : Tracks p b' f := by
  have harea : { area with total := f.total, free := f.free } = p.area f := by
    rw [Plan.area, ← hbase, ← hwords]
  refine ⟨?_, ?_, htotal, hf⟩
  · rw [hrest, ← harea]
    rfl
  · rw [hrest, ← harea]
    exact frameMapOf_putFrameMap b.rest (hsize.trans hwords.symm)

/-! ## What else changes -/

/-- The locks that the kernel takes while it sets up its store are free, and no report was
begun. -/
structure Ready (b : Machine) : Prop where
  frames : Lock.frames ∉ b.held
  heap : Lock.heap ∉ b.held
  serial : Lock.serial ∉ b.held
  console : Lock.console ∉ b.held
  quiet : b.rest.panicking = false

/-- From `b` to `b'`, the same locks are held, and of the remaining state only memory, the
two allocators and what was printed have changed. -/
structure Steady (b b' : Machine) : Prop where
  held : b'.held = b.held
  rest : b'.rest = { b.rest with
    memory := b'.rest.memory
    frames := b'.rest.frames
    heap := b'.rest.heap
    pen := b'.rest.pen
    outside := b'.rest.outside }

theorem Steady.refl (b : Machine) : Steady b b :=
  ⟨rfl, rfl⟩

theorem Steady.trans (h : Steady b b') (h' : Steady b' b'') : Steady b b'' where
  held := h'.held.trans h.held
  rest := by
    rw [h'.rest, h.rest]

theorem Ready.of_steady (hready : Ready b) (h : Steady b b') : Ready b' where
  frames := h.held ▸ hready.frames
  heap := h.held ▸ hready.heap
  serial := h.held ▸ hready.serial
  console := h.held ▸ hready.console
  quiet := by
    rw [h.rest]
    exact hready.quiet

theorem Printed.steady (h : Printed b b') : Steady b b' where
  held := h.held
  rest := by
    rw [h.rest]

/-- The screen lies below the first megabyte, and so apart from everything that is placed. -/
theorem read_behind_screen {m n : Memory} (h : Memory.ChangedIn m n consoleBase consoleBytes)
    {x : Nat} (hx : FrameMap.lowMemory ≤ x) : n.read x = m.read x := by
  refine h.read_eq (.inr ?_)
  unfold FrameMap.lowMemory at hx
  unfold consoleBase consoleBytes
  omega

theorem Printed.undisturbed (h : Printed b b') (p : Plan) : Undisturbed p b b' where
  frames := by
    rw [h.rest]
  memory := fun _ hlow _ => read_behind_screen h.memory (Nat.le_trans p.behind hlow)

theorem Reported.undisturbed {r : Panic.Report} (h : Reported r b b') (p : Plan) :
    Undisturbed p b b' where
  frames := by
    rw [h.rest]
  memory := fun _ hlow _ => read_behind_screen h.memory (Nat.le_trans p.behind hlow)

/-- With the locks free, a log line is written. -/
theorem Ready.exists_log {e : Log.Entry} {Q : Machine → Prop} (hready : Ready b)
    (hnext : ∀ b', Printed b b' → Q b') : ∃ b', (log e).run b = .ok () b' ∧ Q b' := by
  obtain ⟨b', hlog, hprinted⟩ := exists_run_log e hready.serial hready.console
  exact ⟨b', hlog, hnext b' hprinted⟩

/-- With the locks free, a log line is written, and what comes behind it runs on. -/
theorem Ready.exists_log_bind {α : Type} {e : Log.Entry} {k : Unit → MachineM α}
    {r : Machine → EStateM.Result Stop Machine α} {Q : Machine → Prop} (hready : Ready b)
    (hnext : ∀ b', Printed b b' → ∃ b'', (k ()).run b' = r b'' ∧ Q b'') :
    ∃ b'', (log e >>= k).run b = r b'' ∧ Q b'' := by
  obtain ⟨b', hlog, hprinted⟩ := exists_run_log e hready.serial hready.console
  obtain ⟨b'', hrun, hb''⟩ := hnext b' hprinted
  exact ⟨b'', by rw [run_bind_ok hlog, hrun], hb''⟩

/-! ## Taking frames -/

/-- A request to the machine is a request to its frame map. -/
theorem Tracks.exists_ask (h : Tracks p b f) (hfree : Lock.frames ∉ b.held)
    (r : FrameMap.Request) : ∃ answer f' b', (ask r).run b = .ok answer b' ∧
      FrameMap.Effect f r answer f' ∧ Tracks p b' f' ∧ Steady b b' := by
  obtain ⟨answer, f', hrun, hf', heffect⟩ := FrameMap.exists_effect h.sound r
  rw [← h.read] at hrun
  have hask : (ask r).run b = .ok answer _ := run_onFrames hfree h.area hrun
  refine ⟨answer, f', _, hask, heffect, ?_, Board.passed_held b, rfl⟩
  exact tracks_putFrameMap rfl rfl (heffect.size.trans h.size)
    (heffect.sameBounds.total.trans h.total) hf' rfl

/-- Frames are taken from the lowest free one on, if there are enough of them. -/
theorem Mapped.exists_allocFrames (h : Mapped p limit b) (hready : Ready b)
    (haligned : limit % Page.bytes = 0) (count : Nat) (hpos : 0 < count) :
    ∃ b', Steady b b' ∧
      (limit / Page.bytes + count ≤ p.frames ∧ (allocFrames count).run b = .ok (some limit) b' ∧
        Mapped p (limit + count * Page.bytes) b' ∨
      p.frames < limit / Page.bytes + count ∧ (allocFrames count).run b = .ok none b' ∧
        Mapped p limit b') := by
  obtain ⟨f, htracks, hbits⟩ := h
  obtain ⟨answer, f', b', hrun, heffect, htracks', hsteady⟩ :=
    htracks.exists_ask hready.frames (.allocRun count)
  refine ⟨b', hsteady, ?_⟩
  have htotal := htracks.total
  rcases Nat.lt_or_ge p.frames (limit / Page.bytes + count) with hfew | henough
  · refine .inr ⟨hfew, ?_⟩
    cases answer with
    | some address =>
      -- a run of so many frames would start below the limit
      obtain ⟨_, s, -, hasks, -, hfirst, -⟩ := heffect.of_some
      obtain rfl := Option.some.inj hasks
      obtain ⟨hend, hclear⟩ := hfirst.2.1
      have hs := hclear s (Nat.le_refl s) (Nat.lt_add_of_pos_right hpos)
      rw [hbits s (by omega)] at hs
      have := of_decide_eq_false hs
      omega
    | none =>
      refine ⟨hrun, f', htracks', ?_⟩
      rcases heffect.of_none with rfl | ⟨_, _, hgives, -⟩
      · exact hbits
      · cases hgives
  · refine .inl ⟨henough, ?_⟩
    have hisRun : f.IsRun count (limit / Page.bytes) := by
      refine ⟨htotal ▸ henough, fun i hlow hhigh => ?_⟩
      rw [hbits i (by omega)]
      exact decide_eq_false (Nat.not_lt.mpr hlow)
    have hfirst := hisRun.first hpos fun i hi => by
      rw [hbits i (by omega)]
      exact decide_eq_true hi
    obtain ⟨rfl, hsets⟩ := heffect.eq_some rfl hpos hfirst
    have hlimit : limit / Page.bytes * Page.bytes = limit := Nat.div_mul_cancel
      (Nat.dvd_of_mod_eq_zero haligned)
    rw [hlimit] at hrun
    refine ⟨hrun, f', htracks', fun i hi => ?_⟩
    rw [Nat.add_mul_div_right _ _ (by decide), hsets.bit, hbits i hi]
    by_cases hmem : i ∈ Finset.Ico (limit / Page.bytes) (limit / Page.bytes + count)
    · rw [if_pos hmem]
      exact (decide_eq_true (Finset.mem_Ico.mp hmem).2).symm
    · rw [if_neg hmem]
      rw [Finset.mem_Ico] at hmem
      exact decide_eq_decide.mpr (by omega)

/-! ## What is handed out later -/

/-- What becomes of the machine when frames are asked for and given back, but none below
`limit`, and in between the frame map is left alone. -/
inductive Later (p : Plan) (limit : Nat) (b : Machine) : Machine → Prop
  | start : Later p limit b b
  | undisturbed {b' b'' : Machine} : Later p limit b b' → Undisturbed p b' b'' →
    Lock.frames ∉ b''.held → Later p limit b b''
  | asked {b' b'' : Machine} {r : FrameMap.Request} {answer : Option Nat} : Later p limit b b' →
    r.Spares limit → (ask r).run b' = .ok answer b'' → Later p limit b b''

theorem Mapped.guarded (h : Mapped p limit b) : Guarded p limit b := by
  obtain ⟨f, htracks, hbits⟩ := h
  refine ⟨f, htracks, fun i hlimit hi => ?_⟩
  rw [hbits i hi]
  exact decide_eq_true hlimit

/-- The step lemma: a request is answered, and what it hands out lies behind the limit. -/
theorem Guarded.exists_ask (h : Guarded p limit b) (haligned : limit % Page.bytes = 0)
    (hfree : Lock.frames ∉ b.held) {r : FrameMap.Request} (hspares : r.Spares limit) :
    ∃ answer b', (ask r).run b = .ok answer b' ∧ Guarded p limit b' ∧ Lock.frames ∉ b'.held ∧
      ∀ address, answer = some address → limit ≤ address := by
  obtain ⟨f, htracks, hused⟩ := h
  obtain ⟨answer, f', b', hrun, heffect, htracks', hsteady⟩ := htracks.exists_ask hfree r
  have hused' : ∀ i < limit / Page.bytes, i < f.total → f.bit i = true := fun i hi htotal =>
    hused i hi (htracks.total ▸ htotal)
  obtain ⟨hkept, hbehind⟩ := heffect.above haligned hspares hused'
  refine ⟨answer, b', hrun, ⟨f', htracks', fun i hi htotal => ?_⟩, hsteady.held ▸ hfree, hbehind⟩
  exact hkept i hi (htracks'.total ▸ htotal)

/-- The run lemma. -/
theorem Later.guarded (h : Later p limit b b') (haligned : limit % Page.bytes = 0)
    (hfree : Lock.frames ∉ b.held) (hb : Guarded p limit b) :
    Guarded p limit b' ∧ Lock.frames ∉ b'.held := by
  induction h with
  | start => exact ⟨hb, hfree⟩
  | undisturbed _ hsame hfree' ih =>
    obtain ⟨⟨f, htracks, hused⟩, -⟩ := ih
    exact ⟨⟨f, htracks.undisturbed hsame, hused⟩, hfree'⟩
  | asked _ hspares hrun ih =>
    obtain ⟨hguarded, hfree'⟩ := ih
    obtain ⟨answer', b₁, hrun', hguarded', hfree'', -⟩ :=
      hguarded.exists_ask haligned hfree' hspares
    rw [hrun'] at hrun
    cases hrun
    exact ⟨hguarded', hfree''⟩

/-- Frames in use below a limit are never handed out, as long as they are not given back. -/
theorem Later.exists_ask (h : Later p limit b b') (haligned : limit % Page.bytes = 0)
    (hfree : Lock.frames ∉ b.held) (hb : Guarded p limit b) {r : FrameMap.Request}
    (hspares : r.Spares limit) : ∃ answer b'', (ask r).run b' = .ok answer b'' ∧
      ∀ address, answer = some address → limit ≤ address := by
  obtain ⟨hguarded, hfree'⟩ := h.guarded haligned hfree hb
  obtain ⟨answer, b'', hrun, -, -, hbehind⟩ := hguarded.exists_ask haligned hfree' hspares
  exact ⟨answer, b'', hrun, hbehind⟩

end Machine

end Supervisor
