import Supervisor.Proofs.Frames.Accounting

/-!
# Who holds which frame

Several clients share a frame map. What a client was handed it holds, until it
gives it back, frame by frame or several runs at once.

- `FrameMap.Tenancy`: the map, and which client holds which frames.
- `FrameMap.Step`, `FrameMap.Reachable`: what can happen, as long as clients give
  back only frames that they hold.
- `FrameMap.Kept`: the invariant. A frame that is held is in use and has one
  holder; the frames of reserved spans are in use and have none.
- `FrameMap.Exclusive`, `reachable_exclusive`: a run of frames that is handed out
  was held by nobody and lies clear of the reserved spans. Low memory is never
  handed out, whatever was given back.
-/

namespace Supervisor

namespace FrameMap

/-- The frames that a request gives back, whether they may be given back or not. -/
def Request.Covers (r : Request) (i : Nat) : Prop :=
  ∃ address count, r.gives = some (address, count) ∧
    address / Page.bytes ≤ i ∧ i < address / Page.bytes + count

/-- The frames that the answer to a request hands out. -/
def Request.Grants (r : Request) (answer : Option Nat) (i : Nat) : Prop :=
  ∃ address count, answer = some address ∧ r.asks = some count ∧
    address / Page.bytes ≤ i ∧ i < address / Page.bytes + count

/-- A request gives back no frame below `limit`, low memory excepted, which never becomes
free. -/
def Request.Spares (limit : Nat) (r : Request) : Prop :=
  ∀ i, r.Covers i → i < lowMemory / Page.bytes ∨ limit / Page.bytes ≤ i

/-- A map in use by clients of a type. -/
structure Tenancy (ι : Type) where
  map : FrameMap
  /-- Which client holds which frame. -/
  holds : ι → Nat → Prop

/-- The request of a client goes through. It gives back only frames that the client
holds; from then on, the client holds what it was handed instead. -/
structure Step {ι : Type} (t : Tenancy ι) (c : ι) (r : Request) (answer : Option Nat)
    (t' : Tenancy ι) : Prop where
  allowed : ∀ i, r.Covers i → t.holds c i
  ran : r.perform.run t.map = .ok answer t'.map
  holds : ∀ d i, t'.holds d i ↔
    t.holds d i ∧ ¬ (d = c ∧ r.Covers i) ∨ d = c ∧ r.Grants answer i

/-- What the clients of a map can come to, of which nobody holds anything at first. -/
inductive Reachable {ι : Type} (f : FrameMap) : Tenancy ι → Prop
  | start : Reachable f ⟨f, fun _ _ => False⟩
  | step {t t' : Tenancy ι} {c : ι} {r : Request} {answer : Option Nat} :
    Reachable f t → Step t c r answer t' → Reachable f t'

/-- What a client can rely on that is handed `count` frames at `address`, in a map of the
memory below `upperBound`:
1. the address is that of a page;
2. the frames are frames of the map;
3. nobody holds any of them;
4. they have no byte in a reserved span. -/
structure Exclusive {ι : Type} (upperBound : Nat) (reserved : List Span) (t : Tenancy ι)
    (address count : Nat) : Prop where
  aligned : address % Page.bytes = 0
  inside : address + count * Page.bytes ≤ upperBound / Page.bytes * Page.bytes
  unheld : ∀ i, address / Page.bytes ≤ i → i < address / Page.bytes + count → ∀ d, ¬ t.holds d i
  unreserved : ∀ span ∈ reserved, ∀ x, span.start ≤ x → x < span.stop →
    x < address ∨ address + count * Page.bytes ≤ x

/-- What is true of a map that clients share, of which the frames in `pinned` are
reserved:
1. the map is sound;
2. frames that are held are in use;
3. no two clients hold the same frame;
4. the frames in `pinned` are in use, but nobody holds them. -/
structure Kept {ι : Type} (pinned : Finset Nat) (t : Tenancy ι) : Prop where
  sound : Sound t.map
  inUse : ∀ c i, t.holds c i → t.map.bit i = true
  alone : ∀ c d i, t.holds c i → t.holds d i → c = d
  pinned : ∀ i ∈ pinned, t.map.bit i = true ∧ ∀ c, ¬ t.holds c i

section Ownership

variable {ι : Type} {upperBound : Nat} {storage : Array (BitVec 64)} {reserved : List Span}
  {f f' : FrameMap} {pinned : Finset Nat} {t t' : Tenancy ι} {c : ι} {r : Request}
  {answer : Option Nat} {i : Nat}

theorem Request.covers_iff {address count : Nat} (h : r.gives = some (address, count)) :
    r.Covers i ↔ address / Page.bytes ≤ i ∧ i < address / Page.bytes + count := by
  simp [Covers, h]

theorem Request.grants_iff {s count : Nat} (h : r.asks = some count) :
    r.Grants (some (s * Page.bytes)) i ↔ i ∈ Finset.Ico s (s + count) := by
  have hdiv : s * Page.bytes / Page.bytes = s := Nat.mul_div_cancel _ (by decide)
  simp [Grants, h, hdiv]

/-- An allocation gives nothing back. -/
theorem Request.not_covers {count : Nat} (h : r.asks = some count) : ¬ r.Covers i := by
  rintro ⟨address, n, hgives, -⟩
  cases r <;> simp [asks, gives] at h hgives

theorem Request.not_grants_none : ¬ r.Grants none i := by
  rintro ⟨_, _, hanswer, -⟩
  cases hanswer

/-! ## The invariant -/

namespace Kept

/-- A run of free frames is held by nobody, and reserved for nobody. -/
theorem of_clear (h : Kept pinned t) (hclear : t.map.bit i = false) :
    (∀ d, ¬ t.holds d i) ∧ i ∉ pinned := by
  constructor
  · intro d hd
    rw [h.inUse d i hd] at hclear
    contradiction
  · intro hi
    rw [(h.pinned i hi).1] at hclear
    contradiction

/-- Frames that were free are handed out. -/
theorem grant {s : Finset Nat} (h : Kept pinned t) (hsound : Sound t'.map)
    (hsets : Sets true s t.map t'.map) (hclear : ∀ i ∈ s, t.map.bit i = false)
    (hholds : ∀ d i, t'.holds d i ↔ t.holds d i ∨ d = c ∧ i ∈ s) : Kept pinned t' := by
  have hbits : ∀ i, t.map.bit i = true → t'.map.bit i = true := by
    intro i hbit
    rw [hsets.bit, hbit, ite_self]
  refine ⟨hsound, ?inUse, ?alone, ?pinned⟩
  case inUse =>
    intro d i hd
    rcases (hholds d i).mp hd with hd | ⟨-, hi⟩
    · exact hbits i (h.inUse d i hd)
    · rw [hsets.bit, if_pos hi]
  case alone =>
    intro d e i hd he
    rcases (hholds d i).mp hd with hd | ⟨rfl, hi⟩
    · rcases (hholds e i).mp he with he | ⟨-, hi⟩
      · exact h.alone d e i hd he
      · exact absurd hd ((h.of_clear (hclear i hi)).1 d)
    · rcases (hholds e i).mp he with he | ⟨rfl, -⟩
      · exact absurd he ((h.of_clear (hclear i hi)).1 e)
      · rfl
  case pinned =>
    intro i hi
    obtain ⟨hbit, hfree⟩ := h.pinned i hi
    refine ⟨hbits i hbit, ?_⟩
    intro d hd
    rcases (hholds d i).mp hd with hd | ⟨-, hmem⟩
    · exact hfree d hd
    · exact (h.of_clear (hclear i hmem)).2 hi

/-- A client gives up frames, and none but these become free. -/
theorem release {P : Nat → Prop} (h : Kept pinned t) (hsound : Sound t'.map)
    (hbits : ∀ i, t.map.bit i = true → ¬ P i → t'.map.bit i = true)
    (hallowed : ∀ i, P i → t.holds c i)
    (hholds : ∀ d i, t'.holds d i → t.holds d i ∧ ¬ (d = c ∧ P i)) : Kept pinned t' := by
  refine ⟨hsound, ?inUse, ?alone, ?pinned⟩
  case inUse =>
    intro d i hd
    obtain ⟨hd, hkept⟩ := hholds d i hd
    refine hbits i (h.inUse d i hd) fun hi => hkept ⟨?_, hi⟩
    exact h.alone d c i hd (hallowed i hi)
  case alone =>
    intro d e i hd he
    exact h.alone d e i (hholds d i hd).1 (hholds e i he).1
  case pinned =>
    intro i hi
    obtain ⟨hbit, hfree⟩ := h.pinned i hi
    refine ⟨hbits i hbit fun hgiven => hfree c (hallowed i hgiven), ?_⟩
    intro d hd
    exact hfree d (hholds d i hd).1

/-- One step keeps the invariant. -/
theorem step (h : Kept pinned t) (hstep : Step t c r answer t') : Kept pinned t' := by
  obtain ⟨hsound, heffect⟩ := h.sound.effect hstep.ran
  cases answer with
  | some address =>
    obtain ⟨count, s, rfl, hasks, -, hfirst, hsets⟩ := heffect.of_some
    refine h.grant hsound hsets ?_ ?_ (c := c)
    · intro i hi
      exact (mem_freeFrames.mp (hfirst.2.1.subset_freeFrames hi)).2
    · intro d i
      rw [hstep.holds, Request.grants_iff hasks]
      simp [Request.not_covers hasks]
  | none =>
    refine h.release hsound ?_ hstep.allowed ?_
    · intro i hbit hcovers
      rcases heffect.of_none with hsame | ⟨address, count, hgives, hsets⟩
      · rw [hsame, hbit]
      · have hne : i ∉ t.map.covered address count := fun hi =>
          hcovers ((Request.covers_iff hgives).mpr (mem_covered.mp hi).2.2.2)
        rw [hsets.bit, if_neg hne, hbit]
    · intro d i hd
      rcases (hstep.holds d i).mp hd with hd | ⟨-, hgrants⟩
      · exact hd
      · exact absurd hgrants Request.not_grants_none

end Kept

/-- In a map that was built, the frames in use are those of the reserved spans. -/
theorem bit_of_build (hbound : upperBound < wordLimit)
    (hbuild : build upperBound storage reserved = .ok (.ok f)) (hi : i < f.total) :
    f.bit i = true ↔ ∃ span ∈ reserved, i ∈ span.frames f.total := by
  obtain ⟨hf, hsets⟩ := build_spec hbound hbuild
  have htotal : f.total = upperBound / Page.bytes := hsets.total
  have hroom : wordCount (upperBound / Page.bytes) ≤ storage.size := by
    have hsize : (blank upperBound storage).storage.size = storage.size := size_blank
    rw [← hsize, ← hsets.size, ← htotal]
    exact hf.room
  have hlt : i < upperBound / Page.bytes := htotal ▸ hi
  have hblank : (blank upperBound storage).bit i = false := by
    rw [bit_blank hroom (Nat.lt_of_lt_of_le hlt (total_le_words (blank upperBound storage)))]
    exact decide_eq_false (Nat.not_le.mpr hlt)
  rw [hsets.bit, hblank, htotal]
  simp

theorem Reachable.kept (hbound : upperBound < wordLimit)
    (hbuild : build upperBound storage reserved = .ok (.ok f)) (h : Reachable f t) :
    t.map.total = f.total ∧ Kept (reserved.toFinset.biUnion (Span.frames f.total)) t := by
  induction h with
  | start =>
    obtain ⟨hf, -⟩ := build_spec hbound hbuild
    refine ⟨rfl, hf, fun _ _ hd => hd.elim, fun _ _ _ hd => hd.elim, ?_⟩
    intro i hi
    simp only [Finset.mem_biUnion, List.mem_toFinset] at hi
    obtain ⟨span, hspan, hi⟩ := hi
    have htotal := Finset.mem_range.mp (Finset.mem_filter.mp hi).1
    exact ⟨(bit_of_build hbound hbuild htotal).mpr ⟨span, hspan, hi⟩, fun _ hd => hd⟩
  | step _ hstep ih =>
    obtain ⟨htotal, hkept⟩ := ih
    have hbounds := (hkept.sound.effect hstep.ran).2.sameBounds
    exact ⟨hbounds.total.trans htotal, hkept.step hstep⟩

/-! ## What is handed out -/

/-- A frame with a byte in a span is one of its frames. -/
theorem mem_frames {total x : Nat} {span : Span} (hx : x / Page.bytes < total)
    (hstart : span.start ≤ x) (hstop : x < span.stop) : x / Page.bytes ∈ span.frames total := by
  rw [Span.frames, Finset.mem_filter, Finset.mem_range]
  unfold Page.bytes at *
  omega

/-- What a request is answered with belongs to its client alone. -/
theorem Kept.exclusive {address : Nat} (htotal : t.map.total = upperBound / Page.bytes)
    (h : Kept (reserved.toFinset.biUnion (Span.frames t.map.total)) t)
    (hstep : Step t c r (some address) t') :
    ∃ count, r.asks = some count ∧ Exclusive upperBound reserved t address count := by
  obtain ⟨count, s, rfl, hasks, -, hfirst, -⟩ := (h.sound.effect hstep.ran).2.of_some
  have hend := hfirst.2.1.1
  have hclear : ∀ i, s ≤ i → i < s + count → t.map.bit i = false := hfirst.2.1.2
  have hdiv : s * Page.bytes / Page.bytes = s := Nat.mul_div_cancel _ (by decide)
  refine ⟨count, hasks, Nat.mul_mod_left _ _, ?inside, ?unheld, ?unreserved⟩
  case inside =>
    rw [← Nat.add_mul, ← htotal]
    exact Nat.mul_le_mul_right _ hend
  case unheld =>
    intro i hlow hhigh
    rw [hdiv] at hlow hhigh
    exact (h.of_clear (hclear i hlow hhigh)).1
  case unreserved =>
    intro span hspan x hstart hstop
    by_contra hmem
    have hlow : s ≤ x / Page.bytes := by
      unfold Page.bytes at *
      omega
    have hhigh : x / Page.bytes < s + count := by
      unfold Page.bytes at *
      omega
    refine (h.of_clear (hclear _ hlow hhigh)).2 ?_
    simp only [Finset.mem_biUnion, List.mem_toFinset]
    exact ⟨span, hspan, mem_frames (Nat.lt_of_lt_of_le hhigh hend) hstart hstop⟩

/-- Clients that give back what they hold are served. -/
theorem Kept.exists_step (h : Kept pinned t) (hallowed : ∀ i, r.Covers i → t.holds c i) :
    ∃ answer t', Step t c r answer t' := by
  obtain ⟨answer, f', hrun, -⟩ := exists_effect h.sound r
  exact ⟨answer, ⟨f', fun d i => t.holds d i ∧ ¬ (d = c ∧ r.Covers i) ∨ d = c ∧ r.Grants answer i⟩,
    hallowed, hrun, fun _ _ => .rfl⟩

/-- An allocation for which there is room is answered with the lowest run. -/
theorem Kept.exists_grant {count s : Nat} (h : Kept pinned t) (c : ι) (hasks : r.asks = some count)
    (hpos : 0 < count) (hrun : t.map.IsRun count s) (hbelow : ∀ i < s, t.map.bit i = true) :
    ∃ t', Step t c r (some (s * Page.bytes)) t' ∧
      Sets true (Finset.Ico s (s + count)) t.map t'.map := by
  obtain ⟨answer, t', hstep⟩ :=
    h.exists_step (c := c) fun i hi => absurd hi (Request.not_covers hasks)
  obtain ⟨rfl, hsets⟩ :=
    (h.sound.effect hstep.ran).2.eq_some hasks hpos (hrun.first hpos hbelow)
  exact ⟨t', hstep, hsets⟩

/-- What a client gives back is free. -/
theorem Kept.exists_return {address count : Nat} (h : Kept pinned t)
    (hgives : r.gives = some (address, count)) (hallowed : ∀ i, r.Covers i → t.holds c i) :
    ∃ t', Step t c r none t' ∧ Sets false (t.map.covered address count) t.map t'.map := by
  obtain ⟨answer, t', hstep⟩ := h.exists_step hallowed
  obtain ⟨rfl, hsets⟩ := (h.sound.effect hstep.ran).2.of_gives hgives
  exact ⟨t', hstep, hsets⟩

/-- Frames in use below a limit stay in use, unless they are given back, and what is handed
out lies behind them. -/
theorem Effect.above {limit : Nat} (h : Effect f r answer f') (haligned : limit % Page.bytes = 0)
    (hspares : r.Spares limit)
    (hused : ∀ i < limit / Page.bytes, i < f.total → f.bit i = true) :
    (∀ i < limit / Page.bytes, i < f'.total → f'.bit i = true) ∧
      ∀ address, answer = some address → limit ≤ address := by
  rw [h.sameBounds.total]
  cases answer with
  | some address =>
    obtain ⟨count, s, rfl, -, hpos, ⟨-, ⟨hend, hclear⟩, -⟩, hsets⟩ := h.of_some
    refine ⟨fun i hi htotal => by rw [hsets.bit, hused i hi htotal, ite_self], ?_⟩
    rintro _ ⟨rfl⟩
    by_contra hlt
    have hs : s < limit / Page.bytes := by
      unfold Page.bytes at *
      omega
    have hfree := hclear s (Nat.le_refl _) (by omega)
    rw [hused s hs (by omega)] at hfree
    exact Bool.noConfusion hfree
  | none =>
    refine ⟨fun i hi htotal => ?_, fun _ h => nomatch h⟩
    rcases h.of_none with rfl | ⟨address, count, hgives, hsets⟩
    · exact hused i hi htotal
    · have hne : i ∉ f.covered address count := by
        intro hmem
        obtain ⟨-, -, hlow, hcovers⟩ := mem_covered.mp hmem
        rcases hspares i ((Request.covers_iff hgives).mpr hcovers) with hlt | hge
        · exact absurd hlt (Nat.not_lt.mpr hlow)
        · exact absurd hi (Nat.not_lt.mpr hge)
      rw [hsets.bit, if_neg hne, hused i hi htotal]

/-- Low memory in use stays in use, and what is handed out lies behind it. -/
theorem Effect.above_low
    (h : Effect f r answer f') (hlow : ∀ i < lowMemory / Page.bytes, i < f.total → f.bit i = true) :
    (∀ i < lowMemory / Page.bytes, i < f'.total → f'.bit i = true) ∧
      ∀ address, answer = some address → lowMemory ≤ address :=
  h.above rfl (fun i _ => Nat.lt_or_ge i _) hlow

/-- Among clients that give back only what they hold, a request is always served, and what
it is answered with belongs to its client alone. Low memory is never handed out, even if
frames are given back that nobody holds. -/
theorem reachable_exclusive (ι : Type) (hbound : upperBound < wordLimit)
    (hlow : ⟨0, lowMemory⟩ ∈ reserved)
    (hbuild : build upperBound storage reserved = .ok (.ok f)) :
    (∀ t : Tenancy ι, Reachable f t → ∀ c r,
      ((∀ i, r.Covers i → t.holds c i) → ∃ answer t', Step t c r answer t') ∧
      ∀ address t', Step t c r (some address) t' →
        ∃ count, r.asks = some count ∧ Exclusive upperBound reserved t address count) ∧
    ∀ rs : List Request, ∃ answers f', (rs.mapM Request.perform).run f = .ok answers f' ∧
      ∀ address, some address ∈ answers → lowMemory ≤ address := by
  obtain ⟨hf, hsets⟩ := build_spec hbound hbuild
  have hframes : f.total = upperBound / Page.bytes := hsets.total
  constructor
  · intro t ht c r
    obtain ⟨htotal, hkept⟩ := ht.kept hbound hbuild
    refine ⟨hkept.exists_step, ?_⟩
    intro address t' hstep
    rw [← htotal] at hkept
    exact hkept.exclusive (htotal.trans hframes) hstep
  · intro rs
    have hinit : ∀ i < lowMemory / Page.bytes, i < f.total → f.bit i = true := by
      intro i hi htotal
      refine (bit_of_build hbound hbuild htotal).mpr ⟨_, hlow, ?_⟩
      rw [Span.frames, Finset.mem_filter, Finset.mem_range]
      refine ⟨htotal, Nat.zero_le _, ?_⟩
      unfold lowMemory Page.bytes at *
      omega
    obtain ⟨answers, f', hrun, -, -, -, hall⟩ :=
      run_requests (P := fun f => ∀ i < lowMemory / Page.bytes, i < f.total → f.bit i = true)
        (Q := fun answer => ∀ address, answer = some address → lowMemory ≤ address)
        (fun _ _ _ _ h heffect => heffect.above_low h) rs hf hinit
    exact ⟨answers, f', hrun, fun address hmem => hall _ hmem address rfl⟩

/-- A client takes three frames and gives the middle one back, which another client is
handed while the first one still holds the frames beside it. -/
theorem two_clients_exclusive :
    ∃ (f : FrameMap) (t t' : Tenancy Bool),
      build 0x110000 #[0, 0, 0, 0, 0] [⟨0, lowMemory⟩, ⟨0x100000, 0x101800⟩] = .ok (.ok f) ∧
      Reachable f t ∧ t.holds true 258 ∧ Step t false .allocFrame (some 0x103000) t' ∧
      Exclusive 0x110000 [⟨0, lowMemory⟩, ⟨0x100000, 0x101800⟩] t 0x103000 1 := by
  obtain ⟨f, hbuild, hf, hsets⟩ := exists_build 0x110000 #[0, 0, 0, 0, 0]
    [⟨0, lowMemory⟩, ⟨0x100000, 0x101800⟩] (by decide) (by decide)
  have htotal : f.total = 272 := hsets.total
  have hbit : ∀ i < 272, f.bit i = decide (i < 258) := by
    intro i hi
    rw [Bool.eq_iff_iff, bit_of_build (by decide) hbuild (by omega), htotal, decide_eq_true_iff]
    simp [Span.frames]
    unfold lowMemory Page.bytes
    omega
  have hkept := (Reachable.start.kept (ι := Bool) (by decide) hbuild).2
  -- the first client takes three frames
  have hrun₁ : f.IsRun 3 258 := by
    refine ⟨by omega, fun i hlow hhigh => ?_⟩
    rw [hbit i (by omega)]
    exact decide_eq_false (by omega)
  obtain ⟨t₁, hstep₁, hsets₁⟩ := hkept.exists_grant true (r := .allocRun 3) rfl (by decide) hrun₁
    fun i hi => (hbit i (by omega)).trans (decide_eq_true hi)
  have hheld : ∀ i, t₁.holds true i ↔ i ∈ Finset.Ico 258 261 := by
    intro i
    rw [hstep₁.holds, Request.grants_iff rfl]
    simp
  -- and gives the one in the middle back
  have hcovers : ∀ i, Request.Covers (.freeFrame 0x103000) i ↔ i = 259 := by
    intro i
    rw [Request.covers_iff rfl]
    unfold Page.bytes
    omega
  have hcovered : t₁.map.covered 0x103000 1 = {259} := by
    ext i
    rw [mem_covered, hsets₁.total, Finset.mem_singleton]
    show i < f.total ∧ _ ↔ _
    rw [htotal]
    unfold lowMemory Page.bytes
    omega
  have hkept₁ := hkept.step hstep₁
  obtain ⟨t₂, hstep₂, hsets₂⟩ := hkept₁.exists_return (r := .freeFrame 0x103000) rfl
    fun i hi => by
      rw [(hcovers i).mp hi, hheld]
      decide
  rw [hcovered] at hsets₂
  -- another client is handed that frame
  have hrun₂ : t₂.map.IsRun 1 259 := by
    refine isRun_one.mpr ⟨by rw [hsets₂.total, hsets₁.total]; show 259 < f.total; omega, ?_⟩
    rw [hsets₂.bit, if_pos (Finset.mem_singleton_self _)]
  have hbelow₂ : ∀ i < 259, t₂.map.bit i = true := by
    intro i hi
    rw [hsets₂.bit, if_neg (by simp; omega), hsets₁.bit]
    by_cases hmem : i ∈ Finset.Ico 258 261
    · rw [if_pos hmem]
    · rw [if_neg hmem]
      show f.bit i = true
      rw [hbit i (by omega)]
      refine decide_eq_true ?_
      rw [Finset.mem_Ico] at hmem
      omega
  obtain ⟨t₃, hstep₃, -⟩ := (hkept₁.step hstep₂).exists_grant false (r := .allocFrame) rfl
    Nat.one_pos hrun₂ hbelow₂
  have hreach₂ : Reachable f t₂ := .step (.step .start hstep₁) hstep₂
  obtain ⟨count, hasks, hfinal⟩ :=
    ((reachable_exclusive Bool (by decide) List.mem_cons_self hbuild).1 t₂ hreach₂ false _).2 _ t₃
      hstep₃
  obtain rfl : 1 = count := Option.some.inj hasks
  refine ⟨f, t₂, t₃, hbuild, hreach₂, ?_, hstep₃, hfinal⟩
  rw [hstep₂.holds]
  refine .inl ⟨(hheld 258).mpr (by decide), ?_⟩
  rintro ⟨-, hi⟩
  exact absurd ((hcovers 258).mp hi) (by decide)

end Ownership

end FrameMap

end Supervisor
