import Supervisor.Proofs.Frames.Effect

/-!
# The counters of a frame map

Clients send a frame map requests in any order, with any arguments: pages that
they do not hold, that are free already, that lie off a page boundary or behind
the last frame, and runs that wrap around the address space.

- `FrameMap.Request`, `Request.perform`: the requests and the programs behind
  them; `FrameMap.Effect` says what a request does, and `exists_effect` that every
  request does that.
- `run_requests`: what every effect keeps, a sequence of requests keeps.
- `FrameMap.Accounted`: the counters count the clear bits, and no bit outside the
  map is lost. It holds after every sequence of requests (`requests_accounted`).
-/

namespace Supervisor

namespace FrameMap

/-! ## Requests -/

/-- What a client asks of a frame map. -/
inductive Request where
  | allocFrame
  | allocRun (count : Nat)
  | freeFrame (address : Nat)
  | freeRun (address count : Nat)
  deriving DecidableEq, Repr

namespace Request

/-- The program behind a request. Only allocations answer with an address. -/
def perform : Request → FrameM (Option Nat)
  | allocFrame => FrameMap.allocFrame
  | allocRun count => FrameMap.allocRun count
  | freeFrame address => (fun _ => none) <$> FrameMap.freeFrame address
  | freeRun address count => (fun _ => none) <$> FrameMap.freeRun address count

/-- How many frames an allocation asks for. -/
def asks : Request → Option Nat
  | allocFrame => some 1
  | allocRun count => some count
  | _ => none

/-- The address and the number of the pages that are given back. -/
def gives : Request → Option (Nat × Nat)
  | freeFrame address => some (address, 1)
  | freeRun address count => some (address, count)
  | _ => none

end Request

/-- What a request does to a map:
1. an allocation is answered with the first run that is long enough, and its frames
   are in use from then on;
2. or with nothing, if there is no such run, and then nothing changes;
3. pages given back are free from then on, but for those that may not be given back. -/
inductive Effect (f : FrameMap) (r : Request) : Option Nat → FrameMap → Prop
  | granted {count s : Nat} {f' : FrameMap} : r.asks = some count → 0 < count →
    f.FirstRun count 0 (some s) → Sets true (Finset.Ico s (s + count)) f f' →
    Effect f r (some (s * Page.bytes)) f'
  | denied {count : Nat} : r.asks = some count → count = 0 ∨ f.FirstRun count 0 none →
    Effect f r none f
  | freed {address count : Nat} {f' : FrameMap} : r.gives = some (address, count) →
    Sets false (f.covered address count) f f' → Effect f r none f'

section Requests

variable {f f' : FrameMap} {r : Request} {answer : Option Nat}

/-- Every request goes through, with its effect. -/
theorem exists_effect (hf : Sound f) (r : Request) :
    ∃ answer f', r.perform.run f = .ok answer f' ∧ Sound f' ∧ Effect f r answer f' := by
  cases r with
  | allocFrame =>
    rcases allocFrame_cases hf with ⟨hnone, hrun⟩ | ⟨s, f', hfirst, hrun, hf', hsets⟩
    · exact ⟨none, f, hrun, hf, .denied rfl (.inr hnone)⟩
    · exact ⟨_, f', hrun, hf', .granted rfl Nat.one_pos hfirst hsets⟩
  | allocRun count =>
    rcases allocRun_cases hf count with ⟨hnone, hrun⟩ | ⟨s, f', hpos, hfirst, hrun, hf', hsets⟩
    · exact ⟨none, f, hrun, hf, .denied rfl hnone⟩
    · exact ⟨_, f', hrun, hf', .granted rfl hpos hfirst hsets⟩
  | freeFrame address =>
    obtain ⟨f', hrun, hf', hsets⟩ := run_freeFrame hf address
    exact ⟨none, f', run_map_ok hrun _, hf', .freed rfl hsets⟩
  | freeRun address count =>
    obtain ⟨f', hrun, hf', hsets⟩ := run_freeRun hf address count
    exact ⟨none, f', run_map_ok hrun _, hf', .freed rfl hsets⟩

/-- What a request that went through did is its effect. -/
theorem Sound.effect (hf : Sound f) (hrun : r.perform.run f = .ok answer f') :
    Sound f' ∧ Effect f r answer f' := by
  obtain ⟨answer', g, hrun', hg, heffect⟩ := exists_effect hf r
  rw [hrun'] at hrun
  injection hrun with hanswer hmap
  subst hanswer hmap
  exact ⟨hg, heffect⟩

theorem Effect.of_some {address : Nat} (h : Effect f r (some address) f') :
    ∃ count s, address = s * Page.bytes ∧ r.asks = some count ∧ 0 < count ∧
      f.FirstRun count 0 (some s) ∧ Sets true (Finset.Ico s (s + count)) f f' := by
  cases h with
  | granted hasks hpos hfirst hsets => exact ⟨_, _, rfl, hasks, hpos, hfirst, hsets⟩

/-- An allocation is answered with the first run there is. -/
theorem Effect.eq_some {count s : Nat} (h : Effect f r answer f') (hasks : r.asks = some count)
    (hpos : 0 < count) (hfirst : f.FirstRun count 0 (some s)) :
    answer = some (s * Page.bytes) ∧ Sets true (Finset.Ico s (s + count)) f f' := by
  cases h with
  | granted hasks' _ hfirst' hsets =>
    obtain rfl := Option.some.inj (hasks.symm.trans hasks')
    obtain rfl := Option.some.inj (hfirst.unique hfirst')
    exact ⟨rfl, hsets⟩
  | denied hasks' hnone =>
    obtain rfl := Option.some.inj (hasks.symm.trans hasks')
    rcases hnone with rfl | hnone
    · exact absurd hpos (Nat.lt_irrefl 0)
    · exact nomatch hfirst.unique hnone
  | freed hgives _ =>
    cases r <;> simp [Request.asks, Request.gives] at hasks hgives

theorem Effect.of_none (h : Effect f r none f') :
    f' = f ∨ ∃ address count, r.gives = some (address, count) ∧
      Sets false (f.covered address count) f f' := by
  cases h with
  | denied _ _ => exact .inl rfl
  | freed hgives hsets => exact .inr ⟨_, _, hgives, hsets⟩

theorem Effect.of_gives {address count : Nat} (h : Effect f r answer f')
    (hgives : r.gives = some (address, count)) :
    answer = none ∧ Sets false (f.covered address count) f f' := by
  cases h with
  | granted hasks _ _ _ => cases r <;> simp [Request.asks, Request.gives] at hasks hgives
  | denied hasks _ => cases r <;> simp [Request.asks, Request.gives] at hasks hgives
  | freed hgives' hsets =>
    cases hgives.symm.trans hgives'
    exact ⟨rfl, hsets⟩

/-- What every effect keeps holds after every sequence of requests, and what every effect
says about its answer is true of all answers. -/
theorem run_requests {P : FrameMap → Prop} {Q : Option Nat → Prop}
    (hstep : ∀ f r answer f', P f → Effect f r answer f' → P f' ∧ Q answer)
    (rs : List Request) (hf : Sound f) (hp : P f) :
    ∃ answers f', (rs.mapM Request.perform).run f = .ok answers f' ∧
      answers.length = rs.length ∧ Sound f' ∧ P f' ∧ ∀ answer ∈ answers, Q answer := by
  induction rs generalizing f with
  | nil => exact ⟨[], f, rfl, rfl, hf, hp, fun _ h => nomatch h⟩
  | cons r rs ih =>
    obtain ⟨answer, f₁, hrun, hf₁, heffect⟩ := exists_effect hf r
    obtain ⟨hp₁, hq⟩ := hstep f r answer f₁ hp heffect
    obtain ⟨answers, f', hrest, hlen, hf', hp', hall⟩ := ih hf₁ hp₁
    refine ⟨answer :: answers, f', ?_, by simp [hlen], hf', hp', ?_⟩
    · rw [List.mapM_cons, run_bind_ok hrun, run_bind_ok hrest, EStateM.run_pure]
    · intro a ha
      rcases List.mem_cons.mp ha with rfl | ha
      · exact hq
      · exact hall a ha

end Requests

/-! ## Accounts -/

/-- A map built for the memory below `upperBound` over `storage` keeps its accounts:
1. the number of frames is that of the memory, of which those not free are used, and
   those free are the frames with a clear bit;
2. the bits behind the last frame, in the words that the map uses, are set;
3. the words that it does not use are as they were. -/
structure Accounted (upperBound : Nat) (storage : Array (BitVec 64)) (f : FrameMap) : Prop where
  stats : ∃ s, f.stats = .ok s ∧ s.total = upperBound / Page.bytes ∧ s.used + s.free = s.total ∧
    s.free = {i ∈ Finset.range s.total | f.bit i = false}.card
  tail : ∀ i, upperBound / Page.bytes ≤ i → i < wordCount (upperBound / Page.bytes) * wordBits →
    f.bit i = true
  beyond : ∀ i, wordCount (upperBound / Page.bytes) ≤ i → f.storage[i]? = storage[i]?

/-- The part of a map that no request changes. -/
structure SameBounds (f f' : FrameMap) : Prop where
  total : f'.total = f.total
  beyond : ∀ i, f.words ≤ i → f'.storage[i]? = f.storage[i]?

section Accounts

variable {upperBound : Nat} {storage : Array (BitVec 64)} {reserved : List Span}
  {f f' f'' : FrameMap} {r : Request} {answer : Option Nat}

theorem Sets.sameBounds {b : Bool} {s : Finset Nat} (h : Sets b s f f') : SameBounds f f' :=
  ⟨h.total, h.beyond⟩

theorem SameBounds.trans (h : SameBounds f f') (h' : SameBounds f' f'') : SameBounds f f'' := by
  have hwords : f'.words = f.words := by rw [words, words, h.total]
  refine ⟨h'.total.trans h.total, ?_⟩
  intro i hi
  rw [h'.beyond i (hwords ▸ hi), h.beyond i hi]

theorem Effect.sameBounds (h : Effect f r answer f') : SameBounds f f' := by
  cases h with
  | granted _ _ _ hsets => exact hsets.sameBounds
  | denied _ _ => exact ⟨rfl, fun _ _ => rfl⟩
  | freed _ hsets => exact hsets.sameBounds

/-- A request leaves the storage as long as it is. -/
theorem Effect.size (h : Effect f r answer f') : f'.storage.size = f.storage.size := by
  cases h with
  | granted _ _ _ hsets => exact hsets.size
  | denied _ _ => rfl
  | freed _ hsets => exact hsets.size

/-- The counters of a sound map. -/
theorem Sound.stats_eq (hf : Sound f) : f.stats = .ok ⟨f.total, f.free, f.total - f.free⟩ := by
  rw [FrameMap.stats, Checked.sub_eq_ok hf.free_le]
  rfl

theorem Sound.accounted (hf : Sound f) (h : SameBounds (blank upperBound storage) f) :
    Accounted upperBound storage f := by
  have htotal : f.total = upperBound / Page.bytes := h.total
  refine ⟨⟨_, hf.stats_eq, htotal, Nat.sub_add_cancel hf.free_le, hf.counter⟩, ?_, ?_⟩
  · intro i hlow hhigh
    rw [← htotal] at hlow hhigh
    exact hf.tail i hlow hhigh
  · intro i hi
    rw [h.beyond i hi, getElem?_blank_of_ge hi]

/-- What a map is when it was just built. -/
theorem build_spec (hbound : upperBound < wordLimit)
    (h : build upperBound storage reserved = .ok (.ok f)) :
    Sound f ∧ Sets true (reserved.toFinset.biUnion (Span.frames (upperBound / Page.bytes)))
      (blank upperBound storage) f := by
  by_cases hroom : wordCount (upperBound / Page.bytes) ≤ storage.size
  · obtain ⟨g, hbuild, hg⟩ := exists_build upperBound storage reserved hbound hroom
    rw [hbuild] at h
    injection h with h
    injection h with h
    exact h ▸ hg
  · rw [build, if_pos (Nat.not_le.mp hroom)] at h
    injection h with h
    cases h

/-- Every sequence of requests to a map that was built is answered, whatever the requests
are about, and the map keeps its accounts. -/
theorem requests_accounted (hbound : upperBound < wordLimit)
    (hbuild : build upperBound storage reserved = .ok (.ok f)) (rs : List Request) :
    ∃ answers f', (rs.mapM Request.perform).run f = .ok answers f' ∧
      answers.length = rs.length ∧ Accounted upperBound storage f' := by
  obtain ⟨hf, hsets⟩ := build_spec hbound hbuild
  obtain ⟨answers, f', hrun, hlen, hf', hsame, -⟩ :=
    run_requests (P := SameBounds (blank upperBound storage)) (Q := fun _ => True)
      (fun _ _ _ _ h heffect => ⟨h.trans heffect.sameBounds, trivial⟩) rs hf hsets.sameBounds
  exact ⟨answers, f', hrun, hlen, hf'.accounted hsame⟩

/-- Seventy frames in two of three words: a run is taken and given back twice, once off a
page boundary and once around the end of the address space. -/
theorem seventy_accounted :
    ∃ f, build 0x46000 #[7, 7, 7] [⟨0x1000, 0x2001⟩, ⟨0, 0x2000⟩] = .ok (.ok f) ∧
      ∃ answers f', ([.allocRun 5, .allocFrame, .freeRun 0x3000 5, .freeRun 0x3000 5,
        .freeFrame 0x2fff, .freeRun 0xfffffffffffff000 2,
        .allocRun 65].mapM Request.perform).run f = .ok answers f' ∧
        answers.length = 7 ∧ Accounted 0x46000 #[7, 7, 7] f' := by
  obtain ⟨f, hbuild, -⟩ := exists_build 0x46000 #[7, 7, 7]
    [⟨0x1000, 0x2001⟩, ⟨0, 0x2000⟩] (by decide) (by decide)
  exact ⟨f, hbuild, requests_accounted (by decide) hbuild _⟩

end Accounts

end FrameMap

end Supervisor
