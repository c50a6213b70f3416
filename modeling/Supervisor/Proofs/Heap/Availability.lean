import Supervisor.Proofs.Heap.Merging
import Supervisor.Proofs.Heap.Padding

/-!
# Frees and later requests

Freeing may take away the very block that would have served a request: it becomes part of
a larger one, which starts at a lower address and so needs another padding for an aligned
request. The larger block serves the request all the same. The padding of the smaller one
together with the bytes in front of it is a padding of the larger one (`Pads.within`), and
the heap computes the least of those.

- `Fits.within`, `Hosts.within`: a request that a block can serve is served by every free
  block that it lies within.
- `alloc_of_covers`, `allocAligned_of_covers`: hence a request that is granted in one heap
  is granted in every other one that covers it.
- `reachable_available`: a request that would be granted is granted after a free too.
-/

namespace Supervisor

namespace Heap

section Within

variable {required align d : Nat} {b c : Block}

theorem Fits.within (h : Fits required b) (hwithin : b.Within c) (hc : c.free = true) :
    Fits required c := by
  obtain ⟨hlower, hupper, -⟩ := hwithin
  have hfit := h.2
  exact ⟨hc, by omega⟩

/-- The bytes of `c` in front of `b` and a padding of `b` are a padding of `c`. -/
theorem Pads.within (h : Pads b.address align d) (hwithin : b.Within c) :
    Pads c.address align (b.address - c.address + d) := by
  obtain ⟨hlower, -, hheaded⟩ := hwithin
  constructor
  · rcases hheaded with heq | hbehind
    · rw [heq, Nat.sub_self, Nat.zero_add]
      exact h.headed
    · exact .inr (by omega)
  · have hsame : c.address + Header.bytes + (b.address - c.address + d)
        = b.address + Header.bytes + d := by omega
    rw [hsame]
    exact h.aligned

theorem Hosts.within (h : Hosts required align b) (hwithin : b.Within c) (hc : c.free = true) :
    Hosts required align c := by
  obtain ⟨-, d, hpads, hfit⟩ := h
  refine ⟨hc, _, hpads.within hwithin, ?_⟩
  obtain ⟨hlower, hupper, -⟩ := hwithin
  omega

end Within

section Covered

variable {a a' a₁ : Arena} {bs bs' : List Block} {n align p : Nat}

/-- A request that is granted in one heap is granted in a heap that covers it. -/
theorem alloc_of_covers (h : Sound a bs) (h' : Sound a' bs') (hcovers : Covers bs' bs)
    (hrun : (alloc n).run a = .ok (some p) a₁) :
    ∃ q a₂, (alloc n).run a' = .ok (some q) a₂ := by
  have hn := ne_zero_of_alloc hrun
  rcases alloc_firstFit h hn with ⟨hnone, -⟩ | ⟨l, b, r, required, -, rfl, hsize, hfit, -⟩
  · rw [hrun] at hnone
    injection hnone with hnone
    contradiction
  obtain ⟨c, hc, hfree, hwithin⟩ := hcovers b List.mem_append_cons_self hfit.1
  rcases alloc_firstFit h' hn with ⟨-, hnone⟩ | ⟨_, b', _, _, a₂, -, -, -, -, hrun', -⟩
  · exact absurd (hfit.within hwithin hfree) (hnone required hsize c hc)
  · exact ⟨b'.data, a₂, hrun'⟩

/-- So is an aligned request, though perhaps behind another padding. -/
theorem allocAligned_of_covers (h : Sound a bs) (h' : Sound a' bs') (hcovers : Covers bs' bs)
    (hword : align < wordLimit) (hrun : (allocAligned n align).run a = .ok (some p) a₁) :
    ∃ q a₂, (allocAligned n align).run a' = .ok (some q) a₂ := by
  obtain ⟨hn, halign⟩ := valid_of_allocAligned hrun
  by_cases hsmall : align ≤ grain
  · rw [allocAligned_eq_alloc halign hsmall hn] at hrun ⊢
    exact alloc_of_covers h h' hcovers hrun
  have hpos : 0 < align := Nat.pos_of_ne_zero (isPowerOfTwo_iff.mp halign).1
  rcases allocAligned_firstFit h hn halign hword hsmall with ⟨hnone, -⟩ |
    ⟨l, b, r, required, -, rfl, hsize, hfit, -⟩
  · rw [hrun] at hnone
    injection hnone with hnone
    contradiction
  obtain ⟨c, hc, hfree, hwithin⟩ := hcovers b List.mem_append_cons_self hfit.1
  have hhosts := ((hosts_iff hpos).mpr hfit).within hwithin hfree
  rcases allocAligned_firstFit h' hn halign hword hsmall with ⟨-, hnone⟩ |
    ⟨_, b', _, _, a₂, -, -, -, -, hrun', -⟩
  · exact absurd ((hosts_iff hpos).mp hhosts) (hnone required hsize c hc)
  · exact ⟨_, a₂, hrun'⟩

end Covered

section Availability

variable {region : Region} {s s₁ : Session} {r : Request} {n align p q : Nat}

/-- Wherever a session over a region gets, a request that would be granted, at an alignment
or not, is granted after any pointer that is held was freed. -/
theorem reachable_available (h : Reachable region s)
    (hr : r = .alloc n ∨ r = .allocAligned n align) (hgranted : Step s r (some p) s₁)
    (hq : q ∈ s.held) :
    (∃ s₂, Step s (.free q) none s₂) ∧
    ∀ answer s₂, Step s (.free q) answer s₂ → ∃ p' s₃, Step s₂ r (some p') s₃ := by
  obtain ⟨bs, hkeeps⟩ := h.keeps
  constructor
  · obtain ⟨answer, s₂, hstep⟩ := hkeeps.exists_step (r := .free q) hq
    obtain ⟨rfl, -⟩ := hkeeps.step_free hstep
    exact ⟨s₂, hstep⟩
  · intro answer s₂ hstep
    obtain ⟨-, l, b, r', rfl, hlive, -, hkeeps₂, -⟩ := hkeeps.step_free hstep
    have hcovers := hkeeps.sound.laid.covers_freed hlive
    have hran := hgranted.ran
    rcases hr with rfl | rfl
    · obtain ⟨_, hrun, ⟨rfl⟩⟩ := run_map_eq_ok hran
      obtain ⟨p', a₃, hrun'⟩ := alloc_of_covers hkeeps.sound hkeeps₂.sound hcovers hrun
      exact ⟨p', ⟨a₃, p' :: s₂.held⟩, trivial, run_map_ok hrun' _, rfl⟩
    · obtain ⟨_, hrun, ⟨rfl⟩⟩ := run_map_eq_ok hran
      have hword : align < wordLimit := hgranted.allowed
      obtain ⟨p', a₃, hrun'⟩ :=
        allocAligned_of_covers hkeeps.sound hkeeps₂.sound hcovers hword hrun
      exact ⟨p', ⟨a₃, p' :: s₂.held⟩, hword, run_map_ok hrun' _, rfl⟩

/-- In a page whose second allocation is freed, the block that an aligned request would be
served from becomes part of a larger one, and the request is granted nevertheless. -/
theorem page_available : ∃ s s₁ s₂ s₃ p, Reachable page s ∧
    Step s (.allocAligned 100 64) (some 0x100180) s₁ ∧ Step s (.free 0x1000a8) none s₂ ∧
    blocks s₂.arena = [⟨0x100000, 136, false⟩, ⟨0x100088, 3960, true⟩] ∧
    Step s₂ (.allocAligned 100 64) (some p) s₃ := by
  obtain ⟨a, hreach, hkeeps⟩ := exists_two_allocs
  have hsize : blockSize? 100 = some 136 := by decide
  have hlist : Sound a ([⟨0x100000, 136, false⟩, ⟨0x100088, 136, false⟩]
      ++ ⟨0x100110, 3824, true⟩ :: []) := hkeeps.sound
  obtain ⟨a₁, hrun, -⟩ := run_allocAligned_some hlist (by decide) (by decide : isPowerOfTwo 64)
    (by decide) (by decide) hsize (by decide) (by decide)
  have hstep : Step ⟨a, [0x1000a8, 0x100020]⟩ (.allocAligned 100 64) (some 0x100180)
      ⟨a₁, [0x100180, 0x1000a8, 0x100020]⟩ :=
    ⟨(by decide : 64 < wordLimit), run_map_ok hrun _, rfl⟩
  obtain ⟨⟨s₂, hfree⟩, havailable⟩ := reachable_available hreach (.inr rfl) hstep
    (List.mem_cons_self : 0x1000a8 ∈ [0x1000a8, 0x100020])
  obtain ⟨p, s₃, hagain⟩ := havailable none s₂ hfree
  exact ⟨_, _, s₂, s₃, p, hreach, hstep, hfree,
    (hkeeps.released hfree).sound.blocks_eq.trans (by decide), hagain⟩

end Availability

end Heap

end Supervisor
