import Supervisor.Proofs.Heap.FirstFit

/-!
# Padding in front of aligned allocations

Where in a heap an aligned request is served.

- `Heap.Pads`: a padding that makes the data of a block aligned and that is nothing or
  has room for a header. The gap that the heap computes is the least of them
  (`pads_gap`, `gap_le`).
- `Heap.Hosts`: a free block has room for a request behind some such padding. These are
  the blocks that the heap looks for (`hosts_iff`).
- `reachable_alignedFit`: wherever a session has got, an aligned request is served by
  the lowest block that hosts it, behind the least padding, and only without such a
  block by none.
-/

namespace Supervisor

namespace Heap

/-- Behind `d` bytes of padding, the data of a block at `block` is aligned:
1. the padding is nothing or has room for a header;
2. the data starts at a multiple of `align`. -/
structure Pads (block align d : Nat) : Prop where
  headed : d = 0 ∨ Header.bytes ≤ d
  aligned : (block + Header.bytes + d) % align = 0

/-- Whether a block is free and has room for a block of `required` bytes behind some
padding. -/
def Hosts (required align : Nat) (b : Block) : Prop :=
  b.free = true ∧ ∃ d, Pads b.address align d ∧ d + required ≤ b.size

/-- What the answer to a request for `n` bytes at a multiple of `align` means:
1. there is one exactly when the rounded request is a word and some block hosts it;
2. without one nothing changes;
3. otherwise the lowest block that hosts the request serves it behind the least
   padding `d`, which stays in front as a free block unless it is nothing. -/
structure AlignedFit (s : Session) (n align : Nat) (answer : Option Nat) (s' : Session) :
    Prop where
  succeeds : answer ≠ none ↔ rounded n < wordLimit ∧
    ∃ b ∈ blocks s.arena, Hosts (rounded n) align b
  unchanged : answer = none → s' = s
  granted : ∀ q, answer = some q → ∃ l b r d, blocks s.arena = l ++ b :: r ∧
    Lowest (Hosts (rounded n) align) (blocks s.arena) b ∧
    Pads b.address align d ∧ (∀ d', Pads b.address align d' → d ≤ d') ∧
    d + rounded n ≤ b.size ∧
    Grants s.arena (l ++ padded b d) (b.rest d) (rounded n) r q s'.arena

section Paddings

variable {block align d required n : Nat} {bs : List Block} {b : Block}

/-- The gap in front of a block's data is a padding. -/
theorem pads_gap (hpos : 0 < align) : Pads block align (gap block align) := by
  obtain ⟨haligned, hheaded⟩ := gap_spec block hpos
  exact ⟨hheaded, haligned⟩

/-- No padding is less than the gap. -/
theorem gap_le (hpos : 0 < align) (h : Pads block align d) : gap block align ≤ d := by
  obtain ⟨hheaded, haligned⟩ := h
  have hnear := le_roundUp hpos (payload block)
  have hleast : roundUp (payload block) align ≤ payload block + d :=
    roundUp_le hpos (Nat.le_add_right _ _) haligned
  rw [gap]
  split
  next hnarrow =>
    -- data that is not aligned needs a padding, and the one up to the next multiple is
    -- too narrow for a header
    have hwide : Header.bytes ≤ d := by
      rcases hheaded with rfl | hwide
      · exact absurd (Nat.le_antisymm hleast hnear) hnarrow.1
      · exact hwide
    have hleast' : roundUp (payload block + Header.bytes) align ≤ payload block + d :=
      roundUp_le hpos (Nat.add_le_add_left hwide _) haligned
    omega
  next => omega

/-- The heap looks for the blocks that host a request. -/
theorem hosts_iff (hpos : 0 < align) : Hosts required align b ↔ FitsAligned required align b := by
  constructor
  · rintro ⟨hfree, d, hpads, hfit⟩
    have hle := gap_le hpos hpads
    exact ⟨hfree, by omega⟩
  · rintro ⟨hfree, hfit⟩
    exact ⟨hfree, gap b.address align, pads_gap hpos, hfit⟩

/-- Some block serves an aligned request exactly when it comes to a word and some block
hosts it. -/
theorem exists_fitsAligned_iff (hpos : 0 < align) :
    (∃ required, blockSize? n = some required ∧ ∃ b ∈ bs, FitsAligned required align b) ↔
      rounded n < wordLimit ∧ ∃ b ∈ bs, Hosts (rounded n) align b := by
  constructor
  · rintro ⟨required, hsize, b, hb, hfit⟩
    obtain ⟨hword, rfl⟩ := blockSize?_eq_some_iff.mp hsize
    exact ⟨hword, b, hb, (hosts_iff hpos).mpr hfit⟩
  · rintro ⟨hword, b, hb, hhosts⟩
    exact ⟨rounded n, blockSize?_eq_some_iff.mpr ⟨hword, rfl⟩, b, hb, (hosts_iff hpos).mp hhosts⟩

/-- Up to eight, an aligned request is a plain one. -/
theorem allocAligned_eq_alloc (halign : isPowerOfTwo align = true) (hsmall : align ≤ grain)
    (hn : n ≠ 0) : allocAligned n align = alloc n := by
  rw [allocAligned, if_neg (by simp [hn, halign]), if_pos hsmall]

end Paddings

section AlignedFit

variable {region : Region} {s : Session} {n align : Nat}

/-- Wherever a session over a region gets, a request for at least one byte at a power of
two is a plain one if that is at most eight; if it is more, the lowest free block with
room behind the least padding serves the request, and nothing changes if there is
none. -/
theorem reachable_alignedFit (h : Reachable region s) (hn : n ≠ 0) (halign : ∃ k, align = 2 ^ k)
    (hword : align < wordLimit) :
    (align ≤ grain → allocAligned n align = alloc n) ∧
    (grain < align → ∃ answer s', Step s (.allocAligned n align) answer s' ∧
      AlignedFit s n align answer s') := by
  obtain ⟨bs, hkeeps⟩ := h.keeps
  have hblocks := hkeeps.sound.blocks_eq
  have hpower : isPowerOfTwo align = true := by
    obtain ⟨k, rfl⟩ := halign
    exact isPowerOfTwo_two_pow k
  have hpos : 0 < align := Nat.pos_of_ne_zero (isPowerOfTwo_iff.mp hpower).1
  refine ⟨fun hsmall => allocAligned_eq_alloc hpower hsmall hn, fun hlarge => ?_⟩
  rcases allocAligned_firstFit hkeeps.sound hn hpower hword (Nat.not_le_of_lt hlarge) with
    ⟨hrun, hnone⟩ | ⟨l, b, r, required, a', rfl, hsize, hfit, hfirst, hrun, hbecomes⟩
  · refine ⟨none, s, ⟨hword, run_map_ok hrun _, rfl⟩,
      ⟨?_, fun _ => rfl, fun _ hq => nomatch hq⟩⟩
    rw [hblocks, ← exists_fitsAligned_iff hpos]
    refine iff_of_false (fun hne => hne rfl) ?_
    rintro ⟨required, hsize, b, hb, hfit⟩
    exact hnone required hsize b hb hfit
  · obtain ⟨-, rfl⟩ := blockSize?_eq_some_iff.mp hsize
    refine ⟨some _, ⟨a', _⟩, ⟨hword, run_map_ok hrun _, rfl⟩,
      ⟨?succeeds, fun hq => (nomatch hq), ?granted⟩⟩
    case succeeds =>
      rw [hblocks, ← exists_fitsAligned_iff hpos]
      exact iff_of_true (fun hq => nomatch hq)
        ⟨rounded n, hsize, b, List.mem_append_cons_self, hfit⟩
    case granted =>
      rintro _ ⟨rfl⟩
      refine ⟨l, b, r, gap b.address align, hblocks, ?_, pads_gap hpos,
        fun d' hpads => gap_le hpos hpads, hfit.2, hbecomes.grants hkeeps.sound ?_⟩
      · rw [hblocks]
        exact hkeeps.sound.laid.lowest ((hosts_iff hpos).mpr hfit)
          fun c hc hhosts => hfirst c hc ((hosts_iff hpos).mp hhosts)
      · rw [live_append, live_append, live_padded hfit.1, List.append_nil, live_cons_free hfit.1]

/-- Behind the first allocation of a page, a request at a multiple of 64 skips the next
one, which leaves no room for a header, and is served behind 88 bytes of padding. -/
theorem page_alignedFit : ∃ s s', Reachable page s ∧
    blocks s.arena = [⟨0x100000, 136, false⟩, ⟨0x100088, 3960, true⟩] ∧
    Step s (.allocAligned 100 64) (some 0x100100) s' ∧
    blocks s'.arena = [⟨0x100000, 136, false⟩, ⟨0x100088, 88, true⟩, ⟨0x1000e0, 136, false⟩,
      ⟨0x100168, 3736, true⟩] := by
  have hsize : blockSize? 100 = some 136 := by decide
  obtain ⟨a, hreach, ⟨hsound, -⟩, -⟩ := exists_first_alloc page {} (by decide)
    (by decide) hsize (by decide)
  have hblocks : blocks a = [⟨0x100000, 136, false⟩, ⟨0x100088, 3960, true⟩] :=
    hsound.blocks_eq.trans (by decide)
  obtain ⟨answer, s', hstep, hsucceeds, -, hgranted⟩ :=
    (reachable_alignedFit hreach (show 100 ≠ 0 by decide) ⟨6, rfl⟩ (by decide)).2 (by decide)
  have hpads : Pads 0x100088 64 88 := ⟨.inr (by decide), by decide⟩
  simp only [hblocks] at hsucceeds hgranted
  cases answer with
  | none =>
    have hhosts : Hosts (rounded 100) 64 ⟨0x100088, 3960, true⟩ := ⟨rfl, 88, hpads, by decide⟩
    exact absurd rfl (hsucceeds.mpr
      ⟨by decide, _, List.mem_cons_of_mem _ List.mem_cons_self, hhosts⟩)
  | some q =>
    obtain ⟨l, b, r, d, hsplit, hlowest, ⟨hheaded, haligned⟩, hleast, -, hgrants⟩ := hgranted q rfl
    obtain ⟨rfl, rfl, rfl⟩ := split_second hsplit rfl hlowest.holds.1
    -- neither nothing nor the 24 bytes up to the next multiple are a padding
    obtain rfl : d = 88 := by
      have hle := hleast 88 hpads
      have hbytes : Header.bytes = 32 := rfl
      simp only [hbytes] at hheaded haligned
      omega
    obtain ⟨hafter, -⟩ := hgrants.cut (by decide)
    obtain rfl : q = 0x100100 := hgrants.pointer
    exact ⟨_, s', hreach, hblocks, hstep, hafter⟩

end AlignedFit

end Heap

end Supervisor
