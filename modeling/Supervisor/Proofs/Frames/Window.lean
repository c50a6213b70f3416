import Mathlib.Data.List.ReduceOption
import Supervisor.Frames.Bump
import Supervisor.Proofs.Heap.Aligned

/-!
# Handing out a window of memory

A `Bump` hands out whole pages from the front of a window, as long as they last. Its end of a
request is rounded up to a page boundary, and for that a sum is formed that may not be a word.

- `Page.alignUp_eq`, `Bump.ofStart_eq`, `Bump.alloc_eq`: what opening a window and a request come
  to, and with what they stop.
- `Bump.Answers`: how a request has to be answered. A request that does not overflow is answered
  like that (`Bump.exists_alloc`), and so is a run of requests (`Bump.allocAll_spec`).
- `Span.EndToEnd`: spans that follow one another without a gap, and so are disjoint
  (`Span.EndToEnd.pairwise`).
- `Bump.session_answered` says when all requests to a window are answered as they have to be;
  `Bump.lastPage_overflows` is a request that is not.
-/

namespace Supervisor

open Heap (roundUp le_roundUp roundUp_mod)

theorem roundUp_add {place : Nat} (h : place % Page.bytes = 0) (value : Nat) :
    roundUp (place + value) Page.bytes = place + roundUp value Page.bytes := by
  unfold roundUp Page.bytes at *
  omega

theorem roundUp_lt (value : Nat) : roundUp value Page.bytes < value + Page.bytes := by
  unfold roundUp Page.bytes
  omega

/-- The next page boundary, unless it cannot be formed. -/
theorem Page.alignUp_eq (address : Nat) : Page.alignUp address =
    if wordLimit ≤ address + Page.bytes then .error .addOverflow
    else .ok (roundUp address Page.bytes) := by
  by_cases hover : wordLimit ≤ address + Page.bytes
  · rw [if_pos hover, Page.alignUp, Checked.alignUp, Checked.add, if_neg (Nat.not_lt.mpr hover)]
    rfl
  · rw [if_neg hover]
    exact Checked.alignUp_eq_ok (by decide) (Nat.not_le.mp hover)

/-- The spans follow one another from an address up to another one. -/
def Span.EndToEnd (place stop : Nat) : List Span → Prop
  | [] => place = stop
  | span :: rest => span.start = place ∧ place ≤ span.stop ∧ EndToEnd span.stop stop rest

namespace Span.EndToEnd

variable {place stop : Nat} {spans : List Span} {span : Span}

theorem le (h : EndToEnd place stop spans) : place ≤ stop := by
  induction spans generalizing place with
  | nil => exact Nat.le_of_eq h
  | cons s rest ih =>
    obtain ⟨-, hle, hrest⟩ := h
    exact Nat.le_trans hle (ih hrest)

theorem bounds (h : EndToEnd place stop spans) (hmem : span ∈ spans) :
    place ≤ span.start ∧ span.stop ≤ stop := by
  induction spans generalizing place with
  | nil => cases hmem
  | cons s rest ih =>
    obtain ⟨hstart, hle, hrest⟩ := h
    rcases List.mem_cons.mp hmem with rfl | hmem
    · exact ⟨Nat.le_of_eq hstart.symm, hrest.le⟩
    · obtain ⟨hlow, hhigh⟩ := ih hrest hmem
      exact ⟨Nat.le_trans hle hlow, hhigh⟩

/-- Spans that follow one another do not overlap. -/
theorem pairwise (h : EndToEnd place stop spans) : spans.Pairwise (·.stop ≤ ·.start) := by
  induction spans generalizing place with
  | nil => exact .nil
  | cons s rest ih =>
    obtain ⟨-, -, hrest⟩ := h
    exact .cons (fun t ht => (hrest.bounds ht).1) (ih hrest)

end Span.EndToEnd

namespace Bump

/-- Requests to a window, one after the other. -/
def allocAll (b : Bump) : List Nat → Except Fault (List (Option Span) × Bump)
  | [] => return ([], b)
  | bytes :: rest => do
    let (answer, b) ← b.alloc bytes
    let (answers, b) ← b.allocAll rest
    return (answer :: answers, b)

/-- Opening a window, and requests to it. -/
def session (start limit : Nat) (sizes : List Nat) :
    Except Fault (List (Option Span) × Bump) := do
  (← ofStart start limit).allocAll sizes

/-! ## How requests have to be answered -/

/-- What may be handed out to a request:
1. a span that begins where the window does;
2. from a page boundary to a page boundary;
3. as long as requested, and no page longer;
4. that lies within the window. -/
structure Grants (b : Bump) (bytes : Nat) (span : Span) : Prop where
  start : span.start = b.next
  aligned : span.start % Page.bytes = 0 ∧ span.stop % Page.bytes = 0
  long : span.start + bytes ≤ span.stop ∧ span.stop < span.start + bytes + Page.bytes
  inside : span.stop ≤ b.limit

/-- How a request has to be answered:
1. with nothing, and nothing changes, if whole pages for it would end behind the window;
2. otherwise with a span, behind which the window goes on. -/
inductive Answers (b : Bump) (bytes : Nat) : Option Span → Bump → Prop
  | refused : b.limit < b.next + roundUp bytes Page.bytes → Answers b bytes none b
  | granted {span : Span} : Grants b bytes span →
    Answers b bytes (some span) { b with next := span.stop }

/-- How requests have to be answered one after the other. -/
inductive AnswersAll : Bump → List Nat → List (Option Span) → Bump → Prop
  | nil (b : Bump) : AnswersAll b [] [] b
  | cons {b b₁ b' : Bump} {bytes : Nat} {sizes : List Nat} {answer : Option Span}
    {answers : List (Option Span)} : Answers b bytes answer b₁ → AnswersAll b₁ sizes answers b' →
    AnswersAll b (bytes :: sizes) (answer :: answers) b'

/-- The window behind a request. -/
def after (b : Bump) (bytes : Nat) : Bump :=
  if b.limit < b.next + roundUp bytes Page.bytes then b
  else { b with next := b.next + roundUp bytes Page.bytes }

/-- The end of the request is a word, but so close to the last one that it cannot be rounded up
to a page boundary. -/
def Overflows (b : Bump) (bytes : Nat) : Prop :=
  b.next + bytes < wordLimit ∧ wordLimit ≤ b.next + bytes + Page.bytes

instance (b : Bump) (bytes : Nat) : Decidable (b.Overflows bytes) :=
  inferInstanceAs (Decidable (_ ∧ _))

/-- None of the requests overflows when it is its turn. -/
def Clear (b : Bump) : List Nat → Prop
  | [] => True
  | bytes :: rest => ¬ b.Overflows bytes ∧ (b.after bytes).Clear rest

instance decidableClear (b : Bump) : (sizes : List Nat) → Decidable (b.Clear sizes)
  | [] => isTrue trivial
  | bytes :: rest =>
    have := decidableClear (b.after bytes) rest
    inferInstanceAs (Decidable (_ ∧ _))

section Windows

variable {b b' : Bump} {bytes start limit : Nat} {sizes : List Nat} {answer : Option Span}
  {answers : List (Option Span)}

theorem ofStart_eq (start limit : Nat) : ofStart start limit =
    if wordLimit ≤ start + Page.bytes then .error .addOverflow
    else .ok ⟨roundUp start Page.bytes, limit⟩ := by
  rw [ofStart, Page.alignUp_eq]
  split <;> rfl

theorem alloc_eq (b : Bump) (bytes : Nat) : b.alloc bytes =
    if wordLimit ≤ b.next + bytes then .ok (none, b)
    else if wordLimit ≤ b.next + bytes + Page.bytes then .error .addOverflow
    else if b.limit < roundUp (b.next + bytes) Page.bytes then .ok (none, b)
    else .ok (some ⟨b.next, roundUp (b.next + bytes) Page.bytes⟩,
      { b with next := roundUp (b.next + bytes) Page.bytes }) := by
  rw [alloc, Page.alignUp_eq]
  by_cases hend : wordLimit ≤ b.next + bytes
  · rw [if_pos hend, if_pos hend]
    rfl
  · rw [if_neg hend, if_neg hend]
    by_cases hover : wordLimit ≤ b.next + bytes + Page.bytes
    · rw [if_pos hover, if_pos hover]
      rfl
    · rw [if_neg hover, if_neg hover]
      show (if _ then _ else _ : Except Fault _) = _
      split <;> rfl

/-! ## One request -/

theorem alloc_overflows (h : b.Overflows bytes) : b.alloc bytes = .error .addOverflow := by
  rw [alloc_eq, if_neg (Nat.not_le.mpr h.1), if_pos h.2]

/-- The step lemma: a request that does not overflow is answered as it has to be. -/
theorem exists_alloc (haligned : b.next % Page.bytes = 0) (hlimit : b.limit < wordLimit)
    (h : ¬ b.Overflows bytes) :
    ∃ answer, b.alloc bytes = .ok (answer, b.after bytes) ∧
      Answers b bytes answer (b.after bytes) := by
  have hround := roundUp_add haligned bytes
  have hlow : bytes ≤ roundUp bytes Page.bytes := le_roundUp (by decide) bytes
  have hhigh := roundUp_lt bytes
  rw [alloc_eq, after, hround]
  by_cases hend : wordLimit ≤ b.next + bytes
  · -- all words are too small for the end of the request, and so is the end of the window
    have hpast : b.limit < b.next + roundUp bytes Page.bytes := by omega
    rw [if_pos hend, if_pos hpast]
    exact ⟨none, rfl, .refused hpast⟩
  · rw [if_neg hend, if_neg fun hover => h ⟨Nat.not_le.mp hend, hover⟩]
    by_cases hpast : b.limit < b.next + roundUp bytes Page.bytes
    · rw [if_pos hpast, if_pos hpast]
      exact ⟨none, rfl, .refused hpast⟩
    · rw [if_neg hpast, if_neg hpast]
      have hstop : (b.next + roundUp bytes Page.bytes) % Page.bytes = 0 := by
        rw [Nat.add_mod, haligned, roundUp_mod]
        rfl
      have hlong : b.next + bytes ≤ b.next + roundUp bytes Page.bytes ∧
          b.next + roundUp bytes Page.bytes < b.next + bytes + Page.bytes := by omega
      have hgrants : Grants b bytes ⟨b.next, b.next + roundUp bytes Page.bytes⟩ :=
        ⟨rfl, ⟨haligned, hstop⟩, hlong, Nat.not_lt.mp hpast⟩
      exact ⟨_, rfl, .granted hgrants⟩

/-- Answering a request keeps what the step lemma asks for. -/
theorem Answers.keeps (h : Answers b bytes answer b') (haligned : b.next % Page.bytes = 0) :
    b'.next % Page.bytes = 0 ∧ b'.limit = b.limit := by
  cases h with
  | refused _ => exact ⟨haligned, rfl⟩
  | granted hgrants => exact ⟨hgrants.aligned.2, rfl⟩

/-! ## Runs of requests -/

/-- The run lemma: requests are answered as they have to be unless one of them overflows, and
that one stops them. -/
theorem allocAll_spec (sizes : List Nat) (haligned : b.next % Page.bytes = 0)
    (hlimit : b.limit < wordLimit) :
    (b.Clear sizes → ∃ answers b', b.allocAll sizes = .ok (answers, b') ∧
      AnswersAll b sizes answers b') ∧
    (¬ b.Clear sizes → b.allocAll sizes = .error .addOverflow) := by
  induction sizes generalizing b with
  | nil => exact ⟨fun _ => ⟨[], b, rfl, .nil b⟩, fun h => absurd trivial h⟩
  | cons bytes rest ih =>
    rw [allocAll]
    by_cases hover : b.Overflows bytes
    · refine ⟨fun h => absurd hover h.1, fun _ => ?_⟩
      rw [alloc_overflows hover]
      rfl
    · obtain ⟨answer, halloc, hanswer⟩ := exists_alloc haligned hlimit hover
      obtain ⟨haligned', hsame⟩ := hanswer.keeps haligned
      obtain ⟨hclear, hnot⟩ := ih haligned' (hsame ▸ hlimit)
      rw [halloc]
      constructor
      · rintro ⟨-, h⟩
        obtain ⟨answers, b', hrun, hanswers⟩ := hclear h
        refine ⟨answer :: answers, b', ?_, .cons hanswer hanswers⟩
        show ((b.after bytes).allocAll rest >>= _) = _
        rw [hrun]
        rfl
      · intro h
        show ((b.after bytes).allocAll rest >>= _) = _
        rw [hnot fun hrest => h ⟨hover, hrest⟩]
        rfl

/-- What was handed out follows one another from the front of the window on. -/
theorem AnswersAll.endToEnd (h : AnswersAll b sizes answers b') :
    Span.EndToEnd b.next b'.next answers.reduceOption := by
  induction h with
  | nil b => rfl
  | @cons b b₁ b' bytes sizes answer answers hanswer _ ih =>
    cases hanswer with
    | refused _ => rwa [List.reduceOption_cons_of_none]
    | @granted span hgrants =>
      rw [List.reduceOption_cons_of_some]
      have hlong := hgrants.long.1
      exact ⟨hgrants.start, by rw [← hgrants.start]; omega, ih⟩

/-- A window that begins at any address, with any requests to it, answers all of them as it has
to, unless a page boundary cannot be formed: that behind the start of the window, or behind the
end of a request when it is its turn. Then it stops. What is handed out follows one another
from the first page boundary on, and is disjoint. -/
theorem session_answered (start : Nat) (hlimit : limit < wordLimit) (sizes : List Nat) :
    let window : Bump := ⟨roundUp start Page.bytes, limit⟩
    (start + Page.bytes < wordLimit ∧ window.Clear sizes →
      ∃ answers window', session start limit sizes = .ok (answers, window') ∧
        AnswersAll window sizes answers window' ∧
        Span.EndToEnd window.next window'.next answers.reduceOption ∧
        answers.reduceOption.Pairwise (·.stop ≤ ·.start)) ∧
    (¬ (start + Page.bytes < wordLimit ∧ window.Clear sizes) →
      session start limit sizes = .error .addOverflow) := by
  intro window
  obtain ⟨hclear, hnot⟩ :=
    allocAll_spec (b := window) sizes (roundUp_mod start Page.bytes) hlimit
  rw [session, ofStart_eq]
  by_cases hopen : wordLimit ≤ start + Page.bytes
  · rw [if_pos hopen]
    exact ⟨fun h => absurd hopen (Nat.not_le.mpr h.1), fun _ => rfl⟩
  · rw [if_neg hopen]
    constructor
    · rintro ⟨-, h⟩
      obtain ⟨answers, window', hrun, hanswers⟩ := hclear h
      exact ⟨answers, window', hrun, hanswers, hanswers.endToEnd, hanswers.endToEnd.pairwise⟩
    · intro h
      exact hnot fun hrest => h ⟨Nat.not_le.mp hopen, hrest⟩

/-- Of a window that starts within a page, requests of any size are answered: one that ends
exactly at a page boundary, one that ends behind the last word, an empty one, and one that fits
but for the rounding. -/
theorem fourPages_answered :
    let window : Bump := ⟨0x2000, 0x6800⟩
    let sizes := [0x1000, 0x1001, 0xffffffffffffffff, 0, 0x1800, 0xfff]
    window.Clear sizes ∧
      session 0x1001 0x6800 sizes = .ok
        ([some ⟨0x2000, 0x3000⟩, some ⟨0x3000, 0x5000⟩, none, some ⟨0x5000, 0x5000⟩, none,
          some ⟨0x5000, 0x6000⟩], ⟨0x6000, 0x6800⟩) ∧
      ∃ answers window', session 0x1001 0x6800 sizes = .ok (answers, window') ∧
        AnswersAll window sizes answers window' ∧
        answers.reduceOption.Pairwise (·.stop ≤ ·.start) := by
  intro window sizes
  have hclear : window.Clear sizes := by decide
  obtain ⟨answers, window', hrun, hanswers, -, hdisjoint⟩ :=
    (session_answered 0x1001 (show 0x6800 < wordLimit by decide) sizes).1 ⟨by decide, hclear⟩
  exact ⟨hclear, rfl, answers, window', hrun, hanswers, hdisjoint⟩

/-- A request that is much too large for its window, whose end is the last word: it would have to
be refused, but stops the window. So does a start at the last page boundary. -/
theorem lastPage_overflows :
    let window : Bump := ⟨0x1000, 0x100000⟩
    window.limit < window.next + roundUp 0xffffffffffffefff Page.bytes ∧
      session 0x1000 0x100000 [0xffffffffffffefff] = .error .addOverflow ∧
      (¬ ∃ answers window', session 0x1000 0x100000 [0xffffffffffffefff] = .ok (answers, window') ∧
        AnswersAll window [0xffffffffffffefff] answers window') ∧
      session (wordLimit - Page.bytes) 0x100000 [] = .error .addOverflow := by
  intro window
  have hrun : session 0x1000 0x100000 [0xffffffffffffefff] = .error .addOverflow := rfl
  refine ⟨by decide, hrun, ?_, rfl⟩
  rintro ⟨answers, window', hanswers, -⟩
  rw [hrun] at hanswers
  cases hanswers

end Windows

end Bump

end Supervisor
