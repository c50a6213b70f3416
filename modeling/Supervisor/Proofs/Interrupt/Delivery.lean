import Supervisor.Interrupt.Route
import Supervisor.Proofs.Interrupt.Lines
import Supervisor.Proofs.Interrupt.Section

/-!
# Deliveries

What becomes of an interrupt on a vector that is no exception, and of one after the
other, whatever the handlers do.

- `Board.Fate`, `Board.fate`: an interrupt is dropped as spurious, serves its line, or
  comes in on no line. That, and with it the handler that is called and the end of
  interrupt that is due, is settled when the delivery starts.
- `Board.Courteous`: what is expected of a handler. It returns, with the lock of the
  interrupt controller free, and signals no end of an interrupt itself; it may change the
  frame, the handler table and the mask (`courteous_register`, `courteous_maskLine`,
  `courteous_unmaskLine`).
- `Board.Delivered`: what one delivery does (`route_delivered`), in the order in which
  it does it.
- `Board.watched`: handlers whose calls are noted. `deliveries_served` is the statement
  about a run of deliveries: the calls noted are those that were due, one each.
-/

namespace Supervisor

namespace Board

variable {η ω α β : Type}

/-! ## What has to be done -/

/-- How a delivery has to end. -/
inductive Fate where
  /-- The line was raised without being in service. -/
  | spurious (line : UInt8)
  /-- The interrupt came in on a line. -/
  | served (line : UInt8)
  /-- No line is delivered on the vector. -/
  | stray
  deriving DecidableEq, Repr

/-- The end of interrupt that is due. -/
def Fate.ending : Fate → List PortEvent
  | spurious line => if line = 15 then [Pic.endAt Pic.masterCommand] else []
  | served line => Pic.ending line
  | stray => []

/-- How the delivery of a frame that starts on a board has to end. -/
def fate (b : Board η ω) (f : Frame) : Fate :=
  match b.pic.lineOf f.number with
  | some line => if Pic.phantom b.ports line then .spurious line else .served line
  | none => .stray

/-- The accesses that find out about the line. -/
def inquiry (b : Board η ω) (f : Frame) : List PortEvent :=
  match b.pic.lineOf f.number with
  | some line => Pic.inquiry b.ports line
  | none => []

/-- The handler that has to be called, if any: the one registered when the delivery
starts, unless the interrupt is spurious. -/
def called (b : Board η ω) (f : Frame) : Option η :=
  match b.fate f with
  | .spurious _ => none
  | _ => b.handlers f.number

/-! ## What is done -/

/-- The accesses to ports so far. -/
def accesses (b : Board η ω) : List PortEvent :=
  b.ports.log.toList

/-- The boards differ at most in their ports and in what the processor was told. -/
structure Kept (b b' : Board η ω) : Prop where
  interrupts : b'.interrupts = b.interrupts
  handlers : b'.handlers = b.handlers
  pic : b'.pic = b.pic
  held : b'.held = b.held
  rest : b'.rest = b.rest

/-- One call of a handler. -/
structure Visit (η : Type) where
  handler : η
  /-- The frame that it was given. -/
  frame : Frame
  /-- The interrupt flag that it found. -/
  interrupts : Bool
  /-- How many accesses to ports there had been when it was called. -/
  opened : Nat
  /-- How many there had been when it returned. -/
  closed : Nat
  deriving DecidableEq, Repr

/-- What the delivery of `f` on the board `b` does: what calls of handlers it makes, the
frame it leaves, and the board.
1. Without a handler to call, the frame and the board are as before, but for the
   inquiry about the line and the end of interrupt in the log.
2. A handler is called after the inquiry, on a board that is otherwise as before. When
   it has returned, only the end of interrupt is left to do. In between, no end of
   interrupt is signalled. -/
inductive Delivered (behave : Behaviour η ω) (b : Board η ω) (f : Frame) :
    List (Visit η) → Frame → Board η ω → Prop
  | unhandled {b' : Board η ω} : b.called f = none → Kept b b' →
    b'.accesses = b.accesses ++ b.inquiry f ++ (b.fate f).ending →
    Delivered behave b f [] f b'
  | handled {h : η} {b₁ b₂ b' : Board η ω} {f' : Frame} {during : List PortEvent} :
    b.called f = some h → Kept b b₁ → b₁.accesses = b.accesses ++ b.inquiry f →
    (behave h f).run b₁ = .ok f' b₂ →
    b₂.accesses = b₁.accesses ++ during → (∀ e ∈ during, Pic.endsInterrupt e = false) →
    Kept b₂ b' → b'.accesses = b₂.accesses ++ (b.fate f).ending →
    Delivered behave b f [⟨h, f, b.interrupts, b₁.accesses.length, b₂.accesses.length⟩] f' b'

/-- Deliveries of frames one after the other, with the ends of interrupt that were due. -/
inductive Deliveries (behave : Behaviour η ω) :
    Board η ω → List Frame → List (Visit η) → List PortEvent → List Frame → Board η ω → Prop
  | done (b : Board η ω) : Deliveries behave b [] [] [] [] b
  | next {b b' b'' : Board η ω} {f f' : Frame} {fs fs' : List Frame} {vs vs' : List (Visit η)}
      {ends : List PortEvent} :
    Delivered behave b f vs f' b' → Deliveries behave b' fs vs' ends fs' b'' →
    Deliveries behave b (f :: fs) (vs ++ vs') ((b.fate f).ending ++ ends) (f' :: fs') b''

/-! ## Handlers -/

/-- What is expected of a handler: that it returns, leaves the lock of the interrupt
controller free, and signals no end of an interrupt. -/
def Courteous (x : BoardM η ω α) : Prop :=
  ∀ b, Lock.pic ∉ b.held → ∃ a b' events, x.run b = .ok a b' ∧ Lock.pic ∉ b'.held ∧
    b'.accesses = b.accesses ++ events ∧ ∀ e ∈ events, Pic.endsInterrupt e = false

theorem courteous_pure (a : α) : Courteous (pure a : BoardM η ω α) :=
  fun b hfree => ⟨a, b, [], rfl, hfree, (List.append_nil _).symm, fun _ h => nomatch h⟩

theorem Courteous.bind {x : BoardM η ω α} {k : α → BoardM η ω β} (hx : Courteous x)
    (hk : ∀ a, Courteous (k a)) : Courteous (x >>= k) := by
  intro b hfree
  obtain ⟨a, b₁, events, hrun, hfree₁, hlog, hquiet⟩ := hx b hfree
  obtain ⟨a', b₂, events', hrun', hfree₂, hlog', hquiet'⟩ := hk a b₁ hfree₁
  refine ⟨a', b₂, events ++ events', ?_, hfree₂, ?_, ?_⟩
  · rw [run_bind_ok hrun, hrun']
  · rw [hlog', hlog, List.append_assoc]
  · intro e he
    rcases List.mem_append.mp he with he | he
    · exact hquiet e he
    · exact hquiet' e he

/-- A handler may register handlers. -/
theorem courteous_register (vector : UInt8) (handler : η) :
    Courteous (register vector handler : BoardM η ω (Option η)) :=
  fun b hfree => ⟨_, _, [], run_register vector handler b, hfree, (List.append_nil _).symm,
    fun _ h => nomatch h⟩

theorem courteous_changePic {body : Pic → PortM Pic} (h : ∀ c, Pic.Silent (body c)) :
    Courteous (changePic body : BoardM η ω Unit) := by
  intro b hfree
  obtain ⟨events, hlog, hquiet⟩ := h b.pic b.ports
  refine ⟨(), _, events, run_changePic body hfree, ?_, hlog, hquiet⟩
  show Lock.pic ∉ b.passed.held
  rwa [passed_held]

/-- A handler may mask lines. -/
theorem courteous_maskLine (line : UInt8) :
    Courteous (changePic (·.maskLine line) : BoardM η ω Unit) :=
  courteous_changePic fun c => Pic.silent_maskLine c line

/-- A handler may unmask lines. -/
theorem courteous_unmaskLine (line : UInt8) :
    Courteous (changePic (·.unmaskLine line) : BoardM η ω Unit) :=
  courteous_changePic fun c => Pic.silent_unmaskLine c line

/-! ## One delivery -/

section Delivery

variable {behave : Behaviour η ω} {b b' b'' : Board η ω} {f : Frame} {line : UInt8}

theorem Kept.refl (b : Board η ω) : Kept b b :=
  ⟨rfl, rfl, rfl, rfl, rfl⟩

theorem Kept.trans (h : Kept b b') (h' : Kept b' b'') : Kept b b'' :=
  ⟨h'.interrupts.trans h.interrupts, h'.handlers.trans h.handlers, h'.pic.trans h.pic,
    h'.held.trans h.held, h'.rest.trans h.rest⟩

/-- A section that looks at the interrupt controller keeps the board but for the ports. -/
theorem exists_run_withPic (body : Pic → PortM α) (hfree : Lock.pic ∉ b.held) :
    ∃ b', (withPic body).run b = .ok ((body b.pic).run b.ports).1 b' ∧ Kept b b' ∧
      b'.ports = ((body b.pic).run b.ports).2 :=
  ⟨_, run_withPic body hfree, ⟨by simp, by simp, by simp, by simp, by simp⟩, rfl⟩

/-- What is left to do after the inquiry but for the end of interrupt. The board `c` is
`b` with the inquiry in its log. -/
theorem handle_delivered {c : Board η ω} (hkept : Kept b c)
    (hlog : c.accesses = b.accesses ++ b.inquiry f) (hfree : Lock.pic ∉ b.held)
    (hbehave : ∀ h, b.called f = some h → Courteous (behave h f)) :
    ∃ vs f' b₂, (handle behave (b.called f) f).run c = .ok f' b₂ ∧ Lock.pic ∉ b₂.held ∧
      ∀ b', Kept b₂ b' → b'.accesses = b₂.accesses ++ (b.fate f).ending →
        Delivered behave b f vs f' b' := by
  cases hcalled : b.called f with
  | none =>
    refine ⟨[], f, c, rfl, hkept.held ▸ hfree, ?_⟩
    intro b' hkept' hlog'
    refine .unhandled hcalled (hkept.trans hkept') ?_
    rw [hlog', hlog]
  | some h =>
    obtain ⟨f', b₂, during, hrun, hfree₂, hduring, hquiet⟩ := hbehave h hcalled c (hkept.held ▸ hfree)
    refine ⟨[⟨h, f, b.interrupts, c.accesses.length, b₂.accesses.length⟩], f', b₂, hrun, hfree₂, ?_⟩
    intro b' hkept' hlog'
    exact .handled hcalled hkept hlog hrun hduring hquiet hkept' hlog'

/-- A delivery on a line, once the line has been looked up. The board `c` is `b` after
that. -/
theorem routeLine_delivered {c : Board η ω} (hkept : Kept b c) (hports : c.ports = b.ports)
    (hline : b.pic.lineOf f.number = some line) (hfree : Lock.pic ∉ b.held)
    (hbehave : ∀ h, b.called f = some h → Courteous (behave h f)) :
    ∃ vs f' b', (routeLine behave line f).run c = .ok f' b' ∧ Delivered behave b f vs f' b' := by
  obtain ⟨c₁, hask, hkept₁, hports₁⟩ :=
    exists_run_withPic (fun _ => Pic.dismissSpurious line) (hkept.held ▸ hfree : Lock.pic ∉ c.held)
  obtain ⟨hvalue, hlog⟩ := Pic.run_dismissSpurious line c.ports
  rw [← hports₁, hports] at hlog
  rw [hvalue, hports] at hask
  have hfree₁ : Lock.pic ∉ c₁.held := hkept₁.held ▸ hkept.held ▸ hfree
  have hinquiry : b.inquiry f = Pic.inquiry b.ports line := by rw [inquiry, hline]
  rw [routeLine, run_bind_ok hask]
  cases hphantom : Pic.phantom b.ports line with
  | true =>
    have hfate : b.fate f = .spurious line := by rw [fate, hline]; exact if_pos hphantom
    refine ⟨[], f, c₁, rfl, .unhandled (by rw [called, hfate]) (hkept.trans hkept₁) ?_⟩
    rw [accesses, hlog, hinquiry, hfate, Fate.ending]
    simp only [hphantom, true_and]
    rfl
  | false =>
    have hfate : b.fate f = .served line := by
      rw [fate, hline]
      exact if_neg (Bool.eq_false_iff.mp hphantom)
    have hcalled : b.called f = c₁.handlers f.number := by
      rw [called, hfate, hkept₁.handlers, hkept.handlers]
    have hlog₁ : c₁.accesses = b.accesses ++ b.inquiry f := by
      rw [accesses, hlog, hinquiry, hphantom]
      exact List.append_nil _
    obtain ⟨vs, f', b₂, hhandle, hfree₂, hdelivered⟩ :=
      handle_delivered (hkept.trans hkept₁) hlog₁ hfree hbehave
    obtain ⟨b', htell, hkept', hports'⟩ :=
      exists_run_withPic (fun _ => Pic.acknowledge line) hfree₂
    refine ⟨vs, f', b', ?_, hdelivered b' hkept' ?_⟩
    · rw [hcalled] at hhandle
      refine (run_get_bind _ _).trans ?_
      rw [run_bind_ok hhandle, run_bind_ok htell]
      rfl
    · rw [accesses, hports', Pic.run_acknowledge (Pic.lineOf_lt hline), hfate]
      rfl

/-- A delivery on a vector that is no exception returns, and does what it has to. -/
theorem route_delivered (hvector : exceptionCount ≤ f.number.toNat) (hfree : Lock.pic ∉ b.held)
    (hbehave : ∀ h, b.called f = some h → Courteous (behave h f)) :
    ∃ vs f' b', (route behave f).run b = .ok (.ok f') b' ∧ Delivered behave b f vs f' b' := by
  obtain ⟨c, hlook, hkept, hports⟩ :=
    exists_run_withPic (fun pic => (return pic.lineOf f.number : PortM (Option UInt8))) hfree
  replace hlook : (withPic fun pic => return pic.lineOf f.number).run b =
    .ok (b.pic.lineOf f.number) c := hlook
  replace hports : c.ports = b.ports := hports
  rw [route, if_neg (Nat.not_lt.mpr hvector), run_bind_ok hlook]
  cases hline : b.pic.lineOf f.number with
  | some line =>
    obtain ⟨vs, f', b', hrun, hdelivered⟩ := routeLine_delivered hkept hports hline hfree hbehave
    exact ⟨vs, f', b', run_map_ok hrun _, hdelivered⟩
  | none =>
    have hfate : b.fate f = .stray := by rw [fate, hline]
    have hcalled : b.called f = c.handlers f.number := by rw [called, hfate, hkept.handlers]
    have hlog : c.accesses = b.accesses ++ b.inquiry f := by
      rw [accesses, hports, inquiry, hline]
      exact (List.append_nil _).symm
    obtain ⟨vs, f', b', hrun, -, hdelivered⟩ := handle_delivered hkept hlog hfree hbehave
    refine ⟨vs, f', b', ?_, hdelivered b' (Kept.refl b') ?_⟩
    · rw [hcalled] at hrun
      exact (run_get_bind _ _).trans (run_map_ok hrun _)
    · rw [hfate]
      exact (List.append_nil _).symm

/-- The lock of the interrupt controller stays free. -/
theorem Delivered.free {f' : Frame} {vs : List (Visit η)} (h : Delivered behave b f vs f' b')
    (hfree : Lock.pic ∉ b.held) (hbehave : ∀ h, Courteous (behave h f)) :
    Lock.pic ∉ b'.held := by
  cases h with
  | unhandled _ hkept _ => exact hkept.held ▸ hfree
  | @handled h b₁ _ _ _ _ _ hkept _ hrun _ _ hkept' _ =>
    obtain ⟨_, _, _, hrun', hfree', -⟩ := hbehave h b₁ (hkept.held ▸ hfree)
    rw [hrun] at hrun'
    cases hrun'
    exact hkept'.held ▸ hfree'

end Delivery

/-! ## Runs of deliveries -/

section Runs

variable {behave : Behaviour η ω}

theorem mapM_route_deliveries (hbehave : ∀ h f, Courteous (behave h f)) (fs : List Frame)
    (hvectors : ∀ f ∈ fs, exceptionCount ≤ f.number.toNat) (b : Board η ω)
    (hfree : Lock.pic ∉ b.held) :
    ∃ fs' vs ends b', (fs.mapM (route behave)).run b = .ok (fs'.map .ok) b' ∧
      Deliveries behave b fs vs ends fs' b' := by
  induction fs generalizing b with
  | nil => exact ⟨[], [], [], b, rfl, .done b⟩
  | cons f fs ih =>
    obtain ⟨hvector, hvectors⟩ := List.forall_mem_cons.mp hvectors
    obtain ⟨vs, f', b₁, hrun, hdelivered⟩ := route_delivered hvector hfree fun h _ => hbehave h f
    obtain ⟨fs', vs', ends, b', hruns, hdeliveries⟩ :=
      ih hvectors b₁ (hdelivered.free hfree fun h => hbehave h f)
    refine ⟨f' :: fs', vs ++ vs', _, b', ?_, .next hdelivered hdeliveries⟩
    rw [List.mapM_cons, run_bind_ok hrun, run_bind_ok hruns]
    rfl

theorem Fate.endsInterrupt_of_mem {fate : Fate} {e : PortEvent} (h : e ∈ fate.ending) :
    Pic.endsInterrupt e = true := by
  cases fate with
  | spurious line =>
    rw [ending] at h
    split at h
    · rw [List.mem_singleton.mp h]
      rfl
    · cases h
  | served line => exact Pic.endsInterrupt_ending h
  | stray => cases h

theorem endsInterrupt_of_mem_inquiry {b : Board η ω} {f : Frame} {e : PortEvent}
    (h : e ∈ b.inquiry f) : Pic.endsInterrupt e = false := by
  rw [inquiry] at h
  split at h
  · exact Pic.endsInterrupt_inquiry h
  · cases h

/-- A delivery signals the end of interrupt that is due, and no other. -/
theorem Delivered.ends {b b' : Board η ω} {f f' : Frame} {vs : List (Visit η)}
    (h : Delivered behave b f vs f' b') :
    b'.accesses.filter Pic.endsInterrupt =
      b.accesses.filter Pic.endsInterrupt ++ (b.fate f).ending := by
  have hinquiry : (b.inquiry f).filter Pic.endsInterrupt = [] :=
    List.filter_eq_nil_iff.mpr fun e he =>
      Bool.eq_false_iff.mp (endsInterrupt_of_mem_inquiry he)
  have hending : (b.fate f).ending.filter Pic.endsInterrupt = (b.fate f).ending :=
    List.filter_eq_self.mpr fun e he => Fate.endsInterrupt_of_mem he
  cases h with
  | unhandled _ _ hlog =>
    rw [hlog, List.filter_append, List.filter_append, hinquiry, hending, List.append_nil]
  | handled _ _ hlog₁ _ hlog₂ hquiet _ hlog' =>
    have hduring := List.filter_eq_nil_iff.mpr fun e he => Bool.eq_false_iff.mp (hquiet e he)
    rw [hlog', hlog₂, hlog₁]
    simp only [List.filter_append]
    rw [hinquiry, hduring, hending, List.append_nil, List.append_nil]

theorem Deliveries.ends {b b' : Board η ω} {fs fs' : List Frame} {vs : List (Visit η)}
    {ends : List PortEvent} (h : Deliveries behave b fs vs ends fs' b') :
    b'.accesses.filter Pic.endsInterrupt = b.accesses.filter Pic.endsInterrupt ++ ends := by
  induction h with
  | done b => exact (List.append_nil _).symm
  | next hdelivered _ ih => rw [ih, hdelivered.ends, List.append_assoc]

end Runs

/-! ## Noting the calls -/

/-- The board with other remaining state. -/
def withRest {ω' : Type} (b : Board η ω) (rest : ω') : Board η ω' :=
  ⟨b.interrupts, b.handlers, b.pic, b.ports, b.held, b.cpu, rest⟩

/-- Handlers whose calls are noted beside the remaining state. -/
def watched (behave : Behaviour η ω) : Behaviour η (ω × List (Visit η)) := fun h f b =>
  match (behave h f).run (b.withRest b.rest.1) with
  | .ok f' b' => .ok f' (b'.withRest (b'.rest, b.rest.2 ++
      [⟨h, f, b.interrupts, b.accesses.length, b'.accesses.length⟩]))
  | .error e b' => .error e (b'.withRest (b'.rest, b.rest.2))

section Watched

variable {behave : Behaviour η ω}

/-- A handler that is noted does what it does, and is noted when it returns. -/
theorem run_watched {h : η} {f f' : Frame} {b : Board η (ω × List (Visit η))} {b' : Board η ω}
    (hrun : (behave h f).run (b.withRest b.rest.1) = .ok f' b') :
    (watched behave h f).run b = .ok f' (b'.withRest (b'.rest, b.rest.2 ++
      [⟨h, f, b.interrupts, b.accesses.length, b'.accesses.length⟩])) := by
  show (match (behave h f).run (b.withRest b.rest.1) with
    | .ok f' b' => _
    | .error e b' => _ : EStateM.Result _ _ _) = _
  rw [hrun]

theorem courteous_watched {h : η} {f : Frame} (hbehave : Courteous (behave h f)) :
    Courteous (watched behave h f) := by
  intro b hfree
  obtain ⟨f', b', events, hrun, hfree', hlog, hquiet⟩ := hbehave (b.withRest b.rest.1) hfree
  exact ⟨f', _, events, run_watched hrun, hfree', hlog, hquiet⟩

/-- The calls of a delivery are noted. -/
theorem Delivered.noted {b b' : Board η (ω × List (Visit η))} {f f' : Frame}
    {vs : List (Visit η)} (hbehave : ∀ h, Courteous (behave h f)) (hfree : Lock.pic ∉ b.held)
    (h : Delivered (watched behave) b f vs f' b') : b'.rest.2 = b.rest.2 ++ vs := by
  cases h with
  | unhandled _ hkept _ => rw [hkept.rest, List.append_nil]
  | @handled h b₁ b₂ _ _ _ _ hkept _ hrun _ _ hkept' _ =>
    obtain ⟨f'', c, _, hrun', -⟩ := hbehave h (b₁.withRest b₁.rest.1) (hkept.held ▸ hfree)
    rw [run_watched hrun'] at hrun
    cases hrun
    rw [hkept'.rest, ← hkept.rest, ← hkept.interrupts]
    rfl

theorem Deliveries.noted {b b' : Board η (ω × List (Visit η))} {fs fs' : List Frame}
    {vs : List (Visit η)} {ends : List PortEvent} (hbehave : ∀ h f, Courteous (behave h f))
    (h : Deliveries (watched behave) b fs vs ends fs' b') (hfree : Lock.pic ∉ b.held) :
    b'.rest.2 = b.rest.2 ++ vs := by
  induction h with
  | done b => exact (List.append_nil _).symm
  | @next _ _ _ f _ _ _ _ _ _ hdelivered _ ih =>
    have hfree₁ := hdelivered.free hfree fun h => courteous_watched (hbehave h f)
    rw [ih hfree₁, hdelivered.noted (hbehave · f) hfree, List.append_assoc]

/-- Deliveries on vectors that are no exceptions all return. Each does what
`Delivered` says; the calls of handlers noted on the way are those that it says, and so are
the ends of interrupt in the log. -/
theorem deliveries_served (hbehave : ∀ h f, Courteous (behave h f)) (fs : List Frame)
    (hvectors : ∀ f ∈ fs, exceptionCount ≤ f.number.toNat) (b : Board η (ω × List (Visit η)))
    (hfree : Lock.pic ∉ b.held) :
    ∃ fs' vs ends b', (fs.mapM (route (watched behave))).run b = .ok (fs'.map .ok) b' ∧
      Deliveries (watched behave) b fs vs ends fs' b' ∧ b'.rest.2 = b.rest.2 ++ vs ∧
      b'.accesses.filter Pic.endsInterrupt = b.accesses.filter Pic.endsInterrupt ++ ends := by
  obtain ⟨fs', vs, ends, b', hrun, hdeliveries⟩ :=
    mapM_route_deliveries (fun h f => courteous_watched (hbehave h f)) fs hvectors b hfree
  exact ⟨fs', vs, ends, b', hrun, hdeliveries, hdeliveries.noted hbehave hfree, hdeliveries.ends⟩

end Watched

/-! ## Handlers that meddle -/

/-- A handler that changes the vector, hands the vector to another handler and changes the
mask. -/
def meddle (h : Bool) (f : Frame) : BoardM Bool ω Frame := do
  discard <| register f.number (!h)
  changePic (·.unmaskLine 9)
  changePic (·.maskLine 1)
  return { f with vector := 0x27 }

theorem courteous_meddle (h : Bool) (f : Frame) : Courteous (meddle h f : BoardM Bool ω Frame) :=
  .bind (.bind (courteous_register _ _) fun _ => courteous_pure _) fun _ =>
    .bind (courteous_unmaskLine 9) fun _ => .bind (courteous_maskLine 1) fun _ => courteous_pure _

/-- A board with a handler for every vector, interrupts on, and no line in service. -/
def meddled : Board Bool (Unit × List (Visit Bool)) :=
  { interrupts := true, handlers := fun _ => some true, rest := ((), []) }

/-- A line of either chip, both lines that may be spurious, a vector without a line, and the
first line again. -/
def arrivals : List Frame :=
  [{ vector := 0x21 }, { vector := 0x2C }, { vector := 0x27 }, { vector := 0x2F },
    { vector := 0x80 }, { vector := 0x21 }]

/-- What a run has to show: the calls that were noted, by handler, vector and interrupt flag,
and the ends of interrupt in the log. -/
def shown {ε α : Type} : EStateM.Result ε (Board Bool (Unit × List (Visit Bool))) α →
    List (Bool × UInt8 × Bool) × List PortEvent
  | .ok _ b | .error _ b =>
    (b.rest.2.map fun v => (v.handler, v.frame.number, v.interrupts),
      b.accesses.filter Pic.endsInterrupt)

theorem meddled_served :
    ∃ fs' vs ends b', (arrivals.mapM (route (watched meddle))).run meddled = .ok (fs'.map .ok) b' ∧
      Deliveries (watched meddle) meddled arrivals vs ends fs' b' ∧ b'.rest.2 = vs ∧
      b'.accesses.filter Pic.endsInterrupt = ends ∧
      vs.map (fun v => (v.handler, v.frame.number, v.interrupts)) =
        [(true, 0x21, true), (true, 0x2C, true), (true, 0x80, true), (false, 0x21, true)] ∧
      ends = [Pic.endAt 0x20, Pic.endAt 0xA0, Pic.endAt 0x20, Pic.endAt 0x20, Pic.endAt 0x20] := by
  obtain ⟨fs', vs, ends, b', hrun, hdeliveries, hnoted, hends⟩ :=
    deliveries_served courteous_meddle arrivals (by decide) meddled (by decide)
  have hshown : shown ((arrivals.mapM (route (watched meddle))).run meddled) =
      ([(true, 0x21, true), (true, 0x2C, true), (true, 0x80, true), (false, 0x21, true)],
        [Pic.endAt 0x20, Pic.endAt 0xA0, Pic.endAt 0x20, Pic.endAt 0x20, Pic.endAt 0x20]) := by
    decide +kernel
  rw [hrun] at hshown
  obtain ⟨hcalls, hcommands⟩ := Prod.mk.inj hshown
  replace hnoted : b'.rest.2 = vs := hnoted
  replace hends : b'.accesses.filter Pic.endsInterrupt = ends := hends
  rw [hnoted] at hcalls
  rw [hends] at hcommands
  exact ⟨fs', vs, ends, b', hrun, hdeliveries, hnoted, hends, hcalls, hcommands⟩

end Board

end Supervisor
