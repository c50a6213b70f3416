import Supervisor.Proofs.Interrupt.Attachment
import Supervisor.Proofs.Interrupt.Delivery

/-!
# From a line to its vector and back

A driver registers its handler on the vector of a line, and a delivery goes from the vector
back to the line. The two directions are written apart, with a bound of their own at the
upper end: `vectorOf` stops behind vector 255, `lineOf` in front of it. So they agree on
every vector but the last.

- `Pic.Remapped`: the offsets give all sixteen lines vectors of their own, none of which is
  an exception's.
- `Pic.lineOf_vectorOf`: where the two directions agree. `Pic.lineOf_of_outside`: vectors in
  neither range have no line.
- `Machine.exists_run_attach`: where attaching a line puts the handler.
- `Machine.attached_served` is the main statement: a handler that was attached to a line runs
  on the line's vector, and the line is acknowledged unless that vector is 255
  (`Machine.lastVector_unacknowledged`).
-/

namespace Supervisor

namespace Pic

variable {c : Pic} {offset line vector : UInt8}

/-- The offsets leave room for all lines:
1. the master's eight vectors are no exceptions, and do not run past 255;
2. nor do the slave's;
3. the two ranges do not overlap. -/
structure Remapped (c : Pic) : Prop where
  master : 32 ≤ c.master.toNat ∧ c.master.toNat + 7 ≤ 255
  slave : 32 ≤ c.slave.toNat ∧ c.slave.toNat + 7 ≤ 255
  apart : c.master.toNat + 7 < c.slave.toNat ∨ c.slave.toNat + 7 < c.master.toNat

/-- Whether a vector is one of the eight from `offset` on, the last vector included. -/
def Covers (offset vector : UInt8) : Prop :=
  offset.toNat ≤ vector.toNat ∧ vector.toNat ≤ offset.toNat + 7

/-- The range that deliveries are looked up in is the right one, but for the last vector. -/
theorem inRange_iff : inRange offset vector = true ↔ Covers offset vector ∧ vector ≠ 255 := by
  have hlast : vector ≠ 255 ↔ vector.toNat ≠ 255 := not_congr UInt8.toNat_inj.symm
  have hlt := vector.toNat_lt
  rw [inRange, Bool.and_eq_true, decide_eq_true_iff, decide_eq_true_iff, UInt8.le_iff_toNat_le,
    hlast, Covers]
  omega

/-- A vector in neither range has no line. -/
theorem lineOf_of_outside (hmaster : ¬ Covers c.master vector) (hslave : ¬ Covers c.slave vector) :
    c.lineOf vector = none := by
  rw [lineOf, if_neg fun h => hmaster (inRange_iff.mp h).1,
    if_neg fun h => hslave (inRange_iff.mp h).1]

/-- The last vector has no line either, even if it is in a range. -/
theorem lineOf_last (c : Pic) : c.lineOf 255 = none := by
  have hout : ∀ offset, ¬ inRange offset 255 = true := fun _ h => (inRange_iff.mp h).2 rfl
  rw [lineOf, if_neg (hout _), if_neg (hout _)]

/-- A line of a chip has a vector in the chip's range, at the line's distance from its start. -/
theorem exists_vectorFrom (hroom : offset.toNat + 7 ≤ 255) (hline : line.toNat < 8) :
    ∃ v, vectorFrom offset line = some v ∧ Covers offset v ∧ v - offset = line := by
  have hvalue : (offset + line).toNat = offset.toNat + line.toNat := by
    rw [UInt8.toNat_add]
    omega
  refine ⟨offset + line, ?_, ⟨by omega, by omega⟩, ?_⟩
  · rw [vectorFrom, if_pos (by omega)]
  · rw [UInt8.add_comm, UInt8.add_sub_cancel]

/-- Going from a line to its vector and back leads to the line, unless the vector is the
last one. -/
theorem lineOf_vectorOf (h : c.Remapped) (hline : line < lineCount) :
    ∃ v, vectorOf c.master c.slave line = some v ∧ 32 ≤ v.toNat ∧
      c.lineOf v = if v = 255 then none else some line := by
  by_cases hlow : line < 8
  · have hlt : line.toNat < 8 := UInt8.lt_iff_toNat_lt.mp hlow
    obtain ⟨v, hvector, hcovers, hback⟩ := exists_vectorFrom h.master.2 hlt
    refine ⟨v, ?_, Nat.le_trans h.master.1 hcovers.1, ?_⟩
    · rw [vectorOf, if_pos hlow, hvector]
    · split
      · next hlast => rw [hlast, lineOf_last]
      · next hlast => rw [lineOf, if_pos (inRange_iff.mpr ⟨hcovers, hlast⟩), hback]
  · have hge : 8 ≤ line := UInt8.not_lt.mp hlow
    have hlt : (line - 8).toNat < 8 := by
      have hcount : line.toNat < 16 := UInt8.lt_iff_toNat_lt.mp hline
      rw [UInt8.toNat_sub_of_le _ _ hge]
      exact Nat.sub_lt_right_of_lt_add (UInt8.le_iff_toNat_le.mp hge) hcount
    obtain ⟨v, hvector, hcovers, hback⟩ := exists_vectorFrom h.slave.2 hlt
    refine ⟨v, ?_, Nat.le_trans h.slave.1 hcovers.1, ?_⟩
    · rw [vectorOf, if_neg hlow, if_pos hline, hvector]
    · split
      · next hlast => rw [hlast, lineOf_last]
      · next hlast =>
        -- the master is asked first, so the ranges have to be apart
        have hmaster : ¬ inRange c.master v = true := by
          intro hin
          obtain ⟨hfrom, hto⟩ := (inRange_iff.mp hin).1
          obtain ⟨hfrom', hto'⟩ := hcovers
          have hapart := h.apart
          omega
        rw [lineOf, if_neg hmaster, if_pos (inRange_iff.mpr ⟨hcovers, hlast⟩), hback,
          UInt8.sub_add_cancel]

end Pic

/-! ## Deliveries of a registered line -/

namespace Board

variable {η ω : Type} {behave : Behaviour η ω} {b : Board η ω} {f : Frame} {h : η}

/-- A delivery that is not spurious calls the handler of its vector, once. -/
theorem exists_visit (hvector : exceptionCount ≤ f.number.toNat) (hfree : Lock.pic ∉ b.held)
    (hcalled : b.called f = some h) (hbehave : Courteous (behave h f)) :
    ∃ visit f' b', (route behave f).run b = .ok (.ok f') b' ∧
      Delivered behave b f [visit] f' b' ∧ visit.handler = h := by
  obtain ⟨vs, f', b', hrun, hdelivered⟩ := route_delivered hvector hfree fun h' hcalled' => by
    rw [hcalled] at hcalled'
    exact Option.some.inj hcalled' ▸ hbehave
  cases hdelivered with
  | unhandled hnone _ _ =>
    rw [hcalled] at hnone
    cases hnone
  | handled hsome hkept₁ hlog₁ hhandler hlog₂ hquiet hkept₂ hlog =>
    rw [hcalled] at hsome
    cases hsome
    exact ⟨_, f', b', hrun, .handled hcalled hkept₁ hlog₁ hhandler hlog₂ hquiet hkept₂ hlog, rfl⟩

end Board

namespace Machine

open Board (Behaviour Courteous Delivered SameRoutes)

variable {b : Machine} {line v : UInt8}

/-- A look at the interrupt controller keeps the routes. -/
theorem exists_run_look (hfree : Free b) {α : Type} (body : Pic → PortM α) :
    ∃ b', (Board.withPic body).run b = .ok ((body b.pic).run b.ports).1 b' ∧ SameRoutes b b' ∧
      Free b' :=
  ⟨_, Board.run_withPic body hfree.pic, ⟨Board.passed_handlers b, Board.passed_pic b⟩,
    hfree.of_held (Board.passed_held b)⟩

/-- Unmasking a line changes the mask and keeps the handlers. -/
theorem exists_run_unmask (hfree : Free b) (hline : line < Pic.lineCount) :
    ∃ b', (Board.changePic (·.unmaskLine line)).run b = .ok () b' ∧ b'.handlers = b.handlers ∧
      b'.pic = { b.pic with mask := Pic.unmasked b.pic.mask line } ∧ Free b' :=
  ⟨_, Board.run_changePic _ hfree.pic, Board.passed_handlers b,
    Pic.run_unmaskLine b.pic b.ports hline, hfree.of_held (Board.passed_held b)⟩

/-- Attaching a line returns. The handler stands on the vector of the line, and the offsets
are as before. -/
theorem exists_run_attach (handler : Handler) (hfree : Free b)
    (hvector : Pic.vectorOf b.pic.master b.pic.slave line = some v) :
    ∃ b', (attachLine line handler).run b = .ok () b' ∧ b'.handlers v = some handler ∧
      b'.pic.master = b.pic.master ∧ b'.pic.slave = b.pic.slave := by
  obtain ⟨b₁, hlook, hsame, hfree₁⟩ := exists_run_look hfree fun pic =>
    (return Pic.vectorOf pic.master pic.slave line : PortM (Option UInt8))
  replace hlook : (Board.withPic fun pic => return Pic.vectorOf pic.master pic.slave line).run b =
    .ok (some v) b₁ := hlook.trans (congrArg (EStateM.Result.ok · b₁) hvector)
  obtain ⟨b₂, hregister, hfree₂, hhandler, hpic⟩ : ∃ b₂,
      (discard <| Board.register v handler).run b₁ = .ok () b₂ ∧ Free b₂ ∧
        b₂.handlers v = some handler ∧ b₂.pic = b.pic :=
    ⟨_, run_discard_ok (Board.run_register v handler b₁), hfree₁.of_held rfl, if_pos rfl, hsame.pic⟩
  obtain ⟨b₃, hunmask, hhandlers₃, hpic₃, hfree₃⟩ :=
    exists_run_unmask hfree₂ (Pic.lt_of_vectorOf hvector)
  rw [attachLine, run_bind_ok hlook]
  simp only
  rw [run_bind_ok hregister, run_bind_ok hunmask]
  obtain ⟨b', hlog, hprinted⟩ := exists_run_log _ hfree₃.serial hfree₃.console
  refine ⟨b', hlog, ?_, ?_, ?_⟩
  · rw [hprinted.handlers, hhandlers₃, hhandler]
  · rw [hprinted.pic, hpic₃, hpic]
  · rw [hprinted.pic, hpic₃, hpic]

/-- A handler that was attached to a line, on a machine whose lines all have vectors of their
own. Vectors that no line has belong to no line. On the vector of the line, every delivery
that is not spurious calls the handler once, whatever else has been registered since and
whatever the handler does. The interrupt is then ended on the line, except on vector 255:
that one is taken for no line's. -/
theorem attached_served (b : Machine) (line : UInt8) (handler : Handler)
    (hremapped : b.pic.Remapped) (hline : line < Pic.lineCount) (hfree : Free b) :
    (∀ u, ¬ Pic.Covers b.pic.master u → ¬ Pic.Covers b.pic.slave u → b.pic.lineOf u = none) ∧
    ∃ v b', Pic.vectorOf b.pic.master b.pic.slave line = some v ∧
      b.pic.lineOf v = (if v = 255 then none else some line) ∧
      (attachLine line handler).run b = .ok () b' ∧ b'.handlers v = some handler ∧
      b'.pic.master = b.pic.master ∧ b'.pic.slave = b.pic.slave ∧
      ∀ (behave : Behaviour Handler Kernel) (c : Machine) (f : Frame),
        c.pic.master = b.pic.master → c.pic.slave = b.pic.slave → c.handlers v = some handler →
        Lock.pic ∉ c.held → f.number = v → Courteous (behave handler f) →
        Pic.phantom c.ports line = false →
        ∃ visit f' c', (Board.route behave f).run c = .ok (.ok f') c' ∧
          Delivered behave c f [visit] f' c' ∧ visit.handler = handler ∧
          c.fate f = (if v = 255 then .stray else .served line) ∧
          c'.accesses.filter Pic.endsInterrupt = c.accesses.filter Pic.endsInterrupt ++
            if v = 255 then [] else Pic.ending line := by
  obtain ⟨v, hvector, hordinary, hlineOf⟩ := Pic.lineOf_vectorOf hremapped hline
  obtain ⟨b', hattach, hhandler, hmaster, hslave⟩ := exists_run_attach handler hfree hvector
  refine ⟨fun u => Pic.lineOf_of_outside, v, b', hvector, hlineOf, hattach, hhandler, hmaster,
    hslave, ?_⟩
  intro behave c f hmaster' hslave' hhandler' hfree' hnumber hbehave hphantom
  have hlook : c.pic.lineOf f.number = if v = 255 then none else some line := by
    rw [hnumber, ← hlineOf, Pic.lineOf, Pic.lineOf, hmaster', hslave']
  have hfate : c.fate f = if v = 255 then .stray else .served line := by
    rw [Board.fate, hlook]
    by_cases hlast : v = 255
    · rw [if_pos hlast, if_pos hlast]
    · rw [if_neg hlast, if_neg hlast]
      simp only [hphantom]
      rfl
  have hcalled : c.called f = some handler := by
    rw [Board.called, hfate, hnumber]
    split
    · next hspurious => split at hspurious <;> cases hspurious
    · exact hhandler'
  have hending : (c.fate f).ending = if v = 255 then [] else Pic.ending line := by
    rw [hfate]
    split <;> rfl
  obtain ⟨visit, f', c', hrun, hdelivered, hvisit⟩ :=
    Board.exists_visit (hnumber ▸ hordinary) hfree' hcalled hbehave
  exact ⟨visit, f', c', hrun, hdelivered, hvisit, hfate, hending ▸ hdelivered.ends⟩

/-- A handler that hands its vector to another one, masks a line and changes the frame. -/
def rearrange : Behaviour Handler Kernel := fun _ f => do
  discard <| Board.register f.number .tick
  Board.changePic (·.maskLine 12)
  return { f with vector := 0x27 }

theorem courteous_rearrange (h : Handler) (f : Frame) : Courteous (rearrange h f) :=
  .bind (.bind (Board.courteous_register _ _) fun _ => Board.courteous_pure _) fun _ =>
    .bind (Board.courteous_maskLine 12) fun _ => Board.courteous_pure _

/-- A machine on which every vector has a handler, and whose chips report no line in service. -/
def crowded : Machine :=
  { start ⟨0x200000, 0x101000, 0x300000, 0x301000, 0x302000⟩ 0 with
    interrupts := true
    handlers := fun _ => some .report }

theorem crowded_served :
    let b := start ⟨0x200000, 0x101000, 0x300000, 0x301000, 0x302000⟩ 0
    b.pic.Remapped ∧ Free b ∧ Pic.vectorOf b.pic.master b.pic.slave 12 = some 0x2C ∧
      (∃ b', (attachLine 12 .report).run b = .ok () b' ∧ b'.handlers 0x2C = some .report) ∧
      ∃ visit f' c', (Board.route rearrange { vector := 0x2C }).run crowded = .ok (.ok f') c' ∧
        Delivered rearrange crowded { vector := 0x2C } [visit] f' c' ∧ visit.handler = .report ∧
        c'.accesses.filter Pic.endsInterrupt = [Pic.endAt 0xA0, Pic.endAt 0x20] := by
  intro b
  have hremapped : b.pic.Remapped := ⟨by decide, by decide, by decide⟩
  have hfree : Free b := ⟨List.not_mem_nil, List.not_mem_nil, List.not_mem_nil⟩
  obtain ⟨-, v, b', hvector, -, hattach, hhandler, -, -, hserved⟩ :=
    attached_served b 12 .report hremapped (by decide) hfree
  have hknown : Pic.vectorOf b.pic.master b.pic.slave 12 = some 0x2C := by decide
  rw [hknown] at hvector
  cases hvector
  obtain ⟨visit, f', c', hrun, hdelivered, hvisit, -, hends⟩ :=
    hserved rearrange crowded { vector := 0x2C } rfl rfl rfl List.not_mem_nil rfl
      (courteous_rearrange _ _) rfl
  exact ⟨hremapped, hfree, hknown, ⟨b', hattach, hhandler⟩, visit, f', c', hrun, hdelivered,
    hvisit, hends⟩

/-- With the master's vectors at the very end, line 7 has vector 255. Its handler runs when the
line is in service, but the interrupt is never ended. -/
theorem lastVector_unacknowledged :
    let pic : Pic := { master := 0xF8, slave := 0x20 }
    let b : Board Unit Unit :=
      { handlers := fun _ => some (), pic, ports := { sticky := fun _ => 0x80 }, rest := () }
    pic.Remapped ∧ Pic.vectorOf pic.master pic.slave 7 = some 255 ∧ pic.lineOf 255 = none ∧
      Pic.phantom b.ports 7 = false ∧
      ∃ b', (Board.route (fun _ f => return { f with rax := 1 }) { vector := 255 }).run b =
        .ok (.ok { vector := 255, rax := 1 }) b' ∧ b'.accesses = [] :=
  ⟨⟨by decide, by decide, by decide⟩, by decide, by decide, by decide, _, rfl, rfl⟩

end Machine

end Supervisor
