import Supervisor.Interrupt.Pic

/-!
# What the interrupt controller is told

The operations on the controller as what they append to the log of the port bus.

- `Ports.answer`: the byte that the next read of a port brings.
- `Pic.endsInterrupt`: the commands that end an interrupt.
- `Pic.ending`, `Pic.inquiry`: the accesses that acknowledge a line, and those that
  find out whether it is in service, which only lines 7 and 15 need.
- `Pic.phantom`: whether a line was raised without being in service, read off the
  bus.
- `run_acknowledge`, `run_dismissSpurious`: the log afterwards.
- `Pic.Silent`: no access of a program ends an interrupt, as when lines are masked and
  unmasked.
-/

namespace Supervisor

/-- The byte that the next read of a port brings. -/
def Ports.answer (p : Ports) (port : UInt16) : UInt8 :=
  (p.next port).1.toUInt8

namespace Pic

/-- Whether an access is a command that ends an interrupt: of the commands without the
bits 3 and 4, those with bit 5. -/
def endsInterrupt : PortEvent → Bool
  | .write port value => (port == masterCommand || port == slaveCommand) && value &&& 0x38 == 0x20
  | .read _ _ => false

/-- The command that ends an interrupt, sent to a chip. -/
def endAt (port : UInt16) : PortEvent :=
  .write port endOfInterrupt.toUInt32

/-- The end of an interrupt on a line: to the slave as well, and first, if the line is one
of its own. -/
def ending (line : UInt8) : List PortEvent :=
  if line < 8 then [endAt masterCommand] else [endAt slaveCommand, endAt masterCommand]

/-- Whether the in-service bit of a line will read as set. -/
def standing (p : Ports) (line : UInt8) : Bool :=
  if line < 8 then (p.answer masterCommand).toBitVec.getLsbD line.toNat
  else (p.answer slaveCommand).toBitVec.getLsbD (line.toNat - 8)

/-- Whether a line was raised without being in service. -/
def phantom (p : Ports) (line : UInt8) : Bool :=
  (line == 7 || line == 15) && !standing p line

/-- The accesses that find that out. -/
def inquiry (p : Ports) (line : UInt8) : List PortEvent :=
  if line = 7 ∨ line = 15 then
    [.write masterCommand readInService.toUInt32, .write slaveCommand readInService.toUInt32,
     .read masterCommand (p.answer masterCommand).toUInt32,
     .read slaveCommand (p.answer slaveCommand).toUInt32]
  else []

end Pic

/-! ## The bus -/

namespace Ports

variable (p : Ports) {port other : UInt16}

theorem log_record (e : PortEvent) : (p.record e).log.toList = p.log.toList ++ [e] := by
  simp [record]

theorem log_next (port : UInt16) : (p.next port).2.log = p.log := by
  rw [next]
  split <;> rfl

theorem answer_record (e : PortEvent) (port : UInt16) :
    (p.record e).answer port = p.answer port := by
  have hscript : (p.record e).script port = p.script port := rfl
  rw [answer, answer, next, next, hscript]
  cases p.script port <;> rfl

/-- A read of one port does not use up what another port answers. -/
theorem answer_next (h : other ≠ port) : (p.next port).2.answer other = p.answer other := by
  cases hscript : p.script port with
  | nil => simp [next, hscript]
  | cons value rest =>
    have hnext : (p.next port).2 = { p with script := update p.script port rest } := by
      simp [next, hscript]
    rw [hnext, answer, answer, next, next]
    simp only [update, if_neg h]
    cases p.script other <;> rfl

theorem run_bind {α β : Type} (x : PortM α) (k : α → PortM β) :
    (x >>= k).run p = (k (x.run p).1).run (x.run p).2 := rfl

theorem run_write8 (port : UInt16) (value : UInt8) :
    (write8 port value).run p = ((), p.record (.write port value.toUInt32)) := by
  have hcut : Width.byte.cut value.toUInt32 = value.toUInt32 := by simp [Width.cut]
  show ((), p.record (.write port (Width.byte.cut value.toUInt32))) = _
  rw [hcut]

theorem run_read8 (port : UInt16) :
    (read8 port).run p =
      (p.answer port, (p.next port).2.record (.read port (p.answer port).toUInt32)) := by
  have hcut : (Width.byte.cut (p.next port).1).toUInt8 = p.answer port :=
    UInt8.toUInt8_toUInt32 _
  show ((Width.byte.cut (p.next port).1).toUInt8, _) = _
  rw [hcut]
  rfl

end Ports

/-! ## The operations -/

namespace Pic

variable {p : Ports} {line : UInt8}

theorem lineOf_lt {c : Pic} {vector : UInt8} (h : c.lineOf vector = some line) : line.toNat < 16 := by
  have hsub : ∀ offset, inRange offset vector = true → (vector - offset).toNat < 8 := by
    intro offset hrange
    rw [inRange, Bool.and_eq_true, decide_eq_true_iff, decide_eq_true_iff] at hrange
    obtain ⟨hle, hlt⟩ := hrange
    rw [UInt8.toNat_sub_of_le _ _ hle]
    omega
  rw [lineOf] at h
  by_cases hmaster : inRange c.master vector = true
  · rw [if_pos hmaster] at h
    cases h
    exact Nat.lt_trans (hsub _ hmaster) (by decide)
  · rw [if_neg hmaster] at h
    by_cases hslave : inRange c.slave vector = true
    · rw [if_pos hslave] at h
      cases h
      have hlt := hsub _ hslave
      rw [UInt8.toNat_add]
      have : (8 : UInt8).toNat = 8 := rfl
      omega
    · rw [if_neg hslave] at h
      cases h

/-- The end of an interrupt is signalled on the line, and nothing else is sent. -/
theorem run_acknowledge (h : line.toNat < 16) :
    ((acknowledge line).run p).2.log.toList = p.log.toList ++ ending line := by
  have hline : ¬ lineCount ≤ line := by
    rw [UInt8.le_iff_toNat_le]
    exact Nat.not_le.mpr h
  rw [acknowledge, if_neg hline, ending]
  by_cases hlow : line < 8
  · have hge : ¬ 8 ≤ line := UInt8.not_le.mpr hlow
    rw [if_pos hlow]
    simp only [if_neg hge]
    rw [Ports.run_write8, Ports.log_record]
    rfl
  · have hge : 8 ≤ line := UInt8.not_lt.mp hlow
    rw [if_neg hlow]
    simp only [if_pos hge]
    rw [Ports.run_bind, Ports.run_write8, Ports.run_write8, Ports.log_record, Ports.log_record,
      List.append_assoc]
    rfl

/-- Both registers are asked for, then read. -/
theorem run_inService (p : Ports) :
    (inService.run p).1 =
      (p.answer slaveCommand).toUInt16 <<< 8 ||| (p.answer masterCommand).toUInt16 ∧
    (inService.run p).2.log.toList = p.log.toList ++
      [.write masterCommand readInService.toUInt32, .write slaveCommand readInService.toUInt32,
       .read masterCommand (p.answer masterCommand).toUInt32,
       .read slaveCommand (p.answer slaveCommand).toUInt32] := by
  have hne : slaveCommand ≠ masterCommand := by decide
  rw [inService, Ports.run_bind, Ports.run_write8, Ports.run_bind, Ports.run_write8,
    Ports.run_bind, Ports.run_read8, Ports.run_bind, Ports.run_read8]
  simp only [Ports.answer_record, Ports.answer_next _ hne]
  constructor
  · rfl
  · show (Ports.record _ _).log.toList = _
    rw [Ports.log_record, Ports.log_next, Ports.log_record, Ports.log_next, Ports.log_record,
      Ports.log_record]
    simp only [List.append_assoc]
    rfl

theorem toBitVec_lineBit (h : line.toNat < 16) :
    (lineBit line).toBitVec = BitVec.twoPow 16 line.toNat := by
  have hall : ∀ n < 16, (lineBit (UInt8.ofNat n)).toBitVec = BitVec.twoPow 16 n := by decide
  have hline := hall line.toNat h
  rwa [UInt8.ofNat_toNat] at hline

theorem and_lineBit (w : UInt16) (h : line.toNat < 16) :
    (w &&& lineBit line == 0) = !w.toBitVec.getLsbD line.toNat := by
  have hand : (w &&& lineBit line).toBitVec =
      if w.toBitVec.getLsbD line.toNat then BitVec.twoPow 16 line.toNat else 0#16 := by
    rw [UInt16.toBitVec_and, toBitVec_lineBit h, BitVec.and_twoPow]
  cases hbit : w.toBitVec.getLsbD line.toNat with
  | false =>
    rw [hbit] at hand
    exact beq_iff_eq.mpr (UInt16.toBitVec_inj.mp hand)
  | true =>
    rw [hbit] at hand
    refine beq_eq_false_iff_ne.mpr fun hzero => ?_
    rw [hzero] at hand
    have hlsb := congrArg (BitVec.getLsbD · line.toNat) hand
    simp [h] at hlsb

/-- The bit of a line in the registers is that of the chip it comes in on. -/
theorem getLsbD_registers (slave master : UInt8) (h : line.toNat < 16) :
    (slave.toUInt16 <<< 8 ||| master.toUInt16).toBitVec.getLsbD line.toNat =
      if line < 8 then master.toBitVec.getLsbD line.toNat
      else slave.toBitVec.getLsbD (line.toNat - 8) := by
  have height : (8 : UInt16).toBitVec.toNat = 8 := rfl
  have hlow : line < 8 ↔ line.toNat < 8 := UInt8.lt_iff_toNat_lt
  simp only [UInt16.toBitVec_or, UInt16.toBitVec_shiftLeft, UInt8.toBitVec_toUInt16]
  by_cases hline : line < 8
  · rw [if_pos hline]
    rw [hlow] at hline
    simp [h, hline]
  · rw [if_neg hline]
    rw [hlow] at hline
    have hge := BitVec.getLsbD_of_ge master.toBitVec line.toNat (Nat.not_lt.mp hline)
    simp [h, hline, hge]

/-- Whether a line is spurious is read off the bus. -/
theorem run_isSpurious (line : UInt8) (p : Ports) :
    ((isSpurious line).run p).1 = phantom p line ∧
      ((isSpurious line).run p).2.log.toList = p.log.toList ++ inquiry p line := by
  rw [isSpurious, phantom, inquiry]
  by_cases h : line = 7 ∨ line = 15
  · obtain ⟨hvalue, hlog⟩ := run_inService p
    have hlt : line.toNat < 16 := by rcases h with rfl | rfl <;> decide
    have hmay : (line == 7 || line == 15) = true := by simpa using h
    rw [if_pos h, if_pos h, hmay, Ports.run_bind]
    refine ⟨?_, hlog⟩
    show (_ &&& lineBit line == 0) = _
    rw [hvalue, and_lineBit _ hlt, getLsbD_registers _ _ hlt]
    rfl
  · have hmay : (line == 7 || line == 15) = false := by simpa using h
    rw [if_neg h, if_neg h, hmay]
    exact ⟨rfl, (List.append_nil _).symm⟩

/-- A spurious interrupt is dropped; on line 15 it has come through the master, which alone
is told of its end. -/
theorem run_dismissSpurious (line : UInt8) (p : Ports) :
    ((dismissSpurious line).run p).1 = phantom p line ∧
      ((dismissSpurious line).run p).2.log.toList = p.log.toList ++ inquiry p line ++
        if phantom p line ∧ line = 15 then [endAt masterCommand] else [] := by
  obtain ⟨hvalue, hlog⟩ := run_isSpurious line p
  rw [dismissSpurious, Ports.run_bind, hvalue]
  cases hphantom : phantom p line with
  | false =>
    refine ⟨rfl, ?_⟩
    show ((isSpurious line).run p).2.log.toList = _
    simp [hlog]
  | true =>
    by_cases hline : line = 15
    · simp only [if_pos hline]
      refine ⟨rfl, ?_⟩
      show ((Ports.write8 masterCommand endOfInterrupt).run _).2.log.toList = _
      rw [Ports.run_write8, Ports.log_record, hlog]
      simp [hline, endAt]
    · simp only [if_neg hline]
      refine ⟨rfl, ?_⟩
      show ((isSpurious line).run p).2.log.toList = _
      simp [hlog, hline]

/-! ## Accesses that end no interrupt -/

/-- The accesses of a program end no interrupt. -/
def Silent {α : Type} (x : PortM α) : Prop :=
  ∀ p, ∃ events, (x.run p).2.log.toList = p.log.toList ++ events ∧
    ∀ e ∈ events, endsInterrupt e = false

theorem endsInterrupt_inquiry {e : PortEvent} (h : e ∈ inquiry p line) :
    endsInterrupt e = false := by
  rw [inquiry] at h
  split at h
  · simp only [List.mem_cons, List.not_mem_nil, or_false] at h
    rcases h with rfl | rfl | rfl | rfl <;> rfl
  · cases h

/-- A line is acknowledged by ends of an interrupt, to the slave and to the master. -/
theorem endsInterrupt_ending {e : PortEvent} (h : e ∈ ending line) : endsInterrupt e = true := by
  rw [ending] at h
  split at h
  · rw [List.mem_singleton.mp h]
    rfl
  · simp only [List.mem_cons, List.not_mem_nil, or_false] at h
    rcases h with rfl | rfl <;> rfl

section Silent

variable {α β : Type}

theorem silent_pure (a : α) : Silent (pure a : PortM α) :=
  fun _ => ⟨[], (List.append_nil _).symm, fun _ h => nomatch h⟩

theorem Silent.bind {x : PortM α} {k : α → PortM β} (hx : Silent x) (hk : ∀ a, Silent (k a)) :
    Silent (x >>= k) := by
  intro p
  obtain ⟨events, hlog, hquiet⟩ := hx p
  obtain ⟨events', hlog', hquiet'⟩ := hk (x.run p).1 (x.run p).2
  refine ⟨events ++ events', ?_, ?_⟩
  · rw [Ports.run_bind, hlog', hlog, List.append_assoc]
  · intro e he
    rcases List.mem_append.mp he with he | he
    · exact hquiet e he
    · exact hquiet' e he

/-- What is sent to a port that takes no commands ends no interrupt. -/
theorem silent_write8 {port : UInt16} (hmaster : port ≠ masterCommand) (hslave : port ≠ slaveCommand)
    (value : UInt8) : Silent (Ports.write8 port value) := by
  intro p
  refine ⟨_, by rw [Ports.run_write8, Ports.log_record], ?_⟩
  intro e he
  rw [List.mem_singleton.mp he, endsInterrupt, beq_eq_false_iff_ne.mpr hmaster,
    beq_eq_false_iff_ne.mpr hslave]
  rfl

theorem silent_sendMask (c : Pic) : Silent c.sendMask :=
  (silent_write8 (by decide) (by decide) _).bind fun _ => silent_write8 (by decide) (by decide) _

theorem silent_maskLine (c : Pic) (line : UInt8) : Silent (c.maskLine line) := by
  rw [maskLine]
  split
  · exact silent_pure c
  · exact (silent_sendMask _).bind fun _ => silent_pure _

theorem silent_unmaskLine (c : Pic) (line : UInt8) : Silent (c.unmaskLine line) := by
  rw [unmaskLine]
  split
  · exact silent_pure c
  · exact (silent_sendMask _).bind fun _ => silent_pure _

end Silent

end Pic

end Supervisor
