import Supervisor.Proofs.Interrupt.Lines

/-!
# The mask mirror

The driver never reads a mask register back: it goes by its own copy. Whether the copy is
right is a matter of how the chips take the bytes they are sent, because one data port
carries vectors, wiring, mode and masks, told apart only by what was sent before.

- `Pic.Chip`, `Pic.Chips`: the two chips, each with what it takes the next data byte for.
  `Chips.observe` is what an access to a port does to them, and `Ports.chips` what all
  accesses so far have made of them.
- `Pic.Operation`: what a driver is asked to do.
- `Pic.Mirrored`: the chips wait for masks, and hold the masks and the vectors that the
  driver remembers. Initialising brings that about from any state (`mirrored_init`), every
  operation keeps it (`Mirrored.step`), and so does every sequence of them
  (`operations_mirrored`).
-/

namespace Supervisor

namespace Pic

/-! ## The chips -/

/-- What a chip takes the next byte on its data port for. -/
inductive Phase where
  /-- The mask. No initialisation is under way. -/
  | mask
  /-- The vector of its first line. -/
  | offset
  /-- The wiring between the chips. -/
  | wiring
  /-- The mode of operation, which ends an initialisation. -/
  | mode
  deriving DecidableEq, Repr

/-- One of the two chips. -/
structure Chip where
  phase : Phase
  /-- The vector of its first line, as it was told last. -/
  offset : UInt8
  /-- The lines it holds back. -/
  mask : UInt8
  deriving DecidableEq, Repr

namespace Chip

/-- A byte on the command port: bit 4 starts an initialisation, whatever the chip was waiting
for. Other commands end interrupts and select registers. -/
def command (c : Chip) (value : UInt8) : Chip :=
  if value &&& 0x10 = 0 then c else { c with phase := .offset }

/-- A byte on the data port. -/
def data (c : Chip) (value : UInt8) : Chip :=
  match c.phase with
  | .mask => { c with mask := value }
  | .offset => { c with phase := .wiring, offset := value }
  | .wiring => { c with phase := .mode }
  | .mode => { c with phase := .mask }

theorem data_of_mask {c : Chip} (h : c.phase = .mask) (value : UInt8) :
    c.data value = { c with mask := value } := by
  rw [data, h]

end Chip

/-- The two chips. -/
structure Chips where
  master : Chip
  slave : Chip
  deriving DecidableEq, Repr

namespace Chips

/-- What an access to a port does to the chips. -/
def observe (c : Chips) : PortEvent → Chips
  | .read _ _ => c
  | .write port value =>
    if port = masterCommand then { c with master := c.master.command value.toUInt8 }
    else if port = masterData then { c with master := c.master.data value.toUInt8 }
    else if port = slaveCommand then { c with slave := c.slave.command value.toUInt8 }
    else if port = slaveData then { c with slave := c.slave.data value.toUInt8 }
    else c

variable (c : Chips) (value : UInt8)

theorem observe_masterData :
    c.observe (.write masterData value.toUInt32) = { c with master := c.master.data value } := by
  have hcommand : masterData ≠ masterCommand := by decide
  rw [observe, if_neg hcommand, if_pos rfl, UInt8.toUInt8_toUInt32]

theorem observe_slaveData :
    c.observe (.write slaveData value.toUInt32) = { c with slave := c.slave.data value } := by
  have hcommand : slaveData ≠ masterCommand := by decide
  have hdata : slaveData ≠ masterData := by decide
  have hslave : slaveData ≠ slaveCommand := by decide
  rw [observe, if_neg hcommand, if_neg hdata, if_neg hslave, if_pos rfl, UInt8.toUInt8_toUInt32]

end Chips

end Pic

/-- The chips after all accesses so far, if they were `start` before the first one. -/
def Ports.chips (p : Ports) (start : Pic.Chips) : Pic.Chips :=
  p.log.toList.foldl Pic.Chips.observe start

/-! ## What programs do to the chips -/

namespace Ports

variable (p : Ports) (start : Pic.Chips)

theorem chips_record (e : PortEvent) : (p.record e).chips start = (p.chips start).observe e := by
  rw [chips, log_record, List.foldl_append]
  rfl

theorem chips_next (port : UInt16) : (p.next port).2.chips start = p.chips start := by
  rw [chips, log_next]
  rfl

theorem chips_write8 (port : UInt16) (value : UInt8) :
    ((write8 port value).run p).2.chips start =
      (p.chips start).observe (.write port value.toUInt32) := by
  rw [run_write8, chips_record]

end Ports

namespace Pic

variable {start : Chips} {c : Pic} {p : Ports} {line : UInt8}

/-- The chips are the same after a program as before. -/
def Unmoved {α : Type} (x : PortM α) : Prop :=
  ∀ p start, (x.run p).2.chips start = p.chips start

section Unmoved

variable {α β : Type}

theorem unmoved_pure (a : α) : Unmoved (pure a : PortM α) :=
  fun _ _ => rfl

theorem Unmoved.bind {x : PortM α} {k : α → PortM β} (hx : Unmoved x) (hk : ∀ a, Unmoved (k a)) :
    Unmoved (x >>= k) := by
  intro p start
  rw [Ports.run_bind, hk _ _ start, hx p start]

theorem unmoved_read8 (port : UInt16) : Unmoved (Ports.read8 port) := by
  intro p start
  rw [Ports.run_read8, Ports.chips_record, Ports.chips_next]
  rfl

/-- Nobody listens on the port of an idle cycle. -/
theorem unmoved_pause : Unmoved Ports.pause := by
  intro p start
  exact Ports.chips_write8 p start Ports.waitPort 0

/-- A command without bit 4 starts no initialisation. -/
theorem unmoved_command {port : UInt16} (hport : port = masterCommand ∨ port = slaveCommand)
    {value : UInt8} (hvalue : value &&& 0x10 = 0) : Unmoved (Ports.write8 port value) := by
  have hkeep : ∀ chip : Chip, chip.command value = chip := fun _ => if_pos hvalue
  intro p start
  rw [Ports.chips_write8]
  rcases hport with rfl | rfl
  · rw [Chips.observe, if_pos rfl, UInt8.toUInt8_toUInt32, hkeep]
  · have hcommand : slaveCommand ≠ masterCommand := by decide
    have hdata : slaveCommand ≠ masterData := by decide
    rw [Chips.observe, if_neg hcommand, if_neg hdata, if_pos rfl, UInt8.toUInt8_toUInt32, hkeep]

theorem unmoved_acknowledge (line : UInt8) : Unmoved (acknowledge line) := by
  have hmaster : Unmoved (Ports.write8 masterCommand endOfInterrupt) :=
    unmoved_command (.inl rfl) (by decide)
  have hslave : Unmoved (Ports.write8 slaveCommand endOfInterrupt) :=
    unmoved_command (.inr rfl) (by decide)
  rw [acknowledge]
  split
  · exact unmoved_pure ()
  · split
    · exact hslave.bind fun _ => hmaster
    · exact hmaster

theorem unmoved_inService : Unmoved inService := by
  have hmaster : Unmoved (Ports.write8 masterCommand readInService) :=
    unmoved_command (.inl rfl) (by decide)
  have hslave : Unmoved (Ports.write8 slaveCommand readInService) :=
    unmoved_command (.inr rfl) (by decide)
  exact hmaster.bind fun _ => hslave.bind fun _ => (unmoved_read8 _).bind fun _ =>
    (unmoved_read8 _).bind fun _ => unmoved_pure _

theorem unmoved_isSpurious (line : UInt8) : Unmoved (isSpurious line) := by
  rw [isSpurious]
  split
  · exact unmoved_inService.bind fun _ => unmoved_pure _
  · exact unmoved_pure false

theorem unmoved_dismissSpurious (line : UInt8) : Unmoved (dismissSpurious line) := by
  refine (unmoved_isSpurious line).bind fun spurious => ?_
  cases spurious with
  | false => exact unmoved_pure false
  | true =>
    show Unmoved (if line = 15 then _ else _)
    split
    · exact (unmoved_command (.inl rfl) (by decide)).bind fun _ => unmoved_pure true
    · exact unmoved_pure true

end Unmoved

/-! ## The mirror -/

/-- What is asked of a driver. -/
inductive Operation where
  | init (master slave : UInt8)
  | maskLine (line : UInt8)
  | unmaskLine (line : UInt8)
  | maskAll
  | acknowledge (line : UInt8)
  | inService
  | isSpurious (line : UInt8)
  | dismissSpurious (line : UInt8)
  deriving DecidableEq, Repr

/-- The program behind an operation, with what the driver remembers afterwards. -/
def perform (c : Pic) : Operation → PortM Pic
  | .init master slave => Pic.init master slave
  | .maskLine line => c.maskLine line
  | .unmaskLine line => c.unmaskLine line
  | .maskAll => c.maskAll
  | .acknowledge line => do Pic.acknowledge line; return c
  | .inService => do discard Pic.inService; return c
  | .isSpurious line => do discard (Pic.isSpurious line); return c
  | .dismissSpurious line => do discard (Pic.dismissSpurious line); return c

/-- The chips are as the driver remembers them:
1. neither is in the middle of an initialisation;
2. the master holds the low byte of the mask, the slave the high byte;
3. the vectors that they were told last are those of the driver. -/
structure Mirrored (c : Pic) (chips : Chips) : Prop where
  ready : chips.master.phase = .mask ∧ chips.slave.phase = .mask
  mask : chips.master.mask = c.mask.toUInt8 ∧ chips.slave.mask = (c.mask >>> 8).toUInt8
  offsets : chips.master.offset = c.master ∧ chips.slave.offset = c.slave

/-- The mask is sent to chips that wait for one. -/
theorem chips_sendMask (hready : (p.chips start).master.phase = .mask ∧
      (p.chips start).slave.phase = .mask) :
    (c.sendMask.run p).2.chips start =
      ⟨{ (p.chips start).master with mask := c.mask.toUInt8 },
        { (p.chips start).slave with mask := (c.mask >>> 8).toUInt8 }⟩ := by
  rw [sendMask, Ports.run_bind, Ports.chips_write8, Ports.chips_write8, Chips.observe_masterData,
    Chips.observe_slaveData, Chip.data_of_mask hready.1, Chip.data_of_mask hready.2]

/-- A driver that changes its mask and sends it is right about it. -/
theorem Mirrored.sendMask (h : Mirrored c (p.chips start)) (mask : UInt16) :
    Mirrored { c with mask } (((sendMask { c with mask }).run p).2.chips start) := by
  rw [chips_sendMask h.ready]
  exact ⟨h.ready, ⟨rfl, rfl⟩, h.offsets⟩

/-- What the initialisation words do to the chips, from whatever state: they wait for
masks, and know their vectors. -/
theorem observe_initSequence (chips : Chips) (master slave : UInt8) :
    (initSequence master slave).foldl (fun c w => c.observe (.write w.1 w.2.toUInt32)) chips =
      ⟨{ chips.master with phase := .mask, offset := master },
        { chips.slave with phase := .mask, offset := slave }⟩ := by
  have hmaster : (chips.observe (.write masterCommand startWord.toUInt32)).observe
      (.write slaveCommand startWord.toUInt32) =
        ⟨{ chips.master with phase := .offset }, { chips.slave with phase := .offset }⟩ := rfl
  rw [initSequence]
  simp only [List.foldl_cons, List.foldl_nil, hmaster, Chips.observe_masterData,
    Chips.observe_slaveData, Chip.data]

theorem chips_words (start : Chips) (words : List (UInt16 × UInt8)) (p : Ports) :
    ((words.forM fun (port, value) => do
        Ports.write8 port value
        Ports.pause).run p).2.chips start =
      words.foldl (fun c w => c.observe (.write w.1 w.2.toUInt32)) (p.chips start) := by
  induction words generalizing p with
  | nil => rfl
  | cons w words ih =>
    show ((((Ports.write8 w.1 w.2 >>= fun _ => Ports.pause) >>= fun _ =>
      words.forM _).run p).2.chips start) = _
    rw [Ports.run_bind, ih, Ports.run_bind, unmoved_pause, Ports.chips_write8]
    rfl

/-- Initialising makes the driver right about the chips, whatever state they were in. -/
theorem mirrored_init (master slave : UInt8) (p : Ports) (start : Chips) :
    Mirrored ((Pic.init master slave).run p).1 (((Pic.init master slave).run p).2.chips start) := by
  have hwords := (chips_words start (initSequence master slave) p).trans
    (observe_initSequence _ master slave)
  generalize hq : ((initSequence master slave).forM fun (port, value) => do
    Ports.write8 port value
    Ports.pause).run p = q at hwords
  have hrun : (Pic.init master slave).run p =
      (⟨allMasked, master, slave⟩, ((sendMask ⟨allMasked, master, slave⟩).run q.2).2) := by
    rw [← hq]
    rfl
  rw [hrun, chips_sendMask (by rw [hwords]; exact ⟨rfl, rfl⟩), hwords]
  exact ⟨⟨rfl, rfl⟩, ⟨rfl, rfl⟩, ⟨rfl, rfl⟩⟩

/-- An operation that does not change what the driver remembers must not move the chips. -/
theorem Mirrored.of_unmoved {α : Type} {x : PortM α} (h : Mirrored c (p.chips start))
    (hx : Unmoved x) :
    Mirrored ((do discard x; return c : PortM Pic).run p).1
      (((do discard x; return c : PortM Pic).run p).2.chips start) := by
  show Mirrored c ((x.run p).2.chips start)
  rwa [hx p start]

/-- Every operation leaves the driver right about the chips. -/
theorem Mirrored.step (h : Mirrored c (p.chips start)) (op : Operation) :
    Mirrored ((c.perform op).run p).1 (((c.perform op).run p).2.chips start) := by
  cases op with
  | init master slave => exact mirrored_init master slave p start
  | maskLine line =>
    show Mirrored ((c.maskLine line).run p).1 (((c.maskLine line).run p).2.chips start)
    rw [maskLine]
    split
    · exact h
    · exact h.sendMask _
  | unmaskLine line =>
    show Mirrored ((c.unmaskLine line).run p).1 (((c.unmaskLine line).run p).2.chips start)
    rw [unmaskLine]
    split
    · exact h
    · exact h.sendMask _
  | maskAll => exact h.sendMask allMasked
  | acknowledge line => exact h.of_unmoved (unmoved_acknowledge line)
  | inService => exact h.of_unmoved unmoved_inService
  | isSpurious line => exact h.of_unmoved (unmoved_isSpurious line)
  | dismissSpurious line => exact h.of_unmoved (unmoved_dismissSpurious line)

theorem Mirrored.run (h : Mirrored c (p.chips start)) (ops : List Operation) :
    Mirrored ((ops.foldlM perform c).run p).1 (((ops.foldlM perform c).run p).2.chips start) := by
  induction ops generalizing c p with
  | nil => exact h
  | cons op ops ih =>
    rw [List.foldlM_cons, Ports.run_bind]
    exact ih (h.step op)

/-- A driver that starts with an initialisation is right about the chips after every sequence
of operations, on any lines, whatever the ports answer. Neither what the driver remembered
before nor the state of the chips matters. -/
theorem operations_mirrored (start : Chips) (c : Pic) (p : Ports) (master slave : UInt8)
    (ops : List Operation) :
    let after := ((Operation.init master slave :: ops).foldlM perform c).run p
    Mirrored after.1 (after.2.chips start) := by
  intro after
  have hafter : after = (ops.foldlM perform ((Pic.init master slave).run p).1).run
      ((Pic.init master slave).run p).2 := by
    show ((Operation.init master slave :: ops).foldlM perform c).run p = _
    rw [List.foldlM_cons, Ports.run_bind]
    rfl
  rw [hafter]
  exact (mirrored_init master slave p start).run ops

/-- A command that starts an initialisation makes the byte behind it a vector, not a mask. -/
example : ((Chip.mk .mask 0x20 0xFF).command startWord).data 0x40 = ⟨.wiring, 0x40, 0xFF⟩ := by
  decide

end Pic

end Supervisor
