import Supervisor.Machine.Output
import Supervisor.Machine.Fatal

/-!
# The processor's tables

Loading the segment and interrupt tables, and registering handlers.

- `Machine.installSegments`, `Machine.installSegmentsWith`: the segment table
  with the kernel's own stack or a given one. It can be installed once.
- `Machine.setRingStack`: the stack of ring 0.
- `Machine.installInterrupts`: the interrupt table.
- `Machine.picInit`, `Machine.attachLine`: the interrupt controller. A line is
  unmasked after its handler stands in the table.
-/

namespace Supervisor.Machine

/-! ## Segments -/

/-- Loads a segment register. -/
def loadSegment (register : SegmentRegister) (selector : UInt16) : MachineM Unit :=
  Board.note (.load register selector)

/-- Loads a table that was built, then the code segment and the data segments. -/
def loadSegments (g : Gdt) : MachineM Unit := do
  change fun k => { k with tables.gdtr := some ⟨k.image.segmentTable, g.limit⟩ }
  loadSegment .cs Segment.kernelCodeSelector
  [SegmentRegister.ds, .es, .fs, .gs, .ss].forM (loadSegment · Segment.kernelDataSelector)
  change fun k => { k with tables.taskRegister := some Segment.taskSelector }

/-- Installs the segment table with a stack for ring 0. -/
def installSegmentsWith (top : UInt64) : MachineM (Except SegmentError Unit) := do
  match Stack.validate top with
  | .error e => return .error e
  | .ok top =>
    let k ← look id
    if k.tables.installed then
      return .error .alreadyInstalled
    let g := Gdt.ofTask k.image.taskSegment
    change fun k => { k with
      tables.installed := true, tables.ringStack := top, tables.gdt := some g }
    loadSegments g
    info "gdt" ("GDT loaded, TSS rsp0=" ++ Text.address top.toNat)
    return .ok ()

/-- Installs the segment table with the kernel's own stack. -/
def installSegments : MachineM Unit := do
  match ← installSegmentsWith (← look (·.image.stackTop)) with
  | .ok () => return
  | .error e => panic .normal ("GDT install failed: " ++ e.message)

/-- Changes the stack of ring 0. -/
def setRingStack (top : UInt64) : MachineM (Except SegmentError Unit) := do
  match Stack.validate top with
  | .error e => return .error e
  | .ok top =>
    Board.uninterrupted do
      change fun k => { k with tables.ringStack := top }
    return .ok ()

/-! ## Interrupts -/

/-- The vector of the kernel's tick. -/
abbrev tickVector : UInt8 := 0x20

/-- The gate of a vector, once the table was built. -/
def gateOf (vector : UInt8) : MachineM (Option Gate) :=
  look fun k => k.tables.idt.map (·.gate vector)

/-- Builds the interrupt table, if there is none yet. -/
def buildGates : MachineM Unit :=
  change fun k => { k with
    tables.idt := some (k.tables.idt.getD (.ofStubs k.image.stubBase)) }

/-- Tells the processor where the interrupt table is. -/
def loadGates : MachineM Unit :=
  change fun k => { k with tables.idtr := some ⟨k.image.gateTable, Idt.limit⟩ }

/-- Builds the interrupt table and loads it. -/
def installGates : MachineM Unit := do
  buildGates
  loadGates
  let base ← look (·.image.stubBase)
  info "idt" ("IDT loaded: 256 gates, stubs at " ++ Text.hex (Stub.address base 0).toNat)

/-- Loads the interrupt table and reads one gate back. -/
def installInterrupts : MachineM Unit := do
  installGates
  if let some gate ← gateOf tickVector then
    debug "interrupts"
      ("vector " ++ Text.decimal tickVector.toNat ++ " -> " ++ Text.hex gate.handler.toNat
        ++ " (selector " ++ Text.hex gate.selector.toNat ++ ", dpl "
        ++ Text.decimal gate.dpl.toNat ++ ")")
      "kernel/src/interrupts/mod.rs" 39

/-- Sets up the interrupt controller, all lines masked. -/
def picInit (master slave : UInt8) : MachineM Unit := do
  Board.changePic fun _ => Pic.init master slave
  info "interrupts"
    ("PIC remapped to " ++ Text.hex master.toNat ++ "/" ++ Text.hex slave.toNat
      ++ ", all lines masked")

/-- Registers a handler for an interrupt line and unmasks the line. A line
without a vector is left alone. -/
def attachLine (line : UInt8) (handler : Handler) : MachineM Unit := do
  let vector ← Board.withPic fun pic => return Pic.vectorOf pic.master pic.slave line
  if let some vector := vector then
    discard <| Board.register vector handler
    Board.changePic (·.unmaskLine line)
    debug "interrupts"
      ("IRQ" ++ Text.decimal line.toNat ++ " routed to vector " ++ Text.decimal vector.toNat)
      "kernel/src/interrupts/mod.rs" 75

/-! ## Other instructions -/

/-- An address with its upper bits made equal to bit 47. -/
def canonical (address : UInt64) : UInt64 :=
  if address &&& 0x800000000000 = 0 then address &&& 0xFFFFFFFFFFFF
  else address ||| 0xFFFF000000000000

/-- Drops the cached mapping of the page that holds an address. -/
def invalidate (address : UInt64) : MachineM Unit :=
  Board.note (.invalidate (canonical address))

end Supervisor.Machine
