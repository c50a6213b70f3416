import Supervisor.Ports

/-!
# The interrupt controller

Two chained 8259A chips deliver sixteen interrupt lines: lines 0 to 7 come in
on the master, 8 to 15 on the slave, whose output is wired to the master's
line 2. A `Pic` is what the driver knows about the pair; the operations write
to the chips through ports.

- `Pic.init`: the initialisation sequence, after which every line is masked.
- `Pic.maskLine`, `Pic.unmaskLine`, `Pic.maskAll`: the mask. Unmasking a
  line of the slave also unmasks the line the slave hangs on.
- `Pic.acknowledge`: end of interrupt, to the chip or chips that saw the line.
- `Pic.dismissSpurious`: recognises lines 7 and 15 raised without an in-service
  bit. A spurious line 15 still came through the master, which alone gets an
  end of interrupt.
- `Pic.lineOf`, `Pic.vectorOf`: the two directions of the map
  between lines and processor vectors.

Lines past 15 are ignored. `Pic.mask` always equals what was last written to
the two mask registers: the low byte is the master's, the high byte the
slave's.
-/

namespace Supervisor

/-- What the driver keeps about the two chips. -/
structure Pic where
  /-- Masked lines, one bit each. -/
  mask : UInt16 := 0xFFFF
  /-- The vector of line 0. -/
  master : UInt8 := 0x20
  /-- The vector of line 8. -/
  slave : UInt8 := 0x28
  deriving DecidableEq, Repr, Inhabited

namespace Pic

/-- Command port of the master. -/
abbrev masterCommand : UInt16 := 0x20
/-- Data port of the master. -/
abbrev masterData : UInt16 := 0x21
/-- Command port of the slave. -/
abbrev slaveCommand : UInt16 := 0xA0
/-- Data port of the slave. -/
abbrev slaveData : UInt16 := 0xA1

/-- The master's line the slave is wired to. -/
abbrev cascadeLine : UInt8 := 2
/-- Number of lines. -/
abbrev lineCount : UInt8 := 16
/-- The mask in which every line is masked. -/
abbrev allMasked : UInt16 := 0xFFFF

/-- Starts initialisation: edge triggered, cascaded, a fourth word follows. -/
abbrev startWord : UInt8 := 0x11
/-- Tells the master which line the slave is on. -/
abbrev masterWiring : UInt8 := 0x04
/-- Tells the slave its identity. -/
abbrev slaveWiring : UInt8 := 0x02
/-- Selects 8086 mode. -/
abbrev modeWord : UInt8 := 0x01
/-- The end-of-interrupt command. -/
abbrev endOfInterrupt : UInt8 := 0x20
/-- Makes the next command read answer the in-service register. -/
abbrev readInService : UInt8 := 0x0B

/-- The bit of a line in the mask. -/
def lineBit (line : UInt8) : UInt16 :=
  1 <<< line.toUInt16

/-- Writes both mask registers. -/
def sendMask (p : Pic) : PortM Unit := do
  Ports.write8 masterData p.mask.toUInt8
  Ports.write8 slaveData (p.mask >>> 8).toUInt8

/-- The initialisation words in the order they are sent. -/
def initSequence (master slave : UInt8) : List (UInt16 × UInt8) :=
  [(masterCommand, startWord), (slaveCommand, startWord),
   (masterData, master), (slaveData, slave),
   (masterData, masterWiring), (slaveData, slaveWiring),
   (masterData, modeWord), (slaveData, modeWord)]

/-- Programs both chips to deliver at the given vectors, all lines masked. -/
def init (master slave : UInt8) : PortM Pic := do
  (initSequence master slave).forM fun (port, value) => do
    Ports.write8 port value
    Ports.pause
  let p : Pic := ⟨allMasked, master, slave⟩
  p.sendMask
  return p

/-- Masks a line. -/
def maskLine (p : Pic) (line : UInt8) : PortM Pic := do
  if lineCount ≤ line then
    return p
  let p := { p with mask := p.mask ||| lineBit line }
  p.sendMask
  return p

/-- The mask with a line cleared, and for a line of the slave the cascade line
with it. -/
def unmasked (mask : UInt16) (line : UInt8) : UInt16 :=
  let mask := mask &&& ~~~ lineBit line
  if 8 ≤ line then mask &&& ~~~ lineBit cascadeLine else mask

/-- Unmasks a line. -/
def unmaskLine (p : Pic) (line : UInt8) : PortM Pic := do
  if lineCount ≤ line then
    return p
  let p := { p with mask := unmasked p.mask line }
  p.sendMask
  return p

/-- Masks every line. -/
def maskAll (p : Pic) : PortM Pic := do
  let p := { p with mask := allMasked }
  p.sendMask
  return p

/-- Signals the end of an interrupt on a line. -/
def acknowledge (line : UInt8) : PortM Unit := do
  if lineCount ≤ line then
    return
  if 8 ≤ line then
    Ports.write8 slaveCommand endOfInterrupt
  Ports.write8 masterCommand endOfInterrupt

/-- The in-service registers, the slave's in the high byte. -/
def inService : PortM UInt16 := do
  Ports.write8 masterCommand readInService
  Ports.write8 slaveCommand readInService
  let master ← Ports.read8 masterCommand
  let slave ← Ports.read8 slaveCommand
  return slave.toUInt16 <<< 8 ||| master.toUInt16

/-- Whether a line was raised without being in service. Only lines 7 and 15
can be. -/
def isSpurious (line : UInt8) : PortM Bool := do
  if line = 7 ∨ line = 15 then
    return (← inService) &&& lineBit line == 0
  else
    return false

/-- Whether an interrupt on a line has to be dropped, after the acknowledgement
it still needs. -/
def dismissSpurious (line : UInt8) : PortM Bool := do
  if ← isSpurious line then
    if line = 15 then
      Ports.write8 masterCommand endOfInterrupt
    return true
  return false

/-- Whether a vector is one of the eight from `offset` on. The end of the range
stops at 255, which it excludes. -/
def inRange (offset vector : UInt8) : Bool :=
  offset ≤ vector && vector.toNat < min (offset.toNat + 8) 255

/-- The line that is delivered on a vector. -/
def lineOf (p : Pic) (vector : UInt8) : Option UInt8 :=
  if inRange p.master vector then some (vector - p.master)
  else if inRange p.slave vector then some (vector - p.slave + 8)
  else none

/-- All vectors that lines are delivered on, each with its line. -/
def vectorLines (p : Pic) : List (UInt8 × UInt8) :=
  ((List.range 256).map UInt8.ofNat).filterMap fun v => (p.lineOf v).map fun l => (v, l)

/-- The vector `offset + line`, if it is one. -/
def vectorFrom (offset line : UInt8) : Option UInt8 :=
  if offset.toNat + line.toNat < 256 then some (offset + line) else none

/-- The vector a line is delivered on; none for lines past 15 and for offsets
that would run past vector 255. -/
def vectorOf (master slave line : UInt8) : Option UInt8 :=
  if line < 8 then vectorFrom master line
  else if line < lineCount then vectorFrom slave (line - 8)
  else none

end Pic

end Supervisor
