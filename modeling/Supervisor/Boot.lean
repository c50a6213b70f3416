import Supervisor.Log

/-!
# Boot information and configuration

The loader hands over a block of three words; two of them are memory sizes, if
a bit of the first says so. `Config.ofBoot` turns that and the recovery switch
into the configuration the kernel comes up with.

Memory ends where the loader says, or at 128 MiB if it does not, but never past
the first gigabyte, which is all that is mapped. A recovery boot logs
everything and shows the log on the console.
-/

namespace Supervisor

/-- The identity of the kernel, shown when it starts. -/
structure Identity where
  name : String
  version : String
  tagline : String
  deriving DecidableEq, Repr, Inhabited

/-- The kernel's own identity. -/
def identity : Identity :=
  ⟨"dKernel", "0.1.0", "x86_64 interrupt and memory core"⟩

/-- An identity in one line. -/
def Identity.banner (i : Identity) : String :=
  i.name ++ " v" ++ i.version ++ " - " ++ i.tagline

/-- The words the loader hands over. -/
structure LoaderBlock where
  flags : UInt32
  memLower : UInt32
  memUpper : UInt32
  deriving DecidableEq, Repr, Inhabited

/-- What the kernel takes from the loader. -/
structure LoaderInfo where
  /-- Sizes of low and high memory in KiB. -/
  memory : Option (UInt32 × UInt32)
  /-- Whether a recovery boot was asked for. -/
  recovery : Bool
  deriving DecidableEq, Repr, Inhabited

namespace LoaderInfo

/-- Whether the recovery byte, which the boot code sets, asks for a recovery
boot. -/
def asksRecovery (flag : UInt8) : Bool :=
  flag != 0

/-- Reads the loader's words, if there are any. -/
def ofBlock (header : Option LoaderBlock) (recovery : Bool) : LoaderInfo where
  memory := header.bind fun h => if h.flags &&& 1 ≠ 0 then some (h.memLower, h.memUpper) else none
  recovery := recovery

/-- Where high memory starts. -/
abbrev upperBase : Nat := 0x100000

/-- Where memory ends, if the loader said. -/
def memoryTop (b : LoaderInfo) : Option Nat :=
  b.memory.map fun (_, upper) => upperBase + upper.toNat * 1024

end LoaderInfo

/-- The configuration of the kernel. -/
structure Config where
  /-- Where usable memory ends. -/
  memoryTop : Nat
  /-- The heap that is asked for. -/
  heapSize : Nat := 4 * 1024 * 1024
  /-- The heap to make do with. -/
  heapFallbackSize : Nat := 1024 * 1024
  /-- Ticks per second. -/
  timerRate : UInt32 := 100
  /-- The vector of interrupt line 0. -/
  picMaster : UInt8 := 0x20
  /-- The vector of interrupt line 8. -/
  picSlave : UInt8 := 0x28
  /-- What is logged and where. -/
  log : Log.Settings
  /-- Whether this is a recovery boot. -/
  recovery : Bool
  deriving DecidableEq, Repr, Inhabited

namespace Config

/-- Memory assumed if the loader reports none. -/
abbrev assumedMemory : Nat := 128 * 1024 * 1024

/-- The memory that is mapped. -/
abbrev mappedTop : Nat := 1024 * 1024 * 1024

/-- The configuration for what the loader reported. -/
def ofBoot (b : LoaderInfo) : Config where
  memoryTop := min (b.memoryTop.getD assumedMemory) mappedTop
  log := if b.recovery then ⟨.debug, true⟩ else ⟨.info, false⟩
  recovery := b.recovery

end Config

end Supervisor
