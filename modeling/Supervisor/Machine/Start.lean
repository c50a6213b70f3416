import Supervisor.Machine.Store
import Supervisor.Machine.Timing

/-!
# Starting the kernel

`Machine.bringUp` sets up every part of the kernel in order, with interrupts
off: the outputs, the configuration, the processor's tables, memory, the
interrupt controller and the timer. Only then does `Machine.boot` switch
interrupts on, and the kernel goes on sleeping between interrupts.
`Machine.live` is the whole life of the kernel: a computation on machine words
without an answer ends it with a report.
-/

namespace Supervisor.Machine

/-- Where the log lines of the start come from. -/
abbrev startOrigin : String := "kernel:init"

/-- Tells what the kernel was started with. -/
def announce (info : LoaderInfo) : MachineM Unit := do
  Machine.info startOrigin identity.banner
  if info.recovery then
    warn startOrigin "recovery mode enabled"
  if info.memory.isNone then
    warn startOrigin
      ("boot info has no memory size, assuming "
        ++ Text.decimal (Config.assumedMemory / mebibyte) ++ " MiB")

/-- Sets up everything, and returns the tick's rate. -/
def bringUp (header : Option LoaderBlock) (recovery : UInt8) (image : Span) : MachineM UInt32 := do
  serialInit
  consoleInit
  bootMessage
  let boot := LoaderInfo.ofBlock header (LoaderInfo.asksRecovery recovery)
  let config := Config.ofBoot boot
  logInit config.log
  announce boot
  installSegments
  installInterrupts
  debug startOrigin ("kernel image " ++ Text.hex image.start ++ ".." ++ Text.hex image.stop)
    "kernel/src/kernel.rs" 76
  storeInit config.memoryTop config.heapSize config.heapFallbackSize image
  picInit config.picMaster config.picSlave
  timerInit config.timerRate

/-- Sleeps between interrupts as long as they come. -/
def idle : Nat → MachineM Unit
  | 0 => throw .stuck
  | fuel + 1 => do
    awaitInterrupt
    idle fuel

/-- Starts the kernel, which then only reacts to interrupts. -/
def boot (header : Option LoaderBlock) (recovery : UInt8) (image : Span) : MachineM Unit := do
  let hz ← bringUp header recovery image
  Board.enable
  info startOrigin
    ("initialization complete, timer at " ++ Text.decimal hz.toNat ++ " Hz")
  idle ((← look (·.outside.wakeups)) + 1)

/-- Runs code of the kernel. A computation on machine words that has no answer
is a failure that code notices. -/
def reporting {α : Type} (code : MachineM α) : MachineM α :=
  tryCatch code fun
    | .fault e => panic .normal e.message
    | stop => throw stop

/-- Starts the kernel, and reports what it cannot compute. -/
def live (header : Option LoaderBlock) (recovery : UInt8) (image : Span) : MachineM Unit :=
  reporting (boot header recovery image)

end Supervisor.Machine
