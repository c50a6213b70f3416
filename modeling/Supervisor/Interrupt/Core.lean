import Supervisor.Interrupt.Frame

/-!
# The processor core

The registers of the processor and the stack in memory, as far as interrupt
entry and return touch them, and the instructions that the entry code uses.

- `Core`: the registers, and the word of memory at each stack address.
- `Instruction`, `Core.step`, `Core.run`: instructions, one and many.
- `Core.interrupt`, `Core.iretq`: what the processor itself does when it takes
  an interrupt and when it returns from one.
- `Frame.load`, `Frame.store`: the interrupt frame at an address.

The stack grows downwards in words of eight bytes. Addresses wrap.
-/

namespace Supervisor

/-- A general register other than the stack pointer. -/
inductive Register where
  | rax
  | rbx
  | rcx
  | rdx
  | rsi
  | rdi
  | rbp
  | r8
  | r9
  | r10
  | r11
  | r12
  | r13
  | r14
  | r15
  deriving DecidableEq, Repr, Inhabited

/-- A segment register that the entry code saves. -/
inductive DataSegment where
  | ds
  | es
  | fs
  | gs
  deriving DecidableEq, Repr, Inhabited

/-- The registers and the stack. Code and stack segment are the words that the
processor saves for them, of which it gives back every bit. -/
structure Core where
  general : Register → UInt64
  segment : DataSegment → UInt16
  cs : UInt64
  ss : UInt64
  rip : UInt64
  rflags : UInt64
  rsp : UInt64
  /-- The word at each address of the stack. -/
  words : UInt64 → UInt64 := fun _ => 0

/-- An instruction of the entry code. -/
inductive Instruction where
  /-- Pushes a general register. -/
  | push (r : Register)
  /-- Pushes a number. -/
  | pushImmediate (value : UInt64)
  /-- Pushes a selector. -/
  | pushSegment (s : DataSegment)
  /-- Pops a general register. -/
  | pop (r : Register)
  /-- Pops a selector, of which the low sixteen bits count. -/
  | popSegment (s : DataSegment)
  /-- Copies a selector into a general register. -/
  | fromSegment (s : DataSegment) (r : Register)
  /-- Copies the low sixteen bits of a general register into a selector. -/
  | toSegment (r : Register) (s : DataSegment)
  /-- Replaces the low sixteen bits of a general register. -/
  | setLow (r : Register) (value : UInt16)
  /-- Copies the stack pointer into a general register. -/
  | fromStack (r : Register)
  /-- Copies a general register into the stack pointer. -/
  | toStack (r : Register)
  /-- Moves the stack pointer down to a multiple of sixteen. -/
  | alignStack
  /-- Takes words off the stack. -/
  | drop (count : UInt64)
  /-- Clears the direction flag. -/
  | clearDirection
  deriving DecidableEq, Repr, Inhabited

namespace Core

/-- The direction bit of the flags register. -/
abbrev directionFlag : UInt64 := 0x400

/-- The bits of the flags register that taking an interrupt clears: trap,
interrupt, nested task and resume. -/
abbrev maskedFlags : UInt64 := 0x14300

/-- A stack pointer moved down to a multiple of sixteen. -/
def aligned (rsp : UInt64) : UInt64 :=
  rsp &&& ~~~ (15 : UInt64)

/-- Sets a general register. -/
def set (c : Core) (r : Register) (value : UInt64) : Core :=
  { c with general := fun q => if q = r then value else c.general q }

/-- Sets a selector. -/
def setSegment (c : Core) (s : DataSegment) (value : UInt16) : Core :=
  { c with segment := fun q => if q = s then value else c.segment q }

/-- Puts a word into memory. -/
def poke (words : UInt64 → UInt64) (address value : UInt64) : UInt64 → UInt64 :=
  fun a => if a = address then value else words a

/-- Pushes a word. -/
def pushWord (c : Core) (value : UInt64) : Core :=
  { c with rsp := c.rsp - 8, words := poke c.words (c.rsp - 8) value }

/-- The word on top of the stack. -/
def top (c : Core) : UInt64 :=
  c.words c.rsp

/-- Takes words off the stack. -/
def dropWords (c : Core) (count : UInt64) : Core :=
  { c with rsp := c.rsp + 8 * count }

/-- Executes an instruction. -/
def step (c : Core) : Instruction → Core
  | .push r => c.pushWord (c.general r)
  | .pushImmediate value => c.pushWord value
  | .pushSegment s => c.pushWord (c.segment s).toUInt64
  | .pop r => (c.set r c.top).dropWords 1
  | .popSegment s => (c.setSegment s c.top.toUInt16).dropWords 1
  | .fromSegment s r => c.set r (c.segment s).toUInt64
  | .toSegment r s => c.setSegment s (c.general r).toUInt16
  | .setLow r value =>
    c.set r (c.general r &&& ~~~ (0xFFFF : UInt64) ||| value.toUInt64)
  | .fromStack r => c.set r c.rsp
  | .toStack r => { c with rsp := c.general r }
  | .alignStack => { c with rsp := aligned c.rsp }
  | .drop count => c.dropWords count
  | .clearDirection => { c with rflags := c.rflags &&& ~~~ directionFlag }

/-- Executes instructions in order. -/
def run (c : Core) (program : List Instruction) : Core :=
  program.foldl step c

/-- Takes an interrupt: the interrupted stack, flags and place are saved on the
aligned stack, and above them the error code of a vector that has one. -/
def interrupt (c : Core) (errorCode : Option UInt64) : Core :=
  let saved := [c.ss, c.rsp, c.rflags, c.cs, c.rip] ++ errorCode.toList
  saved.foldl pushWord { c with rsp := aligned c.rsp, rflags := c.rflags &&& ~~~ maskedFlags }

/-- Returns from an interrupt through the five words on top of the stack. -/
def iretq (c : Core) : Core :=
  let word (i : UInt64) := c.words (c.rsp + 8 * i)
  { c with rip := word 0, cs := word 1, rflags := word 2, rsp := word 3, ss := word 4 }

end Core

/-! ## The frame in memory -/

/-- The words of a frame from the lowest address up. -/
def Frame.toWords (f : Frame) : List UInt64 :=
  Frame.fields.map fun x => x.get f

/-- The frame at an address. -/
def Frame.load (words : UInt64 → UInt64) (address : UInt64) : Frame where
  gs := words address
  fs := words (address + 8)
  es := words (address + 16)
  ds := words (address + 24)
  r15 := words (address + 32)
  r14 := words (address + 40)
  r13 := words (address + 48)
  r12 := words (address + 56)
  r11 := words (address + 64)
  r10 := words (address + 72)
  r9 := words (address + 80)
  r8 := words (address + 88)
  rbp := words (address + 96)
  rdi := words (address + 104)
  rsi := words (address + 112)
  rdx := words (address + 120)
  rcx := words (address + 128)
  rbx := words (address + 136)
  rax := words (address + 144)
  vector := words (address + 152)
  errorCode := words (address + 160)
  rip := words (address + 168)
  cs := words (address + 176)
  rflags := words (address + 184)
  rsp := words (address + 192)
  ss := words (address + 200)

/-- Puts words into memory from an address on. -/
def Core.pokeAll (words : UInt64 → UInt64) (address : UInt64) :
    List UInt64 → UInt64 → UInt64
  | [] => words
  | value :: rest => pokeAll (poke words address value) (address + 8) rest

/-- Puts a frame at an address. -/
def Frame.store (f : Frame) (words : UInt64 → UInt64) (address : UInt64) : UInt64 → UInt64 :=
  Core.pokeAll words address f.toWords

end Supervisor
