/-!
# The interrupt frame

Every interrupt entry leaves the same block of 26 words on the stack: the
segment registers and general registers that the entry code saves, the vector
and error code, and the five words that the processor pushes itself.

- `Frame`: the block, its fields in stack order from the lowest address.
- `Frame.number`: the vector as the byte it is.
- `Frame.fields`: the fields by name, in stack order.
-/

namespace Supervisor

/-- The saved state of interrupted code. -/
structure Frame where
  gs : UInt64 := 0
  fs : UInt64 := 0
  es : UInt64 := 0
  ds : UInt64 := 0
  r15 : UInt64 := 0
  r14 : UInt64 := 0
  r13 : UInt64 := 0
  r12 : UInt64 := 0
  r11 : UInt64 := 0
  r10 : UInt64 := 0
  r9 : UInt64 := 0
  r8 : UInt64 := 0
  rbp : UInt64 := 0
  rdi : UInt64 := 0
  rsi : UInt64 := 0
  rdx : UInt64 := 0
  rcx : UInt64 := 0
  rbx : UInt64 := 0
  rax : UInt64 := 0
  vector : UInt64 := 0
  errorCode : UInt64 := 0
  rip : UInt64 := 0
  cs : UInt64 := 0
  rflags : UInt64 := 0
  rsp : UInt64 := 0
  ss : UInt64 := 0
  deriving DecidableEq, Repr, Inhabited

/-- The low byte of the vector word, which is the vector. -/
def Frame.number (f : Frame) : UInt8 :=
  f.vector.toUInt8

/-- A field of the frame. -/
structure Frame.Field where
  name : String
  get : Frame → UInt64
  set : Frame → UInt64 → Frame

/-- The fields from the lowest address up. -/
def Frame.fields : List Frame.Field :=
  [⟨"gs", (·.gs), fun f v => { f with gs := v }⟩,
   ⟨"fs", (·.fs), fun f v => { f with fs := v }⟩,
   ⟨"es", (·.es), fun f v => { f with es := v }⟩,
   ⟨"ds", (·.ds), fun f v => { f with ds := v }⟩,
   ⟨"r15", (·.r15), fun f v => { f with r15 := v }⟩,
   ⟨"r14", (·.r14), fun f v => { f with r14 := v }⟩,
   ⟨"r13", (·.r13), fun f v => { f with r13 := v }⟩,
   ⟨"r12", (·.r12), fun f v => { f with r12 := v }⟩,
   ⟨"r11", (·.r11), fun f v => { f with r11 := v }⟩,
   ⟨"r10", (·.r10), fun f v => { f with r10 := v }⟩,
   ⟨"r9", (·.r9), fun f v => { f with r9 := v }⟩,
   ⟨"r8", (·.r8), fun f v => { f with r8 := v }⟩,
   ⟨"rbp", (·.rbp), fun f v => { f with rbp := v }⟩,
   ⟨"rdi", (·.rdi), fun f v => { f with rdi := v }⟩,
   ⟨"rsi", (·.rsi), fun f v => { f with rsi := v }⟩,
   ⟨"rdx", (·.rdx), fun f v => { f with rdx := v }⟩,
   ⟨"rcx", (·.rcx), fun f v => { f with rcx := v }⟩,
   ⟨"rbx", (·.rbx), fun f v => { f with rbx := v }⟩,
   ⟨"rax", (·.rax), fun f v => { f with rax := v }⟩,
   ⟨"vector", (·.vector), fun f v => { f with vector := v }⟩,
   ⟨"error_code", (·.errorCode), fun f v => { f with errorCode := v }⟩,
   ⟨"rip", (·.rip), fun f v => { f with rip := v }⟩,
   ⟨"cs", (·.cs), fun f v => { f with cs := v }⟩,
   ⟨"rflags", (·.rflags), fun f v => { f with rflags := v }⟩,
   ⟨"rsp", (·.rsp), fun f v => { f with rsp := v }⟩,
   ⟨"ss", (·.ss), fun f v => { f with ss := v }⟩]

end Supervisor
