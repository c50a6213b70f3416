import Supervisor.Text

/-!
# Serial output

The serial line wants a carriage return before every line feed; `Serial.crlf`
adds it. What comes of it is handed byte by byte to the driver of the port. The
machine leaves it open what the driver sends for a byte; `Serial.transmitted`
is the driver it has by default, which expands the two bytes that erase a
character into an erasing sequence.

`Uart` is the port's side of the registers: a byte written to the data register
is sent, unless the divisor latch turns that register into another one. What
the driver sends takes the same way and is lost while the latch is on.
-/

namespace Supervisor.Serial

/-- A byte as the line wants it. -/
def crlfByte (byte : UInt8) : List UInt8 :=
  if byte = 0x0A then [0x0D, 0x0A] else [byte]

/-- Bytes with a carriage return before every line feed. -/
def crlf (bytes : List UInt8) : List UInt8 :=
  bytes.flatMap crlfByte

/-- What the driver of the port is handed for a text. -/
def handed (s : String) : List UInt8 :=
  crlf (Text.bytes s)

/-- What the driver sends for a byte: backspace and delete also blank the
character they go back over. -/
def transmitted (byte : UInt8) : List UInt8 :=
  if byte = 0x08 ∨ byte = 0x7F then [0x08, 0x20, 0x08] else [byte]

/-- The part of the serial port's state that its registers show. -/
structure Uart where
  /-- Whether the data register holds a divisor instead. -/
  divisorLatch : Bool := false
  deriving DecidableEq, Repr, Inhabited

namespace Uart

/-- The data register, which is the first of eight. -/
abbrev data : UInt16 := 0x3F8
/-- The register with the divisor latch in its highest bit. -/
abbrev lineControl : UInt16 := data + 3
/-- The register that tells whether a byte may be sent. -/
abbrev lineStatus : UInt16 := data + 5
/-- The status of a transmitter that is ready. -/
abbrev ready : UInt8 := 0x20

/-- Whether a port is one of the registers. -/
def owns (port : UInt16) : Bool :=
  data ≤ port && port < data + 8

/-- The value of a register. The transmitter is always ready. -/
def read (port : UInt16) : UInt8 :=
  if port = lineStatus then ready else 0

/-- What is sent of bytes that are written to the data register. -/
def passed (u : Uart) (bytes : List UInt8) : List UInt8 :=
  if u.divisorLatch then [] else bytes

/-- Writes a register; the answer is what is sent. -/
def write (u : Uart) (port : UInt16) (value : UInt8) : List UInt8 × Uart :=
  if port = lineControl then ([], { u with divisorLatch := value &&& 0x80 != 0 })
  else if port = data then (u.passed [value], u)
  else ([], u)

end Uart

end Supervisor.Serial
