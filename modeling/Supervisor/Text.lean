/-!
# Number formats

The two ways the supervisor writes numbers into its messages: plain decimal
and lowercase hexadecimal, either without leading zeros or padded to a width.
`number?` reads both.
Texts and bytes are converted by `bytes`, which encodes, and by `ofBytes`, which
shows each byte by itself.
-/

namespace Supervisor.Text

/-- Decimal digits without leading zeros. -/
def decimal (n : Nat) : String :=
  String.ofList (Nat.toDigits 10 n)

/-- Digits `ds`, preceded by as many of `c` as reach `width`. A longer list is
kept whole. -/
def padLeft (width : Nat) (c : Char) (ds : List Char) : List Char :=
  List.replicate (width - ds.length) c ++ ds

/-- Decimal digits, preceded by zeros up to `width`. -/
def decimalPadded (width n : Nat) : String :=
  String.ofList (padLeft width '0' (Nat.toDigits 10 n))

/-- Decimal digits, preceded by blanks up to `width`. -/
def decimalRight (width n : Nat) : String :=
  String.ofList (padLeft width ' ' (Nat.toDigits 10 n))

/-- Lowercase hexadecimal digits without leading zeros. -/
def hexDigits (n : Nat) : String :=
  String.ofList (Nat.toDigits 16 n)

/-- Lowercase hexadecimal digits, preceded by zeros up to `width`. -/
def hexPadded (width n : Nat) : String :=
  String.ofList (padLeft width '0' (Nat.toDigits 16 n))

/-- A number written as `0x1f`. -/
def hex (n : Nat) : String :=
  "0x" ++ hexDigits n

/-- An address written as `0x` and sixteen digits. -/
def address (n : Nat) : String :=
  "0x" ++ hexPadded 16 n

/-- The value of a digit of either case. -/
def digit? (c : Char) : Option Nat :=
  if '0' ≤ c ∧ c ≤ '9' then some (c.toNat - '0'.toNat)
  else if 'a' ≤ c ∧ c ≤ 'f' then some (c.toNat - 'a'.toNat + 10)
  else if 'A' ≤ c ∧ c ≤ 'F' then some (c.toNat - 'A'.toNat + 10)
  else none

/-- The number that digits spell in a base. -/
def ofDigits? (base : Nat) (ds : List Char) : Option Nat :=
  ds.foldlM (fun n c => (digit? c).map (n * base + ·)) 0

/-- The number a text spells: hexadecimal after `0x`, else decimal. -/
def number? (s : String) : Option Nat :=
  match s.toList with
  | '0' :: 'x' :: ds => ofDigits? 16 ds
  | ds => ofDigits? 10 ds

/-- The bytes that encode a text. -/
def bytes (s : String) : List UInt8 :=
  s.toByteArray.data.toList

/-- The character with the number of a byte. -/
def charOf (b : UInt8) : Char :=
  Char.ofNat b.toNat

/-- Bytes as one character each. -/
def ofBytes (bs : List UInt8) : String :=
  String.ofList (bs.map charOf)

end Supervisor.Text
