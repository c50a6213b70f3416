/-!
# Colours

The sixteen colours of text mode, and the attribute byte that pairs a
foreground with a background.
-/

namespace Supervisor

/-- A text-mode colour. -/
inductive Color where
  | black
  | blue
  | green
  | cyan
  | red
  | magenta
  | brown
  | lightGray
  | darkGray
  | lightBlue
  | lightGreen
  | lightCyan
  | lightRed
  | pink
  | yellow
  | white
  deriving DecidableEq, Repr, Inhabited

namespace Color

/-- The colours in the order of their codes. -/
def all : List Color :=
  [black, blue, green, cyan, red, magenta, brown, lightGray,
   darkGray, lightBlue, lightGreen, lightCyan, lightRed, pink, yellow, white]

/-- The code of a colour. -/
def code : Color → UInt8
  | black => 0
  | blue => 1
  | green => 2
  | cyan => 3
  | red => 4
  | magenta => 5
  | brown => 6
  | lightGray => 7
  | darkGray => 8
  | lightBlue => 9
  | lightGreen => 10
  | lightCyan => 11
  | lightRed => 12
  | pink => 13
  | yellow => 14
  | white => 15

/-- The colour with a code. -/
def ofCode? (code : Nat) : Option Color :=
  all[code]?

/-- The attribute byte: the background above the foreground. -/
def attributeByte (fg bg : Color) : UInt8 :=
  bg.code <<< 4 ||| fg.code

end Color

end Supervisor
