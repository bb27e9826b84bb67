set_option autoImplicit false

/-! # Texts that cannot steer a terminal

A log may name files, and a file name may hold control characters.  Those that
a terminal would obey are written by their code: bell, backspace, form feed,
escape and delete with two hexadecimal digits, and the code points from U+0080
to U+009F between braces.  All other characters stand for themselves, a tab or
a line feed among them.
-/

namespace RecordHeader.Text

/-- The steering characters below U+0080. -/
def steeringChars : List Char :=
  ['\x07', '\x08', '\x0c', '\x1b', '\x7f']

/-- Whether a terminal would obey a character. -/
def isSteering (c : Char) : Bool :=
  steeringChars.contains c || (0x80 ≤ c.toNat && c.toNat ≤ 0x9f)

/-- The hexadecimal digits of a code below 256, two of them. -/
def hexPair (code : Nat) : List Char :=
  [Nat.digitChar (code / 16), Nat.digitChar (code % 16)]

/-- How a character is written. -/
def escapeChar (c : Char) : List Char :=
  if !isSteering c then [c]
  else if c.toNat < 0x80 then '\\' :: 'x' :: hexPair c.toNat
  else '\\' :: 'u' :: '\x7b' :: hexPair c.toNat ++ ['\x7d']

/-- A text with its steering characters written by their code. -/
def escape (text : String) : String :=
  String.ofList (text.toList.flatMap escapeChar)

end RecordHeader.Text
