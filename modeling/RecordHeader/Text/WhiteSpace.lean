set_option autoImplicit false

/-! # White space and words

A definition line is a row of words with white space around them.  White space
is the Unicode property `White_Space`, so a no-break space or a line separator
parts two words as well as a blank does, and a zero-width space does not.

`Text.words` gives the words of a text in order, `Text.isBlank` says that there
are none.
-/

namespace RecordHeader.Text

/-- The code points of the Unicode property `White_Space`, as inclusive ranges
in rising order: 25 code points in all. -/
def whiteSpaceRanges : List (Nat × Nat) :=
  [(0x0009, 0x000D), (0x0020, 0x0020), (0x0085, 0x0085), (0x00A0, 0x00A0),
   (0x1680, 0x1680), (0x2000, 0x200A), (0x2028, 0x2029), (0x202F, 0x202F),
   (0x205F, 0x205F), (0x3000, 0x3000)]

/-- Whether a character has the property `White_Space`. -/
def isWhiteSpace (c : Char) : Bool :=
  whiteSpaceRanges.any fun range => range.1 ≤ c.toNat && c.toNat ≤ range.2

/-- The maximal runs of characters other than white space, in order. -/
def words (text : List Char) : List (List Char) :=
  (text.splitOnP isWhiteSpace).filter fun word => !word.isEmpty

/-- A text is blank when it holds nothing but white space. -/
def isBlank (text : List Char) : Bool :=
  text.all isWhiteSpace

end RecordHeader.Text
