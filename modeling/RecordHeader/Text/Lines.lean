set_option autoImplicit false

/-! # Lines

A line ends at a line feed.  One carriage return right before that line feed
belongs to the ending, so both common endings are read alike; a carriage return
anywhere else is an ordinary character.  A text that ends in a line feed has no
further, empty line, and a last line without an ending is a line all the same.
-/

namespace RecordHeader.Text

/-- Drops one carriage return at the end of a line that a line feed ended. -/
def dropCarriageReturn (line : List Char) : List Char :=
  if line.getLast? = some '\r' then line.dropLast else line

/-- The lines in the pieces that the line feeds of a text cut it into.  Every
piece but the last was ended by a line feed. -/
def endedLines : List (List Char) → List (List Char)
  | [] => []
  | [rest] => if rest.isEmpty then [] else [rest]
  | piece :: pieces => dropCarriageReturn piece :: endedLines pieces

/-- The lines of a text, without their endings. -/
def lines (text : List Char) : List (List Char) :=
  endedLines (text.splitOn '\n')

end RecordHeader.Text
