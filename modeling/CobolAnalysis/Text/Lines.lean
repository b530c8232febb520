/-
Physical lines of a text.

A line feed ends a line, and one carriage return directly before it belongs to
the line end. A final line feed opens no further line, and a last line without
one keeps its carriage return.
-/

namespace CobolAnalysis.Text

def lines : List Char → List (List Char)
  | [] => []
  | '\n' :: rest => [] :: lines rest
  | '\r' :: '\n' :: rest => [] :: lines rest
  | character :: rest =>
      match lines rest with
      | [] => [[character]]
      | first :: others => (character :: first) :: others

/-- The lines with one line feed between neighbours and none at the end. -/
def unlines : List (List Char) → List Char
  | [] => []
  | [line] => line
  | line :: next :: others => line ++ '\n' :: unlines (next :: others)

end CobolAnalysis.Text
