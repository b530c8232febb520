/-
Blank characters, and text without its surrounding blanks.

A blank is any character with the Unicode property White_Space, so line
separators, no-break spaces and ideographic spaces count. Column-oriented
rules elsewhere never use this notion; they count characters instead.
-/

namespace CobolAnalysis.Text

/-- The characters with the Unicode property White_Space. -/
def isBlank (character : Char) : Bool :=
  let point := character.toNat
  (9 ≤ point && point ≤ 13) || point == 0x20 || point == 0x85 || point == 0xA0 ||
    point == 0x1680 || (0x2000 ≤ point && point ≤ 0x200A) || point == 0x2028 ||
    point == 0x2029 || point == 0x202F || point == 0x205F || point == 0x3000

def isBlankText (text : List Char) : Bool := text.all isBlank

def trimStart (text : List Char) : List Char := text.dropWhile isBlank

/-- A blank survives only when a visible character follows it. -/
def trimEnd : List Char → List Char
  | [] => []
  | character :: rest =>
      match trimEnd rest with
      | [] => if isBlank character then [] else [character]
      | next :: others => character :: next :: others

def trim (text : List Char) : List Char := trimEnd (trimStart text)

end CobolAnalysis.Text
