/-
Text shown inside double quotes.

The quote and the backslash are written with a backslash, and so are tab, line
feed, carriage return and NUL. A character without a visible form of its own,
or one that would attach to the character before it, is written as its code
point in hexadecimal braces. Single quotes stand for themselves.
-/

import CobolAnalysis.Text.GraphemeExtend
import CobolAnalysis.Text.Printable

namespace CobolAnalysis.Text.Quoted

/-- The fillers of the Hangul blocks: letters that leave their cell empty. -/
def isFiller (character : Char) : Bool :=
  character = '\u115F' || character = '\u1160' || character = '\u3164' || character = '\uFFA0'

/-- The halfwidth sound marks, which take a cell of their own after the letter that they
extend. -/
def isHalfwidthMark (character : Char) : Bool :=
  character = '\uFF9E' || character = '\uFF9F'

/-- Attaches to the character before it. -/
def attaches (character : Char) : Bool :=
  graphemeExtend.holds character && !isHalfwidthMark character

def standsAlone (character : Char) : Bool :=
  if character.toNat < 0x80 then 0x20 ≤ character.toNat && character.toNat < 0x7F
  else printable.holds character && !isFiller character && !attaches character

/-- Lower-case hexadecimal digits without leading zeros. -/
def codePoint (character : Char) : List Char :=
  ['\\', 'u', '{'] ++ Nat.toDigits 16 character.toNat ++ ['}']

def escape (character : Char) : List Char :=
  match character with
  | '\x00' => ['\\', '0']
  | '\t' => ['\\', 't']
  | '\n' => ['\\', 'n']
  | '\r' => ['\\', 'r']
  | '"' => ['\\', '"']
  | '\\' => ['\\', '\\']
  | other => if standsAlone other then [other] else codePoint other

def quote (text : List Char) : List Char := ['"'] ++ text.flatMap escape ++ ['"']

end CobolAnalysis.Text.Quoted
