/-
Source lines and their reference-format areas.

A reference-format line has a sequence area in columns 1-6, an indicator in
column 7 and program text from column 8 on; in fixed format the program text
ends at column 72 and nothing may follow column 80. Free format has no areas.
Columns are counted in characters, from zero in the code below.
-/

import CobolAnalysis.Diagnostic
import CobolAnalysis.Text.Blank
import CobolAnalysis.Text.Lines

namespace CobolAnalysis.Source

inductive Format where
  /-- Reference format with a right margin. -/
  | fixed
  /-- Reference format without a right margin. -/
  | variableLength
  /-- No columns; a star and a greater-than sign begin a comment. -/
  | free
  deriving DecidableEq, Inhabited

inductive Indicator where
  | normal
  | comment
  | continuation
  | debug
  deriving DecidableEq, Inhabited

namespace Indicator

def ofChar : Char → Indicator
  | '*' => comment
  | '/' => comment
  | '-' => continuation
  | 'D' => debug
  | 'd' => debug
  | _ => normal

end Indicator

def indicatorColumn : Nat := 6

def programTextColumn : Nat := 7

def rightMargin : Nat := 72

def longestFixedLine : Nat := 80

structure Line where
  number : Nat
  sequence : List Char
  indicator : Indicator
  content : List Char
  /-- The column at which the content starts. -/
  offset : Nat
  deriving DecidableEq, Inhabited

namespace Line

def isComment (line : Line) : Bool := line.indicator == .comment

def isContinuation (line : Line) : Bool := line.indicator == .continuation

def isBlank (line : Line) : Bool := Text.isBlankText line.content

def withContent (line : Line) (content : List Char) : Line := { line with content := content }

def cleared (line : Line) : Line := line.withContent []

def location (line : Line) (uri : String) : Location :=
  ⟨uri, Span.onLine line.number line.offset line.content.length⟩

/-- The content at its column, without the blanks at its end; an empty content leaves no column. -/
def written (line : Line) : List Char :=
  if line.content.isEmpty then []
  else List.replicate line.offset ' ' ++ Text.trimEnd line.content

end Line

/-- One output line for each line, so positions in the text are positions in the source. -/
def writeText (lines : List Line) : List Char := Text.unlines (lines.map Line.written)

end CobolAnalysis.Source
