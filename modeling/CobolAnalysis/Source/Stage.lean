/-
Stages: transformations of the lines of one document.

A stage returns one line for each line, in order, so that positions keep
pointing into the source. This module holds the contract and the three stages of
the standard order: comments go, debug lines become code or go, and continuation
lines are joined to the line they continue.
-/

import CobolAnalysis.Source.Literal
import CobolAnalysis.Source.Reader

namespace CobolAnalysis.Source

structure Stage where
  name : String
  transform : String → List Line → Except PreprocessError (Diagnosed (List Line))

namespace Stage

def eachLine (name : String) (change : Line → Line) : Stage where
  name := name
  transform := fun _ lines => .ok (.clean (lines.map change))

/-! ### Comments -/

def stripComment (line : Line) : Line :=
  if line.isComment then line.cleared else line.withContent (beforeComment none line.content)

def comment : Stage := eachLine "comment" stripComment

/-! ### Debug lines -/

def settleDebugLine (asCode : Bool) (line : Line) : Line :=
  if line.indicator = .debug then
    if asCode then { line with indicator := .normal } else line.cleared
  else line

def debugLine (asCode : Bool) : Stage := eachLine "debug-line" (settleDebugLine asCode)

/-! ### Continuation lines

The first visible character of a continuation line follows the last visible
character of the continued text directly. A literal that is open there goes on
after the quote with which the continuation line repeats its opening. -/

/-- The continued text, then the text of one continuation line. -/
def join (head tail : List Char) : List Char :=
  let head := Text.trimEnd head
  let tail := Text.trim tail
  match openQuote head, tail with
  | some quote, first :: others => if first = quote then head ++ others else head ++ tail
  | _, _ => head ++ tail

def isCode (line : Line) : Bool := !line.isContinuation && !line.isComment && !line.isBlank

def orphan (uri : String) (line : Line) : Diagnostic :=
  .warning (line.location uri) Diagnostic.Code.orphanContinuation
    "Continuation line has no preceding line to continue"

/-- Joins lines one after the other. `settled` are the lines so far, and `code` is the place of the
one among them that is continued next. Besides the lines, the result has the continuation lines that
found nothing to continue. -/
def joinFrom (settled : Array Line) (code : Option Nat) : List Line → List Line × List Line
  | [] => (settled.toList, [])
  | line :: rest =>
      if line.isContinuation then
        match code with
        | none =>
            let others := joinFrom (settled.push line.cleared) none rest
            (others.1, line :: others.2)
        | some target =>
            let continued := settled.modify target fun head =>
              head.withContent (join head.content line.content)
            joinFrom (continued.push line.cleared) code rest
      else joinFrom (settled.push line) (if isCode line then some settled.size else code) rest

def continuation : Stage where
  name := "continuation"
  transform := fun uri lines =>
    let joined := joinFrom #[] none lines
    .ok ⟨joined.1, joined.2.map (orphan uri)⟩

end Stage

end CobolAnalysis.Source
