/-
Stages and parsers for trying out what happens when a component misbehaves.
-/

import CobolAnalysis.Parse.Document
import CobolAnalysis.Source.Pipeline

namespace CobolAnalysis.Scenario

open Source (Line Stage)

/-- Returns one line too few. -/
def dropLast : Stage where
  name := "drop-last"
  transform := fun _ lines => .ok (.clean lines.dropLast)

def duplicateFirst : Stage where
  name := "duplicate-first"
  transform := fun _ lines => .ok (.clean (lines.head?.toList ++ lines))

def capitals : Stage :=
  .eachLine "upper" fun line => line.withContent (Text.upper line.content)

def warnAlways : Stage where
  name := "warn"
  transform := fun uri lines =>
    .ok ⟨lines, lines.map fun line => ⟨line.location uri, .warning, none, "warn", []⟩⟩

def failAlways (message : String) : Stage where
  name := "fail"
  transform := fun _ _ => .error (.stage "fail" message)

/-- The standard parser, except that it gives up on documents with one of the endings. -/
def refusing (endings : List String) : Parse.Parser := fun uri text format options =>
  if endings.any fun ending => ending.toList.isSuffixOf uri.toList then .error (.aborted uri "unsupported construct")
  else Parse.standard uri text format options

end CobolAnalysis.Scenario
