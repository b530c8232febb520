/-
File names and the copybooks they stand for.

The extension of a file name is what follows its last period, unless nothing
comes before that period: a leading period belongs to the stem. Files with a
copybook extension in any letter case, and files without one, hold copybooks;
the copybook is named by the stem, where that is a valid name.
-/

import CobolAnalysis.LogicalName

namespace CobolAnalysis.Provider.FileName

def splitAtLastPeriod (name : List Char) : Option (List Char × List Char) :=
  let reversed := name.reverse
  match reversed.dropWhile (· != '.') with
  | [] => none
  | _ :: before => some (before.reverse, (reversed.takeWhile (· != '.')).reverse)

def parts (name : List Char) : List Char × Option (List Char) :=
  match splitAtLastPeriod name with
  | none => (name, none)
  | some (before, after) => if before.isEmpty then (name, none) else (before, some after)

def stem (name : List Char) : List Char := (parts name).1

def extension? (name : List Char) : Option (List Char) := (parts name).2

def copybookExtensions : List String := ["cpy", "copy", "cbl", "cob"]

def holdsCopybook (name : List Char) : Bool :=
  match extension? name with
  | none => true
  | some extension =>
      copybookExtensions.any fun known => Text.sameLetters extension known.toList

def copybook? (name : List Char) : Option LogicalName :=
  if holdsCopybook name then (LogicalName.parse (stem name)).toOption else none

end CobolAnalysis.Provider.FileName
