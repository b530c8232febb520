/-
Written paths.

A path is kept as it is written, since it is shown that way: its steps are the
texts between slashes, of which some name an entry, one leads to the enclosing
folder, and the others lead nowhere. Where a path leads is found in a tree of
files, step by step: every step is taken in a folder that exists, so a file or a
missing folder on the way ends it, also where a later step would come back.
-/

import CobolAnalysis.Provider.Folder

namespace CobolAnalysis.Provider

inductive Step where
  | blank
  | here
  | up
  | into (name : String)
  deriving DecidableEq, Inhabited

namespace Step

def ofText (text : String) : Step :=
  if text = "" then .blank
  else if text = "." then .here
  else if text = ".." then .up
  else .into text

def text : Step → String
  | blank => ""
  | here => "."
  | up => ".."
  | into name => name

/-- Where the step leads from a folder at `place`. What encloses the root is out of reach. -/
def after (place : Place) : Step → Option Place
  | blank => some place
  | here => some place
  | up => if place.isEmpty then none else some place.dropLast
  | into name => some (place ++ [name])

end Step

abbrev Path := List Step

namespace Path

/-! ### Writing -/

/-- The empty text has no steps at all. -/
def ofText (text : String) : Path :=
  if text = "" then [] else (text.splitOn "/").map Step.ofText

def shown (path : Path) : String := String.join (path.map fun step => "/" ++ step.text)

/-- The path of an entry of the folder at `path`; a slash that ends `path` is not doubled. -/
def enter (path : Path) (name : String) : Path :=
  (if path.getLast? = some .blank then path.dropLast else path) ++ [.into name]

/-- The path of what lies at `place` as seen from the folder at `path`. -/
def descend (path : Path) (place : Place) : Path := path ++ place.map .into

/-- A path that begins with a slash starts above every tree. -/
def isAbsolute (path : Path) : Bool := path.head? = some .blank

/-! ### Following -/

def follow (root : Folder) : Path → Place → Except ReadFailure Place
  | [], place => .ok place
  | step :: steps, place =>
      match root.at? place with
      | .error failure => .error failure
      | .ok (.file _) => .error .throughFile
      | .ok (.folder _) =>
          match step.after place with
          | none => .error .missing
          | some next => follow root steps next

def locate (path : Path) (root : Folder) : Except ReadFailure Place :=
  if path.isAbsolute then .error .missing else follow root path []

def folder? (path : Path) (root : Folder) : Option Folder :=
  match path.locate root with
  | .error _ => none
  | .ok place =>
      match root.at? place with
      | .ok (.folder entries) => some entries
      | _ => none

def read (path : Path) (root : Folder) : Except ReadFailure (List UInt8) :=
  match path.locate root with
  | .error failure => .error failure
  | .ok place => root.read place

/-! ### Changing the tree -/

/-- The tree changed at the place where the path leads, if it leads anywhere. -/
def changing (path : Path) (change : Place → Folder → Folder) (root : Folder) : Folder :=
  match path.locate root with
  | .error _ => root
  | .ok place => change place root

/-- The folders that `steps` lead to after the path `before`, made one after another. -/
def makeFoldersAfter (before : Path) : Path → Folder → Folder
  | [], root => root
  | step :: steps, root =>
      makeFoldersAfter (before ++ [step]) steps
        (changing (before ++ [step]) Folder.makeFolder root)

/-- Every folder on the way is made if it is missing. -/
def makeFolders (path : Path) (root : Folder) : Folder := makeFoldersAfter [] path root

/-- Makes the folders on the way. A path that does not end in a name is that of no file. -/
def write (path : Path) (bytes : List UInt8) (root : Folder) : Folder :=
  match path.getLast? with
  | some (.into _) =>
      path.changing (fun place folder => folder.write place bytes)
        (makeFolders path.dropLast root)
  | _ => root

def erase (path : Path) (root : Folder) : Folder := path.changing Folder.erase root

end Path

end CobolAnalysis.Provider
