/-
Trees of files.

The entries of a folder are kept in increasing order of their names, and a walk
visits them in that order, the contents of a folder where its name stands. A
place is the list of names that leads to it from the root of the tree down.
-/

namespace CobolAnalysis.Provider

abbrev Place := List String

inductive Folder where
  | empty
  | file (name : String) (bytes : List UInt8) (rest : Folder)
  | folder (name : String) (entries rest : Folder)
  deriving Inhabited

inductive Entry where
  | file (bytes : List UInt8)
  | folder (entries : Folder)

inductive ReadFailure where
  | missing
  | isFolder
  /-- There is a file where a folder is needed to go on. -/
  | throughFile
  deriving DecidableEq

namespace ReadFailure

def message : ReadFailure → String
  | missing => "No such file or directory (os error 2)"
  | isFolder => "Is a directory (os error 21)"
  | throughFile => "Not a directory (os error 20)"

end ReadFailure

namespace Folder

/-! ### Looking -/

def entry? (name : String) : Folder → Option Entry
  | empty => none
  | file other bytes rest => if other = name then some (.file bytes) else entry? name rest
  | folder other entries rest => if other = name then some (.folder entries) else entry? name rest

def at? : Place → Folder → Except ReadFailure Entry
  | [], root => .ok (.folder root)
  | name :: below, root =>
      match root.entry? name with
      | none => .error .missing
      | some (.folder entries) => at? below entries
      | some (.file bytes) => if below.isEmpty then .ok (.file bytes) else .error .throughFile

def read (place : Place) (root : Folder) : Except ReadFailure (List UInt8) :=
  match root.at? place with
  | .ok (.file bytes) => .ok bytes
  | .ok (.folder _) => .error .isFolder
  | .error failure => .error failure

/-- The files at most `depth` levels below, each with the names that lead to it after
`parents`, in the order of a walk. -/
def files (depth : Nat) (parents : Place) : Folder → List Place
  | empty => []
  | file name _ rest =>
      (if depth = 0 then [] else [parents ++ [name]]) ++ files depth parents rest
  | folder name entries rest =>
      (if depth = 0 then [] else files (depth - 1) (parents ++ [name]) entries) ++
        files depth parents rest

/-! ### Changing -/

def withEntry (name : String) (entry : Option Entry) (rest : Folder) : Folder :=
  match entry with
  | none => rest
  | some (.file bytes) => .file name bytes rest
  | some (.folder entries) => .folder name entries rest

/-- The entry of that name replaced by what `change` makes of it, or of its absence. -/
def alter (name : String) (change : Option Entry → Option Entry) : Folder → Folder
  | empty => withEntry name (change none) empty
  | file other bytes rest =>
      if name < other then withEntry name (change none) (.file other bytes rest)
      else if other = name then withEntry name (change (some (.file bytes))) rest
      else .file other bytes (alter name change rest)
  | folder other entries rest =>
      if name < other then withEntry name (change none) (.folder other entries rest)
      else if other = name then withEntry name (change (some (.folder entries))) rest
      else .folder other entries (alter name change rest)

/-- As `alter`, in the folder at `parents`. Nothing changes where there is no such folder. -/
def alterAt (name : String) (change : Option Entry → Option Entry) : Place → Folder → Folder
  | [], root => root.alter name change
  | parent :: below, root =>
      root.alter parent fun entry =>
        match entry with
        | some (.folder entries) => some (.folder (alterAt name change below entries))
        | other => other

/-- As `alterAt`, the last name of the place being that of the entry. -/
def change (place : Place) (change : Option Entry → Option Entry) (root : Folder) : Folder :=
  match place.reverse with
  | [] => root
  | name :: parents => alterAt name change parents.reverse root

/-- A folder is not overwritten by a file. -/
def write (place : Place) (bytes : List UInt8) (root : Folder) : Folder :=
  root.change place fun entry =>
    match entry with
    | some (.folder entries) => some (.folder entries)
    | _ => some (.file bytes)

/-- Nothing happens if there is something at `place` already. -/
def makeFolder (place : Place) (root : Folder) : Folder :=
  root.change place fun entry => some (entry.getD (.folder empty))

/-- With everything below; the root itself stays and is empty. -/
def erase (place : Place) (root : Folder) : Folder :=
  if place.isEmpty then empty else root.change place fun _ => none

end Folder

end CobolAnalysis.Provider
