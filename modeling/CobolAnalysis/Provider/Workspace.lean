/-
Copybooks in the files of a workspace.

Each workspace folder may have a folder of copybooks. A scan indexes what it
finds there by name, the first file of a name winning over later ones, and
replaces any earlier index. Files are read anew for every request, so a file may
have changed or gone since it was indexed.
-/

import CobolAnalysis.Bus.Procedure
import CobolAnalysis.Provider.FileName
import CobolAnalysis.Provider.Path
import CobolAnalysis.Table
import CobolAnalysis.Text.Utf8

namespace CobolAnalysis.Provider

def fileUri (path : String) : String :=
  let slashed := String.ofList (path.toList.map fun character =>
    if character = '\\' then '/' else character)
  if slashed.toList.head? = some '/' then "file://" ++ slashed else "file:///" ++ slashed

structure Workspace where
  root : String
  files : Folder
  index : Table LogicalName Path
  deriving Inhabited

namespace Workspace

def empty (root : String) : Workspace := ⟨root, .empty, .empty⟩

/-! ### The index -/

def copybookFolder : String := "COPYBOOKS"

/-- How far below its copybook folder a file is still found. -/
def searchDepth : Nat := 100

def copybookAt? (place : Place) : Option LogicalName :=
  place.getLast?.bind fun name => FileName.copybook? name.toList

/-- All copybook files of one workspace folder, in the order of a walk. -/
def candidates (files : Folder) (folder : Path) : List (LogicalName × Path) :=
  let home := folder.enter copybookFolder
  match home.folder? files with
  | none => []
  | some entries =>
      (entries.files searchDepth []).filterMap fun place =>
        (copybookAt? place).map fun name => (name, home.descend place)

def firstOfEach (found : List (LogicalName × Path)) : Table LogicalName Path :=
  found.foldl (fun index entry => index.alter entry.1 fun kept => kept.getD entry.2) .empty

def scan (workspace : Workspace) (folders : List Path) : Workspace :=
  { workspace with index := firstOfEach (folders.flatMap (candidates workspace.files)) }

def size (workspace : Workspace) : Nat := workspace.index.size

/-! ### Reading -/

def display (workspace : Workspace) (path : Path) : String := workspace.root ++ path.shown

def pathOf? (workspace : Workspace) (name : LogicalName) : Option Path :=
  workspace.index.get? name

structure Loaded where
  content : List Char
  path : Path

structure LoadFailure where
  path : Path
  reason : ReadFailure

def failureMessage (workspace : Workspace) (failure : LoadFailure) : String :=
  "failed to read copybook " ++ workspace.display failure.path ++ ": " ++ failure.reason.message

/-- Nothing for a name that is not indexed. -/
def load (workspace : Workspace) (name : LogicalName) : Except LoadFailure (Option Loaded) :=
  match workspace.pathOf? name with
  | none => .ok none
  | some path =>
      match path.read workspace.files with
      | .ok bytes => .ok (some ⟨Text.Utf8.decode bytes, path⟩)
      | .error reason => .error ⟨path, reason⟩

/-- A copybook that cannot be read counts as missing. -/
def fetch (workspace : Workspace) (name : LogicalName) : FetchResult :=
  match workspace.load name with
  | .ok (some loaded) =>
      (FetchResult.located name loaded.content).withUri (fileUri (workspace.display loaded.path))
  | _ => .missing name

def respond : Observer Workspace := fun _ event =>
  match event with
  | .fetch _ => .done
  | .scan name => .read fun workspace => .publish (.fetch (workspace.fetch name)) .done

/-! ### Changing files -/

def write (workspace : Workspace) (path : Path) (bytes : List UInt8) : Workspace :=
  { workspace with files := path.write bytes workspace.files }

def makeFolder (workspace : Workspace) (path : Path) : Workspace :=
  { workspace with files := path.makeFolders workspace.files }

def erase (workspace : Workspace) (path : Path) : Workspace :=
  { workspace with files := path.erase workspace.files }

end Workspace

end CobolAnalysis.Provider
