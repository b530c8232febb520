/-
The index of a workspace: the first file of each name.

A scan goes through the workspace folders in their order, and through the copybook folder of
each in the order of the places. The first file that holds a copybook is the one that is indexed
for its name, whatever was indexed before, and it is the one that requests are answered from.
-/

import CobolAnalysis.Proofs.Provider.FileNames
import CobolAnalysis.Proofs.Provider.Paths
import CobolAnalysis.Proofs.Tables
import CobolAnalysis.Provider.Workspace

namespace CobolAnalysis.Provider.Workspace

variable {files : Folder} {folder : Path} {folders : List Path} {place : Place} {path : Path}
  {name : LogicalName}

/-! ### Workspaces in order -/

/-- What becomes of a workspace by changes of its files and by scans, in any order. -/
inductive Reached : Workspace → Prop where
  | empty (root : String) : Reached (.empty root)
  | write {workspace : Workspace} (reached : Reached workspace) (path : Path)
      (bytes : List UInt8) : Reached (workspace.write path bytes)
  | makeFolder {workspace : Workspace} (reached : Reached workspace) (path : Path) :
      Reached (workspace.makeFolder path)
  | erase {workspace : Workspace} (reached : Reached workspace) (path : Path) :
      Reached (workspace.erase path)
  | scan {workspace : Workspace} (reached : Reached workspace) (folders : List Path) :
      Reached (workspace.scan folders)

theorem Reached.ordered {workspace : Workspace} (reached : workspace.Reached) :
    workspace.files.Ordered := by
  induction reached with
  | empty root => trivial
  | write reached path bytes ih => exact Path.ordered_write path ih bytes
  | makeFolder reached path ih => exact Path.ordered_makeFolders path ih
  | erase reached path ih => exact Path.ordered_erase path ih
  | scan reached folders ih => exact ih

/-! ### The first of each name -/

theorem get?_firstOfEach (found : List (LogicalName × Path)) (name : LogicalName) :
    (firstOfEach found).get? name = Table.lookup found name := by
  suffices further : ∀ index : Table LogicalName Path,
      (found.foldl (fun index entry => index.alter entry.1 fun kept => kept.getD entry.2)
        index).get? name = (index.get? name).or (Table.lookup found name) from further .empty
  induction found with
  | nil => exact fun index => (Option.or_none).symm
  | cons entry rest ih =>
      intro index
      rw [List.foldl_cons, ih, Table.get?_alter, Table.lookup_cons]
      by_cases same : name = entry.1
      · rw [if_pos same, if_pos same.symm, same]
        cases index.get? entry.1 with
        | none => rfl
        | some kept => rfl
      · rw [if_neg same, if_neg (Ne.symm same)]

theorem find?_eq_some_iff_least {places : List Place} (sorted : places.Pairwise (· < ·))
    (test : Place → Bool) (place : Place) :
    places.find? test = some place ↔
      place ∈ places ∧ test place = true ∧ ∀ other ∈ places, test other = true → place ≤ other := by
  have least : ∀ first, places.find? test = some first →
      first ∈ places ∧ test first = true ∧
        ∀ other ∈ places, test other = true → first ≤ other := by
    intro first found
    obtain ⟨passes, before, after, rfl, failing⟩ := List.find?_eq_some_iff_append.mp found
    refine ⟨List.mem_append_right _ List.mem_cons_self, passes, fun other member holds => ?_⟩
    rcases List.mem_append.mp member with earlier | here
    · have fails := failing other earlier
      rw [holds] at fails
      cases fails
    · rcases List.mem_cons.mp here with rfl | later
      · exact le_refl other
      · have below := (List.pairwise_append.mp sorted).2.1
        exact le_of_lt (List.rel_of_pairwise_cons below later)
  refine ⟨least place, ?_⟩
  rintro ⟨member, passes, minimal⟩
  cases found : places.find? test with
  | none => exact absurd passes (List.find?_eq_none.mp found place member)
  | some first =>
      obtain ⟨listed, holds, below⟩ := least first found
      exact congrArg some (le_antisymm (below place member passes) (minimal first listed holds))

/-! ### Copybook files -/

/-- At that place in the copybook folder of the workspace folder there is a file, not too far down,
that holds the copybook. -/
def Holds (files : Folder) (folder : Path) (place : Place) (name : LogicalName) : Prop :=
  ∃ entries bytes fileName, (folder.enter copybookFolder).folder? files = some entries ∧
    entries.at? place = .ok (.file bytes) ∧ place.length ≤ searchDepth ∧
    place.getLast? = some fileName ∧ FileName.Names fileName.toList name

/-- The path of the first file that holds the copybook, in the order of the folders and, within a
folder, in the order of the places. -/
def FirstMatch (files : Folder) (folders : List Path) (name : LogicalName) (path : Path) : Prop :=
  ∃ earlier folder later place, folders = earlier ++ folder :: later ∧
    path = (folder.enter copybookFolder).descend place ∧ Holds files folder place name ∧
    (∀ before ∈ earlier, ∀ other, ¬ Holds files before other name) ∧
    ∀ other, Holds files folder other name → place ≤ other

theorem copybookAt?_eq_some_iff (place : Place) (name : LogicalName) :
    copybookAt? place = some name ↔
      ∃ fileName, place.getLast? = some fileName ∧ FileName.Names fileName.toList name := by
  unfold copybookAt?
  rw [Option.bind_eq_some_iff]
  exact exists_congr fun _ => and_congr_right fun _ => FileName.copybook?_eq_some_iff _ _

theorem holds_iff_visited {entries : Folder} (ordered : files.Ordered)
    (home : (folder.enter copybookFolder).folder? files = some entries) (place : Place)
    (name : LogicalName) :
    Holds files folder place name ↔
      place ∈ entries.files searchDepth [] ∧ copybookAt? place = some name := by
  obtain ⟨start, _, reached⟩ := Path.locate_of_folder? home
  have inside : entries.Ordered := ordered.at? reached
  rw [inside.mem_files_iff, copybookAt?_eq_some_iff]
  constructor
  · rintro ⟨_, bytes, fileName, again, found, near, last, names⟩
    cases home.symm.trans again
    exact ⟨⟨near, bytes, found⟩, fileName, last, names⟩
  · rintro ⟨⟨near, bytes, found⟩, fileName, last, names⟩
    exact ⟨entries, bytes, fileName, home, found, near, last, names⟩

theorem candidates_of_missing (none : (folder.enter copybookFolder).folder? files = .none) :
    candidates files folder = [] := by
  unfold candidates
  dsimp only
  rw [none]

theorem lookup_candidates {entries : Folder}
    (home : (folder.enter copybookFolder).folder? files = some entries) (name : LogicalName) :
    Table.lookup (candidates files folder) name =
      ((entries.files searchDepth []).find? fun place => copybookAt? place = some name).map
        (folder.enter copybookFolder).descend := by
  unfold candidates
  dsimp only
  rw [home]
  exact Table.lookup_filterMap _ _ _ name

theorem not_holds_of_missing (none : (folder.enter copybookFolder).folder? files = .none)
    (place : Place) (name : LogicalName) : ¬ Holds files folder place name := by
  rintro ⟨entries, _, _, present, _⟩
  cases none.symm.trans present

theorem lookup_candidates_eq_some_iff (ordered : files.Ordered) (folder : Path)
    (name : LogicalName) (path : Path) :
    Table.lookup (candidates files folder) name = some path ↔
      ∃ place, path = (folder.enter copybookFolder).descend place ∧
        Holds files folder place name ∧
        ∀ other, Holds files folder other name → place ≤ other := by
  cases home : (folder.enter copybookFolder).folder? files with
  | none =>
      rw [candidates_of_missing home]
      refine iff_of_false nofun ?_
      rintro ⟨place, _, holds, _⟩
      exact not_holds_of_missing home place name holds
  | some entries =>
      obtain ⟨start, _, reached⟩ := Path.locate_of_folder? home
      have inside : entries.Ordered := ordered.at? reached
      rw [lookup_candidates home, Option.map_eq_some_iff]
      refine exists_congr fun place => ?_
      rw [find?_eq_some_iff_least (inside.files_sorted searchDepth)]
      simp only [decide_eq_true_eq, holds_iff_visited ordered home, and_imp]
      constructor
      · rintro ⟨⟨listed, named, least⟩, rfl⟩
        exact ⟨rfl, ⟨listed, named⟩, least⟩
      · rintro ⟨rfl, ⟨listed, named⟩, least⟩
        exact ⟨⟨listed, named, least⟩, rfl⟩

theorem lookup_candidates_eq_none_iff (ordered : files.Ordered) (folder : Path)
    (name : LogicalName) :
    Table.lookup (candidates files folder) name = none ↔
      ∀ place, ¬ Holds files folder place name := by
  cases home : (folder.enter copybookFolder).folder? files with
  | none =>
      rw [candidates_of_missing home]
      exact iff_of_true rfl fun place => not_holds_of_missing home place name
  | some entries =>
      rw [lookup_candidates home, Option.map_eq_none_iff, List.find?_eq_none]
      simp only [decide_eq_true_eq, holds_iff_visited ordered home, not_and]

theorem pathOf?_scan (workspace : Workspace) (folders : List Path) (name : LogicalName) :
    (workspace.scan folders).pathOf? name =
      folders.findSome? fun folder => Table.lookup (candidates workspace.files folder) name :=
  (get?_firstOfEach _ name).trans (Table.lookup_flatMap folders _ name)

theorem pathOf?_scan_eq_some_iff {workspace : Workspace} (ordered : workspace.files.Ordered)
    (folders : List Path) (name : LogicalName) (path : Path) :
    (workspace.scan folders).pathOf? name = some path ↔
      FirstMatch workspace.files folders name path := by
  rw [pathOf?_scan, List.findSome?_eq_some_iff]
  simp only [lookup_candidates_eq_some_iff ordered, lookup_candidates_eq_none_iff ordered]
  constructor
  · rintro ⟨earlier, folder, later, rfl, ⟨place, rfl, holds, least⟩, before⟩
    exact ⟨earlier, folder, later, place, rfl, rfl, holds, before, least⟩
  · rintro ⟨earlier, folder, later, place, rfl, rfl, holds, before, least⟩
    exact ⟨earlier, folder, later, rfl, ⟨place, rfl, holds, least⟩, before⟩

theorem pathOf?_scan_eq_none_iff {workspace : Workspace} (ordered : workspace.files.Ordered)
    (folders : List Path) (name : LogicalName) :
    (workspace.scan folders).pathOf? name = none ↔
      ∀ folder ∈ folders, ∀ place, ¬ Holds workspace.files folder place name := by
  rw [pathOf?_scan, List.findSome?_eq_none_iff]
  exact forall₂_congr fun folder _ => lookup_candidates_eq_none_iff ordered folder name

theorem mem_keys_scan {workspace : Workspace} (ordered : workspace.files.Ordered)
    (folders : List Path) (name : LogicalName) :
    name ∈ (workspace.scan folders).index.keys ↔
      ∃ folder ∈ folders, ∃ place, Holds workspace.files folder place name := by
  rw [← Table.contains_iff]
  refine Option.isSome_iff_ne_none.trans
    ((not_congr (pathOf?_scan_eq_none_iff ordered folders name)).trans ?_)
  simp only [not_forall, not_not, exists_prop]

/-! ### Reading -/

theorem FirstMatch.readable (first : FirstMatch files folders name path) :
    ∃ bytes, path.read files = .ok bytes := by
  obtain ⟨_, folder, _, place, _, rfl, ⟨entries, bytes, _, home, found, _⟩, _⟩ := first
  exact ⟨bytes, Path.read_descend home found⟩

theorem fetch_of_read (workspace : Workspace) {bytes : List UInt8}
    (indexed : workspace.pathOf? name = some path) (read : path.read workspace.files = .ok bytes) :
    workspace.fetch name = (FetchResult.located name (Text.Utf8.decode bytes)).withUri
      (fileUri (workspace.display path)) := by
  unfold fetch load
  rw [indexed]
  dsimp only
  rw [read]

theorem fetch_of_unreadable (workspace : Workspace) {failure : ReadFailure}
    (indexed : workspace.pathOf? name = some path)
    (unread : path.read workspace.files = .error failure) :
    workspace.fetch name = .missing name := by
  unfold fetch load
  rw [indexed]
  dsimp only
  rw [unread]

theorem fetch_of_unindexed (workspace : Workspace) (none : workspace.pathOf? name = none) :
    workspace.fetch name = .missing name := by
  unfold fetch load
  rw [none]

/-- What a scan of the folders makes of the workspace, and how requests are answered then, at once
or after the files have changed. -/
structure IndexesFirst (workspace : Workspace) (folders : List Path) : Prop where
  indexed : ∀ name path, (workspace.scan folders).pathOf? name = some path ↔
    FirstMatch workspace.files folders name path
  counted : ∃ names : List LogicalName, names.Nodup ∧
    (∀ name, name ∈ names ↔
      ∃ folder ∈ folders, ∃ place, Holds workspace.files folder place name) ∧
    (workspace.scan folders).size = names.length
  afresh : ∀ index, Workspace.scan { workspace with index := index } folders =
    workspace.scan folders
  readable : ∀ name path, FirstMatch workspace.files folders name path →
    ∃ bytes, path.read workspace.files = .ok bytes
  found : ∀ files name path bytes, FirstMatch workspace.files folders name path →
    path.read files = .ok bytes →
      Workspace.fetch { workspace.scan folders with files := files } name =
        (FetchResult.located name (Text.Utf8.decode bytes)).withUri
          (fileUri (workspace.display path))
  unreadable : ∀ files name path failure, FirstMatch workspace.files folders name path →
    path.read files = .error failure →
      Workspace.fetch { workspace.scan folders with files := files } name = .missing name
  missing : ∀ files name,
    (∀ folder ∈ folders, ∀ place, ¬ Holds workspace.files folder place name) →
      Workspace.fetch { workspace.scan folders with files := files } name = .missing name

theorem scan_indexes_first {workspace : Workspace} (ordered : workspace.files.Ordered)
    (folders : List Path) : workspace.IndexesFirst folders := by
  have indexed := pathOf?_scan_eq_some_iff ordered folders
  exact {
    indexed
    counted := ⟨(workspace.scan folders).index.keys, (workspace.scan folders).index.distinct,
      mem_keys_scan ordered folders, (List.length_map _).symm⟩
    afresh := fun index => rfl
    readable := fun name path first => first.readable
    found := fun files name path bytes first read =>
      fetch_of_read { workspace.scan folders with files := files }
        ((indexed name path).mpr first) read
    unreadable := fun files name path failure first unread =>
      fetch_of_unreadable { workspace.scan folders with files := files }
        ((indexed name path).mpr first) unread
    missing := fun files name none =>
      fetch_of_unindexed { workspace.scan folders with files := files }
        ((pathOf?_scan_eq_none_iff ordered folders name).mpr none) }

section Sample

def shelved : Workspace :=
  let shelf (folder : String) : Path := [.into folder, .into copybookFolder]
  ((((((Workspace.empty "/w").write (shelf "a" ++ [.into "old", .into "CUST.CBL"]) [65]).write
    (shelf "a" ++ [.into "zip.Cpy"]) [66]).write
    (shelf "a" ++ [.into "notes.txt"]) [67]).write
    (shelf "b" ++ [.into "cust"]) [68]).write
    (shelf "b" ++ [.into "Zip.copy"]) [69])

theorem shelved_indexes_first :
    shelved.files.Ordered ∧ shelved.IndexesFirst [[.into "b"], [.into "a"], [.into "b"]] ∧
      (shelved.scan [[.into "b"], [.into "a"], [.into "b"]]).size = 2 ∧
      FirstMatch shelved.files [[.into "b"], [.into "a"], [.into "b"]] ⟨['C', 'U', 'S', 'T']⟩
        [.into "b", .into "COPYBOOKS", .into "cust"] ∧
      (shelved.scan [[.into "b"], [.into "a"], [.into "b"]]).fetch ⟨['C', 'U', 'S', 'T']⟩ =
        ⟨⟨['C', 'U', 'S', 'T']⟩, some ['D'], true, some "file:///w/b/COPYBOOKS/cust"⟩ := by
  have ordered : shelved.files.Ordered :=
    (((((Reached.empty "/w").write _ _).write _ _).write _ _).write _ _).write _ _ |>.ordered
  have first := scan_indexes_first ordered [[.into "b"], [.into "a"], [.into "b"]]
  have found : FirstMatch shelved.files [[.into "b"], [.into "a"], [.into "b"]]
      ⟨['C', 'U', 'S', 'T']⟩ [.into "b", .into "COPYBOOKS", .into "cust"] :=
    (first.indexed _ _).mp (by decide +kernel)
  refine ⟨ordered, first, by decide +kernel, found, ?_⟩
  have answered := first.found shelved.files _ _ [68] found (by decide +kernel)
  exact answered.trans (by decide +kernel)

end Sample

end CobolAnalysis.Provider.Workspace
