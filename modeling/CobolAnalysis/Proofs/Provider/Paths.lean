/-
Paths and the trees they lead through.

What is written or erased under a path leaves a tree in order. A path that leads to a folder,
with the steps to a file of that folder after it, is that file's path.
-/

import CobolAnalysis.Proofs.Provider.Trees

namespace CobolAnalysis.Provider.Path

variable {path : Path} {root entries : Folder} {place : Place} {bytes : List UInt8}

theorem ordered_changing {alter : Place → Folder → Folder} (ordered : root.Ordered)
    (keeps : ∀ place, (alter place root).Ordered) : (path.changing alter root).Ordered := by
  unfold changing
  split
  next => exact ordered
  next => exact keeps _

theorem ordered_makeFolders (path : Path) (ordered : root.Ordered) :
    (path.makeFolders root).Ordered := by
  suffices after : ∀ before, (makeFoldersAfter before path root).Ordered from after []
  intro before
  induction path generalizing before root with
  | nil => exact ordered
  | cons step steps ih => exact ih (ordered_changing ordered ordered.makeFolder) _

theorem ordered_write (path : Path) (ordered : root.Ordered) (bytes : List UInt8) :
    (path.write bytes root).Ordered := by
  unfold write
  split
  next =>
    have made := ordered_makeFolders path.dropLast ordered
    exact ordered_changing made fun place => made.write place bytes
  next => exact ordered

theorem ordered_erase (path : Path) (ordered : root.Ordered) : (path.erase root).Ordered :=
  ordered_changing ordered ordered.erase

theorem locate_of_folder? (found : path.folder? root = some entries) :
    ∃ place, path.locate root = .ok place ∧ root.at? place = .ok (.folder entries) := by
  unfold folder? at found
  split at found
  next => cases found
  next place located =>
    split at found
    next inner reached =>
      cases found
      exact ⟨place, located, reached⟩
    next => cases found

theorem follow_append {first : Path} {start middle : Place}
    (reached : follow root first start = .ok middle) (second : Path) :
    follow root (first ++ second) start = follow root second middle := by
  induction first generalizing start with
  | nil =>
      cases reached
      rfl
  | cons step steps ih =>
      rw [follow] at reached
      rw [List.cons_append, follow]
      split at reached
      next => cases reached
      next => cases reached
      next inner there =>
        split at reached
        next => cases reached
        next next leads => exact ih reached

theorem follow_into {start : Place} (here : root.at? start = .ok (.folder entries))
    (found : entries.at? place = .ok (.file bytes)) :
    follow root (place.map .into) start = .ok (start ++ place) := by
  induction place generalizing start entries with
  | nil => exact congrArg Except.ok (List.append_nil start).symm
  | cons name below ih =>
      rw [Folder.at?_cons] at found
      split at found
      next => cases found
      next held there =>
        have step : follow root ((name :: below).map .into) start =
            follow root (below.map .into) (start ++ [name]) := by
          rw [List.map_cons, follow, here]
          rfl
        refine step.trans (Eq.trans ?_ (congrArg _ (List.append_cons start name below).symm))
        cases held with
        | folder inner =>
            refine ih ?_ found
            rw [Folder.at?_append here, Folder.at?_cons, there]
            exact inner.at?_nil
        | file held =>
            obtain ⟨rfl, _⟩ := (Entry.at?_file_eq_ok_iff held below _).mp found
            exact congrArg Except.ok (List.append_nil _).symm

theorem isAbsolute_descend (path : Path) (place : Place) :
    (path.descend place).isAbsolute = path.isAbsolute := by
  cases path with
  | cons step steps => rfl
  | nil =>
      cases place with
      | nil => rfl
      | cons name below => rfl

theorem read_descend (home : path.folder? root = some entries)
    (found : entries.at? place = .ok (.file bytes)) :
    (path.descend place).read root = .ok bytes := by
  obtain ⟨start, located, here⟩ := locate_of_folder? home
  have reached : (path.descend place).locate root = .ok (start ++ place) := by
    unfold locate at located ⊢
    rw [isAbsolute_descend]
    split at located
    next => cases located
    next relative =>
      exact (if_neg relative).trans ((follow_append located _).trans (follow_into here found))
  unfold read Folder.read
  rw [reached]
  dsimp only
  rw [Folder.at?_append here, found]

end CobolAnalysis.Provider.Path
