/-
Trees of files in order.

The names of a folder increase strictly, and so do those of all folders below it; no change
of a tree disturbs that. A walk through such a tree visits exactly the files that can be reached
by their places, up to its depth, in the lexicographic order of the places.
-/

import CobolAnalysis.Provider.Path
import Mathlib.Data.String.Basic
import Mathlib.Order.Basic
import Mathlib.Data.List.Lex

namespace CobolAnalysis.Provider

namespace Folder

def names : Folder → List String
  | empty => []
  | file name _ rest => name :: rest.names
  | folder name _ rest => name :: rest.names

def Ordered : Folder → Prop
  | empty => True
  | file name _ rest => (∀ later ∈ rest.names, name < later) ∧ rest.Ordered
  | folder name entries rest =>
      (∀ later ∈ rest.names, name < later) ∧ entries.Ordered ∧ rest.Ordered

end Folder

namespace Entry

def Ordered : Entry → Prop
  | file _ => True
  | folder entries => entries.Ordered

def at? (below : Place) : Entry → Except ReadFailure Entry
  | file bytes => if below.isEmpty then .ok (.file bytes) else .error .throughFile
  | folder entries => entries.at? below

def files (depth : Nat) : Entry → List Place
  | file _ => [[]]
  | folder entries => entries.files depth []

end Entry

namespace Folder

variable {root rest entries : Folder} {entry : Entry} {name : String} {place : Place}
  {revise : Option Entry → Option Entry}

/-! ### One entry after the other -/

/-- A folder is empty, or has a first entry, in which there may be another folder. -/
@[elab_as_elim]
theorem entries_induction {motive : Folder → Prop} (empty : motive .empty)
    (entry : ∀ name entry rest, (∀ entries, entry = .folder entries → motive entries) →
      motive rest → motive (withEntry name (some entry) rest)) :
    ∀ root, motive root := by
  intro root
  induction root with
  | empty => exact empty
  | file name bytes rest ih => exact entry name (.file bytes) rest (fun _ same => nomatch same) ih
  | folder name entries rest ihEntries ih =>
      refine entry name (.folder entries) rest ?_ ih
      rintro _ ⟨⟩
      exact ihEntries

theorem names_withEntry (name : String) (entry : Entry) (rest : Folder) :
    (withEntry name (some entry) rest).names = name :: rest.names := by
  cases entry with
  | file bytes => rfl
  | folder entries => rfl

theorem ordered_withEntry (name : String) (entry : Entry) (rest : Folder) :
    (withEntry name (some entry) rest).Ordered ↔
      (∀ later ∈ rest.names, name < later) ∧ entry.Ordered ∧ rest.Ordered := by
  cases entry with
  | file bytes => exact and_congr_right fun _ => (iff_of_eq (true_and _)).symm
  | folder entries => exact Iff.rfl

theorem held_withEntry (sought name : String) (entry : Entry) (rest : Folder) :
    entry? sought (withEntry name (some entry) rest) =
      if name = sought then some entry else rest.entry? sought := by
  cases entry with
  | file bytes => rfl
  | folder entries => rfl

theorem at?_nil (root : Folder) : root.at? [] = .ok (.folder root) := by
  cases root with
  | empty => rfl
  | file name bytes rest => rfl
  | folder name entries rest => rfl

theorem at?_cons (name : String) (below : Place) (root : Folder) :
    root.at? (name :: below) =
      match root.entry? name with
      | none => .error .missing
      | some entry => entry.at? below := by
  rw [at?.eq_def]
  dsimp only
  cases root.entry? name with
  | none => rfl
  | some entry =>
      cases entry with
      | file bytes => rfl
      | folder entries => rfl

theorem alter_withEntry (sought name : String) (entry : Entry) (rest : Folder) :
    (withEntry name (some entry) rest).alter sought revise =
      if sought < name then withEntry sought (revise none) (withEntry name (some entry) rest)
      else if name = sought then withEntry sought (revise (some entry)) rest
      else withEntry name (some entry) (rest.alter sought revise) := by
  cases entry with
  | file bytes => rfl
  | folder entries => rfl

theorem files_parents (depth : Nat) (parents : Place) (root : Folder) :
    root.files depth parents = (root.files depth []).map (parents ++ ·) := by
  induction root generalizing depth parents with
  | empty => rfl
  | file name bytes rest ih =>
      rw [files, files, ih depth parents, List.map_append]
      split
      · rfl
      · rfl
  | folder name entries rest ihEntries ih =>
      rw [files, files, ih depth parents, List.map_append]
      split
      · rfl
      · rw [ihEntries _ (parents ++ [name]), ihEntries _ ([] ++ [name]), List.map_map]
        refine congrArg (· ++ _) (List.map_congr_left fun place _ => ?_)
        exact List.append_assoc _ _ _

theorem files_zero (root : Folder) : root.files 0 [] = [] := by
  induction root with
  | empty => rfl
  | file name bytes rest ih => exact ih
  | folder name entries rest _ ih => exact ih

theorem files_succ (depth : Nat) (name : String) (entry : Entry) (rest : Folder) :
    (withEntry name (some entry) rest).files (depth + 1) [] =
      (entry.files depth).map (name :: ·) ++ rest.files (depth + 1) [] := by
  cases entry with
  | file bytes => rfl
  | folder entries => exact congrArg (· ++ _) (files_parents depth [name] entries)

theorem nothing_held (absent : name ∉ root.names) : root.entry? name = none := by
  induction root using entries_induction with
  | empty => rfl
  | entry first entry rest _ ih =>
      rw [names_withEntry, List.mem_cons, not_or] at absent
      rw [held_withEntry, if_neg (Ne.symm absent.1)]
      exact ih absent.2

end Folder

theorem Entry.at?_file_eq_ok_iff (bytes : List UInt8) (below : Place) (found : Entry) :
    (Entry.file bytes).at? below = .ok found ↔ below = [] ∧ Entry.file bytes = found := by
  cases below with
  | nil => simp [Entry.at?]
  | cons name more => simp [Entry.at?]

namespace Folder

variable {root rest entries : Folder} {entry : Entry} {name : String} {place : Place}
  {revise : Option Entry → Option Entry}

/-! ### Changes keep the order -/

/-- What is in order becomes something that is in order, or nothing. -/
def Keeps (revise : Option Entry → Option Entry) : Prop :=
  ∀ held : Option Entry, (∀ entry ∈ held, entry.Ordered) → ∀ made ∈ revise held, made.Ordered

theorem Ordered.withEntry {made : Option Entry} (ordered : rest.Ordered)
    (first : ∀ later ∈ rest.names, name < later) (inside : ∀ entry ∈ made, entry.Ordered) :
    (withEntry name made rest).Ordered := by
  cases made with
  | none => exact ordered
  | some entry => exact (ordered_withEntry name entry rest).mpr ⟨first, inside entry rfl, ordered⟩

theorem mem_names_withEntry {made : Option Entry} {sought : String}
    (member : sought ∈ (Folder.withEntry name made rest).names) :
    sought = name ∨ sought ∈ rest.names := by
  cases made with
  | none => exact Or.inr member
  | some entry =>
      rw [names_withEntry] at member
      exact List.mem_cons.mp member

theorem mem_names_alter {sought : String} (member : sought ∈ (root.alter name revise).names) :
    sought = name ∨ sought ∈ root.names := by
  induction root using entries_induction with
  | empty => exact mem_names_withEntry member
  | entry first entry rest _ ih =>
      rw [alter_withEntry] at member
      rw [names_withEntry, List.mem_cons]
      split at member
      next =>
        exact (mem_names_withEntry member).imp_right fun old => by
          rwa [names_withEntry, List.mem_cons] at old
      next =>
        split at member
        next => exact (mem_names_withEntry member).imp_right Or.inr
        next =>
          rw [names_withEntry, List.mem_cons] at member
          rcases member with same | later
          · exact Or.inr (Or.inl same)
          · exact (ih later).imp_right Or.inr

theorem Ordered.alter (ordered : root.Ordered) (keeps : Keeps revise) :
    (root.alter name revise).Ordered := by
  have new : ∀ made ∈ revise none, made.Ordered := keeps none fun _ none => nomatch none
  induction root using entries_induction with
  | empty => exact Ordered.withEntry trivial (fun _ member => nomatch member) new
  | entry first entry rest _ ih =>
      obtain ⟨below, inside, others⟩ := (ordered_withEntry first entry rest).mp ordered
      rw [alter_withEntry]
      split
      next before =>
        refine ordered.withEntry (fun later member => ?_) new
        rw [names_withEntry, List.mem_cons] at member
        rcases member with rfl | behind
        · exact before
        · exact before.trans (below later behind)
      next notBefore =>
        split
        next same =>
          subst same
          exact others.withEntry below (keeps _ fun held same => Option.some.inj same ▸ inside)
        next different =>
          have after : first < name := lt_of_le_of_ne (not_lt.mp notBefore) different
          refine (ordered_withEntry _ _ _).mpr ⟨fun later member => ?_, inside, ih others⟩
          rcases mem_names_alter member with rfl | old
          · exact after
          · exact below later old

theorem Ordered.alterAt (ordered : root.Ordered) (keeps : Keeps revise) (parents : Place) :
    (root.alterAt name revise parents).Ordered := by
  induction parents generalizing root with
  | nil => exact ordered.alter keeps
  | cons parent below ih =>
      refine ordered.alter fun held inside made makes => ?_
      split at makes
      next entries =>
        cases makes
        exact ih (inside _ rfl)
      next => exact inside made makes

theorem Ordered.change (ordered : root.Ordered) (keeps : Keeps revise) (place : Place) :
    (root.change place revise).Ordered := by
  unfold Folder.change
  split
  next => exact ordered
  next => exact ordered.alterAt keeps _

theorem Ordered.write (ordered : root.Ordered) (place : Place) (bytes : List UInt8) :
    (root.write place bytes).Ordered := by
  refine ordered.change (fun held inside made makes => ?_) place
  split at makes
  next entries =>
    cases makes
    exact inside _ rfl
  next =>
    cases makes
    trivial

theorem Ordered.makeFolder (ordered : root.Ordered) (place : Place) :
    (root.makeFolder place).Ordered := by
  refine ordered.change (fun held inside made makes => ?_) place
  cases makes
  cases held with
  | none => trivial
  | some entry => exact inside entry rfl

theorem Ordered.erase (ordered : root.Ordered) (place : Place) : (root.erase place).Ordered := by
  unfold Folder.erase
  split
  · trivial
  · refine ordered.change (fun held _ made makes => ?_) place
    cases makes

/-! ### Places -/

theorem Ordered.held (ordered : root.Ordered) (found : root.entry? name = some entry) :
    entry.Ordered := by
  induction root using entries_induction with
  | empty => cases found
  | entry first held rest _ ih =>
      obtain ⟨_, inside, others⟩ := (ordered_withEntry first held rest).mp ordered
      rw [held_withEntry] at found
      split at found
      next =>
        cases found
        exact inside
      next => exact ih others found

theorem Ordered.at? (ordered : root.Ordered) (found : root.at? place = .ok entry) :
    entry.Ordered := by
  induction place generalizing root with
  | nil =>
      rw [at?_nil] at found
      cases found
      exact ordered
  | cons name below ih =>
      rw [at?_cons] at found
      split at found
      next => cases found
      next held there =>
        have inside := ordered.held there
        cases held with
        | folder entries => exact ih inside found
        | file bytes =>
            obtain ⟨_, rfl⟩ := (Entry.at?_file_eq_ok_iff bytes below entry).mp found
            trivial

theorem at?_append {first : Place} (reached : root.at? first = .ok (.folder entries))
    (second : Place) : root.at? (first ++ second) = entries.at? second := by
  induction first generalizing root with
  | nil =>
      rw [at?_nil] at reached
      cases reached
      rfl
  | cons name below ih =>
      rw [List.cons_append, at?_cons]
      rw [at?_cons] at reached
      split at reached
      next => cases reached
      next held there =>
        cases held with
        | folder inner => exact ih reached
        | file bytes => cases ((Entry.at?_file_eq_ok_iff _ _ _).mp reached).2

theorem exists_first_of_file {bytes : List UInt8} (found : root.at? place = .ok (.file bytes)) :
    ∃ name ∈ root.names, ∃ below, place = name :: below := by
  cases place with
  | nil =>
      rw [at?_nil] at found
      cases found
  | cons name below =>
      refine ⟨name, ?_, below, rfl⟩
      by_contra absent
      rw [at?_cons, nothing_held absent] at found
      cases found

/-! ### The walk -/

theorem at?_withEntry {first : String} (absent : first ∉ rest.names) (bytes : List UInt8) :
    (Folder.withEntry first (some entry) rest).at? place = .ok (.file bytes) ↔
      (∃ below, place = first :: below ∧ entry.at? below = .ok (.file bytes)) ∨
        rest.at? place = .ok (.file bytes) := by
  cases place with
  | nil =>
      rw [at?_nil, at?_nil]
      refine iff_of_false nofun ?_
      rintro (⟨_, none, _⟩ | none)
      · cases none
      · cases none
  | cons name below =>
      rw [at?_cons, at?_cons, held_withEntry]
      by_cases same : first = name
      · subst same
        rw [if_pos rfl, nothing_held absent]
        constructor
        · intro found
          exact Or.inl ⟨below, rfl, found⟩
        · rintro (⟨_, ⟨⟩, found⟩ | none)
          · exact found
          · cases none
      · rw [if_neg same]
        refine (or_iff_right ?_).symm
        rintro ⟨_, ⟨⟩, _⟩
        exact same rfl

/-- The walk visits the files that have a place of at most so many names. -/
theorem Ordered.mem_files_iff (ordered : root.Ordered) (depth : Nat) (place : Place) :
    place ∈ root.files depth [] ↔
      place.length ≤ depth ∧ ∃ bytes, root.at? place = .ok (.file bytes) := by
  induction root using entries_induction generalizing depth place with
  | empty =>
      refine iff_of_false List.not_mem_nil ?_
      rintro ⟨_, bytes, found⟩
      obtain ⟨name, none, _⟩ := exists_first_of_file found
      cases none
  | entry first entry rest ihEntries ih =>
      obtain ⟨later, inside, others⟩ := (ordered_withEntry first entry rest).mp ordered
      have absent : first ∉ rest.names := fun member => lt_irrefl first (later first member)
      have within : ∀ depth below, below ∈ entry.files depth ↔
          below.length ≤ depth ∧ ∃ bytes, entry.at? below = .ok (.file bytes) := by
        intro depth below
        cases entry with
        | folder entries => exact ihEntries entries rfl inside depth below
        | file bytes =>
            cases below with
            | nil => exact iff_of_true List.mem_cons_self ⟨Nat.zero_le _, bytes, rfl⟩
            | cons name more => exact iff_of_false (by simp [Entry.files]) (by simp [Entry.at?])
      cases depth with
      | zero =>
          rw [files_zero]
          refine iff_of_false List.not_mem_nil ?_
          rintro ⟨short, bytes, found⟩
          obtain ⟨name, _, below, rfl⟩ := exists_first_of_file found
          cases short
      | succ depth =>
          rw [files_succ, List.mem_append, List.mem_map, ih others]
          simp only [within, at?_withEntry absent]
          constructor
          · rintro (⟨below, ⟨short, bytes, found⟩, rfl⟩ | ⟨short, bytes, found⟩)
            · exact ⟨Nat.succ_le_succ short, bytes, Or.inl ⟨below, rfl, found⟩⟩
            · exact ⟨short, bytes, Or.inr found⟩
          · rintro ⟨short, bytes, ⟨below, rfl, found⟩ | found⟩
            · exact Or.inl ⟨below, ⟨Nat.le_of_succ_le_succ short, bytes, found⟩, rfl⟩
            · exact Or.inr ⟨short, bytes, found⟩

theorem Ordered.files_sorted (ordered : root.Ordered) (depth : Nat) :
    (root.files depth []).Pairwise (· < ·) := by
  induction root using entries_induction generalizing depth with
  | empty => exact List.Pairwise.nil
  | entry first entry rest ihEntries ih =>
      obtain ⟨later, inside, others⟩ := (ordered_withEntry first entry rest).mp ordered
      have within : ∀ depth, (entry.files depth).Pairwise (· < ·) := by
        intro depth
        cases entry with
        | folder entries => exact ihEntries entries rfl inside depth
        | file bytes => exact List.pairwise_singleton _ _
      cases depth with
      | zero =>
          rw [files_zero]
          exact List.Pairwise.nil
      | succ depth =>
          rw [files_succ, List.pairwise_append, List.pairwise_map]
          refine ⟨(within depth).imp fun below => List.cons_lt_cons_iff.mpr (Or.inr ⟨rfl, below⟩),
            ih others _, ?_⟩
          rintro _ entered place visited
          obtain ⟨below, _, rfl⟩ := List.mem_map.mp entered
          obtain ⟨_, bytes, found⟩ := (others.mem_files_iff _ place).mp visited
          obtain ⟨name, listed, more, rfl⟩ := exists_first_of_file found
          exact List.cons_lt_cons_iff.mpr (Or.inl (later name listed))

end Folder

end CobolAnalysis.Provider
