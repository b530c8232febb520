/-
Which copybook a file name stands for.

A file name without a period after its first character is all stem. Any other name has what
follows its last period as its extension, which may be empty, and the stem before that period.
-/

import CobolAnalysis.Provider.FileName
import Mathlib.Data.List.TakeWhile

namespace CobolAnalysis.Provider.FileName

/-- The file name is that of a file that holds the copybook. -/
inductive Names : List Char → LogicalName → Prop where
  | plain {stem : List Char} {name : LogicalName} (bare : '.' ∉ stem.tail)
      (named : LogicalName.parse stem = .ok name) : Names stem name
  | extended {stem extension : List Char} {name : LogicalName} (begun : stem ≠ [])
      (last : '.' ∉ extension) {known : String} (listed : known ∈ copybookExtensions)
      (same : Text.sameLetters extension known.toList = true)
      (named : LogicalName.parse stem = .ok name) : Names (stem ++ '.' :: extension) name

/-! ### Stem and extension -/

theorem splitAtLastPeriod_plain {name : List Char} (none : '.' ∉ name) :
    splitAtLastPeriod name = Option.none := by
  have spent : name.reverse.dropWhile (· != '.') = [] := by
    refine List.dropWhile_eq_nil_iff.mpr fun character member => bne_iff_ne.mpr ?_
    rintro rfl
    exact none (List.mem_reverse.mp member)
  unfold splitAtLastPeriod
  dsimp only
  rw [spent]

theorem splitAtLastPeriod_extended (before : List Char) {after : List Char} (last : '.' ∉ after) :
    splitAtLastPeriod (before ++ '.' :: after) = some (before, after) := by
  have passed : ∀ character ∈ after.reverse, (character != '.') = true := by
    intro character member
    refine bne_iff_ne.mpr ?_
    rintro rfl
    exact last (List.mem_reverse.mp member)
  have reversed : (before ++ '.' :: after).reverse = after.reverse ++ '.' :: before.reverse := by
    rw [List.reverse_append, List.reverse_cons, List.append_assoc]
    rfl
  unfold splitAtLastPeriod
  dsimp only
  rw [reversed, List.dropWhile_append_of_pos passed, List.takeWhile_append_of_pos passed,
    List.dropWhile_cons_of_neg (by decide), List.takeWhile_cons_of_neg (by decide),
    List.append_nil]
  exact congrArg some (Prod.ext before.reverse_reverse after.reverse_reverse)

theorem exists_last_period {name : List Char} (period : '.' ∈ name) :
    ∃ before after, name = before ++ '.' :: after ∧ '.' ∉ after := by
  obtain ⟨after, before, reversed, last⟩ :=
    List.eq_append_cons_of_mem (List.mem_reverse.mpr period)
  refine ⟨before.reverse, after.reverse, ?_, fun member => last (List.mem_reverse.mp member)⟩
  rw [← name.reverse_reverse, reversed, List.reverse_append, List.reverse_cons, List.append_assoc]
  rfl

theorem forms (name : List Char) : '.' ∉ name.tail ∨
    ∃ stem extension, stem ≠ [] ∧ '.' ∉ extension ∧ name = stem ++ '.' :: extension := by
  by_cases period : '.' ∈ name.tail
  · cases name with
    | nil => cases period
    | cons first rest =>
        obtain ⟨before, extension, split, last⟩ := exists_last_period period
        exact Or.inr ⟨first :: before, extension, List.cons_ne_nil _ _, last,
          congrArg (first :: ·) split⟩
  · exact Or.inl period

theorem parts_plain {name : List Char} (bare : '.' ∉ name.tail) : parts name = (name, none) := by
  unfold parts
  by_cases period : '.' ∈ name
  · -- The only period is the first character.
    cases name with
    | nil => cases period
    | cons first rest =>
        obtain rfl : '.' = first := (List.mem_cons.mp period).resolve_right bare
        have split : splitAtLastPeriod ('.' :: rest) = some ([], rest) :=
          splitAtLastPeriod_extended [] bare
        rw [split]
        rfl
  · rw [splitAtLastPeriod_plain period]

theorem parts_extended {stem extension : List Char} (begun : stem ≠ []) (last : '.' ∉ extension) :
    parts (stem ++ '.' :: extension) = (stem, some extension) := by
  unfold parts
  rw [splitAtLastPeriod_extended stem last]
  exact if_neg fun nothing => begun (List.isEmpty_iff.mp nothing)

/-! ### Copybooks -/

theorem copybook?_eq_some_iff (fileName : List Char) (name : LogicalName) :
    copybook? fileName = some name ↔ Names fileName name := by
  have named : ∀ stem, (LogicalName.parse stem).toOption = some name ↔
      LogicalName.parse stem = .ok name := by
    intro stem
    cases LogicalName.parse stem with
    | error => exact iff_of_false (by simp [Except.toOption]) (by simp)
    | ok found => simp [Except.toOption]
  have plain : ∀ stem, '.' ∉ stem.tail →
      (copybook? stem = some name ↔ LogicalName.parse stem = .ok name) := by
    intro stem bare
    unfold copybook? holdsCopybook extension? FileName.stem
    rw [parts_plain bare]
    exact named stem
  have extended : ∀ stem extension, stem ≠ [] → '.' ∉ extension →
      (copybook? (stem ++ '.' :: extension) = some name ↔
        (∃ known ∈ copybookExtensions, Text.sameLetters extension known.toList = true) ∧
          LogicalName.parse stem = .ok name) := by
    intro stem extension begun last
    unfold copybook? holdsCopybook extension? FileName.stem
    rw [parts_extended begun last, ← named stem, ← List.any_eq_true]
    simp
  constructor
  · intro found
    rcases forms fileName with bare | ⟨stem, extension, begun, last, rfl⟩
    · exact .plain bare ((plain fileName bare).mp found)
    · obtain ⟨⟨known, listed, same⟩, parsed⟩ := (extended stem extension begun last).mp found
      exact .extended begun last listed same parsed
  · intro names
    cases names with
    | plain bare parsed => exact (plain fileName bare).mpr parsed
    | extended begun last listed same parsed =>
        exact (extended _ _ begun last).mpr ⟨⟨_, listed, same⟩, parsed⟩

end CobolAnalysis.Provider.FileName
