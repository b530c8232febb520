/-
Where words begin and end.

A longest run of word characters, less the hyphens at its two ends, is a word. A place on a word
character is on the word of the run around it, unless it is on one of those hyphens, and every
place on a word has the same boundaries. Which characters belong to words does not matter.
-/

import CobolAnalysis.Word

namespace CobolAnalysis.Word

/-! ### Runs and words -/

def On (belongs : Char → Bool) (text : List Char) (column : Nat) : Prop :=
  (text[column]?).any belongs = true

def OnHyphen (text : List Char) (column : Nat) : Prop := (text[column]?).any (· == '-') = true

/-- A stretch of word characters that goes on neither to the left nor to the right. -/
structure Run (belongs : Char → Bool) (text : List Char) (first last : Nat) : Prop where
  inside : ∀ column, first ≤ column → column < last → On belongs text column
  left : 0 < first → ¬On belongs text (first - 1)
  right : ¬On belongs text last

/-- What is left of a run without all its leading and all its trailing hyphens. -/
structure Trims (text : List Char) (first last start stop : Nat) : Prop where
  within : first ≤ start ∧ stop ≤ last
  leading : ∀ column, first ≤ column → column < start → OnHyphen text column
  trailing : ∀ column, stop ≤ column → column < last → OnHyphen text column
  begins : ¬OnHyphen text start
  ends : ¬OnHyphen text (stop - 1)

/-- On one of the leading hyphens of a run, or on one of its trailing ones. -/
def OnOuterHyphen (text : List Char) (first last position : Nat) : Prop :=
  (∀ column, first ≤ column → column ≤ position → OnHyphen text column) ∨
    ∀ column, position ≤ column → column < last → OnHyphen text column

/-! ### Stretches that pass a test -/

section Stretches

variable {test : Char → Bool} {text : List Char} {first last column : Nat}

theorem lt_length_takeWhile_iff {count : Nat} :
    count < (text.takeWhile test).length ↔
      ∀ place ≤ count, (text[place]?).any test = true := by
  induction text generalizing count with
  | nil =>
      constructor
      · intro below
        simp at below
      · intro all
        have none := all 0 (Nat.zero_le count)
        simp at none
  | cons character rest ih =>
      rw [List.takeWhile_cons]
      by_cases passes : test character = true
      · rw [if_pos passes, List.length_cons]
        cases count with
        | zero => simp [passes]
        | succ count =>
            rw [Nat.succ_lt_succ_iff, ih]
            constructor
            · intro further place upTo
              cases place with
              | zero => simpa using passes
              | succ place => exact further place (Nat.le_of_succ_le_succ upTo)
            · intro all place upTo
              exact all (place + 1) (Nat.succ_le_succ upTo)
      · rw [if_neg passes]
        constructor
        · intro below
          simp at below
        · intro all
          exact absurd (all 0 (Nat.zero_le count)) (by simpa using passes)

theorem lt_passed_iff (right : first ≤ column) (left : column < last) :
    column < first + (((text.drop first).take (last - first)).takeWhile test).length ↔
      ∀ between, first ≤ between → between ≤ column → (text[between]?).any test = true := by
  have counted : column < first + (((text.drop first).take (last - first)).takeWhile test).length ↔
      column - first < (((text.drop first).take (last - first)).takeWhile test).length := by omega
  have shifted : ∀ place, place ≤ column - first →
      ((text.drop first).take (last - first))[place]? = text[first + place]? := by
    intro place upTo
    rw [List.getElem?_take, if_pos (by omega), List.getElem?_drop]
  rw [counted, lt_length_takeWhile_iff]
  constructor
  · intro all between after upTo
    have here := all (between - first) (by omega)
    rw [shifted _ (by omega), Nat.add_sub_cancel' after] at here
    exact here
  · intro all place upTo
    rw [shifted place upTo]
    exact all (first + place) (by omega) (by omega)

theorem passed_backwards_le_iff (within : last ≤ text.length) (right : first ≤ column)
    (left : column < last) :
    last - (((text.drop first).take (last - first)).reverse.takeWhile test).length ≤ column ↔
      ∀ between, column ≤ between → between < last → (text[between]?).any test = true := by
  have length : ((text.drop first).take (last - first)).length = last - first := by
    rw [List.length_take, List.length_drop]
    omega
  have counted :
      last - (((text.drop first).take (last - first)).reverse.takeWhile test).length ≤ column ↔
        last - 1 - column <
          (((text.drop first).take (last - first)).reverse.takeWhile test).length := by omega
  have mirrored : ∀ place, place ≤ last - 1 - column →
      ((text.drop first).take (last - first)).reverse[place]? = text[last - 1 - place]? := by
    intro place upTo
    rw [List.getElem?_reverse (by omega), length, List.getElem?_take, if_pos (by omega),
      List.getElem?_drop]
    congr 1
    omega
  rw [counted, lt_length_takeWhile_iff]
  constructor
  · intro all between after upTo
    have here := all (last - 1 - between) (by omega)
    rw [mirrored _ (by omega)] at here
    rwa [show last - 1 - (last - 1 - between) = between by omega] at here
  · intro all place upTo
    rw [mirrored place upTo]
    exact all (last - 1 - place) (by omega) (by omega)

end Stretches

/-! ### The run around a place -/

section Around

variable {belongs : Char → Bool} {text : List Char} {position first last start stop : Nat}

theorem On.lt_length (on : On belongs text position) :
    position < text.length := by
  apply Nat.lt_of_not_le
  intro beyond
  unfold On at on
  rw [List.getElem?_eq_none beyond] at on
  cases on

theorem lt_runFrom_iff {column : Nat} (right : position ≤ column) (left : column < text.length) :
    column < position + runFrom belongs text position ↔
      ∀ between, position ≤ between → between ≤ column → On belongs text between := by
  have whole : text.drop position = (text.drop position).take (text.length - position) := by
    rw [← List.length_drop, List.take_length]
  unfold runFrom
  rw [whole]
  exact lt_passed_iff right left

theorem runBefore_le_iff {column : Nat} (within : position ≤ text.length)
    (left : column < position) :
    position - runBefore belongs text position ≤ column ↔
      ∀ between, column ≤ between → between < position → On belongs text between :=
  passed_backwards_le_iff within (Nat.zero_le column) left

theorem lt_add_runFrom (on : On belongs text position) :
    position < position + runFrom belongs text position := by
  rw [lt_runFrom_iff (Nat.le_refl position) on.lt_length]
  intro between right left
  rwa [Nat.le_antisymm left right]

theorem run_around (on : On belongs text position) :
    Run belongs text (position - runBefore belongs text position) (position + runFrom belongs text position) where
  inside := by
    intro column right left
    by_cases before : column < position
    · exact (runBefore_le_iff (Nat.le_of_lt on.lt_length) before).mp right column
        (Nat.le_refl column) before
    · have within : column < text.length := by
        have short : runFrom belongs text position ≤ text.length - position := by
          rw [← List.length_drop]
          exact (List.takeWhile_prefix _).length_le
        omega
      exact (lt_runFrom_iff (Nat.le_of_not_lt before) within).mp left column
        (Nat.le_of_not_lt before) (Nat.le_refl column)
  left := by
    intro inner further
    have reached : position - runBefore belongs text position ≤
        position - runBefore belongs text position - 1 := by
      rw [runBefore_le_iff (Nat.le_of_lt on.lt_length) (by omega)]
      intro between right left
      by_cases here : between < position - runBefore belongs text position
      · rwa [show between = position - runBefore belongs text position - 1 by omega]
      · exact (runBefore_le_iff (Nat.le_of_lt on.lt_length) left).mp (by omega) between
          (Nat.le_refl between) left
    omega
  right := by
    intro further
    have reached : position + runFrom belongs text position < position + runFrom belongs text position := by
      rw [lt_runFrom_iff (Nat.le_add_right _ _) further.lt_length]
      intro between right left
      rcases Nat.lt_or_eq_of_le left with inner | same
      · exact (lt_runFrom_iff right (Nat.lt_trans inner further.lt_length)).mp inner between right
          (Nat.le_refl between)
      · rwa [same]
    exact Nat.lt_irrefl _ reached

theorem Run.unique {otherFirst otherLast : Nat} (run : Run belongs text first last)
    (other : Run belongs text otherFirst otherLast) (right : first ≤ position) (left : position < last)
    (otherRight : otherFirst ≤ position) (otherLeft : position < otherLast) :
    first = otherFirst ∧ last = otherLast := by
  constructor
  · rcases Nat.lt_trichotomy first otherFirst with below | same | above
    · exact absurd (run.inside (otherFirst - 1) (by omega) (by omega)) (other.left (by omega))
    · exact same
    · exact absurd (other.inside (first - 1) (by omega) (by omega)) (run.left (by omega))
  · rcases Nat.lt_trichotomy last otherLast with below | same | above
    · exact absurd (other.inside last (by omega) below) run.right
    · exact same
    · exact absurd (run.inside otherLast (by omega) above) other.right

theorem boundsBy_of_off (off : ¬On belongs text position) : boundsBy belongs text position = none := by
  unfold On at off
  unfold boundsBy
  cases there : text[position]? with
  | none => rfl
  | some character =>
      rw [there] at off
      exact if_neg off

theorem exists_ends (run : Run belongs text first last) (right : first ≤ position)
    (left : position < last) :
    ∃ start stop, boundsBy belongs text position =
        (if start ≤ position ∧ position < stop then some (start, stop) else none) ∧
      first ≤ start ∧ stop ≤ last ∧
      (∀ column, first ≤ column → column < last → (column < start ↔
        ∀ between, first ≤ between → between ≤ column → OnHyphen text between)) ∧
      ∀ column, first ≤ column → column < last → (stop ≤ column ↔
        ∀ between, column ≤ between → between < last → OnHyphen text between) := by
  have on := run.inside position right left
  have within : last ≤ text.length := by
    have inner := (run.inside (last - 1) (by omega) (by omega)).lt_length
    omega
  obtain ⟨rfl, rfl⟩ := run.unique (run_around on) right left (Nat.sub_le _ _) (lt_add_runFrom on)
  refine ⟨_, _, ?_, Nat.le_add_right _ _, Nat.sub_le _ _, fun column => lt_passed_iff,
    fun column => passed_backwards_le_iff within⟩
  unfold On at on
  unfold boundsBy
  cases there : text[position]? with
  | none =>
      rw [there] at on
      cases on
  | some character =>
      rw [there] at on
      simp only [Bool.and_eq_true, decide_eq_true_eq]
      exact if_pos on

theorem Trims.unique {otherStart otherStop : Nat} (trims : Trims text first last start stop)
    (other : Trims text first last otherStart otherStop) :
    start = otherStart ∧ stop = otherStop := by
  have within := trims.within
  have otherWithin := other.within
  constructor
  · rcases Nat.lt_trichotomy start otherStart with below | same | above
    · exact absurd (other.leading start (by omega) below) trims.begins
    · exact same
    · exact absurd (trims.leading otherStart (by omega) above) other.begins
  · rcases Nat.lt_trichotomy stop otherStop with below | same | above
    · exact absurd (trims.trailing (otherStop - 1) (by omega) (by omega)) other.ends
    · exact same
    · exact absurd (other.trailing (stop - 1) (by omega) (by omega)) trims.ends

/-- A place in a run is on the word of the run or on a hyphen outside of it. -/
theorem boundsBy_in_run (run : Run belongs text first last) (right : first ≤ position)
    (left : position < last) :
    (∃ start stop, boundsBy belongs text position = some (start, stop) ∧ start ≤ position ∧
        position < stop ∧ Trims text first last start stop) ∨
      boundsBy belongs text position = none ∧ OnOuterHyphen text first last position := by
  obtain ⟨start, stop, found, notBefore, notAfter, leading, trailing⟩ :=
    exists_ends run right left
  by_cases onWord : start ≤ position ∧ position < stop
  · rw [if_pos onWord] at found
    refine Or.inl ⟨start, stop, found, onWord.1, onWord.2, ⟨notBefore, notAfter⟩, ?_, ?_, ?_, ?_⟩
    · intro column after before
      exact (leading column after (by omega)).mp before column after (Nat.le_refl column)
    · intro column after before
      exact (trailing column (by omega) before).mp after column (Nat.le_refl column) before
    · intro hyphen
      have further : start < start := by
        apply (leading start notBefore (by omega)).mpr
        intro between after upTo
        rcases Nat.lt_or_eq_of_le upTo with before | same
        · exact (leading between after (by omega)).mp before between after (Nat.le_refl between)
        · rwa [same]
      exact Nat.lt_irrefl start further
    · intro hyphen
      have further : stop ≤ stop - 1 := by
        apply (trailing (stop - 1) (by omega) (by omega)).mpr
        intro between after before
        by_cases here : between = stop - 1
        · rwa [here]
        · exact (trailing between (by omega) before).mp (by omega) between (Nat.le_refl between)
            before
      omega
  · rw [if_neg onWord] at found
    refine Or.inr ⟨found, ?_⟩
    by_cases before : position < start
    · exact Or.inl ((leading position right left).mp before)
    · exact Or.inr ((trailing position right left).mp (by omega))

theorem Trims.off_outer_hyphens (trims : Trims text first last start stop)
    (right : start ≤ position) (left : position < stop) :
    ¬OnOuterHyphen text first last position := by
  rintro (before | behind)
  · exact trims.begins (before start trims.within.1 right)
  · have after := trims.within.2
    exact trims.ends (behind (stop - 1) (by omega) (by omega))

/-- The boundaries found at a place are those of the word it is on. -/
theorem boundsBy_eq_some_iff :
    boundsBy belongs text position = some (start, stop) ↔
      start ≤ position ∧ position < stop ∧ ∃ first last, Run belongs text first last ∧
        Trims text first last start stop := by
  constructor
  · intro found
    by_cases on : On belongs text position
    · have run := run_around on
      rcases boundsBy_in_run run (Nat.sub_le _ _) (lt_add_runFrom on) with
        ⟨begins, ends, there, right, left, trims⟩ | ⟨none, _⟩
      · rw [there] at found
        cases found
        exact ⟨right, left, _, _, run, trims⟩
      · rw [none] at found
        cases found
    · rw [boundsBy_of_off on] at found
      cases found
  · rintro ⟨right, left, first, last, run, trims⟩
    have within := trims.within
    have inside : first ≤ position ∧ position < last := by omega
    rcases boundsBy_in_run run inside.1 inside.2 with ⟨begins, ends, there, _, _, others⟩ | ⟨_, outer⟩
    · obtain ⟨rfl, rfl⟩ := trims.unique others
      exact there
    · exact absurd outer (trims.off_outer_hyphens right left)

theorem boundsBy_eq_none_iff :
    boundsBy belongs text position = none ↔ ¬On belongs text position ∨
      ∃ first last, first ≤ position ∧ position < last ∧ Run belongs text first last ∧
        OnOuterHyphen text first last position := by
  constructor
  · intro none
    by_cases on : On belongs text position
    · have run := run_around on
      rcases boundsBy_in_run run (Nat.sub_le _ _) (lt_add_runFrom on) with
        ⟨_, _, there, _⟩ | ⟨_, outer⟩
      · rw [none] at there
        cases there
      · exact Or.inr ⟨_, _, Nat.sub_le _ _, lt_add_runFrom on, run, outer⟩
    · exact Or.inl on
  · rintro (off | ⟨first, last, right, left, run, outer⟩)
    · exact boundsBy_of_off off
    · rcases boundsBy_in_run run right left with ⟨_, _, _, otherRight, otherLeft, trims⟩ | ⟨none, _⟩
      · exact absurd outer (trims.off_outer_hyphens otherRight otherLeft)
      · exact none

end Around

/-- A place has the boundaries of a word just if it is in a run of word characters, inside what is
left of it without the hyphens at its two ends. It has none past the end of the text, on any other
character and on one of those hyphens. All places of a word have the same boundaries. -/
theorem boundaries_of_trimmed_run (text : List Char) (position : Nat) :
    (∀ start stop, bounds text position = some (start, stop) ↔
      start ≤ position ∧ position < stop ∧ ∃ first last, first ≤ position ∧ position < last ∧
        Run isWordCharacter text first last ∧ Trims text first last start stop) ∧
    (bounds text position = none ↔
      text.length ≤ position ∨
        (∃ character, text[position]? = some character ∧ isWordCharacter character = false) ∨
          ∃ first last, first ≤ position ∧ position < last ∧ Run isWordCharacter text first last ∧
            OnOuterHyphen text first last position) ∧
    ∀ start stop, bounds text position = some (start, stop) →
      ∀ other, start ≤ other → other < stop → bounds text other = some (start, stop) := by
  refine ⟨fun start stop => ?_, ?_, fun start stop found other right left => ?_⟩
  · rw [bounds, boundsBy_eq_some_iff]
    constructor
    · rintro ⟨right, left, first, last, run, trims⟩
      have within := trims.within
      exact ⟨right, left, first, last, by omega, by omega, run, trims⟩
    · rintro ⟨right, left, first, last, _, _, run, trims⟩
      exact ⟨right, left, first, last, run, trims⟩
  · have off : ¬On isWordCharacter text position ↔ text.length ≤ position ∨
        ∃ character, text[position]? = some character ∧ isWordCharacter character = false := by
      unfold On
      rw [← List.getElem?_eq_none_iff]
      cases text[position]? with
      | none => simp
      | some character => simp
    rw [bounds, boundsBy_eq_none_iff, off, or_assoc]
  · obtain ⟨_, _, word⟩ := boundsBy_eq_some_iff.mp found
    exact boundsBy_eq_some_iff.mpr ⟨right, left, word⟩

/-- Among hyphens, a word has its boundaries at each of its own hyphens too, and a place on a hyphen
before it has none. -/
theorem dashed_boundaries :
    bounds "A --B-C-- D".toList 5 = some (4, 7) ∧
      bounds "A --B-C-- D".toList 6 = some (4, 7) ∧ bounds "A --B-C-- D".toList 3 = none := by
  have found : bounds "A --B-C-- D".toList 5 = some (4, 7) := by decide +kernel
  obtain ⟨_, _, everywhere⟩ := boundaries_of_trimmed_run "A --B-C-- D".toList 5
  exact ⟨found, everywhere 4 7 found 6 (by decide) (by decide), by decide +kernel⟩

/-! ### Words in their surroundings -/

section Surroundings

variable {before hyphens word after : List Char} {column : Nat}

theorem any_of_middle {test : Char → Bool} {middle : List Char}
    (all : ∀ character ∈ middle, test character = true) (right : before.length ≤ column)
    (left : column < before.length + middle.length) :
    ((before ++ middle ++ after)[column]?).any test = true := by
  have within : column - before.length < middle.length := by omega
  rw [List.getElem?_append_left (by rw [List.length_append]; omega),
    List.getElem?_append_right right, List.getElem?_eq_getElem within]
  exact all _ (List.getElem_mem within)

theorem run_of_middle {middle : List Char}
    (all : ∀ character ∈ middle, isWordCharacter character = true)
    (leftEnd : ∀ last, before.getLast? = some last → isWordCharacter last = false)
    (rightEnd : ∀ next, after.head? = some next → isWordCharacter next = false) :
    Run isWordCharacter (before ++ middle ++ after) before.length (before.length + middle.length) where
  inside := fun _ => any_of_middle all
  left := by
    intro present
    unfold On
    rw [List.append_assoc, List.getElem?_append_left (by omega), ← List.getLast?_eq_getElem?]
    cases last : before.getLast? with
    | none => simp
    | some character => simp [leftEnd character last]
  right := by
    unfold On
    rw [← List.length_append, List.getElem?_append_right (Nat.le_refl _), Nat.sub_self,
      ← List.head?_eq_getElem?]
    cases next : after.head? with
    | none => simp
    | some character => simp [rightEnd character next]

theorem trims_of_middle (only : ∀ character ∈ hyphens, character = '-') (filled : 0 < word.length)
    (begins : word.head? ≠ some '-') (ends : word.getLast? ≠ some '-') :
    Trims (before ++ hyphens ++ (word ++ after)) before.length
      ((before ++ hyphens).length + word.length) (before ++ hyphens).length
      ((before ++ hyphens).length + word.length) where
  within := ⟨by rw [List.length_append]; omega, Nat.le_refl _⟩
  leading := by
    intro place right left
    rw [List.length_append] at left
    exact any_of_middle (fun character member => beq_iff_eq.mpr (only character member)) right left
  trailing := by
    intro place right left
    omega
  begins := by
    unfold OnHyphen
    rw [List.getElem?_append_right (Nat.le_refl _), Nat.sub_self,
      List.getElem?_append_left filled, ← List.head?_eq_getElem?]
    cases head : word.head? with
    | none => simp
    | some character =>
        rw [head] at begins
        simpa using begins
  ends := by
    have place : (before ++ hyphens).length + word.length - 1 - (before ++ hyphens).length =
        word.length - 1 := by omega
    unfold OnHyphen
    rw [List.getElem?_append_right (by omega), List.getElem?_append_left (by omega), place,
      ← List.getLast?_eq_getElem?]
    cases last : word.getLast? with
    | none => simp
    | some character =>
        rw [last] at ends
        simpa using ends

theorem at?_of_middle (all : ∀ character ∈ word, isWordCharacter character = true)
    (only : ∀ character ∈ hyphens, character = '-') (begins : word.head? ≠ some '-')
    (ends : word.getLast? ≠ some '-')
    (leftEnd : ∀ last, before.getLast? = some last → isWordCharacter last = false)
    (rightEnd : ∀ next, after.head? = some next → isWordCharacter next = false)
    (right : (before ++ hyphens).length ≤ column)
    (left : column < (before ++ hyphens).length + word.length) :
    at? (before ++ hyphens ++ (word ++ after)) column = some word := by
  have run : Run isWordCharacter (before ++ (hyphens ++ word) ++ after) before.length
      (before.length + (hyphens ++ word).length) := by
    apply run_of_middle _ leftEnd rightEnd
    intro character member
    rcases List.mem_append.mp member with hyphen | inside
    · rw [only character hyphen]
      decide
    · exact all character inside
  rw [List.length_append, ← Nat.add_assoc, ← List.length_append,
    show before ++ (hyphens ++ word) ++ after = before ++ hyphens ++ (word ++ after) by
      simp only [List.append_assoc]] at run
  have found := boundsBy_eq_some_iff.mpr
    ⟨right, left, _, _, run, trims_of_middle only (by omega) begins ends⟩
  unfold at? bounds
  rw [found, Option.map_some, Nat.add_sub_cancel_left, List.drop_left, List.take_left]

end Surroundings

end CobolAnalysis.Word
