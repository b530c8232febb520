/-
What the case of ASCII letters has no part in.

Capitals move the letters a to z and nothing else. So whatever is asked of characters that are
no letters, and whatever is asked of letters without regard to their case, has the same answer
for a text and for the same text in capitals.
-/

import CobolAnalysis.Text.Blank
import CobolAnalysis.Text.LetterCase
import CobolAnalysis.Text.Lines
import CobolAnalysis.Text.Quoted

namespace CobolAnalysis.Text

/-! ### Characters -/

theorem toUpper_cases (character : Char) :
    (97 ≤ character.toNat ∧ character.toNat ≤ 122 ∧
        character.toUpper.toNat = character.toNat - 32) ∨
      (¬(97 ≤ character.toNat ∧ character.toNat ≤ 122) ∧ character.toUpper = character) := by
  have range : 'a'.val ≤ character.val ∧ character.val ≤ 'z'.val ↔
      97 ≤ character.toNat ∧ character.toNat ≤ 122 := Iff.rfl
  unfold Char.toUpper
  by_cases small : 'a'.val ≤ character.val ∧ character.val ≤ 'z'.val
  · rw [dif_pos small]
    obtain ⟨above, below⟩ := range.mp small
    refine Or.inl ⟨above, below, ?_⟩
    change (character.val + 4294967264).toNat = character.val.toNat - 32
    rw [UInt32.toNat_add]
    have value : character.val.toNat = character.toNat := rfl
    simp only [UInt32.reduceToNat]
    omega
  · rw [dif_neg small]
    exact Or.inr ⟨fun both => small (range.mpr both), rfl⟩

theorem toUpper_toUpper (character : Char) : character.toUpper.toUpper = character.toUpper := by
  rcases toUpper_cases character with ⟨above, below, moved⟩ | ⟨_, same⟩
  · rcases toUpper_cases character.toUpper with ⟨again, _⟩ | ⟨_, same⟩
    · omega
    · exact same
  · rw [same, same]

theorem isLower_toUpper (character : Char) : character.toUpper.isLower = false := by
  have range : character.toUpper.isLower = true ↔
      97 ≤ character.toUpper.toNat ∧ character.toUpper.toNat ≤ 122 := by
    unfold Char.isLower
    rw [Bool.and_eq_true, decide_eq_true_iff, decide_eq_true_iff]
    exact Iff.rfl
  rw [Bool.eq_false_iff, Ne, range]
  rcases toUpper_cases character with ⟨_, _, moved⟩ | ⟨other, same⟩
  · omega
  · rwa [same]

/-- No letter of the ASCII alphabet. -/
def Caseless (character : Char) : Prop :=
  ¬(65 ≤ character.toNat ∧ character.toNat ≤ 90) ∧
    ¬(97 ≤ character.toNat ∧ character.toNat ≤ 122)

instance (character : Char) : Decidable (Caseless character) :=
  inferInstanceAs (Decidable (_ ∧ _))

theorem Caseless.toUpper {character : Char} (caseless : Caseless character) :
    character.toUpper = character := by
  rcases toUpper_cases character with ⟨above, below, _⟩ | ⟨_, same⟩
  · exact absurd ⟨above, below⟩ caseless.2
  · exact same

theorem Caseless.toUpper_eq_iff {other : Char} (caseless : Caseless other) (character : Char) :
    character.toUpper = other ↔ character = other := by
  rcases toUpper_cases character with ⟨above, below, moved⟩ | ⟨_, same⟩
  · refine iff_of_false ?_ ?_
    · rintro rfl
      exact caseless.1 (by omega)
    · rintro rfl
      exact caseless.2 ⟨above, below⟩
  · rw [same]

theorem Caseless.toUpper_beq {other : Char} (caseless : Caseless other) (character : Char) :
    (character.toUpper == other) = (character == other) := by
  rw [Bool.eq_iff_iff, beq_iff_eq, beq_iff_eq]
  exact caseless.toUpper_eq_iff character

theorem Caseless.beq_toUpper {other : Char} (caseless : Caseless other) (character : Char) :
    (other == character.toUpper) = (other == character) := by
  rw [Bool.eq_iff_iff, beq_iff_eq, beq_iff_eq, eq_comm, caseless.toUpper_eq_iff, eq_comm]

theorem toUpper_congr {α : Type} {answer : Char → α} (onLetters : α)
    (letters : ∀ character, ¬Caseless character → answer character = onLetters)
    (character : Char) : answer character.toUpper = answer character := by
  rcases toUpper_cases character with ⟨above, below, moved⟩ | ⟨_, same⟩
  · rw [letters character fun caseless => caseless.2 ⟨above, below⟩,
      letters character.toUpper fun caseless => caseless.1 (by omega)]
  · rw [same]

theorem isBlank_toUpper (character : Char) : isBlank character.toUpper = isBlank character := by
  refine toUpper_congr false (fun letter notCaseless => ?_) character
  unfold Caseless at notCaseless
  unfold isBlank
  simp only [Bool.or_eq_false_iff, Bool.and_eq_false_iff, decide_eq_false_iff_not, beq_eq_false_iff_ne]
  omega

/-! ### Texts -/

theorem upper_upper (text : List Char) : upper (upper text) = upper text := by
  unfold upper
  rw [List.map_map]
  exact List.map_congr_left fun character _ => toUpper_toUpper character

theorem isBlankText_upper (text : List Char) : isBlankText (upper text) = isBlankText text := by
  unfold isBlankText upper
  rw [List.all_map]
  exact congrArg (List.all text) (funext isBlank_toUpper)

theorem trimStart_upper (text : List Char) : trimStart (upper text) = upper (trimStart text) := by
  unfold trimStart upper
  rw [List.dropWhile_map]
  exact congrArg (fun isSkipped => (text.dropWhile isSkipped).map Char.toUpper)
    (funext isBlank_toUpper)

theorem trimEnd_upper (text : List Char) : trimEnd (upper text) = upper (trimEnd text) := by
  induction text with
  | nil => rfl
  | cons character rest ih =>
      change trimEnd (character.toUpper :: upper rest) = _
      rw [trimEnd, trimEnd, ih]
      cases trimEnd rest with
      | nil =>
          change (if isBlank character.toUpper then [] else [character.toUpper]) = _
          rw [isBlank_toUpper, apply_ite upper]
          rfl
      | cons next others => rfl

theorem trim_upper (text : List Char) : trim (upper text) = upper (trim text) := by
  unfold trim
  rw [trimStart_upper, trimEnd_upper]

theorem lines_cons_upper {character : Char} {rest : List Char}
    (notFeed : character = '\n' → False)
    (notReturn : ∀ more, character = '\r' → rest = '\n' :: more → False)
    (ih : lines (upper rest) = (lines rest).map upper) :
    lines (upper (character :: rest)) = (lines (character :: rest)).map upper := by
  have feed : Caseless '\n' := by decide
  have carriage : Caseless '\r' := by decide
  have noFeed : character.toUpper = '\n' → False := fun same =>
    notFeed ((feed.toUpper_eq_iff character).mp same)
  have noReturn : ∀ more, character.toUpper = '\r' → upper rest = '\n' :: more → False := by
    intro more isReturn starts
    cases rest with
    | nil => cases starts
    | cons next others =>
        have isFeed := (feed.toUpper_eq_iff next).mp (List.cons.inj starts).1
        exact notReturn others ((carriage.toUpper_eq_iff character).mp isReturn) (isFeed ▸ rfl)
  change lines (character.toUpper :: upper rest) = _
  rw [lines.eq_4 _ _ noFeed noReturn, lines.eq_4 _ _ notFeed notReturn, ih]
  cases lines rest <;> rfl

theorem lines_upper (text : List Char) : lines (upper text) = (lines text).map upper := by
  induction text using lines.induct with
  | case1 => rfl
  | case2 rest ih => exact congrArg ([] :: ·) ih
  | case3 rest ih => exact congrArg ([] :: ·) ih
  | case4 character rest notFeed notReturn none ih => exact lines_cons_upper notFeed notReturn ih
  | case5 character rest notFeed notReturn first others some ih =>
      exact lines_cons_upper notFeed notReturn ih

theorem unlines_upper (written : List (List Char)) :
    unlines (written.map upper) = upper (unlines written) := by
  induction written using unlines.induct with
  | case1 => rfl
  | case2 line => rfl
  | case3 line next others ih =>
      change upper line ++ '\n' :: unlines ((next :: others).map upper) =
        upper (line ++ '\n' :: unlines (next :: others))
      rw [ih]
      unfold upper
      rw [List.map_append]
      rfl

/-! ### Messages -/

namespace Quoted

theorem standsAlone_of_letter {character : Char} (letter : ¬Caseless character) :
    standsAlone character = true := by
  unfold Caseless at letter
  unfold standsAlone
  rw [if_pos (by omega), Bool.and_eq_true, decide_eq_true_iff, decide_eq_true_iff]
  omega

theorem escape_of_letter {character : Char} (letter : ¬Caseless character) :
    escape character = [character] := by
  unfold escape
  split
  case h_7 => rw [if_pos (standsAlone_of_letter letter)]
  all_goals exact absurd (by decide) letter

theorem upper_escape (character : Char) :
    upper (escape character.toUpper) = upper (escape character) := by
  rcases toUpper_cases character with ⟨above, below, moved⟩ | ⟨_, same⟩
  · rw [escape_of_letter fun caseless => caseless.2 ⟨above, below⟩,
      escape_of_letter fun caseless => caseless.1 (by omega)]
    exact upper_upper [character]
  · rw [same]

theorem upper_quote (text : List Char) : upper (quote (upper text)) = upper (quote text) := by
  have inside : upper ((upper text).flatMap escape) = upper (text.flatMap escape) := by
    unfold upper
    rw [List.flatMap_map, List.map_flatMap, List.map_flatMap]
    exact congrArg (List.flatMap · text) (funext upper_escape)
  unfold quote
  simp only [upper, List.map_append] at inside ⊢
  rw [inside]

end Quoted

end CobolAnalysis.Text
