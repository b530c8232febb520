/-
Preprocessing a text stretch by stretch.

Lines know their number, but what is made of them does not depend on it. Nor does a line
depend on those before it; only a continuation line at the start of a stretch would reach back
beyond it. So stretches that do not start with a continuation line can be preprocessed one by
one.
-/

import CobolAnalysis.Proofs.Lexemes
import CobolAnalysis.Proofs.Source.Preprocessing

namespace CobolAnalysis.Source

/-! ### Lines without their numbers -/

def Line.unnumbered (line : Line) : Line := { line with number := 0 }

theorem prepare_unnumbered (format : Format) (asCode : Bool) (number : Nat) (raw : List Char) :
    (prepare format asCode number raw).unnumbered = prepare format asCode 0 raw := by
  have read : readLine format number raw = { readLine format 0 raw with number := number } := by
    cases format <;> rfl
  have stripped : Stage.stripComment (readLine format number raw) =
      { Stage.stripComment (readLine format 0 raw) with number := number } := by
    rw [read]
    unfold Stage.stripComment Line.isComment
    dsimp only
    split <;> rfl
  have zero : (Stage.stripComment (readLine format 0 raw)).number = 0 := by
    unfold Stage.stripComment
    cases format <;> (split <;> rfl)
  unfold prepare
  rw [stripped]
  generalize Stage.stripComment (readLine format 0 raw) = line at zero
  obtain ⟨_, sequence, indicator, content, offset⟩ := line
  cases zero
  unfold Stage.settleDebugLine
  dsimp only
  split
  · split <;> rfl
  · rfl

namespace Stage

theorem continuations_unnumbered (lines : List Line) :
    continuations (lines.map Line.unnumbered) = (continuations lines).map Line.unnumbered := by
  induction lines with
  | nil => rfl
  | cons line rest ih =>
      change (if line.isContinuation then _ else if isCode line then _ else _) = _
      rw [continuations, ih]
      split
      · rfl
      · split <;> rfl

theorem joinLines_unnumbered (lines : List Line) :
    joinLines (lines.map Line.unnumbered) = (joinLines lines).map Line.unnumbered := by
  induction lines with
  | nil => rfl
  | cons line rest ih =>
      have content : joined line.unnumbered (rest.map Line.unnumbered) = joined line rest := by
        unfold joined
        rw [continuations_unnumbered, List.foldl_map]
        rfl
      rw [List.map_cons, joinLines, joinLines, List.map_cons, ih, content]
      congr 1
      change (if line.isContinuation then _ else if isCode line then _ else _) = _
      split
      · rfl
      · split <;> rfl

end Stage

theorem rendered_eq (format : Format) (asCode : Bool) (raws : List (List Char)) :
    rendered format asCode raws =
      (Stage.joinLines (raws.map (prepare format asCode 0))).map Line.written := by
  have numbers : (prepareAll format asCode raws).map Line.unnumbered =
      raws.map (prepare format asCode 0) := by
    refine List.ext_getElem? fun index => ?_
    unfold prepareAll
    rw [List.getElem?_map, List.getElem?_map, List.getElem?_mapIdx, Option.map_map]
    exact congrArg (Option.map · raws[index]?)
      (funext fun raw => prepare_unnumbered format asCode index raw)
  rw [← numbers, Stage.joinLines_unnumbered, List.map_map]
  rfl

/-! ### Stretch by stretch -/

/-- No continuation line stands at the start of the lines, where it would reach back beyond them. -/
def StartsWhole (format : Format) (asCode : Bool) (raws : List (List Char)) : Prop :=
  Stage.continuations (raws.map (prepare format asCode 0)) = []

instance (format : Format) (asCode : Bool) (raws : List (List Char)) :
    Decidable (StartsWhole format asCode raws) :=
  inferInstanceAs (Decidable (Stage.continuations (raws.map (prepare format asCode 0)) = []))

namespace Stage

/-- Either some line before takes up the continuation lines that follow, or they reach back beyond
all lines. -/
theorem continuations_append (first second : List Line) :
    continuations (first ++ second) = continuations first ∨
      continuations (first ++ second) = continuations first ++ continuations second := by
  induction first with
  | nil => exact Or.inr rfl
  | cons line rest ih =>
      rw [List.cons_append, continuations, continuations]
      split
      · exact ih.imp (congrArg (line :: ·)) (congrArg (line :: ·))
      · split
        · exact Or.inl rfl
        · exact ih

theorem continuations_append_of_nil {second : List Line} (whole : continuations second = [])
    (first : List Line) : continuations (first ++ second) = continuations first := by
  rcases continuations_append first second with same | both
  · exact same
  · rw [both, whole, List.append_nil]

theorem continuations_of_whole {lines : List Line}
    (whole : ∀ line ∈ lines, line.isContinuation = false) :
    continuations lines = [] := by
  induction lines with
  | nil => rfl
  | cons line rest ih =>
      obtain ⟨here, later⟩ := List.forall_mem_cons.mp whole
      rw [continuations, if_neg (Bool.eq_false_iff.mp here), ih later]
      split <;> rfl

theorem joinLines_of_whole {lines : List Line}
    (whole : ∀ line ∈ lines, line.isContinuation = false) :
    joinLines lines = lines := by
  induction lines with
  | nil => rfl
  | cons line rest ih =>
      obtain ⟨here, later⟩ := List.forall_mem_cons.mp whole
      have alone : line.withContent (joined line rest) = line := by
        unfold joined
        rw [continuations_of_whole later]
        rfl
      rw [joinLines, if_neg (Bool.eq_false_iff.mp here), ih later, alone, ite_self]

theorem joinLines_append {second : List Line} (whole : continuations second = [])
    (first : List Line) : joinLines (first ++ second) = joinLines first ++ joinLines second := by
  induction first with
  | nil => rfl
  | cons line rest ih =>
      have content : joined line (rest ++ second) = joined line rest := by
        unfold joined
        rw [continuations_append_of_nil whole]
      rw [List.cons_append, joinLines, joinLines, ih, content]
      rfl

end Stage

section Stretches

variable {format : Format} {asCode : Bool} {first second : List (List Char)}

theorem rendered_append (whole : StartsWhole format asCode second) :
    rendered format asCode (first ++ second) =
      rendered format asCode first ++ rendered format asCode second := by
  rw [rendered_eq, rendered_eq, rendered_eq, List.map_append, Stage.joinLines_append whole,
    List.map_append]

theorem StartsWhole.append (firstWhole : StartsWhole format asCode first)
    (whole : StartsWhole format asCode second) : StartsWhole format asCode (first ++ second) := by
  unfold StartsWhole
  rw [List.map_append, Stage.continuations_append_of_nil whole]
  exact firstWhole

theorem StartsWhole.left (whole : StartsWhole format asCode (first ++ second)) :
    StartsWhole format asCode first := by
  unfold StartsWhole at *
  rw [List.map_append] at whole
  rcases Stage.continuations_append (first.map (prepare format asCode 0))
    (second.map (prepare format asCode 0)) with same | both
  · rw [← same]
    exact whole
  · rw [both] at whole
    exact (List.append_eq_nil_iff.mp whole).1

end Stretches

end CobolAnalysis.Source
