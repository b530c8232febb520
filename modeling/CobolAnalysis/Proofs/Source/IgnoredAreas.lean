/-
Areas of a source line that make no difference.

The sequence area and the text right of the margin are read and never looked at. A comment line,
or a debug line that is no code, is emptied before lines are joined; after that no stage can tell
it from any other line without content. So two texts in reference format whose other lines agree in
their indicators and their program text are preprocessed to the same output with the same reports,
but for those of lines that are too long.
-/

import CobolAnalysis.Proofs.Source.Positions
import Mathlib.Data.List.Forall2

namespace CobolAnalysis

def Diagnostic.isLengthReport (diagnostic : Diagnostic) : Bool :=
  decide (diagnostic.code = some Code.lineTooLong)

namespace Source

/-! ### What counts of a line -/

/-- A line that is left out: a comment line, or a debug line that is no code. -/
def Inert (asCode : Bool) (indicator : Indicator) : Prop :=
  indicator = .comment ∨ indicator = .debug ∧ asCode = false

instance (asCode : Bool) (indicator : Indicator) : Decidable (Inert asCode indicator) :=
  inferInstanceAs (Decidable (_ ∨ _))

/-- The indicator as far as it counts: a debug line that is code is a normal line. -/
def Indicator.settled (asCode : Bool) (indicator : Indicator) : Indicator :=
  if indicator = .debug ∧ asCode = true then .normal else indicator

/-- Two lines that say the same in the areas that count. -/
inductive SaysSame (format : Format) (asCode : Bool) (raw other : List Char) : Prop where
  | inert (left : Inert asCode (indicatorOf format raw))
      (right : Inert asCode (indicatorOf format other)) : SaysSame format asCode raw other
  | code (left : ¬Inert asCode (indicatorOf format raw))
      (right : ¬Inert asCode (indicatorOf format other))
      (indicator : (indicatorOf format raw).settled asCode =
        (indicatorOf format other).settled asCode)
      (text : programText format raw = programText format other) :
      SaysSame format asCode raw other

/-- A debug line turned into the line that it is treated as: a normal line or a comment line. -/
def recast (format : Format) (asCode : Bool) (raw : List Char) : List Char :=
  if indicatorOf format raw = .debug then raw.set indicatorColumn (if asCode then ' ' else '*')
  else raw

/-! ### Lines before they are joined -/

section Prepared

variable {format : Format} {asCode : Bool} {number : Nat} {raw other : List Char}

theorem prepare_reference (reference : format ≠ .free) :
    prepare format asCode number raw =
      if Inert asCode (indicatorOf format raw) then
        ⟨number, raw.take indicatorColumn, indicatorOf format raw, [], programTextColumn⟩
      else
        ⟨number, raw.take indicatorColumn, (indicatorOf format raw).settled asCode,
          beforeComment none (programText format raw), programTextColumn⟩ := by
  have read : readLine format number raw =
      ⟨number, raw.take indicatorColumn, indicatorOf format raw, programText format raw,
        programTextColumn⟩ := by
    cases format with
    | fixed => rfl
    | variableLength => rfl
    | free => exact absurd rfl reference
  unfold prepare
  rw [read]
  cases indicatorOf format raw with
  | normal => rfl
  | comment => rfl
  | continuation => rfl
  | debug => cases asCode <;> rfl

/-- The line without what no later stage looks at. -/
def Line.bare (line : Line) : Line :=
  if line.content = [] ∧ line.isContinuation = false then
    { line with sequence := [], indicator := .normal }
  else { line with sequence := [] }

theorem SaysSame.bare_prepare (reference : format ≠ .free)
    (same : SaysSame format asCode raw other) :
    (prepare format asCode number raw).bare = (prepare format asCode number other).bare := by
  rw [prepare_reference reference, prepare_reference reference]
  cases same with
  | inert left right =>
      have emptied : ∀ (indicator : Indicator) (sequence : List Char), Inert asCode indicator →
          Line.bare ⟨number, sequence, indicator, [], programTextColumn⟩ =
            ⟨number, [], .normal, [], programTextColumn⟩ := by
        intro indicator sequence inert
        rcases inert with rfl | ⟨rfl, _⟩
        · rfl
        · rfl
      rw [if_pos left, if_pos right, emptied _ _ left, emptied _ _ right]
  | code left right indicator text =>
      rw [if_neg left, if_neg right, indicator, text]
      rfl

end Prepared

/-! ### Joining bare lines -/

namespace Stage

theorem isContinuation_bare (line : Line) : line.bare.isContinuation = line.isContinuation := by
  unfold Line.bare
  split
  next empty => exact empty.2.symm
  next => rfl

theorem content_bare (line : Line) : line.bare.content = line.content := by
  unfold Line.bare
  split <;> rfl

theorem bare_of_isContinuation {line : Line} (continues : line.isContinuation = true) :
    line.bare = { line with sequence := [] } := by
  apply if_neg
  rw [continues]
  exact fun both => Bool.noConfusion both.2

theorem bare_of_isCode {line : Line} (code : isCode line = true) :
    line.bare = { line with sequence := [] } := by
  apply if_neg
  intro empty
  unfold isCode Line.isBlank at code
  rw [empty.1] at code
  simp [Text.isBlankText] at code

theorem isCode_bare (line : Line) : isCode line.bare = isCode line := by
  by_cases code : isCode line = true
  · rw [bare_of_isCode code]
    exact rfl
  · unfold Line.bare
    split
    next empty =>
      rw [Bool.eq_false_iff.mpr code]
      unfold isCode Line.isBlank
      rw [empty.1]
      rfl
    next => rfl

theorem written_bare (line : Line) : line.bare.written = line.written := by
  unfold Line.bare
  split <;> rfl

theorem isContinuation_of_mem_continuations {lines : List Line} {line : Line}
    (member : line ∈ continuations lines) : line.isContinuation = true := by
  induction lines with
  | nil => cases member
  | cons first rest ih =>
      rw [continuations] at member
      split at member
      next continues =>
        rcases List.mem_cons.mp member with rfl | later
        · exact continues
        · exact ih later
      next =>
        split at member
        · cases member
        · exact ih member

theorem continuations_bare (lines : List Line) :
    continuations (lines.map Line.bare) = (continuations lines).map Line.bare := by
  induction lines with
  | nil => rfl
  | cons line rest ih =>
      rw [List.map_cons, continuations, continuations, ih, isContinuation_bare, isCode_bare]
      split
      · rfl
      · split <;> rfl

theorem joined_bare (line : Line) (rest : List Line) :
    joined line.bare (rest.map Line.bare) = joined line rest := by
  unfold joined
  rw [continuations_bare, List.foldl_map, content_bare]
  simp only [content_bare]

theorem written_joinLines_bare (lines : List Line) :
    (joinLines (lines.map Line.bare)).map Line.written = (joinLines lines).map Line.written := by
  induction lines with
  | nil => rfl
  | cons line rest ih =>
      rw [List.map_cons, joinLines, joinLines, List.map_cons, List.map_cons, ih, joined_bare,
        isContinuation_bare, isCode_bare]
      refine congrArg (· :: _) ?_
      split
      · rfl
      split
      next code => rw [bare_of_isCode code]; rfl
      next => exact written_bare line

theorem orphans_bare (uri : String) (lines : List Line) :
    (orphans (lines.map Line.bare)).map (orphan uri) = (orphans lines).map (orphan uri) := by
  unfold orphans
  rw [continuations_bare, List.map_map]
  apply List.map_congr_left
  intro line member
  change orphan uri line.bare = orphan uri line
  rw [bare_of_isContinuation (isContinuation_of_mem_continuations member)]
  rfl

end Stage

/-! ### Debug lines -/

section Debug

variable {format : Format} {asCode : Bool} {raw : List Char}

theorem indicatorOf_set (reference : format ≠ .free) (long : indicatorColumn < raw.length)
    (character : Char) :
    indicatorOf format (raw.set indicatorColumn character) = .ofChar character := by
  rw [indicatorOf_reference reference, List.getElem?_set_self long]
  rfl

theorem length_of_debug (reference : format ≠ .free)
    (debug : indicatorOf format raw = .debug) : indicatorColumn < raw.length := by
  rw [indicatorOf_reference reference] at debug
  by_contra short
  rw [List.getElem?_eq_none (Nat.le_of_not_lt short)] at debug
  cases debug

theorem programText_set (character : Char) :
    programText format (raw.set indicatorColumn character) = programText format raw := by
  have before : ∀ text : List Char, (text.set indicatorColumn character).drop programTextColumn =
      text.drop programTextColumn := by
    intro text
    rw [List.drop_set, if_pos (by decide)]
  unfold programText
  split
  · rw [List.take_set, before]
  · exact before raw

theorem saysSame_recast (reference : format ≠ .free) :
    SaysSame format asCode raw (recast format asCode raw) := by
  unfold recast
  split
  next debug =>
    have replaced := indicatorOf_set reference (length_of_debug reference debug)
    cases asCode with
    | true =>
        refine .code ?_ ?_ ?_ (programText_set _).symm
        · rw [debug]
          decide
        · rw [replaced]
          decide
        · rw [debug, replaced]
          rfl
    | false =>
        refine .inert (Or.inr ⟨debug, rfl⟩) (Or.inl ?_)
        rw [replaced]
        rfl
  next other =>
    by_cases inert : Inert asCode (indicatorOf format raw)
    · exact .inert inert inert
    · exact .code inert inert rfl rfl

theorem length_recast : (recast format asCode raw).length = raw.length := by
  unfold recast
  split
  · exact List.length_set
  · rfl

end Debug

/-! ### Two texts -/

section Texts

variable {format : Format} {asCode : Bool} {raws others : List (List Char)}

theorem bare_prepareAll (reference : format ≠ .free)
    (same : List.Forall₂ (SaysSame format asCode) raws others) :
    (prepareAll format asCode raws).map Line.bare =
      (prepareAll format asCode others).map Line.bare := by
  unfold prepareAll
  apply List.ext_getElem
  · simp only [List.length_map, List.length_mapIdx, same.length_eq]
  · intro index left right
    simp only [List.length_map, List.length_mapIdx] at left right
    simp only [List.getElem_map, List.getElem_mapIdx]
    exact (same.get left right).bare_prepare reference

theorem rendered_eq_of_saysSame (reference : format ≠ .free)
    (same : List.Forall₂ (SaysSame format asCode) raws others) :
    rendered format asCode raws = rendered format asCode others := by
  unfold rendered
  rw [← Stage.written_joinLines_bare, bare_prepareAll reference same,
    Stage.written_joinLines_bare]

theorem orphans_eq_of_saysSame (uri : String) (reference : format ≠ .free)
    (same : List.Forall₂ (SaysSame format asCode) raws others) :
    (Stage.orphans (prepareAll format asCode raws)).map (Stage.orphan uri) =
      (Stage.orphans (prepareAll format asCode others)).map (Stage.orphan uri) := by
  rw [← Stage.orphans_bare, bare_prepareAll reference same, Stage.orphans_bare]

theorem filter_reports (uri : String) :
    (reports uri format asCode raws).filter (fun diagnostic => !diagnostic.isLengthReport) =
      (Stage.orphans (prepareAll format asCode raws)).map (Stage.orphan uri) := by
  have lengths : (raws.mapIdx (overlong uri format)).flatten.filter
      (fun diagnostic => !diagnostic.isLengthReport) = [] := by
    rw [List.filter_eq_nil_iff]
    intro diagnostic member
    obtain ⟨own, there, inside⟩ := List.mem_flatten.mp member
    obtain ⟨index, bound, rfl⟩ := List.mem_mapIdx.mp there
    unfold overlong at inside
    split at inside
    · rw [List.mem_singleton.mp inside]
      exact Bool.false_ne_true
    · cases inside
  have others : ((Stage.orphans (prepareAll format asCode raws)).map (Stage.orphan uri)).filter
      (fun diagnostic => !diagnostic.isLengthReport) =
        (Stage.orphans (prepareAll format asCode raws)).map (Stage.orphan uri) := by
    rw [List.filter_eq_self]
    intro diagnostic member
    obtain ⟨line, _, rfl⟩ := List.mem_map.mp member
    rfl
  unfold reports
  rw [List.filter_append, lengths, others, List.nil_append]

theorem overlong_recast (uri : String) :
    (raws.map (recast format asCode)).mapIdx (overlong uri format) =
      raws.mapIdx (overlong uri format) := by
  apply List.ext_getElem
  · simp only [List.length_mapIdx, List.length_map]
  · intro index left right
    simp only [List.getElem_mapIdx, List.getElem_map]
    unfold overlong
    rw [length_recast]

end Texts

/-- In reference format, texts whose lines say the same in the areas that count are preprocessed to
the same output, with the same reports but for those of lines that are too long. Debug lines make no
difference to what they would be as normal lines, or as comment lines if they are no code. -/
theorem ignored_areas_inert (asCode : Bool) (uri : String) {format : Format}
    (reference : format ≠ .free) (text other : List Char)
    (readable : ∀ raw ∈ Text.lines text, '\x00' ∉ raw)
    (otherReadable : ∀ raw ∈ Text.lines other, '\x00' ∉ raw) :
    (List.Forall₂ (SaysSame format asCode) (Text.lines text) (Text.lines other) →
      ∃ output reported otherReported,
        preprocess (.pipeline (Stage.standard asCode)) uri format text =
            .ok ⟨output, reported⟩ ∧
          preprocess (.pipeline (Stage.standard asCode)) uri format other =
            .ok ⟨output, otherReported⟩ ∧
          reported.filter (fun diagnostic => !diagnostic.isLengthReport) =
            otherReported.filter fun diagnostic => !diagnostic.isLengthReport) ∧
    (Text.lines other = (Text.lines text).map (recast format asCode) →
      preprocess (.pipeline (Stage.standard asCode)) uri format other =
        preprocess (.pipeline (Stage.standard asCode)) uri format text) := by
  rw [preprocess_readable asCode uri format text readable,
    preprocess_readable asCode uri format other otherReadable]
  constructor
  · intro same
    refine ⟨Text.unlines (rendered format asCode (Text.lines text)),
      reports uri format asCode (Text.lines text), reports uri format asCode (Text.lines other),
      rfl, ?_, ?_⟩
    · rw [rendered_eq_of_saysSame reference same]
    · rw [filter_reports, filter_reports, orphans_eq_of_saysSame uri reference same]
  · intro recasts
    have same : List.Forall₂ (SaysSame format asCode) (Text.lines text) (Text.lines other) := by
      rw [recasts, List.forall₂_map_right_iff, List.forall₂_same]
      exact fun raw _ => saysSame_recast reference
    unfold reports
    rw [rendered_eq_of_saysSame reference same, orphans_eq_of_saysSame uri reference same, recasts,
      overlong_recast]

/-! #### A literal continued past a line that is left out -/

namespace IgnoredAreas.Sample

def text : List Char := "000100 CALL 'AB\n000200D    DISPLAY X\n000300-    'CD'.".toList

def other : List Char := "       CALL 'AB\n      * in two parts\nPART02-    'CD'.".toList

def spelledOut : List Char := "000100 CALL 'AB\n000200     DISPLAY X\n000300-    'CD'.".toList

end IgnoredAreas.Sample

open IgnoredAreas in
theorem sample_ignored_areas_inert :
    (∃ output reported otherReported,
      preprocess (.pipeline (Stage.standard false)) "root" .fixed Sample.text =
          .ok ⟨output, reported⟩ ∧
        preprocess (.pipeline (Stage.standard false)) "root" .fixed Sample.other =
          .ok ⟨output, otherReported⟩ ∧
        reported.filter (fun diagnostic => !diagnostic.isLengthReport) =
          otherReported.filter fun diagnostic => !diagnostic.isLengthReport) ∧
      preprocess (.pipeline (Stage.standard true)) "root" .fixed Sample.spelledOut =
        preprocess (.pipeline (Stage.standard true)) "root" .fixed Sample.text := by
  have lines : Text.lines Sample.text = ["000100 CALL 'AB".toList,
      "000200D    DISPLAY X".toList, "000300-    'CD'.".toList] := by decide +kernel
  have otherLines : Text.lines Sample.other = ["       CALL 'AB".toList,
      "      * in two parts".toList, "PART02-    'CD'.".toList] := by decide +kernel
  have same : List.Forall₂ (SaysSame .fixed false) (Text.lines Sample.text)
      (Text.lines Sample.other) := by
    rw [lines, otherLines]
    have opening : SaysSame .fixed false "000100 CALL 'AB".toList "       CALL 'AB".toList :=
      .code (by decide +kernel) (by decide +kernel) (by decide +kernel) (by decide +kernel)
    have between : SaysSame .fixed false "000200D    DISPLAY X".toList
        "      * in two parts".toList := .inert (by decide +kernel) (by decide +kernel)
    have closing : SaysSame .fixed false "000300-    'CD'.".toList "PART02-    'CD'.".toList :=
      .code (by decide +kernel) (by decide +kernel) (by decide +kernel) (by decide +kernel)
    exact .cons opening (.cons between (.cons closing .nil))
  have recasts : Text.lines Sample.spelledOut =
      (Text.lines Sample.text).map (recast .fixed true) := by decide +kernel
  constructor
  · exact (ignored_areas_inert false "root" (by decide) Sample.text Sample.other
      (by decide +kernel) (by decide +kernel)).1 same
  · exact (ignored_areas_inert true "root" (by decide) Sample.text Sample.spelledOut
      (by decide +kernel) (by decide +kernel)).2 recasts

end Source

end CobolAnalysis
