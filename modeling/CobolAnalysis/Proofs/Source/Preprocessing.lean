/-
What the standard stages make of a text.

A text is refused if a line of it holds a NUL character. Otherwise each line of the output
comes from the line of the text at its place: from its own content alone, but for the
contents of the continuation lines that are joined on behind it.
-/

import CobolAnalysis.Proofs.Source.Joining
import CobolAnalysis.Proofs.Text.Lines
import CobolAnalysis.Source.Pipeline

namespace CobolAnalysis.Source

open Text (Trimmed Tidy)

/-! ### Reading -/

/-- The first line with a NUL character. -/
structure FirstBinary (raws : List (List Char)) (number : Nat) : Prop where
  binary : ∃ raw, raws[number]? = some raw ∧ '\x00' ∈ raw
  clean : ∀ earlier raw, earlier < number → raws[earlier]? = some raw → '\x00' ∉ raw

theorem FirstBinary.later {raw : List Char} {rest : List (List Char)} {number : Nat}
    (clean : '\x00' ∉ raw) (first : FirstBinary rest number) :
    FirstBinary (raw :: rest) (number + 1) := by
  refine ⟨first.binary, fun earlier other before present => ?_⟩
  cases earlier with
  | zero =>
      rw [← Option.some.inj present]
      exact clean
  | succ earlier => exact first.clean earlier other (Nat.lt_of_succ_lt_succ before) present

theorem readFrom_cases (uri : String) (format : Format) (number : Nat)
    (raws : List (List Char)) :
    (∃ index, FirstBinary raws index ∧
      readFrom uri format number raws = .error (.binaryContent (number + index + 1))) ∨
    (∀ raw ∈ raws, '\x00' ∉ raw) ∧ readFrom uri format number raws =
      .ok ⟨raws.mapIdx fun index raw => readLine format (number + index) raw,
        (raws.mapIdx fun index raw => overlong uri format (number + index) raw).flatten⟩ := by
  induction raws generalizing number with
  | nil => exact Or.inr ⟨List.forall_mem_nil _, rfl⟩
  | cons raw rest ih =>
      rw [readFrom]
      by_cases binary : '\x00' ∈ raw
      · rw [if_pos (List.contains_iff_mem.mpr binary)]
        refine Or.inl ⟨0, ⟨⟨raw, rfl, binary⟩, ?_⟩, rfl⟩
        exact fun earlier _ before _ => absurd before (Nat.not_lt_zero earlier)
      · rw [if_neg fun found => binary (List.contains_iff_mem.mp found)]
        rcases ih (number + 1) with ⟨index, first, refused⟩ | ⟨clean, read⟩
        · rw [refused]
          refine Or.inl ⟨index + 1, first.later binary, ?_⟩
          rw [show number + 1 + index + 1 = number + (index + 1) + 1 by omega]
        · rw [read]
          refine Or.inr ⟨List.forall_mem_cons.mpr ⟨binary, clean⟩, ?_⟩
          rw [List.mapIdx_cons, List.mapIdx_cons]
          simp only [Nat.add_assoc, Nat.add_comm 1]
          rfl

theorem readLines_readable (uri : String) (format : Format) {text : List Char}
    (readable : ∀ raw ∈ Text.lines text, '\x00' ∉ raw) :
    readLines uri format text =
      .ok ⟨(Text.lines text).mapIdx (readLine format),
        ((Text.lines text).mapIdx (overlong uri format)).flatten⟩ := by
  unfold readLines
  rcases readFrom_cases uri format 0 (Text.lines text) with
    ⟨number, ⟨⟨raw, there, binary⟩, _⟩, _⟩ | ⟨_, read⟩
  · exact absurd binary (readable raw (List.mem_of_getElem? there))
  · simp only [Nat.zero_add] at read
    exact read

/-! ### Each line on its own -/

/-- A line as it is before lines are joined. -/
def prepare (format : Format) (asCode : Bool) (number : Nat) (raw : List Char) : Line :=
  Stage.settleDebugLine asCode (Stage.stripComment (readLine format number raw))

def prepareAll (format : Format) (asCode : Bool) (raws : List (List Char)) : List Line :=
  raws.mapIdx (prepare format asCode)

def rendered (format : Format) (asCode : Bool) (raws : List (List Char)) : List (List Char) :=
  (Stage.joinLines (prepareAll format asCode raws)).map Line.written

namespace Stage

theorem runAll_standard (uri : String) (asCode : Bool) (lines : List Line) :
    let prepared := lines.map fun line => settleDebugLine asCode (stripComment line)
    runAll uri (standard asCode) lines =
      .ok ⟨joinLines prepared, (orphans prepared).map (orphan uri)⟩ := by
  have commentKeeps : comment.countKept lines (.clean (lines.map stripComment)) =
      .ok (.clean (lines.map stripComment)) := if_pos (List.length_map stripComment)
  have debugKeeps : (debugLine asCode).countKept (lines.map stripComment)
      (.clean ((lines.map stripComment).map (settleDebugLine asCode))) =
        .ok (.clean ((lines.map stripComment).map (settleDebugLine asCode))) :=
    if_pos (List.length_map (settleDebugLine asCode))
  have joinKeeps : ∀ given : List Line, continuation.countKept given
      ⟨joinLines given, (orphans given).map (orphan uri)⟩ =
        .ok ⟨joinLines given, (orphans given).map (orphan uri)⟩ :=
    fun given => if_pos (length_joinLines given)
  have commentRuns : comment.runChecked uri lines = .ok (.clean (lines.map stripComment)) :=
    commentKeeps
  have debugRuns : (debugLine asCode).runChecked uri (lines.map stripComment) =
      .ok (.clean ((lines.map stripComment).map (settleDebugLine asCode))) := debugKeeps
  have joinRuns : ∀ given, continuation.runChecked uri given =
      .ok ⟨joinLines given, (orphans given).map (orphan uri)⟩ := by
    intro given
    unfold runChecked
    rw [continuation_transform]
    exact joinKeeps given
  unfold standard
  simp only [runAll, commentRuns, debugRuns, joinRuns, Diagnosed.clean, List.nil_append,
    List.append_nil, List.map_map]
  rfl

end Stage

def reports (uri : String) (format : Format) (asCode : Bool) (raws : List (List Char)) :
    List Diagnostic :=
  (raws.mapIdx (overlong uri format)).flatten ++
    (Stage.orphans (prepareAll format asCode raws)).map (Stage.orphan uri)

theorem preprocess_readable (asCode : Bool) (uri : String) (format : Format) (text : List Char)
    (readable : ∀ raw ∈ Text.lines text, '\x00' ∉ raw) :
    preprocess (.pipeline (Stage.standard asCode)) uri format text =
      .ok ⟨Text.unlines (rendered format asCode (Text.lines text)),
        reports uri format asCode (Text.lines text)⟩ := by
  have ran := Stage.runAll_standard uri asCode ((Text.lines text).mapIdx (readLine format))
  have prepared : ((Text.lines text).mapIdx (readLine format)).map
      (fun line => Stage.settleDebugLine asCode (Stage.stripComment line)) =
        prepareAll format asCode (Text.lines text) := by
    refine List.ext_getElem? fun index => ?_
    unfold prepareAll prepare
    rw [List.getElem?_map, List.getElem?_mapIdx, List.getElem?_mapIdx, Option.map_map]
    rfl
  simp only [prepared] at ran
  unfold preprocess
  rw [readLines_readable uri format readable]
  simp only [Stage.pipeline, ran, writeText]
  rfl

/-- Whether a text is refused depends on NUL characters only. -/
theorem preprocess_standard (asCode : Bool) (uri : String) (format : Format)
    (text : List Char) :
    (∃ number, FirstBinary (Text.lines text) number ∧
      preprocess (.pipeline (Stage.standard asCode)) uri format text =
        .error (.binaryContent (number + 1))) ∨
    (∀ raw ∈ Text.lines text, '\x00' ∉ raw) ∧ ∃ diagnostics,
      preprocess (.pipeline (Stage.standard asCode)) uri format text =
        .ok ⟨Text.unlines (rendered format asCode (Text.lines text)), diagnostics⟩ := by
  rcases readFrom_cases uri format 0 (Text.lines text) with
    ⟨number, first, refused⟩ | ⟨clean, _⟩
  · refine Or.inl ⟨number, first, ?_⟩
    unfold preprocess readLines
    rw [refused, Nat.zero_add]
  · exact Or.inr ⟨clean, _, preprocess_readable asCode uri format text clean⟩

/-! ### One line of the output -/

theorem Line.written_of_content {line : Line} (present : line.content ≠ []) :
    line.written = List.replicate line.offset ' ' ++ Text.trimEnd line.content := by
  unfold written
  rw [List.isEmpty_eq_false_iff.mpr present]
  rfl

theorem Line.written_of_empty {line : Line} (empty : line.content = []) : line.written = [] := by
  unfold written
  rw [empty]
  rfl

theorem Line.mem_written {line : Line} {character : Char} (member : character ∈ line.written) :
    character = ' ' ∨ character ∈ line.content := by
  unfold written at member
  split at member
  · cases member
  · rcases List.mem_append.mp member with blank | inside
    · exact Or.inl (List.eq_of_mem_replicate blank)
    · exact Or.inr ((Text.trimEnd_starts _).subset inside)

theorem Line.getElem?_written (line : Line) (place : Nat) :
    line.written[line.offset + place]? = (Text.trimEnd line.content)[place]? := by
  by_cases empty : line.content = []
  · rw [written_of_empty empty, empty]
    rfl
  · rw [written_of_content empty, List.getElem?_append_right, List.length_replicate,
      Nat.add_sub_cancel_left]
    rw [List.length_replicate]
    exact Nat.le_add_right line.offset place

theorem Line.eq_space_of_written {line : Line} {column : Nat} {character : Char}
    (before : column < line.offset) (there : line.written[column]? = some character) :
    character = ' ' := by
  by_cases empty : line.content = []
  · rw [written_of_empty empty] at there
    cases there
  · rw [written_of_content empty, List.getElem?_append_left (by rwa [List.length_replicate])] at there
    exact List.eq_of_mem_replicate (List.mem_of_getElem? there)

/-! ### Lines that are joined -/

namespace Stage

theorem getElem?_joinLines (lines : List Line) (number : Nat) :
    (joinLines lines)[number]? = lines[number]?.map fun line =>
      if line.isContinuation then line.cleared
      else if isCode line then line.withContent (joined line (lines.drop (number + 1)))
      else line := by
  induction lines generalizing number with
  | nil => rfl
  | cons line rest ih =>
      cases number with
      | zero => rfl
      | succ number => exact ih number

theorem exists_of_continuations {lines : List Line} (follow : continuations lines ≠ []) :
    ∃ later : Nat, (∃ line, lines[later]? = some line ∧ line.isContinuation = true) ∧
      ∀ (between : Nat) (line : Line), between < later → lines[between]? = some line →
        isCode line = false := by
  induction lines with
  | nil => exact absurd rfl follow
  | cons line rest ih =>
      rw [continuations] at follow
      split at follow
      next continues =>
        exact ⟨0, ⟨line, rfl, continues⟩, fun between _ none _ => absurd none (Nat.not_lt_zero _)⟩
      next =>
        split at follow
        next => exact absurd rfl follow
        next blank =>
          obtain ⟨later, there, free⟩ := ih follow
          refine ⟨later + 1, there, fun between other before present => ?_⟩
          cases between with
          | zero =>
              rw [← Option.some.inj present]
              exact Bool.eq_false_iff.mpr blank
          | succ between => exact free between other (Nat.lt_of_succ_lt_succ before) present

theorem join_cases (head tail : List Char) :
    (∃ quote rest, openQuote (Text.trimEnd head) = some quote ∧ Text.trim tail = quote :: rest ∧
      join head tail = Text.trimEnd head ++ rest) ∨
    (∀ quote, openQuote (Text.trimEnd head) = some quote → (Text.trim tail).head? ≠ some quote) ∧
      join head tail = Text.trimEnd head ++ Text.trim tail := by
  unfold join
  dsimp only
  cases openQuote (Text.trimEnd head) with
  | none =>
      right
      constructor
      · intro quote none
        cases none
      · rfl
  | some quote =>
      cases Text.trim tail with
      | nil =>
          right
          constructor
          · intro other _ starts
            cases starts
          · rfl
      | cons first others =>
          dsimp only
          split
          next same =>
            left
            rw [same]
            exact ⟨quote, others, rfl, rfl, rfl⟩
          next different =>
            right
            constructor
            · intro other opened starts
              cases opened
              exact different (Option.some.inj starts)
            · rfl

theorem join_eq (head tail : List Char) :
    ∃ extra, join head tail = Text.trimEnd head ++ extra ∧ Trimmed extra := by
  have whole := Text.trimmed_trim tail
  rcases join_cases head tail with ⟨quote, rest, _, starts, joins⟩ | ⟨_, joins⟩
  · rw [starts] at whole
    exact ⟨rest, joins, whole.tail⟩
  · exact ⟨Text.trim tail, joins, whole⟩

theorem foldl_join {base text : List Char} {extra : List Char}
    (same : text = Text.trimEnd base ++ extra) (trimmed : Trimmed extra) (more : List Line) :
    ∃ further, more.foldl (fun text next => join text next.content) text =
      Text.trimEnd base ++ further ∧ Trimmed further := by
  induction more generalizing text extra with
  | nil => exact ⟨extra, same, trimmed⟩
  | cons next others ih =>
      obtain ⟨added, joins, addedTrimmed⟩ := join_eq text next.content
      have whole : Trimmed (Text.trimEnd base ++ extra) :=
        (Text.trimmed_trimEnd base).append trimmed
      have longer : join text next.content = Text.trimEnd base ++ (extra ++ added) := by
        rw [joins, same, whole, List.append_assoc]
      exact ih longer (trimmed.append addedTrimmed)

/-- A code line keeps its own content, without the blanks at its end, before all that is joined
on. -/
theorem written_joined {line : Line} (code : isCode line = true) (rest : List Line) :
    ∃ extra, (line.withContent (joined line rest)).written = line.written ++ extra ∧
      (continuations rest = [] → extra = []) := by
  unfold joined
  cases following : continuations rest with
  | nil => exact ⟨[], (List.append_nil _).symm, fun _ => rfl⟩
  | cons next others =>
      have visible : Text.isBlankText line.content = false := by
        unfold isCode at code
        simp only [Bool.and_eq_true, Bool.not_eq_true'] at code
        exact code.2
      have kept : Text.trimEnd line.content ≠ [] := by
        intro nothing
        rw [(Text.trimEnd_eq_nil_iff _).mp nothing] at visible
        cases visible
      have present : line.content ≠ [] := by
        intro empty
        rw [empty] at kept
        exact kept rfl
      obtain ⟨first, joins, firstTrimmed⟩ := join_eq line.content next.content
      obtain ⟨extra, all, trimmed⟩ := foldl_join joins firstTrimmed others
      have whole : Trimmed (Text.trimEnd line.content ++ extra) :=
        (Text.trimmed_trimEnd _).append trimmed
      have longer : Text.trimEnd line.content ++ extra ≠ [] :=
        List.append_ne_nil_of_left_ne_nil kept extra
      have joined : (line.withContent (Text.trimEnd line.content ++ extra)).written =
          List.replicate line.offset ' ' ++ Text.trimEnd (Text.trimEnd line.content ++ extra) :=
        Line.written_of_content longer
      refine ⟨extra, ?_, fun none => nomatch none⟩
      rw [List.foldl_cons, all, joined, whole, Line.written_of_content present, List.append_assoc]

end Stage

/-! ### The output is read as it was written -/

theorem beforeComment_starts (opened : Option Char) (content : List Char) :
    beforeComment opened content <+: content := by
  induction content generalizing opened with
  | nil => exact List.prefix_rfl
  | cons character rest ih =>
      rw [beforeComment]
      split
      · exact List.nil_prefix
      · exact List.cons_prefix_cons.mpr ⟨rfl, ih _⟩

theorem readLine_content_subset (format : Format) (number : Nat) (raw : List Char) :
    (readLine format number raw).content ⊆ raw := by
  cases format with
  | fixed => exact List.Subset.trans (List.drop_subset _ _) (List.take_subset _ _)
  | variableLength => exact List.drop_subset _ _
  | free => exact List.Subset.refl raw

theorem prepare_content_subset (format : Format) (asCode : Bool) (number : Nat)
    (raw : List Char) : (prepare format asCode number raw).content ⊆ raw := by
  have stripped : (Stage.stripComment (readLine format number raw)).content ⊆ raw := by
    unfold Stage.stripComment
    split
    · exact List.nil_subset raw
    · exact List.Subset.trans (beforeComment_starts none _).subset
        (readLine_content_subset format number raw)
  unfold prepare Stage.settleDebugLine
  split
  · split
    · exact stripped
    · exact List.nil_subset raw
  · exact stripped

namespace Stage

theorem join_subset (head tail : List Char) : join head tail ⊆ head ++ tail := by
  have headKept : Text.trimEnd head ⊆ head := (Text.trimEnd_starts head).subset
  have tailKept : Text.trim tail ⊆ tail :=
    List.Subset.trans (Text.trimEnd_starts _).subset (List.dropWhile_suffix _).subset
  have both : ∀ extra, extra ⊆ Text.trim tail → Text.trimEnd head ++ extra ⊆ head ++ tail :=
    fun extra within => List.append_subset.mpr
      ⟨List.subset_append_of_subset_left tail headKept,
        List.subset_append_of_subset_right head (List.Subset.trans within tailKept)⟩
  rcases join_cases head tail with ⟨quote, rest, _, starts, joins⟩ | ⟨_, joins⟩
  · rw [joins]
    rw [starts] at both
    exact both rest (List.subset_cons_self quote rest)
  · rw [joins]
    exact both (Text.trim tail) (List.Subset.refl _)

theorem mem_continuations {lines : List Line} {line : Line} (member : line ∈ continuations lines) :
    line ∈ lines := by
  induction lines with
  | nil => exact member
  | cons first rest ih =>
      rw [continuations] at member
      split at member
      · rcases List.mem_cons.mp member with rfl | later
        · exact List.mem_cons_self
        · exact List.mem_cons_of_mem first (ih later)
      · split at member
        · cases member
        · exact List.mem_cons_of_mem first (ih member)

theorem not_mem_foldl_join {character : Char} {text : List Char} {more : List Line}
    (absent : character ∉ text) (others : ∀ line ∈ more, character ∉ line.content) :
    character ∉ more.foldl (fun text next => join text next.content) text := by
  induction more generalizing text with
  | nil => exact absent
  | cons next rest ih =>
      obtain ⟨nextAbsent, restAbsent⟩ := List.forall_mem_cons.mp others
      refine ih (fun member => ?_) restAbsent
      rcases List.mem_append.mp (join_subset text next.content member) with here | there
      · exact absent here
      · exact nextAbsent there

theorem not_mem_joinLines {character : Char} {lines : List Line}
    (absent : ∀ line ∈ lines, character ∉ line.content) :
    ∀ line ∈ joinLines lines, character ∉ line.content := by
  induction lines with
  | nil => exact absent
  | cons line rest ih =>
      obtain ⟨here, later⟩ := List.forall_mem_cons.mp absent
      refine List.forall_mem_cons.mpr ⟨?_, ih later⟩
      split
      · exact List.not_mem_nil
      · split
        · exact not_mem_foldl_join here fun next member => later next (mem_continuations member)
        · exact here

end Stage

theorem Line.tidy_written {line : Line} (oneLine : '\n' ∉ line.content) : Tidy line.written := by
  constructor
  · intro member
    rcases mem_written member with space | inside
    · cases space
    · exact oneLine inside
  · intro ends
    by_cases empty : line.content = []
    · rw [written_of_empty empty] at ends
      cases ends
    · rw [written_of_content empty, List.getLast?_append] at ends
      cases last : (Text.trimEnd line.content).getLast? with
      | none =>
          rw [last, Option.none_or] at ends
          cases List.eq_of_mem_replicate (List.mem_of_getLast? ends)
      | some character =>
          rw [last, Option.some_or] at ends
          cases ends
          exact absurd ((Text.trimmed_trimEnd _).getLast last) (by decide)

theorem rendered_tidy (format : Format) (asCode : Bool) {raws : List (List Char)}
    (oneLine : ∀ raw ∈ raws, '\n' ∉ raw) :
    ∀ line ∈ rendered format asCode raws, Tidy line := by
  have prepared : ∀ line ∈ prepareAll format asCode raws, '\n' ∉ line.content := by
    intro line member
    obtain ⟨number, bound, rfl⟩ := List.mem_mapIdx.mp member
    exact fun inside => oneLine _ (List.getElem_mem bound)
      (prepare_content_subset format asCode number _ inside)
  intro line member
  obtain ⟨joined, present, rfl⟩ := List.mem_map.mp member
  exact Line.tidy_written (Stage.not_mem_joinLines prepared joined present)

theorem length_rendered (format : Format) (asCode : Bool) (raws : List (List Char)) :
    (rendered format asCode raws).length = raws.length := by
  unfold rendered prepareAll
  rw [List.length_map, Stage.length_joinLines, List.length_mapIdx]

/-! ### Without a right margin -/

theorem readFrom_fixed_of_short {raws : List (List Char)}
    (short : ∀ raw ∈ raws, raw.length ≤ rightMargin) (uri : String) (number : Nat) :
    readFrom uri .fixed number raws = readFrom uri .variableLength number raws := by
  induction raws generalizing number with
  | nil => rfl
  | cons raw rest ih =>
      obtain ⟨here, later⟩ := List.forall_mem_cons.mp short
      have line : readLine .fixed number raw = readLine .variableLength number raw := by
        have whole : programText .fixed raw = programText .variableLength raw :=
          congrArg (List.drop programTextColumn) (List.take_of_length_le here)
        unfold readLine referenceLine
        rw [whole]
      have silent : overlong uri .fixed number raw = overlong uri .variableLength number raw := by
        have fits : ¬longestFixedLine < raw.length :=
          Nat.not_lt.mpr (Nat.le_trans here (by decide))
        unfold overlong
        rw [if_neg fun both => fits both.2, if_neg fun both => fits both.2]
      unfold readFrom
      rw [ih later, line, silent]

theorem preprocess_fixed_of_short {text : List Char}
    (short : ∀ raw ∈ Text.lines text, raw.length ≤ rightMargin) (stage : Stage) (uri : String) :
    preprocess stage uri .fixed text = preprocess stage uri .variableLength text := by
  unfold preprocess readLines
  rw [readFrom_fixed_of_short short]

end CobolAnalysis.Source
