/-
Lines that are written out and read back.

What is read back are the same lines at their places, without the blanks at their ends. In the
formats with columns nothing is written before the program text, so that no line has an indicator
any more; in free format a comment is still one. Only a last line that is written empty is lost.
Written out again, the lines give the same text, up to blanks at the ends of lines and one line
feed at the end.
-/

import CobolAnalysis.Proofs.Source.Positions

namespace CobolAnalysis.Source

open Text (Trimmed Tidy SameButBlanks readBack readBack_starts)

/-! ### Writing -/

theorem Line.trimEnd_written (line : Line) : Text.trimEnd line.written =
    if Text.trimEnd line.content = [] then []
    else List.replicate line.offset ' ' ++ Text.trimEnd line.content := by
  by_cases empty : line.content = []
  · rw [written_of_empty empty, empty]
    rfl
  · have margin : Text.trimEnd (List.replicate line.offset ' ') = [] := by
      rw [Text.trimEnd_eq_nil_iff]
      apply List.all_eq_true.mpr
      intro character member
      rw [List.eq_of_mem_replicate member]
      decide
    rw [written_of_content empty, Text.trimEnd_append, Text.trimmed_trimEnd, margin]

/-! ### One line -/

/-- A line, and the line that is read back when it was written out. -/
structure ReadBack (format : Format) (line again : Line) : Prop where
  number : again.number = line.number
  offset : again.offset = line.offset
  content : again.content = Text.trimEnd line.content
  indicator : again.indicator = if format = .free then line.indicator else .normal

section

variable (format : Format) (number : Nat) (raw : List Char)

theorem readLine_number : (readLine format number raw).number = number := by
  cases format <;> rfl

theorem readLine_content_area {place : Nat}
    (inside : place < (readLine format number raw).content.length) :
    InTextArea format (textColumn format + place) := by
  have there := List.getElem?_eq_getElem inside
  rw [readLine_content] at there
  split at there
  next area => exact area
  next => cases there

theorem readLine_written_content :
    (readLine format number (readLine format number raw).written).content =
      Text.trimEnd (readLine format number raw).content := by
  apply List.ext_getElem?
  intro place
  have written := (readLine format number raw).getElem?_written place
  rw [readLine_offset] at written
  rw [readLine_content, written]
  split
  next => rfl
  next outside =>
    apply Eq.symm
    apply List.getElem?_eq_none
    apply Nat.le_trans (Text.trimEnd_starts _).length_le
    apply Nat.le_of_not_lt
    intro inside
    exact outside (readLine_content_area format number raw inside)

theorem referenceLine_written_indicator (line : Line)
    (column : line.offset = programTextColumn) :
    (referenceLine format number line.written).indicator = .normal := by
  have blank : line.written[indicatorColumn]? = none ∨
      line.written[indicatorColumn]? = some ' ' := by
    by_cases empty : line.content = []
    · rw [Line.written_of_empty empty]
      exact Or.inl rfl
    · rw [Line.written_of_content empty, column]
      exact Or.inr rfl
  unfold referenceLine
  rcases blank with none | space
  · rw [none]
    rfl
  · rw [space]
    rfl

theorem freeLine_written_indicator :
    (freeLine number (freeLine number raw).written).indicator =
      (freeLine number raw).indicator := by
  have written : (freeLine number raw).written = Text.trimEnd raw := by
    by_cases empty : raw = []
    · rw [empty]
      rfl
    · exact Line.written_of_content empty
  have mark : Trimmed ['*', '>'] := by
    unfold Trimmed
    decide
  have same : ['*', '>'].isPrefixOf (Text.trimStart (Text.trimEnd raw)) =
      ['*', '>'].isPrefixOf (Text.trimStart raw) := by
    apply Bool.eq_iff_iff.mpr
    rw [List.isPrefixOf_iff_prefix, List.isPrefixOf_iff_prefix, Text.trimStart_trimEnd]
    exact mark.starts_trimEnd_iff (Text.trimStart raw)
  rw [written]
  unfold freeLine
  rw [same]

theorem readBack_readLine : ReadBack format (readLine format number raw)
    (readLine format number (readLine format number raw).written) := by
  constructor
  · rw [readLine_number, readLine_number]
  · rw [readLine_offset, readLine_offset]
  · exact readLine_written_content format number raw
  · cases format with
    | fixed => exact referenceLine_written_indicator .fixed number _ rfl
    | variableLength => exact referenceLine_written_indicator .variableLength number _ rfl
    | free => exact freeLine_written_indicator number raw

theorem overlong_written (uri : String) :
    overlong uri format number (readLine format number raw).written = [] := by
  apply if_neg
  intro long
  obtain ⟨rfl, long⟩ := long
  have fits : (readLine .fixed number raw).content.length ≤ rightMargin - programTextColumn := by
    change ((raw.take rightMargin).drop programTextColumn).length ≤ _
    rw [List.length_drop, List.length_take]
    omega
  have shorter := (Text.trimEnd_starts (readLine .fixed number raw).content).length_le
  have length : (readLine .fixed number raw).written.length ≤ rightMargin := by
    by_cases empty : (readLine .fixed number raw).content = []
    · rw [Line.written_of_empty empty]
      exact Nat.zero_le rightMargin
    · rw [Line.written_of_content empty, List.length_append, List.length_replicate, readLine_offset]
      change programTextColumn + _ ≤ _
      unfold rightMargin programTextColumn at *
      omega
  unfold rightMargin longestFixedLine at *
  omega

end

theorem ReadBack.trimEnd_written {format : Format} {line again : Line}
    (back : ReadBack format line again) :
    Text.trimEnd again.written = Text.trimEnd line.written := by
  rw [again.trimEnd_written, line.trimEnd_written, back.content, back.offset, Text.trimmed_trimEnd]

/-! ### All lines -/

/-- Lines, and what is read back when they were written out. -/
structure AllReadBack (format : Format) (lines back : List Line) : Prop where
  /-- A last line is lost if it is written empty. -/
  count : back.length =
    if (lines.map Line.written).getLast? = some [] then lines.length - 1 else lines.length
  each : ∀ (number : Nat) (again : Line), back[number]? = some again →
    ∃ line, lines[number]? = some line ∧ ReadBack format line again
  text : SameButBlanks (writeText lines) (writeText back) ∨
    SameButBlanks (writeText lines) (writeText back ++ ['\n'])

def readAll (format : Format) (raws : List (List Char)) : List Line := raws.mapIdx (readLine format)

def writtenAll (format : Format) (raws : List (List Char)) : List (List Char) :=
  (readAll format raws).map Line.written

section

variable {format : Format} {raws : List (List Char)}

theorem getElem?_readAll (number : Nat) :
    (readAll format raws)[number]? = raws[number]?.map (readLine format number) :=
  List.getElem?_mapIdx

theorem getElem?_writtenAll (number : Nat) : (writtenAll format raws)[number]? =
    raws[number]?.map fun raw => (readLine format number raw).written := by
  unfold writtenAll
  rw [List.getElem?_map, getElem?_readAll, Option.map_map]
  rfl

theorem mem_writtenAll {written : List Char} (member : written ∈ writtenAll format raws) :
    ∃ raw ∈ raws, ∃ number, (readLine format number raw).written = written := by
  obtain ⟨number, there⟩ := List.mem_iff_getElem?.mp member
  rw [getElem?_writtenAll] at there
  obtain ⟨raw, present, same⟩ := Option.map_eq_some_iff.mp there
  exact ⟨raw, List.mem_of_getElem? present, number, same⟩

theorem getElem?_readBack {number : Nat} {written : List Char}
    (there : (readBack (writtenAll format raws))[number]? = some written) :
    ∃ raw, raws[number]? = some raw ∧ (readLine format number raw).written = written := by
  have front := readBack_starts (writtenAll format raws)
  have same : (writtenAll format raws)[number]? = some written := by
    obtain ⟨rest, split⟩ := front
    rw [← split, List.getElem?_append_left]
    · exact there
    · exact (List.getElem?_eq_some_iff.mp there).1
  rw [getElem?_writtenAll] at same
  exact Option.map_eq_some_iff.mp same

theorem tidy_writtenAll (oneLine : ∀ raw ∈ raws, '\n' ∉ raw) :
    ∀ written ∈ writtenAll format raws, Tidy written := by
  intro written member
  obtain ⟨raw, present, number, same⟩ := mem_writtenAll member
  rw [← same]
  apply Line.tidy_written
  intro inside
  exact oneLine raw present (readLine_content_subset format number raw inside)

theorem oneLine_readBack (oneLine : ∀ raw ∈ raws, '\n' ∉ raw) :
    ∀ written ∈ readBack (writtenAll format raws), '\n' ∉ written := fun written member =>
  (tidy_writtenAll oneLine written ((readBack_starts _).subset member)).oneLine

theorem readable_readBack (readable : ∀ raw ∈ raws, '\x00' ∉ raw) :
    ∀ written ∈ readBack (writtenAll format raws), '\x00' ∉ written := by
  intro written member binary
  obtain ⟨raw, present, number, same⟩ := mem_writtenAll ((readBack_starts _).subset member)
  rw [← same] at binary
  rcases Line.mem_written binary with space | inside
  · cases space
  · exact readable raw present (readLine_content_subset format number raw inside)

theorem overlong_readBack (uri : String) :
    ((readBack (writtenAll format raws)).mapIdx (overlong uri format)).flatten = [] := by
  apply List.flatten_eq_nil_iff.mpr
  intro reports member
  obtain ⟨number, bound, same⟩ := List.mem_mapIdx.mp member
  obtain ⟨raw, _, written⟩ := getElem?_readBack (List.getElem?_eq_getElem bound)
  rw [← same, ← written]
  exact overlong_written format number raw uri

/-- Up to blanks at the ends of lines, what was read back is written as before. -/
theorem writtenAll_readBack :
    (writtenAll format (readBack (writtenAll format raws))).map Text.trimEnd =
      (readBack (writtenAll format raws)).map Text.trimEnd := by
  apply List.ext_getElem?
  intro number
  rw [List.getElem?_map, List.getElem?_map, getElem?_writtenAll, Option.map_map]
  cases there : (readBack (writtenAll format raws))[number]? with
  | none => rfl
  | some written =>
      obtain ⟨raw, _, same⟩ := getElem?_readBack there
      rw [← same]
      exact congrArg some (readBack_readLine format number raw).trimEnd_written

theorem allReadBack (oneLine : ∀ raw ∈ raws, '\n' ∉ raw) : AllReadBack format
    (readAll format raws) (readAll format (readBack (writtenAll format raws))) where
  count := by
    unfold readAll
    rw [List.length_mapIdx, Text.length_readBack]
    unfold writtenAll readAll
    rw [List.length_map]
  each := by
    intro number again there
    rw [getElem?_readAll] at there
    obtain ⟨written, kept, same⟩ := Option.map_eq_some_iff.mp there
    obtain ⟨raw, present, wrote⟩ := getElem?_readBack kept
    refine ⟨readLine format number raw, ?_, ?_⟩
    · rw [getElem?_readAll, present]
      rfl
    · rw [← same, ← wrote]
      exact readBack_readLine format number raw
  text := by
    apply Text.sameButBlanks_readBack
    · exact fun written member => (tidy_writtenAll oneLine written member).oneLine
    · exact fun written member =>
        (tidy_writtenAll (oneLine_readBack oneLine) written member).oneLine
    · exact writtenAll_readBack

end

/-- Lines that are read and written out are read back without a warning, and written again as they
were. -/
theorem readLines_writeText (uri : String) (format : Format) {text : List Char}
    (clean : '\x00' ∉ text) :
    ∃ lines warnings back, readLines uri format text = .ok ⟨lines, warnings⟩ ∧
      readLines uri format (writeText lines) = .ok (.clean back) ∧
      AllReadBack format lines back := by
  have readable : ∀ raw ∈ Text.lines text, '\x00' ∉ raw := fun raw member binary =>
    clean (Text.subset_of_mem_lines member binary)
  have oneLine : ∀ raw ∈ Text.lines text, '\n' ∉ raw := fun raw member =>
    Text.newline_not_mem_of_mem_lines member
  have written : Text.lines (writeText (readAll format (Text.lines text))) =
      readBack (writtenAll format (Text.lines text)) :=
    Text.lines_unlines (tidy_writtenAll oneLine)
  have read := readLines_readable uri format readable
  have again : readLines uri format (writeText (readAll format (Text.lines text))) =
      .ok (.clean (readAll format (readBack (writtenAll format (Text.lines text))))) := by
    rw [readLines_readable, written, overlong_readBack]
    · rfl
    · rw [written]
      exact readable_readBack readable
  exact ⟨_, _, _, read, again, allReadBack oneLine⟩

/-- A comment, a line with blanks at its end, and an empty one. -/
def AllReadBack.sample : List Char := "000100* NOTE\n       DISPLAY 'A'.  \n\n".toList

theorem sample_readLines_writeText :
    '\x00' ∉ AllReadBack.sample ∧ ∃ lines warnings back,
      readLines "file:///a.cbl" .fixed AllReadBack.sample = .ok ⟨lines, warnings⟩ ∧
      writeText lines = "        NOTE\n       DISPLAY 'A'.\n".toList ∧
      readLines "file:///a.cbl" .fixed (writeText lines) = .ok (.clean back) ∧
      back.map Line.content = [" NOTE".toList, "DISPLAY 'A'.".toList] ∧
      AllReadBack .fixed lines back := by
  have clean : '\x00' ∉ AllReadBack.sample := by decide
  obtain ⟨lines, warnings, back, read, again, same⟩ :=
    readLines_writeText "file:///a.cbl" .fixed clean
  have evaluated : (readLines "file:///a.cbl" .fixed AllReadBack.sample).toOption.map
      (fun found => writeText found.value) = some "        NOTE\n       DISPLAY 'A'.\n".toList := by
    decide +kernel
  rw [read] at evaluated
  have written : writeText lines = _ := Option.some.inj evaluated
  have reread : (readLines "file:///a.cbl" .fixed
      "        NOTE\n       DISPLAY 'A'.\n".toList).toOption.map
        (fun found => found.value.map Line.content) =
      some [" NOTE".toList, "DISPLAY 'A'.".toList] := by
    decide +kernel
  rw [← written, again] at reread
  exact ⟨clean, lines, warnings, back, read, written, again, Option.some.inj reread, same⟩

end CobolAnalysis.Source
