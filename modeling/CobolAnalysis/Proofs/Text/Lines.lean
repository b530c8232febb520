/-
Lines that are written out and read again.

A line that neither holds a line feed nor ends with a carriage return is read as it was
written. Only an empty line at the end is lost, as a final line feed opens no further line.
Text without blanks at its end is such a line if it comes from one line of another text. A
text that goes on after a line feed keeps the lines it has by itself. Texts whose lines differ in
the blanks at their ends only are the same to a reader.
-/

import CobolAnalysis.Text.Blank
import CobolAnalysis.Text.Lines

namespace CobolAnalysis.Text

/-! ### Blanks at the end -/

/-- No blank stands at the end. -/
def Trimmed (text : List Char) : Prop := trimEnd text = text

theorem trimEnd_starts (text : List Char) : trimEnd text <+: text := by
  induction text with
  | nil => exact List.prefix_rfl
  | cons character rest ih =>
      unfold trimEnd
      split
      next =>
        split
        · exact List.nil_prefix
        · exact ⟨rest, rfl⟩
      next next others kept =>
        rw [kept] at ih
        exact List.cons_prefix_cons.mpr ⟨rfl, ih⟩

theorem trimEnd_eq_nil_iff (text : List Char) : trimEnd text = [] ↔ isBlankText text = true := by
  induction text with
  | nil => exact iff_of_true rfl rfl
  | cons character rest ih =>
      have both : isBlankText (character :: rest) = (isBlank character && isBlankText rest) := rfl
      unfold trimEnd
      rw [both, Bool.and_eq_true, ← ih]
      split
      next nothing =>
        rw [nothing]
        split
        next blank => exact iff_of_true rfl ⟨blank, rfl⟩
        next visible => exact iff_of_false (List.cons_ne_nil _ _) fun both => visible both.1
      next next others kept =>
        rw [kept]
        exact iff_of_false (List.cons_ne_nil _ _) fun both => List.cons_ne_nil _ _ both.2

theorem trimEnd_append (first second : List Char) :
    trimEnd (first ++ second) =
      if trimEnd second = [] then trimEnd first else first ++ trimEnd second := by
  induction first with
  | nil =>
      rw [List.nil_append]
      split
      next nothing => exact nothing
      next => rfl
  | cons character rest ih =>
      rw [List.cons_append, trimEnd, ih]
      by_cases nothing : trimEnd second = []
      · rw [if_pos nothing, if_pos nothing]
        rfl
      · rw [if_neg nothing, if_neg nothing]
        obtain ⟨last, others, shape⟩ : ∃ last others, rest ++ trimEnd second = last :: others :=
          List.exists_cons_of_ne_nil (List.append_ne_nil_of_right_ne_nil rest nothing)
        rw [List.cons_append, shape]

theorem trimmed_trimEnd (text : List Char) : Trimmed (trimEnd text) := by
  unfold Trimmed
  induction text with
  | nil => rfl
  | cons character rest ih =>
      rw [trimEnd]
      split
      next =>
        split
        · rfl
        next visible => simp [trimEnd, visible]
      next next others kept =>
        rw [kept] at ih
        rw [trimEnd, ih]

theorem trimmed_trim (text : List Char) : Trimmed (trim text) := trimmed_trimEnd _

theorem Trimmed.append {first second : List Char} (firstTrimmed : Trimmed first)
    (secondTrimmed : Trimmed second) : Trimmed (first ++ second) := by
  unfold Trimmed at *
  rw [trimEnd_append, secondTrimmed]
  split
  next nothing => rw [nothing, List.append_nil, firstTrimmed]
  next => rfl

theorem Trimmed.append_left {second : List Char} (trimmed : Trimmed second)
    (present : second ≠ []) (first : List Char) : Trimmed (first ++ second) := by
  unfold Trimmed at *
  rw [trimEnd_append, trimmed, if_neg present]

theorem Trimmed.tail {character : Char} {rest : List Char} (trimmed : Trimmed (character :: rest)) :
    Trimmed rest := by
  unfold Trimmed at *
  rw [trimEnd] at trimmed
  split at trimmed
  next nothing =>
    split at trimmed
    · cases trimmed
    · rw [nothing]
      exact (List.cons.inj trimmed).2
  next next others kept =>
    rw [kept]
    exact (List.cons.inj trimmed).2

theorem Trimmed.getLast {text : List Char} (trimmed : Trimmed text) {last : Char}
    (ends : text.getLast? = some last) : isBlank last = false := by
  obtain ⟨before, rfl⟩ := List.getLast?_eq_some_iff.mp ends
  apply Bool.eq_false_iff.mpr
  intro blank
  unfold Trimmed at trimmed
  rw [trimEnd_append, if_pos (by simp [trimEnd, blank])] at trimmed
  have shorter := (trimEnd_starts before).length_le
  rw [trimmed, List.length_append, List.length_singleton] at shorter
  omega

theorem trimmed_of_getLast {text : List Char}
    (visible : ∀ last, text.getLast? = some last → isBlank last = false) :
    Trimmed text := by
  cases ends : text.getLast? with
  | none =>
      rw [List.getLast?_eq_none_iff.mp ends]
      rfl
  | some last =>
      obtain ⟨before, rfl⟩ := List.getLast?_eq_some_iff.mp ends
      have alone : Trimmed [last] := by
        unfold Trimmed trimEnd
        simp [trimEnd, visible last ends]
      exact alone.append_left (List.cons_ne_nil _ _) before

theorem exists_blanks (text : List Char) :
    ∃ blanks, text = trimEnd text ++ blanks ∧ isBlankText blanks = true := by
  obtain ⟨blanks, split⟩ := trimEnd_starts text
  refine ⟨blanks, split.symm, (trimEnd_eq_nil_iff blanks).mp ?_⟩
  have again := congrArg trimEnd split
  rw [trimEnd_append] at again
  split at again
  next nothing => exact nothing
  next => exact List.append_right_eq_self.mp again

theorem trimStart_trimEnd (text : List Char) : trimStart (trimEnd text) = trim text := by
  unfold trim
  induction text with
  | nil => rfl
  | cons character rest ih =>
      by_cases blank : isBlank character = true
      · have later : trimStart (character :: rest) = trimStart rest :=
          List.dropWhile_cons_of_pos blank
        rw [later, ← ih, trimEnd]
        split
        next nothing => rw [if_pos blank, nothing]
        next next others kept =>
          rw [kept]
          exact List.dropWhile_cons_of_pos blank
      · have whole : ∀ others, trimStart (character :: others) = character :: others :=
          fun others => List.dropWhile_cons_of_neg blank
        rw [whole, trimEnd]
        split
        next => rw [if_neg blank, whole]
        next => rw [whole]

theorem Trimmed.starts_trimEnd_iff {first : List Char} (trimmed : Trimmed first)
    (text : List Char) : first <+: trimEnd text ↔ first <+: text := by
  constructor
  · exact fun starts => starts.trans (trimEnd_starts text)
  · intro starts
    obtain ⟨rest, rfl⟩ := starts
    rw [trimEnd_append]
    split
    next => exact ⟨[], (List.append_nil first).trans trimmed.symm⟩
    next => exact List.prefix_append first (trimEnd rest)

theorem trim_of_visible {text : List Char}
    (visible : ∀ character ∈ text, isBlank character = false) : trim text = text := by
  have start : trimStart text = text := by
    unfold trimStart
    cases text with
    | nil => rfl
    | cons first rest =>
        exact List.dropWhile_cons_of_neg (Bool.eq_false_iff.mp (visible first List.mem_cons_self))
  unfold trim
  rw [start]
  exact trimmed_of_getLast fun last ends => visible last (List.mem_of_getLast? ends)

/-! ### Lines as they were written -/

/-- The line is read as it was written. -/
structure Tidy (line : List Char) : Prop where
  oneLine : '\n' ∉ line
  ending : line.getLast? ≠ some '\r'

theorem newline_not_mem_of_mem_lines {text line : List Char} (member : line ∈ lines text) :
    '\n' ∉ line := by
  induction text using lines.induct generalizing line with
  | case1 => cases member
  | case2 rest ih =>
      rw [lines] at member
      rcases List.mem_cons.mp member with rfl | later
      · exact List.not_mem_nil
      · exact ih later
  | case3 rest ih =>
      rw [lines] at member
      rcases List.mem_cons.mp member with rfl | later
      · exact List.not_mem_nil
      · exact ih later
  | case4 character rest notFeed notReturn nothing ih =>
      rw [lines, nothing] at member
      · rw [List.mem_singleton.mp member, List.mem_singleton]
        exact fun same => notFeed same.symm
      · exact notFeed
      · exact notReturn
  | case5 character rest notFeed notReturn first others following ih =>
      rw [lines, following] at member
      · rcases List.mem_cons.mp member with rfl | later
        · rw [List.mem_cons, not_or]
          refine ⟨fun same => notFeed same.symm, ih ?_⟩
          rw [following]
          exact List.mem_cons_self
        · apply ih
          rw [following]
          exact List.mem_cons_of_mem first later
      · exact notFeed
      · exact notReturn

theorem subset_of_mem_lines {text line : List Char} (member : line ∈ lines text) :
    line ⊆ text := by
  induction text using lines.induct generalizing line with
  | case1 => cases member
  | case2 rest ih =>
      rw [lines] at member
      rcases List.mem_cons.mp member with rfl | later
      · exact List.nil_subset _
      · exact List.subset_cons_of_subset _ (ih later)
  | case3 rest ih =>
      rw [lines] at member
      rcases List.mem_cons.mp member with rfl | later
      · exact List.nil_subset _
      · exact List.subset_cons_of_subset _ (List.subset_cons_of_subset _ (ih later))
  | case4 character rest notFeed notReturn nothing ih =>
      rw [lines, nothing] at member
      · rw [List.mem_singleton.mp member]
        exact List.cons_subset_cons _ (List.nil_subset rest)
      · exact notFeed
      · exact notReturn
  | case5 character rest notFeed notReturn first others following ih =>
      rw [following] at ih
      rw [lines, following] at member
      · rcases List.mem_cons.mp member with rfl | later
        · exact List.cons_subset_cons _ (ih List.mem_cons_self)
        · exact List.subset_cons_of_subset _ (ih (List.mem_cons_of_mem first later))
      · exact notFeed
      · exact notReturn

theorem lines_single {line : List Char} (oneLine : '\n' ∉ line) (present : line ≠ []) :
    lines line = [line] := by
  induction line with
  | nil => exact absurd rfl present
  | cons character rest ih =>
      rw [List.mem_cons, not_or] at oneLine
      have notFeed : character = '\n' → False := fun same => oneLine.1 same.symm
      have notReturn : ∀ more, character = '\r' → rest = '\n' :: more → False := by
        intro more _ same
        exact oneLine.2 (same ▸ List.mem_cons_self)
      cases rest with
      | nil =>
          rw [lines]
          · rfl
          · exact notFeed
          · exact notReturn
      | cons next others =>
          rw [lines, ih oneLine.2 (List.cons_ne_nil _ _)]
          · exact notFeed
          · exact notReturn

theorem Tidy.lines_append {line : List Char} (tidy : Tidy line) (rest : List Char) :
    lines (line ++ '\n' :: rest) = line :: lines rest := by
  induction line with
  | nil =>
      rw [List.nil_append, lines]
  | cons character others ih =>
      have oneLine := tidy.oneLine
      rw [List.mem_cons, not_or] at oneLine
      have notFeed : character = '\n' → False := fun same => oneLine.1 same.symm
      have notReturn : ∀ more, character = '\r' →
          others ++ '\n' :: rest = '\n' :: more → False := by
        intro more isReturn same
        cases others with
        | nil =>
            rw [isReturn] at tidy
            exact tidy.ending rfl
        | cons next further =>
            exact oneLine.2 ((List.cons.inj same).1 ▸ List.mem_cons_self)
      have further : Tidy others := by
        refine ⟨oneLine.2, fun ends => tidy.ending ?_⟩
        cases others with
        | nil => cases ends
        | cons next more => rwa [List.getLast?_cons_cons]
      rw [List.cons_append, lines, ih further]
      · exact notFeed
      · exact notReturn

/-! ### Texts that go on after a line feed -/

def withoutReturn (line : List Char) : List Char :=
  if line.getLast? = some '\r' then line.dropLast else line

theorem withoutReturn_cons {rest : List Char} (present : rest ≠ []) (character : Char) :
    withoutReturn (character :: rest) = character :: withoutReturn rest := by
  obtain ⟨next, others, rfl⟩ := List.exists_cons_of_ne_nil present
  unfold withoutReturn
  rw [List.getLast?_cons_cons, List.dropLast_cons_cons, apply_ite (List.cons character)]

theorem lines_cons {character : Char} {rest line : List Char} {others : List (List Char)}
    (notFeed : character = '\n' → False)
    (notReturn : ∀ more, character = '\r' → rest = '\n' :: more → False)
    (following : lines rest = line :: others) :
    lines (character :: rest) = (character :: line) :: others := by
  rw [lines, following]
  · exact notFeed
  · exact notReturn

theorem lines_ne_nil {text : List Char} (present : text ≠ []) : lines text ≠ [] := by
  induction text using lines.induct with
  | case1 => exact absurd rfl present
  | case2 rest ih =>
      rw [lines]
      exact List.cons_ne_nil _ _
  | case3 rest ih =>
      rw [lines]
      exact List.cons_ne_nil _ _
  | case4 character rest notFeed notReturn nothing ih =>
      rw [lines, nothing]
      · exact List.cons_ne_nil _ _
      · exact notFeed
      · exact notReturn
  | case5 character rest notFeed notReturn first others following ih =>
      rw [lines_cons notFeed notReturn following]
      exact List.cons_ne_nil _ _

/-- Followed by a line feed, a text has the lines it has by itself. Only a carriage return at its
end is no longer part of the last line. -/
theorem lines_append_newline {text : List Char} (present : text ≠ [])
    (unended : text.getLast? ≠ some '\n') :
    ∃ earlier last, last ≠ [] ∧ lines text = earlier ++ [last] ∧
      ∀ rest, lines (text ++ '\n' :: rest) = earlier ++ withoutReturn last :: lines rest := by
  induction text using lines.induct with
  | case1 => exact absurd rfl present
  | case2 others ih =>
      have more : others ≠ [] := by
        rintro rfl
        exact unended rfl
      obtain ⟨next, further, rfl⟩ := List.exists_cons_of_ne_nil more
      rw [List.getLast?_cons_cons] at unended
      obtain ⟨earlier, last, visible, alone, followed⟩ := ih more unended
      refine ⟨[] :: earlier, last, visible, ?_, ?_⟩
      · rw [lines, alone, List.cons_append]
      · intro rest
        rw [List.cons_append, lines, followed, List.cons_append]
  | case3 others ih =>
      have more : others ≠ [] := by
        rintro rfl
        exact unended rfl
      obtain ⟨next, further, rfl⟩ := List.exists_cons_of_ne_nil more
      rw [List.getLast?_cons_cons, List.getLast?_cons_cons] at unended
      obtain ⟨earlier, last, visible, alone, followed⟩ := ih more unended
      refine ⟨[] :: earlier, last, visible, ?_, ?_⟩
      · rw [lines, alone, List.cons_append]
      · intro rest
        rw [List.cons_append, List.cons_append, lines, followed, List.cons_append]
  | case4 character others notFeed notReturn nothing ih =>
      cases others with
      | cons next further => exact absurd nothing (lines_ne_nil (List.cons_ne_nil next further))
      | nil =>
          have oneLine : '\n' ∉ [character] := by
            rw [List.mem_singleton]
            exact fun same => notFeed same.symm
          refine ⟨[], [character], List.cons_ne_nil _ _, ?_, ?_⟩
          · exact lines_single oneLine (List.cons_ne_nil _ _)
          · intro rest
            rw [List.nil_append, List.singleton_append]
            by_cases isReturn : character = '\r'
            · rw [isReturn, lines]
              rfl
            · have tidy : Tidy [character] :=
                ⟨oneLine, fun ends => isReturn (Option.some.inj ends)⟩
              have kept : withoutReturn [character] = [character] :=
                if_neg fun ends => isReturn (Option.some.inj ends)
              rw [kept]
              exact tidy.lines_append rest
  | case5 character others notFeed notReturn first following shape ih =>
      have more : others ≠ [] := by
        rintro rfl
        cases shape
      have ends : others.getLast? ≠ some '\n' := by
        obtain ⟨next, further, rfl⟩ := List.exists_cons_of_ne_nil more
        rwa [List.getLast?_cons_cons] at unended
      have stillNoReturn : ∀ rest further, character = '\r' →
          others ++ '\n' :: rest = '\n' :: further → False := by
        intro rest further isReturn same
        obtain ⟨next, remaining, rfl⟩ := List.exists_cons_of_ne_nil more
        rw [List.cons_append] at same
        exact notReturn remaining isReturn (congrArg (· :: remaining) (List.cons.inj same).1)
      obtain ⟨earlier, last, visible, alone, followed⟩ := ih more ends
      cases earlier with
      | nil =>
          refine ⟨[], character :: last, List.cons_ne_nil _ _, ?_, ?_⟩
          · exact lines_cons notFeed notReturn alone
          · intro rest
            rw [withoutReturn_cons visible]
            exact lines_cons notFeed (stillNoReturn rest) (followed rest)
      | cons line earlier =>
          refine ⟨(character :: line) :: earlier, last, visible, ?_, ?_⟩
          · exact lines_cons notFeed notReturn alone
          · intro rest
            exact lines_cons notFeed (stillNoReturn rest) (followed rest)

/-! ### Reading back -/

/-- An empty last line is lost when it is read again. -/
def readBack (written : List (List Char)) : List (List Char) :=
  if written.getLast? = some [] then written.dropLast else written

theorem lines_unlines {written : List (List Char)} (tidy : ∀ line ∈ written, Tidy line) :
    lines (unlines written) = readBack written := by
  unfold readBack
  induction written using unlines.induct with
  | case1 => rfl
  | case2 line =>
      rw [unlines]
      by_cases empty : line = []
      · rw [empty]
        rfl
      · rw [lines_single (tidy line List.mem_cons_self).oneLine empty, if_neg]
        exact fun last => empty (Option.some.inj last)
  | case3 line next others ih =>
      obtain ⟨first, rest⟩ := List.forall_mem_cons.mp tidy
      rw [unlines, first.lines_append, ih rest, List.getLast?_cons_cons]
      split
      next => rfl
      next => rfl

theorem readBack_starts (written : List (List Char)) : readBack written <+: written := by
  unfold readBack
  split
  · exact List.dropLast_prefix written
  · exact List.prefix_rfl

theorem readBack_cases (written : List (List Char)) :
    readBack written = written ∨ written = readBack written ++ [[]] := by
  unfold readBack
  split
  next empty =>
    right
    obtain ⟨before, split⟩ := List.getLast?_eq_some_iff.mp empty
    rw [split, List.dropLast_concat]
  next => exact Or.inl rfl

theorem length_readBack (written : List (List Char)) :
    (readBack written).length =
      if written.getLast? = some [] then written.length - 1 else written.length := by
  rw [readBack, apply_ite List.length, List.length_dropLast]

theorem unlines_eq_intercalate (written : List (List Char)) :
    unlines written = ['\n'].intercalate written := by
  induction written using unlines.induct with
  | case1 => rfl
  | case2 line => simp [unlines, List.intercalate]
  | case3 line next others ih =>
      rw [unlines, ih]
      simp [List.intercalate]

theorem splitOn_unlines {written : List (List Char)}
    (oneLine : ∀ line ∈ written, '\n' ∉ line) (present : written ≠ []) :
    (unlines written).splitOn '\n' = written := by
  rw [unlines_eq_intercalate]
  exact List.splitOn_intercalate '\n' oneLine present

theorem unlines_append_nil {written : List (List Char)} (present : written ≠ []) :
    unlines (written ++ [[]]) = unlines written ++ ['\n'] := by
  induction written using unlines.induct with
  | case1 => exact absurd rfl present
  | case2 line => rfl
  | case3 line next others ih =>
      have later := ih (List.cons_ne_nil next others)
      rw [List.cons_append] at later
      rw [List.cons_append, List.cons_append, unlines, later, unlines, List.append_assoc]
      rfl

/-! ### Texts that differ in blanks only -/

/-- The texts have the same lines, but for the blanks at their ends. -/
def SameButBlanks (first second : List Char) : Prop :=
  (first.splitOn '\n').map trimEnd = (second.splitOn '\n').map trimEnd

theorem sameButBlanks_unlines {first second : List (List Char)}
    (firstSplit : ∀ line ∈ first, '\n' ∉ line) (secondSplit : ∀ line ∈ second, '\n' ∉ line)
    (same : first.map trimEnd = second.map trimEnd) :
    SameButBlanks (unlines first) (unlines second) := by
  cases first with
  | nil =>
      rw [List.map_eq_nil_iff.mp same.symm]
      rfl
  | cons line rest =>
      have present : second ≠ [] := by
        intro none
        rw [none] at same
        cases same
      unfold SameButBlanks
      rw [splitOn_unlines firstSplit (List.cons_ne_nil line rest),
        splitOn_unlines secondSplit present]
      exact same

/-- Written out, what was read back differs in blanks from what it was read from, and in the line
feed that an empty line at the end leaves. -/
theorem sameButBlanks_readBack {written again : List (List Char)}
    (split : ∀ line ∈ written, '\n' ∉ line) (againSplit : ∀ line ∈ again, '\n' ∉ line)
    (same : again.map trimEnd = (readBack written).map trimEnd) :
    SameButBlanks (unlines written) (unlines again) ∨
      SameButBlanks (unlines written) (unlines again ++ ['\n']) := by
  rcases readBack_cases written with kept | lost
  · left
    rw [kept] at same
    exact sameButBlanks_unlines split againSplit same.symm
  · rw [lost] at split ⊢
    by_cases only : readBack written = []
    · left
      rw [only, List.map_nil] at same
      rw [only, List.map_eq_nil_iff.mp same]
      rfl
    · right
      have present : again ≠ [] := by
        intro none
        rw [none] at same
        exact only (List.map_eq_nil_iff.mp same.symm)
      rw [← unlines_append_nil present]
      apply sameButBlanks_unlines split
      · intro line member
        rcases List.mem_append.mp member with here | last
        · exact againSplit line here
        · rw [List.mem_singleton.mp last]
          exact List.not_mem_nil
      · rw [List.map_append, List.map_append, same]

end CobolAnalysis.Text
