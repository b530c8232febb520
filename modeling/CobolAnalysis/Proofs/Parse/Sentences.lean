/-
Texts that end with a sentence.

The parser looks ahead, and steps over COPY statements as a whole, but never goes past the period
that ends a text: every lexeme it looks behind is one that no sentence ends with. Past that period
the walk is where it was at the start. So a text that goes on after a finished one is parsed as if
it stood alone, so many lines further down.
-/

import CobolAnalysis.Proofs.Parse.Grammar
import CobolAnalysis.Proofs.Parse.Lowering

namespace CobolAnalysis

namespace Lexeme

theorem isSeparator_of_kind {lexeme : Lexeme} (other : lexeme.kind ≠ .period) :
    lexeme.isSeparator = false := by
  apply Bool.eq_false_iff.mpr
  intro ends
  exact other (kind_of_isSeparator ends)

theorem isSeparator_of_isWord {lexeme : Lexeme} {keyword : String}
    (word : lexeme.isWord keyword = true) : lexeme.isSeparator = false := by
  apply Bool.eq_false_iff.mpr
  intro ends
  rw [isWord_of_isSeparator ends] at word
  cases word

theorem isRecognized_of_isSeparator {lexeme : Lexeme} (ends : lexeme.isSeparator = true) :
    lexeme.isRecognized = true := by
  unfold isRecognized
  rw [kind_of_isSeparator ends]
  rfl

theorem isSeparator_of_names {lexeme : Lexeme}
    (names : (lexeme.isName || lexeme.kind == .literal) = true) : lexeme.isSeparator = false := by
  apply isSeparator_of_kind
  intro period
  unfold isName at names
  rw [period] at names
  cases names

end Lexeme

namespace Parse

/-- The last lexeme ends a sentence. -/
def EndsSentence (lexemes : List Lexeme) : Prop :=
  (lexemes.getLast?).any Lexeme.isSeparator = true

def PeriodAt (lexemes : List Lexeme) (index : Nat) : Prop :=
  (lexemes[index]?).any (fun lexeme => lexeme.kind == .period) = true

/-- The lexemes end with a sentence. No procedure division begins among them, and no word OF or IN
stands directly before a period. -/
structure Finished (lexemes : List Lexeme) : Prop where
  ends : EndsSentence lexemes
  division : ∀ index, WordAt lexemes "PROCEDURE" index → ¬WordAt lexemes "DIVISION" (index + 1)
  library : ∀ index, WordAt lexemes "OF" index ∨ WordAt lexemes "IN" index →
    ¬PeriodAt lexemes (index + 1)

instance (lexemes : List Lexeme) : Decidable (EndsSentence lexemes) :=
  inferInstanceAs (Decidable (_ = true))

instance (lexemes : List Lexeme) (index : Nat) : Decidable (PeriodAt lexemes index) :=
  inferInstanceAs (Decidable (_ = true))

instance (lexemes : List Lexeme) : Decidable (Finished lexemes) :=
  decidable_of_iff (EndsSentence lexemes ∧
      (∀ index < lexemes.length, WordAt lexemes "PROCEDURE" index →
        ¬WordAt lexemes "DIVISION" (index + 1)) ∧
      ∀ index < lexemes.length, WordAt lexemes "OF" index ∨ WordAt lexemes "IN" index →
        ¬PeriodAt lexemes (index + 1))
    ⟨fun ⟨ends, division, library⟩ => ⟨ends, fun index word => division index word.within word,
        fun index word => library index (word.elim WordAt.within WordAt.within) word⟩,
      fun finished => ⟨finished.ends, fun index _ => finished.division index,
        fun index _ => finished.library index⟩⟩

namespace EndsSentence

variable {first : Lexeme} {rest : List Lexeme}

theorem exists_cons (ends : EndsSentence rest) : ∃ first others, rest = first :: others := by
  cases rest with
  | nil => cases ends
  | cons first others => exact ⟨first, others, rfl⟩

theorem cons_cases (ends : EndsSentence (first :: rest)) :
    first.isSeparator = true ∨ EndsSentence rest := by
  cases rest with
  | nil => exact Or.inl ends
  | cons next others =>
      unfold EndsSentence at ends
      rw [List.getLast?_cons_cons] at ends
      exact Or.inr ends

theorem after (ends : EndsSentence (first :: rest)) (other : first.isSeparator = false) :
    EndsSentence rest := by
  rcases ends.cons_cases with here | later
  · rw [other] at here
    cases here
  · exact later

theorem exists_period (ends : EndsSentence rest) : ∃ period ∈ rest, period.isSeparator = true := by
  obtain ⟨last, there, isSeparator⟩ := (Option.any_eq_true _ _).mp ends
  exact ⟨last, List.mem_of_getLast? there, isSeparator⟩

end EndsSentence

/-! ### Looking ahead -/

section Ahead

variable {rest : List Lexeme} (ends : EndsSentence rest) (more : List Lexeme)

include ends

theorem Transfer.rangeEnd_append : rangeEnd (rest ++ more) = rangeEnd rest := by
  obtain ⟨first, others, rfl⟩ := ends.exists_cons
  unfold rangeEnd
  rw [List.cons_append, List.getElem?_cons_zero, List.getElem?_cons_zero, Option.any_some]
  by_cases through : (first.isWord "THRU" || first.isWord "THROUGH") = true
  · have further : EndsSentence others := by
      apply ends.after
      rcases Bool.or_eq_true_iff.mp through with word | word
      · exact Lexeme.isSeparator_of_isWord word
      · exact Lexeme.isSeparator_of_isWord word
    obtain ⟨second, remaining, rfl⟩ := further.exists_cons
    rfl
  · rw [if_neg through, if_neg through]

theorem Transfer.performed_append : performed (rest ++ more) = performed rest := by
  obtain ⟨target, afterTarget, rfl⟩ := ends.exists_cons
  rw [List.cons_append, performed, performed]
  by_cases name : target.isName = true
  · have further : EndsSentence afterTarget := by
      apply ends.after
      exact Lexeme.isSeparator_of_names (Bool.or_eq_true_iff.mpr (Or.inl name))
    have repetition : isRepetition target (afterTarget ++ more) =
        isRepetition target afterTarget := by
      obtain ⟨next, others, rfl⟩ := further.exists_cons
      rfl
    rw [repetition, rangeEnd_append further]
  · rw [Bool.eq_false_iff.mpr name]
    rfl

theorem Transfer.gone_append : gone (rest ++ more) = gone rest := by
  obtain ⟨first, others, rfl⟩ := ends.exists_cons
  unfold gone
  rw [List.cons_append, List.getElem?_cons_zero, List.getElem?_cons_zero, Option.any_some]
  by_cases preposition : first.isWord "TO" = true
  · obtain ⟨second, remaining, rfl⟩ :=
      (ends.after (Lexeme.isSeparator_of_isWord preposition)).exists_cons
    rfl
  · rw [if_neg preposition, if_neg preposition]

theorem Transfer.findings_append (uri : String) (word : Lexeme) :
    findings uri word (rest ++ more) = findings uri word rest := by
  unfold findings targets
  rw [performed_append ends, gone_append ends]

theorem CopyStatement.operand?_append : operand? (rest ++ more) = operand? rest := by
  obtain ⟨first, others, rfl⟩ := ends.exists_cons
  rfl

theorem CopyStatement.pastSeparator_append :
    pastSeparator (rest ++ more) = pastSeparator rest ∧ pastSeparator rest ≤ rest.length := by
  induction rest with
  | nil => cases ends
  | cons first others ih =>
      rw [List.cons_append, pastSeparator, pastSeparator, List.length_cons]
      by_cases separator : first.isSeparator = true
      · rw [if_pos separator, if_pos separator]
        exact ⟨rfl, Nat.le_add_left 1 _⟩
      · obtain ⟨same, within⟩ := ih (ends.after (Bool.eq_false_iff.mpr separator))
        rw [if_neg separator, if_neg separator, same]
        exact ⟨rfl, Nat.succ_le_succ within⟩

theorem CopyStatement.endingExtent_append :
    endingExtent (rest ++ more) = endingExtent rest ∧ endingExtent rest ≤ rest.length := by
  obtain ⟨same, within⟩ := pastSeparator_append ends more
  obtain ⟨first, others, rfl⟩ := ends.exists_cons
  unfold endingExtent
  rw [same]
  refine ⟨rfl, ?_⟩
  simp only [List.head?_cons]
  split
  · exact Nat.le_add_left 1 _
  split
  · exact within
  · exact Nat.zero_le _

end Ahead

/-! ### COPY statements -/

theorem Finished.drop {lexemes : List Lexeme} (finished : Finished lexemes) {count : Nat}
    (left : count < lexemes.length) : Finished (lexemes.drop count) where
  ends := by
    unfold EndsSentence
    rw [List.getLast?_drop, if_neg (Nat.not_le.mpr left)]
    exact finished.ends
  division := by
    intro index
    rw [wordAt_drop, wordAt_drop]
    exact finished.division (count + index)
  library := by
    intro index
    rw [wordAt_drop, wordAt_drop]
    unfold PeriodAt
    rw [List.getElem?_drop]
    exact finished.library (count + index)

theorem Finished.after {first : Lexeme} {rest : List Lexeme} (finished : Finished (first :: rest))
    (other : first.isSeparator = false) : Finished rest := by
  obtain ⟨next, others, rfl⟩ := (finished.ends.after other).exists_cons
  exact finished.drop (Nat.succ_lt_succ (Nat.succ_pos others.length))

theorem CopyStatement.library_within {afterName : List Lexeme} (finished : Finished afterName) :
    libraryExtent afterName < afterName.length := by
  obtain ⟨preposition, others, rfl⟩ := finished.ends.exists_cons
  unfold libraryExtent
  simp only [List.head?_cons]
  split
  next word =>
    have isWord : WordAt (preposition :: others) "OF" 0 ∨ WordAt (preposition :: others) "IN" 0 :=
      Bool.or_eq_true_iff.mp word
    have other : preposition.isSeparator = false := by
      rcases isWord with word | word
      · exact Lexeme.isSeparator_of_isWord word
      · exact Lexeme.isSeparator_of_isWord word
    have further := finished.ends.after other
    obtain ⟨library, remaining, rfl⟩ := further.exists_cons
    have noPeriod : library.kind ≠ .period := by
      intro period
      exact finished.library 0 isWord (beq_iff_eq.mpr period)
    obtain ⟨next, last, rfl⟩ := (further.after (Lexeme.isSeparator_of_kind noPeriod)).exists_cons
    simp only [List.length_cons]
    omega
  next => exact Nat.succ_pos others.length

/-- A COPY statement does not go past the period that ends the lexemes. -/
theorem CopyStatement.extent_append {rest : List Lexeme} (finished : Finished rest)
    (more : List Lexeme) : extent (rest ++ more) = extent rest ∧ extent rest ≤ rest.length := by
  unfold extent
  rw [operand?_append finished.ends]
  cases named : operand? rest with
  | none => exact pastSeparator_append finished.ends more
  | some operand =>
      obtain ⟨first, names⟩ := Option.filter_eq_some_iff.mp named
      obtain ⟨afterName, rfl⟩ := List.head?_eq_some_iff.mp first
      have further := finished.after (Lexeme.isSeparator_of_names names)
      have library : libraryExtent (afterName ++ more) = libraryExtent afterName := by
        obtain ⟨next, others, rfl⟩ := further.ends.exists_cons
        rfl
      have within := library_within further
      obtain ⟨same, ending⟩ := endingExtent_append (further.drop within).ends more
      have apart : (afterName ++ more).drop (libraryExtent afterName) =
          afterName.drop (libraryExtent afterName) ++ more :=
        List.drop_append_of_le_length (Nat.le_of_lt within)
      rw [List.length_drop] at ending
      constructor
      · simp only [List.cons_append, List.drop_succ_cons, List.drop_zero, library, apart, same,
          Nat.add_comm 1]
      · simp only [List.drop_succ_cons, List.drop_zero, Nat.add_comm 1, List.length_cons]
        omega

/-! ### The walk -/

theorem foundAt_append {lexeme : Lexeme} {rest : List Lexeme}
    (ends : EndsSentence (lexeme :: rest)) (setting : Setting) (progress : Progress)
    (more : List Lexeme) :
    foundAt setting progress lexeme (rest ++ more) = foundAt setting progress lexeme rest := by
  unfold foundAt findingsAt
  rcases ends.cons_cases with separator | later
  · have nothing : ∀ others, Transfer.findings setting.uri lexeme others = [] := by
      intro others
      unfold Transfer.findings Transfer.targets
      rw [Lexeme.isWord_of_isSeparator separator, Lexeme.isWord_of_isSeparator separator]
      rfl
    rw [Sentence.findings_of_isSeparator separator, Sentence.findings_of_isSeparator separator,
      nothing, nothing]
  · rw [Sentence.findings_append later.exists_period, Transfer.findings_append later]

/-- The walk is about to go on with these lexemes, outside the procedure division. With none left it
stands at the end of a sentence. -/
structure Awaits (progress : Progress) (ahead : List Lexeme) : Prop where
  outside : progress.inProcedure = false
  division : ∀ next, ahead.head? = some next → progress.inProcedureAt next = false
  finished : Finished ahead ∨ ahead = [] ∧ progress.Alike (.resumed false)

/-- The walk has gone past some of the lexemes, the last of which is `last`. -/
theorem Finished.awaits {lexemes : List Lexeme} (finished : Finished lexemes) (count : Nat)
    {last : Lexeme} (there : lexemes[count]? = some last) {progress : Progress}
    (behind : progress.previous = some last) (outside : progress.inProcedure = false)
    (start : last.isSeparator = true → progress.atSentenceStart = true) :
    Awaits progress (lexemes.drop (count + 1)) where
  outside := outside
  division := by
    intro next first
    rw [List.head?_drop] at first
    unfold Progress.inProcedureAt
    rw [behind]
    simp only
    split
    next isDivision =>
      have noProcedure := mt (finished.division count)
        (not_not.mpr ((wordAt_of_getElem? first "DIVISION").mpr isDivision))
      rw [wordAt_of_getElem? there] at noProcedure
      exact Bool.eq_false_iff.mpr noProcedure
    next => exact outside
  finished := by
    by_cases left : count + 1 < lexemes.length
    · exact Or.inl (finished.drop left)
    · right
      have within := (List.getElem?_eq_some_iff.mp there).1
      have atEnd : lexemes.getLast? = some last := by
        rw [List.getLast?_eq_getElem?, ← there]
        congr
        omega
      have ends : last.isSeparator = true := by
        have ends := finished.ends
        unfold EndsSentence at ends
        rw [atEnd] at ends
        exact ends
      refine ⟨List.drop_eq_nil_of_le (Nat.not_lt.mp left), ?_⟩
      rw [← outside]
      exact Progress.alike_resumed behind (Lexeme.isWord_of_isSeparator ends "PROCEDURE")
        (start ends)

theorem getElem?_operands {rest : List Lexeme} {count : Nat} (within : count ≤ rest.length)
    (copy : Lexeme) : (copy :: rest)[count]? = some ((rest.take count).getLastD copy) := by
  cases count with
  | zero => rfl
  | succ count =>
      have there : rest[count]? = some rest[count] := List.getElem?_eq_getElem within
      rw [List.getElem?_cons_succ, List.getLastD_eq_getLast?, List.getLast?_take,
        if_neg (Nat.succ_ne_zero count), Nat.add_sub_cancel, there]
      rfl

/-- Past finished lexemes, the walk is where it was at the start, and nothing that follows makes a
difference to what was found before. -/
theorem walk_append (setting : Setting) {progress : Progress} {own : List Lexeme}
    (awaits : Awaits progress own) (more : List Lexeme) :
    ∃ after : Progress, after.Alike (.resumed false) ∧
      walk setting progress (own ++ more) = walk setting progress own ++ walk setting after more := by
  -- No step goes past the last period, so the walk awaits what the step leaves of the lexemes.
  induction progress, own using walk_induction with
  | nil progress =>
      rcases awaits.finished with finished | ⟨_, alike⟩
      · cases finished.ends
      · refine ⟨progress, alike, ?_⟩
        rw [walk]
        rfl
  | copy progress lexeme rest copy ih =>
      rcases awaits.finished with finished | ⟨none, _⟩
      · have other := Lexeme.isSeparator_of_isWord copy
        have further := finished.after other
        obtain ⟨same, within⟩ := CopyStatement.extent_append further more
        have given : CopyStatement.finding setting.uri lexeme (rest ++ more) =
            CopyStatement.finding setting.uri lexeme rest := by
          unfold CopyStatement.finding
          rw [CopyStatement.operand?_append further.ends]
        have past : Awaits (progress.pastCopy lexeme (rest.take (CopyStatement.extent rest)))
            (rest.drop (CopyStatement.extent rest)) :=
          finished.awaits _ (getElem?_operands within lexeme) rfl awaits.outside fun _ => rfl
        obtain ⟨after, alike, onward⟩ := ih past
        refine ⟨after, alike, ?_⟩
        rw [List.cons_append, walk_copy setting progress copy, walk_copy setting progress copy,
          given, same, List.take_append_of_le_length within, List.drop_append_of_le_length within,
          onward, List.cons_append]
      · cases none
  | other progress lexeme rest other ih =>
      rcases awaits.finished with finished | ⟨none, _⟩
      · have past : Awaits (progress.step lexeme) rest := by
          unfold Progress.step
          split
          next => exact finished.awaits 0 rfl rfl (awaits.division lexeme rfl) id
          next unknown =>
            refine finished.awaits 0 rfl rfl awaits.outside fun ends => ?_
            exact absurd (Lexeme.isRecognized_of_isSeparator ends) unknown
        obtain ⟨after, alike, onward⟩ := ih past
        refine ⟨after, alike, ?_⟩
        rw [List.cons_append, walk_step other, walk_step other, foundAt_append finished.ends,
          onward, List.append_assoc]
      · cases none

/-! ### Documents -/

theorem Finding.record_merge (left right : Context) (finding : Finding) :
    finding.record (left.merge right) = left.merge (finding.record right) := by
  cases finding with
  | problem diagnostic =>
      refine congrArg (Context.mk _) ?_
      exact List.append_assoc left.diagnostics right.diagnostics [diagnostic]
  | definition kind written location =>
      exact left.merge_record_union right (.ofWritten kind written) (Occurrences.none.define location)
  | usage kind written location =>
      exact left.merge_record_union right (.ofWritten kind written) (Occurrences.none.use location)
  | copy reference =>
      exact left.merge_record_union right (.ofWritten .copybook reference.name.text)
        (Occurrences.none.use reference.location)

theorem ofFindings_append (findings others : List Finding) :
    (ParsedDocument.ofFindings (findings ++ others)).context =
      (ParsedDocument.ofFindings findings).context.merge
        (ParsedDocument.ofFindings others).context := by
  have recorded : ∀ left right : Context,
      others.foldl Finding.record (left.merge right) =
        left.merge (others.foldl Finding.record right) := by
    intro left
    induction others with
    | nil => exact fun _ => rfl
    | cons finding rest ih =>
        intro right
        rw [List.foldl_cons, List.foldl_cons, Finding.record_merge, ih]
  have apart := recorded (ParsedDocument.ofFindings findings).context .empty
  rw [Context.merge_empty] at apart
  unfold ParsedDocument.ofFindings
  rw [List.foldl_append]
  exact apart

/-- A text that goes on after a finished one is parsed as if it stood alone, in its place further
down. -/
theorem sentences_parsed_apart (uri : String) (text rest : List Char) (format : Source.Format)
    (options : Options) (unended : text.getLast? ≠ some '\n')
    (finished : Finished (Lexeme.scan text)) :
    ∃ first second whole, standard uri text format options = .ok first ∧
      standard uri rest format options = .ok second ∧
      standard uri (text ++ '\n' :: rest) format options = .ok whole ∧
      whole.references = first.references ++
        second.references.map (Reference.lowered (Text.lines text).length) ∧
      whole.context = first.context.merge (second.context.lowered (Text.lines text).length) := by
  obtain ⟨last, ends, separator⟩ := (Option.any_eq_true _ _).mp finished.ends
  have recognized := Lexeme.isRecognized_of_isSeparator separator
  have awaits : Awaits .start (Lexeme.scan text) := ⟨rfl, fun _ _ => rfl, Or.inl finished⟩
  have found : findingsOf ⟨uri, format, options⟩ (text ++ '\n' :: rest) =
      findingsOf ⟨uri, format, options⟩ text ++
        (findingsOf ⟨uri, format, options⟩ rest).map
          (Finding.lowered (Text.lines text).length) := by
    obtain ⟨after, alike, apart⟩ := walk_append ⟨uri, format, options⟩ awaits
      ((Lexeme.scan rest).map (Lexeme.lowered (Text.lines text).length))
    unfold findingsOf
    rw [Lexeme.scan_append_newline ends recognized unended, apart,
      walk_lowered _ _ (alike.trans Progress.start_alike_resumed.symm)]
  refine ⟨_, _, _, rfl, rfl, rfl, ?_, ?_⟩
  · have asked := congrArg ParsedDocument.references
      (ParsedDocument.ofFindings_lowered (Text.lines text).length
        (findingsOf ⟨uri, format, options⟩ rest))
    unfold document
    rw [found]
    exact List.filterMap_append.trans (congrArg (_ ++ ·) asked)
  · unfold document
    rw [found, ofFindings_append, ParsedDocument.ofFindings_lowered]
    rfl

/-! #### A text that goes on after an unfinished statement -/

namespace Sentences.Sample

def text : List Char := "COPY A IN L.\nCOPY (.\r".toList

def rest : List Char := "COPY B.\nSTEP.".toList

end Sentences.Sample

open Sentences in
theorem sample_sentences_parsed_apart :
    Sample.text.getLast? ≠ some '\n' ∧ Finished (Lexeme.scan Sample.text) ∧
      ∃ whole, standard "root" (Sample.text ++ '\n' :: Sample.rest) .free ⟨true, true⟩ = .ok whole ∧
        whole.references = [⟨⟨['A']⟩, ⟨"root", .onLine 0 5 1⟩⟩, ⟨⟨['B']⟩, ⟨"root", .onLine 2 5 1⟩⟩] ∧
        whole.context.symbols.get? ⟨.paragraph, "STEP".toList⟩ =
          some ⟨.ofList [⟨"root", .onLine 3 0 4⟩], .empty⟩ := by
  have unended : Sample.text.getLast? ≠ some '\n' := by decide +kernel
  have finished : Finished (Lexeme.scan Sample.text) := by decide +kernel
  refine ⟨unended, finished, ?_⟩
  obtain ⟨first, second, whole, own, others, accepted, asked, known⟩ :=
    sentences_parsed_apart "root" Sample.text Sample.rest .free ⟨true, true⟩ unended finished
  cases own
  cases others
  refine ⟨whole, accepted, ?_, ?_⟩
  · rw [asked]
    decide +kernel
  · rw [known]
    decide +kernel

end Parse

end CobolAnalysis
