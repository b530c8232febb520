/-
Which names are recorded as uses of paragraphs.

What a PERFORM or a GO transfers control to is said here by the lexemes that follow it. The count
of a loop written in place stands where the name of a procedure would stand, and is told from one
by the word TIMES after it. The parser makes this distinction for integers only, so a data name
that counts is recorded as well. Otherwise its usages are those that are said here, and no others.
-/

import CobolAnalysis.Proofs.Parse.Grammar

namespace CobolAnalysis

namespace Parse

/-! ### Transfers of control -/

section Transfers

variable (lexemes : List Lexeme)

/-- After this word PERFORM stands a name that is none of the options. -/
structure NameAfterPerform (index : Nat) (name : Lexeme) : Prop where
  perform : WordAt lexemes "PERFORM" index
  next : lexemes[index + 1]? = some name
  named : name.kind = .word ∨ name.kind = .integer
  ordinary : name.isAnyOf performOptions = false

/-- The name after PERFORM says how often a loop written in place is run. -/
structure CountsLoop (index : Nat) (count : Lexeme) : Prop where
  name : NameAfterPerform lexemes index count
  times : WordAt lexemes "TIMES" (index + 2)

/-- The name after PERFORM is that of a procedure. -/
structure Performs (index : Nat) (target : Lexeme) : Prop where
  name : NameAfterPerform lexemes index target
  once : ¬CountsLoop lexemes index target

/-- The word at this place transfers control to the procedure. -/
inductive Transfers (index : Nat) : Lexeme → Prop where
  | performed {target : Lexeme} (performs : Performs lexemes index target) :
      Transfers index target
  | rangeEnd {first target : Lexeme} (performs : Performs lexemes index first)
      (through : WordAt lexemes "THRU" (index + 2) ∨ WordAt lexemes "THROUGH" (index + 2))
      (there : lexemes[index + 3]? = some target)
      (named : target.kind = .word ∨ target.kind = .integer) : Transfers index target
  | gone {target : Lexeme} (go : WordAt lexemes "GO" index)
      (there : lexemes[index + if WordAt lexemes "TO" (index + 1) then 2 else 1]? = some target)
      (named : target.kind = .word ∨ target.kind = .integer) : Transfers index target

/-- A data name counts a loop, where an integer could stand. -/
structure CountsByName (index : Nat) (count : Lexeme) : Prop where
  counts : CountsLoop lexemes index count
  word : count.kind = .word

end Transfers

theorem isName_iff (lexeme : Lexeme) :
    lexeme.isName = true ↔ lexeme.kind = .word ∨ lexeme.kind = .integer := by
  unfold Lexeme.isName
  rw [Bool.or_eq_true, beq_iff_eq, beq_iff_eq]

variable {lexemes : List Lexeme}

/-! ### The targets that are recorded -/

namespace Transfer

theorem isRepetition_iff (target : Lexeme) (afterTarget : List Lexeme) :
    isRepetition target afterTarget = true ↔
      target.kind = .integer ∧ WordAt afterTarget "TIMES" 0 := by
  unfold isRepetition WordAt
  rw [Bool.and_eq_true, beq_iff_eq, List.head?_eq_getElem?]

theorem mem_rangeEnd_iff {afterTarget : List Lexeme} {target : Lexeme} :
    target ∈ rangeEnd afterTarget ↔
      (WordAt afterTarget "THRU" 0 ∨ WordAt afterTarget "THROUGH" 0) ∧
        afterTarget[1]? = some target ∧ (target.kind = .word ∨ target.kind = .integer) := by
  have through : ((afterTarget[0]?).any fun lexeme =>
      lexeme.isWord "THRU" || lexeme.isWord "THROUGH") = true ↔
        WordAt afterTarget "THRU" 0 ∨ WordAt afterTarget "THROUGH" 0 := by
    unfold WordAt
    cases afterTarget[0]? with
    | none => simp
    | some lexeme => exact Bool.or_eq_true_iff
  unfold rangeEnd
  by_cases present : WordAt afterTarget "THRU" 0 ∨ WordAt afterTarget "THROUGH" 0
  · rw [if_pos (through.mpr present), and_iff_right present, Option.mem_toList,
      Option.filter_eq_some_iff, isName_iff]
  · rw [if_neg fun found => present (through.mp found)]
    exact iff_of_false List.not_mem_nil fun both => present both.1

theorem mem_performed_iff {rest : List Lexeme} {target : Lexeme} :
    target ∈ performed rest ↔ ∃ first, rest[0]? = some first ∧
      (first.kind = .word ∨ first.kind = .integer) ∧ first.isAnyOf performOptions = false ∧
        ¬(first.kind = .integer ∧ WordAt rest "TIMES" 1) ∧
          (target = first ∨ target ∈ rangeEnd (rest.drop 1)) := by
  cases rest with
  | nil => simp [performed]
  | cons first afterTarget =>
      have shape : (first.isName && !first.isAnyOf performOptions &&
          !isRepetition first afterTarget) = true ↔
            (first.kind = .word ∨ first.kind = .integer) ∧
              first.isAnyOf performOptions = false ∧
                ¬(first.kind = .integer ∧ WordAt (first :: afterTarget) "TIMES" 1) := by
        rw [Bool.and_eq_true, Bool.and_eq_true, isName_iff, Bool.not_eq_true', Bool.not_eq_true',
          ← Bool.not_eq_true (isRepetition _ _), isRepetition_iff, and_assoc]
        rfl
      rw [performed]
      simp only [List.getElem?_cons_zero, Option.some.injEq, exists_eq_left', List.drop_succ_cons,
        List.drop_zero]
      by_cases performs : (first.isName && !first.isAnyOf performOptions &&
          !isRepetition first afterTarget) = true
      · obtain ⟨named, ordinary, once⟩ := shape.mp performs
        rw [if_pos performs, List.mem_cons]
        exact ⟨fun either => ⟨named, ordinary, once, either⟩, fun all => all.2.2.2⟩
      · rw [if_neg performs]
        refine iff_of_false List.not_mem_nil ?_
        intro all
        exact performs (shape.mpr ⟨all.1, all.2.1, all.2.2.1⟩)

theorem mem_gone_iff {rest : List Lexeme} {target : Lexeme} :
    target ∈ gone rest ↔ rest[if WordAt rest "TO" 0 then 1 else 0]? = some target ∧
      (target.kind = .word ∨ target.kind = .integer) := by
  have found : (if (rest[0]?).any (Lexeme.isWord · "TO") then rest[1]? else rest[0]?) =
      rest[if WordAt rest "TO" 0 then 1 else 0]? :=
    (apply_ite (rest[·]?) (WordAt rest "TO" 0) 1 0).symm
  unfold gone
  rw [found, Option.mem_toList, Option.filter_eq_some_iff, isName_iff]

section Targets

variable {index : Nat} {word target : Lexeme}

theorem mem_performed_drop_iff (perform : WordAt lexemes "PERFORM" index) :
    target ∈ performed (lexemes.drop (index + 1)) ↔
      ∃ first, (Performs lexemes index first ∨ CountsByName lexemes index first) ∧
        (target = first ∨ target ∈ rangeEnd (lexemes.drop (index + 2))) := by
  rw [mem_performed_iff]
  simp only [List.getElem?_drop, wordAt_drop, List.drop_drop]
  constructor
  · rintro ⟨first, next, named, ordinary, once, which⟩
    have name : NameAfterPerform lexemes index first := ⟨perform, next, named, ordinary⟩
    refine ⟨first, ?_, which⟩
    by_cases times : WordAt lexemes "TIMES" (index + 2)
    · have word : first.kind = .word := named.resolve_right fun integer => once ⟨integer, times⟩
      exact Or.inr ⟨⟨name, times⟩, word⟩
    · exact Or.inl ⟨name, fun counts => times counts.times⟩
  · rintro ⟨first, ⟨name, once⟩ | ⟨⟨name, times⟩, word⟩, which⟩
    · exact ⟨first, name.next, name.named, name.ordinary,
        fun both => once ⟨name, both.2⟩, which⟩
    · refine ⟨first, name.next, name.named, name.ordinary, fun both => ?_, which⟩
      rw [word] at both
      cases both.1

theorem not_mem_rangeEnd (counts : CountsLoop lexemes index word) :
    target ∉ rangeEnd (lexemes.drop (index + 2)) := by
  intro member
  obtain ⟨through, _⟩ := mem_rangeEnd_iff.mp member
  have other : ∀ keyword : String, Text.upper "TIMES".toList ≠ Text.upper keyword.toList →
      ¬WordAt (lexemes.drop (index + 2)) keyword 0 := by
    intro keyword different there
    obtain ⟨lexeme, present, times⟩ := (Option.any_eq_true _ _).mp counts.times
    rw [wordAt_drop, Nat.add_zero] at there
    unfold WordAt at there
    rw [present, Option.any_some, Lexeme.isWord_of_isWord times different] at there
    cases there
  exact through.elim (other "THRU" (by decide)) (other "THROUGH" (by decide))

theorem mem_targets_perform_iff (here : lexemes[index]? = some word)
    (perform : word.isWord "PERFORM" = true) :
    target ∈ targets word (lexemes.drop (index + 1)) ↔
      Transfers lexemes index target ∨ CountsByName lexemes index target := by
  have noGo : ¬WordAt lexemes "GO" index := by
    rw [wordAt_of_getElem? here, Lexeme.isWord_of_isWord perform (by decide)]
    exact Bool.false_ne_true
  unfold targets
  rw [if_pos perform, mem_performed_drop_iff ((wordAt_of_getElem? here "PERFORM").mpr perform)]
  constructor
  · rintro ⟨first, performs | counts, rfl | range⟩
    · exact Or.inl (.performed performs)
    · obtain ⟨through, there, named⟩ := mem_rangeEnd_iff.mp range
      rw [wordAt_drop, wordAt_drop] at through
      rw [List.getElem?_drop] at there
      exact Or.inl (.rangeEnd performs through there named)
    · exact Or.inr counts
    · exact absurd range (not_mem_rangeEnd counts.counts)
  · intro either
    rcases either with transfers | counts
    · cases transfers with
      | performed performs => exact ⟨target, Or.inl performs, Or.inl rfl⟩
      | @rangeEnd first _ performs through there named =>
          refine ⟨first, Or.inl performs, Or.inr (mem_rangeEnd_iff.mpr ⟨?_, ?_, named⟩)⟩
          · rw [wordAt_drop, wordAt_drop]
            exact through
          · rw [List.getElem?_drop]
            exact there
      | gone go => exact absurd go noGo
    · exact ⟨target, Or.inr counts, Or.inl rfl⟩

theorem mem_targets_go_iff (here : lexemes[index]? = some word) (go : word.isWord "GO" = true) :
    target ∈ targets word (lexemes.drop (index + 1)) ↔ Transfers lexemes index target := by
  have noPerform : word.isWord "PERFORM" = false := Lexeme.isWord_of_isWord go (by decide)
  have noName : ∀ {name : Lexeme}, ¬NameAfterPerform lexemes index name := by
    intro name after
    rw [(wordAt_of_getElem? here "PERFORM").mp after.perform] at noPerform
    cases noPerform
  have place : index + 1 + (if WordAt (lexemes.drop (index + 1)) "TO" 0 then 1 else 0) =
      index + if WordAt lexemes "TO" (index + 1) then 2 else 1 := by
    simp only [wordAt_drop, Nat.add_zero]
    split <;> rfl
  unfold targets
  rw [noPerform, if_neg Bool.false_ne_true, if_pos go, mem_gone_iff, List.getElem?_drop, place]
  constructor
  · intro target
    exact .gone ((wordAt_of_getElem? here "GO").mpr go) target.1 target.2
  · intro transfers
    cases transfers with
    | performed performs => exact absurd performs.name noName
    | rangeEnd performs => exact absurd performs.name noName
    | gone _ there named => exact ⟨there, named⟩

/-- The targets that are found at a lexeme are those of the transfer, and a data name that counts a
loop. -/
theorem mem_targets_iff (here : lexemes[index]? = some word) :
    target ∈ targets word (lexemes.drop (index + 1)) ↔
      Transfers lexemes index target ∨ CountsByName lexemes index target := by
  by_cases perform : word.isWord "PERFORM" = true
  · exact mem_targets_perform_iff here perform
  have noName : ∀ {name : Lexeme}, ¬NameAfterPerform lexemes index name := fun after =>
    perform ((wordAt_of_getElem? here "PERFORM").mp after.perform)
  have noCount : ¬CountsByName lexemes index target := fun counts => noName counts.counts.name
  rw [or_iff_left noCount]
  by_cases go : word.isWord "GO" = true
  · exact mem_targets_go_iff here go
  · unfold targets
    rw [if_neg perform, if_neg go]
    refine iff_of_false List.not_mem_nil ?_
    intro transfers
    cases transfers with
    | performed performs => exact noName performs.name
    | rangeEnd performs => exact noName performs.name
    | gone there => exact go ((wordAt_of_getElem? here "GO").mp there)

theorem isRecognized_of_mem_targets {rest : List Lexeme} (member : target ∈ targets word rest) :
    word.isRecognized = true := by
  unfold targets at member
  split at member
  next perform => exact Lexeme.isRecognized_of_isWord perform
  next =>
    split at member
    next go => exact Lexeme.isRecognized_of_isWord go
    next => cases member

end Targets

end Transfer

/-! ### The whole text -/

theorem CountsByName.within {index : Nat} {count : Lexeme}
    (counts : CountsByName lexemes index count) : index < lexemes.length :=
  counts.counts.name.perform.within

theorem Transfers.within {index : Nat} {target : Lexeme}
    (transfers : Transfers lexemes index target) : index < lexemes.length := by
  cases transfers with
  | performed performs => exact performs.name.perform.within
  | rangeEnd performs => exact performs.name.perform.within
  | gone go => exact go.within

theorem Sentence.usage_not_mem_findings {setting : Setting} {inProcedure : Bool} {first : Lexeme}
    {rest : List Lexeme} {kind : SymbolKind} {written : List Char} {location : Location} :
    .usage kind written location ∉ findings setting inProcedure first rest := by
  intro member
  rcases mem_findings_cases member with ⟨_, _, _, _, none⟩ | ⟨_, none⟩
  · cases none
  · cases none

section Places

variable {setting : Setting} {index : Fin lexemes.length} {kind : SymbolKind}
  {written : List Char} {location : Location}

theorem usage_mem_foundThere_iff (collects : setting.options.collectUsages = true) :
    .usage kind written location ∈ foundThere setting index ↔ ∃ target,
      (Transfers lexemes index target ∨ CountsByName lexemes index target) ∧
        kind = .paragraph ∧ written = target.text ∧ location = target.location setting.uri := by
  have here : lexemes[index.val]? = some lexemes[index] := List.getElem?_eq_getElem index.isLt
  unfold foundThere
  simp only [← Transfer.mem_targets_iff here]
  constructor
  · intro member
    rcases mem_foundAt_cases member with none | ⟨_, sentence⟩ | ⟨target, among, same⟩
    · cases none
    · exact absurd sentence Sentence.usage_not_mem_findings
    · cases same
      exact ⟨target, among, rfl, rfl, rfl⟩
  · intro found
    obtain ⟨target, among, rfl, rfl, rfl⟩ := found
    have recognized := Transfer.isRecognized_of_mem_targets among
    unfold foundAt findingsAt
    rw [if_pos recognized, if_pos collects]
    exact List.mem_append_right _ (List.mem_map_of_mem among)

theorem copy_not_mem_foundThere {reference : Reference} :
    .copy reference ∉ foundThere setting index := by
  intro member
  cases reference?_eq_none_of_mem_foundAt member

end Places

/-- In a text without COPY statements, the usages that are recorded are the targets of its transfers
of control, and besides these the data names that count a loop. -/
theorem usages_are_transfers (uri : String) (text : List Char) (format : Source.Format)
    (strictLevels : Bool) (free : CopyFree (Lexeme.scan text)) :
    ∃ parsed, standard uri text format ⟨true, strictLevels⟩ = .ok parsed ∧
      ∀ key location, parsed.context.Knows (.usedAt key location) ↔ ∃ index target,
        (Transfers (Lexeme.scan text) index target ∨
          CountsByName (Lexeme.scan text) index target) ∧
        key = .ofWritten .paragraph target.text ∧ location = target.location uri := by
  let setting : Setting := ⟨uri, format, ⟨true, strictLevels⟩⟩
  have walked : findingsOf setting text =
      (List.finRange (Lexeme.scan text).length).flatMap (foundThere setting) :=
    walk_eq_flatMap free setting .start
  refine ⟨document uri text format ⟨true, strictLevels⟩, rfl, fun key location => ?_⟩
  unfold document
  rw [knows_ofFindings, walked]
  constructor
  · intro known
    obtain ⟨finding, member, told⟩ := known
    obtain ⟨index, _, there⟩ := List.mem_flatMap.mp member
    rcases Finding.says_usedAt_iff.mp told with ⟨kind, written, rfl, rfl⟩ | ⟨reference, rfl, _⟩
    · obtain ⟨target, transfers, rfl, rfl, rfl⟩ := (usage_mem_foundThere_iff rfl).mp there
      exact ⟨index, target, transfers, rfl, rfl⟩
    · exact absurd there copy_not_mem_foundThere
  · intro found
    obtain ⟨index, target, transfers, rfl, rfl⟩ := found
    have there : .usage .paragraph target.text (target.location uri) ∈
        foundThere setting ⟨index, transfers.elim Transfers.within CountsByName.within⟩ :=
      (usage_mem_foundThere_iff rfl).mpr ⟨target, transfers, rfl, rfl, rfl⟩
    exact ⟨_, List.mem_flatMap.mpr ⟨_, List.mem_finRange _, there⟩,
      Finding.says_usedAt_iff.mpr (Or.inl ⟨_, _, rfl, rfl⟩)⟩

/-! #### A range, a jump and two loops written in place -/

namespace Transfer.Sample

def text : List Char := "PERFORM A THRU B.\nGO C.\nPERFORM 3 TIMES".toList

def scanned : List Lexeme :=
  [⟨.word, "PERFORM".toList, 0, 0, true⟩, ⟨.word, ['A'], 0, 8, true⟩,
    ⟨.word, "THRU".toList, 0, 10, true⟩, ⟨.word, ['B'], 0, 15, false⟩, ⟨.period, ['.'], 0, 16, true⟩,
    ⟨.word, "GO".toList, 1, 0, true⟩, ⟨.word, ['C'], 1, 3, false⟩, ⟨.period, ['.'], 1, 4, true⟩,
    ⟨.word, "PERFORM".toList, 2, 0, true⟩, ⟨.integer, ['3'], 2, 8, true⟩,
    ⟨.word, "TIMES".toList, 2, 10, true⟩]

theorem scan_text : Lexeme.scan text = scanned := by decide +kernel

def countedByName : List Char := "PERFORM N TIMES CONTINUE END-PERFORM.".toList

def scannedByName : List Lexeme :=
  [⟨.word, "PERFORM".toList, 0, 0, true⟩, ⟨.word, ['N'], 0, 8, true⟩,
    ⟨.word, "TIMES".toList, 0, 10, true⟩, ⟨.word, "CONTINUE".toList, 0, 16, true⟩,
    ⟨.word, "END-PERFORM".toList, 0, 25, false⟩, ⟨.period, ['.'], 0, 36, true⟩]

theorem scan_countedByName : Lexeme.scan countedByName = scannedByName := by decide +kernel

end Transfer.Sample

open Transfer in
/-- The end of the range is recorded, and the integer that counts a loop is not. -/
theorem sample_usages_are_transfers :
    CopyFree (Lexeme.scan Sample.text) ∧
      ∃ parsed, standard "root" Sample.text .fixed ⟨true, true⟩ = .ok parsed ∧
        parsed.context.Knows (.usedAt (.ofWritten .paragraph ['B']) ⟨"root", .onLine 0 15 1⟩) ∧
        ¬parsed.context.Knows
          (.usedAt (.ofWritten .paragraph ['3']) ⟨"root", .onLine 2 8 1⟩) := by
  have free : CopyFree (Lexeme.scan Sample.text) := by
    rw [Sample.scan_text]
    decide
  obtain ⟨parsed, accepted, usages⟩ :=
    usages_are_transfers "root" Sample.text .fixed true free
  rw [Sample.scan_text] at usages
  refine ⟨free, parsed, accepted, ?_, ?_⟩
  · let first : Lexeme := ⟨.word, ['A'], 0, 8, true⟩
    have name : NameAfterPerform Sample.scanned 0 first :=
      ⟨by decide, rfl, Or.inl rfl, by decide⟩
    have performs : Performs Sample.scanned 0 first :=
      ⟨name, fun counts => absurd counts.times (by decide)⟩
    exact (usages _ _).mpr ⟨0, _, Or.inl (.rangeEnd performs (Or.inl (by decide)) rfl (Or.inl rfl)),
      rfl, rfl⟩
  · intro known
    obtain ⟨index, target, transfers, _, place⟩ := (usages _ _).mp known
    have elsewhere : ∀ index : Fin Sample.scanned.length,
        ∀ target ∈ targets Sample.scanned[index] (Sample.scanned.drop (index + 1)),
          target.location "root" ≠ ⟨"root", .onLine 2 8 1⟩ := by decide
    have within : index < Sample.scanned.length :=
      transfers.elim Transfers.within CountsByName.within
    have member := (mem_targets_iff (List.getElem?_eq_getElem within)).mpr transfers
    exact elsewhere ⟨index, within⟩ target member place.symm

open Transfer in
/-- Nothing is performed but a loop in place, and still the data name that counts it is recorded as
the use of a paragraph. -/
theorem counting_name_recorded :
    CopyFree (Lexeme.scan Sample.countedByName) ∧
      ∃ parsed, standard "root" Sample.countedByName .fixed ⟨true, true⟩ = .ok parsed ∧
        parsed.context.Knows (.usedAt (.ofWritten .paragraph ['N']) ⟨"root", .onLine 0 8 1⟩) ∧
        ∀ index target, ¬Transfers (Lexeme.scan Sample.countedByName) index target := by
  have found : Finding.usage .paragraph ['N'] ⟨"root", .onLine 0 8 1⟩ ∈
      findingsOf ⟨"root", .fixed, ⟨true, true⟩⟩ Sample.countedByName := by
    decide +kernel
  have recorded : (document "root" Sample.countedByName .fixed ⟨true, true⟩).context.Knows
      (.usedAt (.ofWritten .paragraph ['N']) ⟨"root", .onLine 0 8 1⟩) :=
    (knows_ofFindings _ _).mpr
      ⟨_, found, Finding.says_usedAt_iff.mpr (Or.inl ⟨_, _, rfl, rfl⟩)⟩
  rw [Sample.scan_countedByName]
  refine ⟨by decide, _, rfl, recorded, ?_⟩
  intro index target transfers
  have within := transfers.within
  have inPlace : ∀ index < Sample.scannedByName.length,
      WordAt Sample.scannedByName "PERFORM" index →
        WordAt Sample.scannedByName "TIMES" (index + 2) := by decide
  have noGo : ∀ index < Sample.scannedByName.length,
      ¬WordAt Sample.scannedByName "GO" index := by decide
  have noTarget : ∀ {name : Lexeme}, ¬Performs Sample.scannedByName index name := by
    intro name performs
    exact performs.once ⟨performs.name, inPlace index within performs.name.perform⟩
  cases transfers with
  | performed performs => exact noTarget performs
  | rangeEnd performs => exact noTarget performs
  | gone go => exact noGo index within go

end Parse

end CobolAnalysis
