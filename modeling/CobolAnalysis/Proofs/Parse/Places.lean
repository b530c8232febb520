/-
Where findings stand.

Every finding but a problem stands at one lexeme of its document, and no other lexeme covers a
place inside that one. Looking ahead from a lexeme, the parser never takes the lexeme after a COPY
word for a name of its own, so at the name of a COPY statement stands the reference and nothing
else.
-/

import CobolAnalysis.Proofs.LogicalNames
import CobolAnalysis.Proofs.Parse.Walk
import CobolAnalysis.Proofs.Text.LetterCase

namespace CobolAnalysis

/-! ### Places inside a lexeme -/

/-- Strictly between the columns at which the span begins and ends, on its first line. -/
structure Span.Inside (span : Span) (position : Position) : Prop where
  line : position.line = span.start.line
  right : span.start.column < position.column
  left : position.column < span.stop.column

namespace Lexeme

theorem covers_location (lexeme : Lexeme) (uri : String) (position : Position) :
    (lexeme.location uri).covers uri position = true ↔ position.line = lexeme.line ∧
      lexeme.column ≤ position.column ∧
        position.column ≤ lexeme.column + lexeme.text.length := by
  have before : ∀ first second : Position, first < second ↔
      first.line < second.line ∨ first.line = second.line ∧ first.column < second.column :=
    fun _ _ => Iff.rfl
  simp only [Location.covers, Span.covers, location, Span.onLine, BEq.rfl, Bool.true_and,
    Bool.and_eq_true, Bool.not_eq_true', decide_eq_false_iff_not, before]
  omega

theorem covers_of_inside {lexeme : Lexeme} {uri : String} {position : Position}
    (inside : (lexeme.location uri).span.Inside position) :
    (lexeme.location uri).covers uri position = true :=
  (lexeme.covers_location uri position).mpr
    ⟨inside.line, Nat.le_of_lt inside.right, Nat.le_of_lt inside.left⟩

/-- No other lexeme covers a place inside a lexeme, not even with one of its ends. -/
theorem not_covers_of_inside {lexeme : Lexeme} {uri : String} {position : Position}
    (inside : (lexeme.location uri).span.Inside position) {other : Lexeme}
    (apart : lexeme.Precedes other ∨ other.Precedes lexeme) :
    ¬(other.location uri).covers uri position = true := by
  rw [covers_location]
  obtain ⟨line, right, left⟩ := inside
  simp only [location, Span.onLine] at line right left
  unfold Precedes at apart
  omega

theorem isWord_of_isWord {lexeme : Lexeme} {keyword other : String}
    (word : lexeme.isWord keyword = true)
    (different : Text.upper keyword.toList ≠ Text.upper other.toList) :
    lexeme.isWord other = false := by
  unfold isWord Text.sameLetters at *
  rw [Bool.and_eq_true] at word
  rw [beq_iff_eq.mp word.2, beq_eq_false_iff_ne.mpr different, Bool.and_false]

end Lexeme

namespace Parse

def Finding.stands? : Finding → Option Location
  | problem _ => none
  | definition _ _ location => some location
  | usage _ _ location => some location
  | copy reference => some reference.location

theorem Finding.eq_copy_of_reference? {finding : Finding} {reference : Reference}
    (found : finding.reference? = some reference) : finding = .copy reference := by
  cases finding with
  | copy other => exact congrArg copy (Option.some.inj found)
  | problem diagnostic => cases found
  | definition kind written location => cases found
  | usage kind written location => cases found

/-! ### Names of COPY statements -/

/-- A word COPY with the copybook's name after it. -/
structure Names (uri : String) (lexemes : List Lexeme) (index : Nat) (reference : Reference) :
    Prop where
  copy : ∃ word, lexemes[index]? = some word ∧ word.isWord "COPY" = true
  name : ∃ operand, lexemes[index + 1]? = some operand ∧
    reference.location = operand.location uri ∧
      LogicalName.parse operand.text = .ok reference.name

theorem Names.cons {uri : String} {lexemes : List Lexeme} {index : Nat} {reference : Reference}
    (names : Names uri lexemes index reference) (lexeme : Lexeme) :
    Names uri (lexeme :: lexemes) (index + 1) reference :=
  ⟨names.copy, names.name⟩

theorem Names.of_drop {uri : String} {lexemes : List Lexeme} {count index : Nat}
    {reference : Reference} (names : Names uri (lexemes.drop count) index reference) :
    Names uri lexemes (count + index) reference := by
  obtain ⟨copy, name⟩ := names
  rw [List.getElem?_drop] at copy name
  exact ⟨copy, name⟩

theorem CopyStatement.names_of_finding {uri : String} {word : Lexeme} {rest : List Lexeme}
    {reference : Reference} (found : finding uri word rest = .copy reference) :
    ∃ operand, rest[0]? = some operand ∧ reference.location = operand.location uri ∧
      LogicalName.parse operand.text = .ok reference.name ∧ 0 < extent rest := by
  unfold finding at found
  cases named : operand? rest with
  | none =>
      rw [named] at found
      cases found
  | some operand =>
      simp only [named] at found
      cases parsed : LogicalName.parse operand.text with
      | error failure =>
          rw [parsed] at found
          cases found
      | ok name =>
          rw [parsed] at found
          cases found
          have first : rest[0]? = some operand := by
            obtain ⟨first, _⟩ := Option.filter_eq_some_iff.mp named
            rw [← List.head?_eq_getElem?]
            exact first
          refine ⟨operand, first, rfl, parsed, ?_⟩
          unfold extent
          rw [named]
          simp only
          omega

theorem CopyStatement.copy_of_stands {uri : String} {word : Lexeme} {rest : List Lexeme}
    {location : Location} (stands : (finding uri word rest).stands? = some location) :
    ∃ reference, finding uri word rest = .copy reference ∧ reference.location = location := by
  unfold finding at *
  cases named : operand? rest with
  | none =>
      rw [named] at stands
      cases stands
  | some operand =>
      simp only [named] at stands ⊢
      cases parsed : LogicalName.parse operand.text with
      | error failure =>
          rw [parsed] at stands
          cases stands
      | ok name =>
          rw [parsed] at stands
          exact ⟨_, rfl, Option.some.inj stands⟩

theorem reference?_eq_none_of_mem_foundAt {setting : Setting} {progress : Progress}
    {lexeme : Lexeme} {rest : List Lexeme} {finding : Finding}
    (member : finding ∈ foundAt setting progress lexeme rest) : finding.reference? = none := by
  rcases mem_foundAt_cases member with rfl | ⟨_, sentence⟩ | ⟨_, _, rfl⟩
  · rfl
  · rcases Sentence.mem_findings_cases sentence with ⟨_, _, _, _, rfl⟩ | ⟨_, rfl⟩
    · rfl
    · rfl
  · rfl

theorem names_of_mem_walk {setting : Setting} {progress : Progress} {lexemes : List Lexeme}
    {reference : Reference} (member : .copy reference ∈ walk setting progress lexemes) :
    ∃ index, Names setting.uri lexemes index reference := by
  induction progress, lexemes using walk_induction with
  | nil progress =>
      rw [walk] at member
      cases member
  | copy progress lexeme rest copy ih =>
      rw [walk_copy setting progress copy] at member
      rcases List.mem_cons.mp member with here | later
      · obtain ⟨operand, first, there, parsed, _⟩ := CopyStatement.names_of_finding here.symm
        exact ⟨0, ⟨lexeme, rfl, copy⟩, operand, first, there, parsed⟩
      · obtain ⟨index, names⟩ := ih later
        exact ⟨_, names.of_drop.cons lexeme⟩
  | other progress lexeme rest other ih =>
      rw [walk_step other] at member
      rcases List.mem_append.mp member with here | later
      · cases reference?_eq_none_of_mem_foundAt here
      · obtain ⟨index, names⟩ := ih later
        exact ⟨index + 1, names.cons lexeme⟩

/-! ### Other names -/

/-- The place of the first lexeme, or of one that does not come after a word COPY. -/
def Uncopied (uri : String) (lexemes : List Lexeme) (location : Location) : Prop :=
  (∃ lexeme, lexemes[0]? = some lexeme ∧ location = lexeme.location uri) ∨
    ∃ index previous lexeme, lexemes[index]? = some previous ∧
      previous.isWord "COPY" = false ∧ lexemes[index + 1]? = some lexeme ∧
        location = lexeme.location uri

theorem uncopied_of_mem_targets {uri : String} {word target : Lexeme} {rest : List Lexeme}
    (other : word.isWord "COPY" = false) (member : target ∈ Transfer.targets word rest) :
    Uncopied uri (word :: rest) (target.location uri) := by
  unfold Transfer.targets at member
  split at member
  · -- PERFORM target [THRU target]
    cases rest with
    | nil => cases member
    | cons first afterTarget =>
        rw [Transfer.performed] at member
        split at member
        · rcases List.mem_cons.mp member with rfl | range
          · exact Or.inr ⟨0, word, target, rfl, other, rfl, rfl⟩
          · unfold Transfer.rangeEnd at range
            split at range
            next through =>
              obtain ⟨thru, there, isThru⟩ := (Option.any_eq_true _ _).mp through
              have stops := (Option.filter_eq_some_iff.mp (Option.mem_toList.mp range)).1
              refine Or.inr ⟨2, thru, target, there, ?_, stops, rfl⟩
              rcases Bool.or_eq_true_iff.mp isThru with word | word
              · exact Lexeme.isWord_of_isWord word (by decide)
              · exact Lexeme.isWord_of_isWord word (by decide)
            next => cases range
        · cases member
  split at member
  · -- GO [TO] target
    unfold Transfer.gone at member
    have found := (Option.filter_eq_some_iff.mp (Option.mem_toList.mp member)).1
    split at found
    next begins =>
      obtain ⟨preposition, there, isTo⟩ := (Option.any_eq_true _ _).mp begins
      exact Or.inr ⟨1, preposition, target, there,
        Lexeme.isWord_of_isWord isTo (by decide), found, rfl⟩
    next => exact Or.inr ⟨0, word, target, rfl, other, found, rfl⟩
  · cases member

theorem uncopied_of_mem_sentence {setting : Setting} {inProcedure : Bool} {first : Lexeme}
    {rest : List Lexeme} {finding : Finding} {location : Location}
    (other : first.isWord "COPY" = false)
    (member : finding ∈ Sentence.findings setting inProcedure first rest)
    (stands : finding.stands? = some location) :
    Uncopied setting.uri (first :: rest) location := by
  rcases Sentence.mem_findings_cases member with ⟨_, name, _, place, rfl⟩ | ⟨_, rfl⟩
  · cases stands
    rcases place with rfl | second
    · exact Or.inl ⟨name, rfl, rfl⟩
    · exact Or.inr ⟨0, first, name, rfl, other, second, rfl⟩
  · cases stands

theorem uncopied_of_mem_foundAt {setting : Setting} {progress : Progress} {lexeme : Lexeme}
    {rest : List Lexeme} {finding : Finding} {location : Location}
    (other : lexeme.isWord "COPY" = false)
    (member : finding ∈ foundAt setting progress lexeme rest)
    (stands : finding.stands? = some location) :
    Uncopied setting.uri (lexeme :: rest) location := by
  rcases mem_foundAt_cases member with rfl | ⟨_, sentence⟩ | ⟨target, among, rfl⟩
  · cases stands
  · exact uncopied_of_mem_sentence other sentence stands
  · cases stands
    exact uncopied_of_mem_targets other among

/-! ### One finding at the name of a COPY statement -/

theorem stands_of_mem_walk {setting : Setting} {progress : Progress} {lexemes : List Lexeme}
    {finding : Finding} (member : finding ∈ walk setting progress lexemes) {location : Location}
    (stands : finding.stands? = some location) :
    ∃ lexeme ∈ lexemes, location = lexeme.location setting.uri := by
  induction progress, lexemes using walk_induction with
  | nil progress =>
      rw [walk] at member
      cases member
  | copy progress lexeme rest copy ih =>
      rw [walk_copy setting progress copy] at member
      rcases List.mem_cons.mp member with rfl | later
      · obtain ⟨reference, found, rfl⟩ := CopyStatement.copy_of_stands stands
        obtain ⟨operand, first, there, _⟩ := CopyStatement.names_of_finding found
        exact ⟨operand, List.mem_cons_of_mem lexeme (List.mem_of_getElem? first), there⟩
      · obtain ⟨other, there, same⟩ := ih later
        exact ⟨other, List.mem_cons_of_mem lexeme (List.mem_of_mem_drop there), same⟩
  | other progress lexeme rest other ih =>
      rw [walk_step other] at member
      rcases List.mem_append.mp member with here | later
      · rcases uncopied_of_mem_foundAt other here stands with
          ⟨first, there, same⟩ | ⟨index, _, target, _, _, there, same⟩
        · exact ⟨first, List.mem_of_getElem? there, same⟩
        · exact ⟨target, List.mem_of_getElem? there, same⟩
      · obtain ⟨another, there, same⟩ := ih later
        exact ⟨another, List.mem_cons_of_mem lexeme there, same⟩

theorem Uncopied.not_covers {uri : String} {lexemes : List Lexeme}
    (ordered : lexemes.Pairwise Lexeme.Precedes) {location : Location}
    (uncopied : Uncopied uri lexemes location) {index : Nat} {reference : Reference}
    (names : Names uri lexemes index reference) {position : Position}
    (inside : reference.location.span.Inside position) :
    ¬location.covers uri position = true := by
  obtain ⟨⟨copy, atIndex, isCopy⟩, operand, after, there, _⟩ := names
  rw [there] at inside
  rcases uncopied with ⟨first, atStart, rfl⟩ | ⟨other, previous, lexeme, before, noCopy, atOther, rfl⟩
  · exact Lexeme.not_covers_of_inside inside
      (Lexeme.precedes_of_getElem? ordered after atStart (Nat.succ_ne_zero index))
  · have apart : index ≠ other := by
      rintro rfl
      rw [atIndex] at before
      cases before
      rw [isCopy] at noCopy
      cases noCopy
    exact Lexeme.not_covers_of_inside inside
      (Lexeme.precedes_of_getElem? ordered after atOther fun same => apart (Nat.succ.inj same))

theorem CopyStatement.precedes_of_mem_drop {rest : List Lexeme}
    (ordered : rest.Pairwise Lexeme.Precedes) {operand : Lexeme} (first : rest[0]? = some operand)
    (some : 0 < extent rest) {lexeme : Lexeme} (member : lexeme ∈ rest.drop (extent rest)) :
    operand.Precedes lexeme := by
  obtain ⟨more, count⟩ := Nat.exists_eq_succ_of_ne_zero (Nat.pos_iff_ne_zero.mp some)
  rw [count] at member
  cases rest with
  | nil => cases first
  | cons other others =>
      cases first
      exact (List.pairwise_cons.mp ordered).1 lexeme (List.mem_of_mem_drop member)

theorem eq_copy_of_covers {setting : Setting} {progress : Progress} {lexemes : List Lexeme}
    (ordered : lexemes.Pairwise Lexeme.Precedes) {reference : Reference}
    (member : .copy reference ∈ walk setting progress lexemes) {position : Position}
    (inside : reference.location.span.Inside position) {finding : Finding}
    (there : finding ∈ walk setting progress lexemes) {location : Location}
    (stands : finding.stands? = some location)
    (covers : location.covers setting.uri position = true) : finding = .copy reference := by
  induction progress, lexemes using walk_induction with
  | nil progress =>
      rw [walk] at there
      cases there
  | copy progress lexeme rest copy ih =>
      rw [walk_copy setting progress copy] at member there
      have ordered := (List.pairwise_cons.mp ordered).2
      rcases List.mem_cons.mp member with here | member <;>
        rcases List.mem_cons.mp there with same | there
      · exact same.trans here.symm
      · obtain ⟨operand, first, place, _, longer⟩ := CopyStatement.names_of_finding here.symm
        obtain ⟨other, after, rfl⟩ := stands_of_mem_walk there stands
        rw [place] at inside
        exact absurd covers (Lexeme.not_covers_of_inside inside
          (.inl (CopyStatement.precedes_of_mem_drop ordered first longer after)))
      · subst same
        obtain ⟨another, found, rfl⟩ := CopyStatement.copy_of_stands stands
        obtain ⟨operand, first, place, _, longer⟩ := CopyStatement.names_of_finding found
        obtain ⟨other, after, same⟩ := stands_of_mem_walk member rfl
        rw [same] at inside
        rw [place] at covers
        exact absurd covers (Lexeme.not_covers_of_inside inside
          (.inr (CopyStatement.precedes_of_mem_drop ordered first longer after)))
      · exact ih (ordered.sublist (List.drop_sublist _ _)) member there
  | other progress lexeme rest other ih =>
      rw [walk_step other] at member there
      rcases List.mem_append.mp member with impossible | member
      · cases reference?_eq_none_of_mem_foundAt impossible
      rcases List.mem_append.mp there with here | there
      · obtain ⟨index, names⟩ := names_of_mem_walk member
        have uncopied := uncopied_of_mem_foundAt other here stands
        exact absurd covers (uncopied.not_covers ordered (names.cons lexeme) inside)
      · exact ih (List.pairwise_cons.mp ordered).2 member there

/-- What is no problem is a reference, a definition in a sentence, or the use of a paragraph. -/
theorem mem_walk_cases {setting : Setting} {progress : Progress} {lexemes : List Lexeme}
    {finding : Finding} (member : finding ∈ walk setting progress lexemes) {location : Location}
    (stands : finding.stands? = some location) :
    (∃ reference, finding = .copy reference) ∨
      (∃ inProcedure first rest, finding ∈ Sentence.findings setting inProcedure first rest) ∨
        ∃ written, finding = .usage .paragraph written location := by
  induction progress, lexemes using walk_induction with
  | nil progress =>
      rw [walk] at member
      cases member
  | copy progress lexeme rest copy ih =>
      rw [walk_copy setting progress copy] at member
      rcases List.mem_cons.mp member with rfl | later
      · obtain ⟨reference, found, _⟩ := CopyStatement.copy_of_stands stands
        exact Or.inl ⟨reference, found⟩
      · exact ih later
  | other progress lexeme rest other ih =>
      rw [walk_step other] at member
      rcases List.mem_append.mp member with here | later
      · rcases mem_foundAt_cases here with rfl | ⟨_, sentence⟩ | ⟨_, _, rfl⟩
        · cases stands
        · exact Or.inr (Or.inl ⟨_, _, _, sentence⟩)
        · cases stands
          exact Or.inr (Or.inr ⟨_, rfl⟩)
      · exact ih later

theorem kind_of_mem_walk {setting : Setting} {progress : Progress} {lexemes : List Lexeme}
    {kind : SymbolKind} {written : List Char} {location : Location}
    (member : .definition kind written location ∈ walk setting progress lexemes) :
    kind ≠ .copybook := by
  rcases mem_walk_cases member rfl with ⟨_, none⟩ | ⟨_, _, _, sentence⟩ | ⟨_, none⟩
  · cases none
  · rcases Sentence.mem_findings_cases sentence with ⟨_, _, other, _, same⟩ | ⟨_, none⟩
    · cases same
      exact other
    · cases none
  · cases none

/-! ### What findings make known -/

def Finding.key? : Finding → Option SymbolKey
  | problem _ => none
  | definition kind written _ => some (.ofWritten kind written)
  | usage kind written _ => some (.ofWritten kind written)
  | copy reference => some (.ofWritten .copybook reference.name.text)

/-- The finding is recorded as this fact. -/
def Finding.Says (fact : Fact) : Finding → Prop
  | problem _ => False
  | definition kind written location =>
      (Occurrences.none.define location).Bears (.ofWritten kind written) fact
  | usage kind written location =>
      (Occurrences.none.use location).Bears (.ofWritten kind written) fact
  | copy reference =>
      (Occurrences.none.use reference.location).Bears (.ofWritten .copybook reference.name.text) fact

theorem Finding.knows_record (context : Context) (finding : Finding) (fact : Fact) :
    (finding.record context).Knows fact ↔ context.Knows fact ∨ finding.Says fact := by
  cases finding with
  | problem diagnostic => exact (or_iff_left id).symm
  | definition kind written location => exact context.knows_define_bears kind written location fact
  | usage kind written location => exact context.knows_use_bears kind written location fact
  | copy reference =>
      exact context.knows_use_bears .copybook reference.name.text reference.location fact

theorem knows_ofFindings (findings : List Finding) (fact : Fact) :
    (ParsedDocument.ofFindings findings).context.Knows fact ↔
      ∃ finding ∈ findings, finding.Says fact := by
  have recorded : ∀ context : Context, (findings.foldl Finding.record context).Knows fact ↔
      context.Knows fact ∨ ∃ finding ∈ findings, finding.Says fact := by
    induction findings with
    | nil => exact fun context => (or_iff_left (by simp)).symm
    | cons finding rest ih =>
        intro context
        rw [List.foldl_cons, ih, Finding.knows_record, or_assoc]
        simp only [List.mem_cons, exists_eq_or_imp]
  exact (recorded .empty).trans (or_iff_right (Context.not_knows_ofDiagnostics [] fact))

theorem Finding.of_says_definedAt {finding : Finding} {key : SymbolKey} {location : Location}
    (told : finding.Says (.definedAt key location)) :
    ∃ kind written, finding = .definition kind written location ∧ key = .ofWritten kind written := by
  cases finding with
  | problem diagnostic => exact told.elim
  | definition kind written place =>
      obtain ⟨same, there⟩ := told
      obtain rfl := (OrderedSet.mem_insert_empty _ _).mp there
      exact ⟨kind, written, rfl, same⟩
  | usage kind written place => exact absurd told.2 List.not_mem_nil
  | copy reference => exact absurd told.2 List.not_mem_nil

theorem Finding.says_usedAt_iff {finding : Finding} {key : SymbolKey} {location : Location} :
    finding.Says (.usedAt key location) ↔
      (∃ kind written, finding = .usage kind written location ∧ key = .ofWritten kind written) ∨
        ∃ reference, finding = .copy reference ∧
          key = .ofWritten .copybook reference.name.text ∧ location = reference.location := by
  cases finding with
  | problem diagnostic => simp [Says]
  | definition kind written place =>
      refine iff_of_false (fun told => List.not_mem_nil told.2) ?_
      simp
  | usage kind written place =>
      change _ ∧ location ∈ OrderedSet.empty.insert place ↔ _
      rw [OrderedSet.mem_insert_empty]
      constructor
      · intro told
        exact Or.inl ⟨kind, written, by rw [told.2], told.1⟩
      · intro told
        rcases told with ⟨_, _, same, rfl⟩ | ⟨_, none, _⟩
        · cases same
          exact ⟨rfl, rfl⟩
        · cases none
  | copy reference =>
      change _ ∧ location ∈ OrderedSet.empty.insert reference.location ↔ _
      rw [OrderedSet.mem_insert_empty]
      simp

theorem Finding.of_says_usedAt {finding : Finding} {key : SymbolKey} {location : Location}
    (told : finding.Says (.usedAt key location)) :
    finding.key? = some key ∧ finding.stands? = some location := by
  rcases says_usedAt_iff.mp told with ⟨kind, written, rfl, rfl⟩ | ⟨reference, rfl, rfl, rfl⟩
  · exact ⟨rfl, rfl⟩
  · exact ⟨rfl, rfl⟩

theorem says_copy (reference : Reference) :
    (Finding.copy reference).Says
      (.usedAt (.ofWritten .copybook reference.name.text) reference.location) :=
  ⟨rfl, OrderedSet.mem_insert_self _ _⟩

end Parse

def Context.Places (context : Context) (key : SymbolKey) (location : Location) : Prop :=
  context.Knows (.definedAt key location) ∨ context.Knows (.usedAt key location)

theorem Parse.places_ofFindings {findings : List Finding} {key : SymbolKey} {location : Location}
    (places : (ParsedDocument.ofFindings findings).context.Places key location) :
    ∃ finding ∈ findings, finding.key? = some key ∧ finding.stands? = some location := by
  rcases places with known | known <;> obtain ⟨finding, member, told⟩ :=
    (knows_ofFindings findings _).mp known
  · obtain ⟨kind, written, rfl, rfl⟩ := Finding.of_says_definedAt told
    exact ⟨_, member, rfl, rfl⟩
  · exact ⟨finding, member, Finding.of_says_usedAt told⟩

end CobolAnalysis
