/-
What becomes of each COPY statement.

The walk passes a COPY statement as a whole and any other lexeme by itself, so it may go past a
word COPY that is part of an unfinished statement. Every word COPY at which it arrives is accounted
for once: by the reference to the copybook that the next lexeme names, or by a report of why there
is no reference. The references are what the document knows of copybooks, and nothing else is.
-/

import CobolAnalysis.Proofs.Parse.Options
import CobolAnalysis.Proofs.Parse.Transfers

namespace CobolAnalysis

def Diagnostic.isNameReport (diagnostic : Diagnostic) : Bool :=
  decide (diagnostic.code = some Code.missingCopybookName)

namespace Parse

/-! ### Arriving at COPY words -/

/-- How many lexemes are passed at once: a COPY statement, or the first lexeme by itself. -/
def stride (first : Lexeme) (rest : List Lexeme) : Nat :=
  if first.isWord "COPY" then CopyStatement.extent rest + 1 else 1

theorem stride_pos (first : Lexeme) (rest : List Lexeme) : 0 < stride first rest := by
  unfold stride
  split <;> omega

/-- A walk over the lexemes arrives at this place. -/
inductive Arrives : List Lexeme → Nat → Prop where
  | start (lexemes : List Lexeme) : Arrives lexemes 0
  | onward {first : Lexeme} {rest : List Lexeme} {index : Nat}
      (further : Arrives ((first :: rest).drop (stride first rest)) index) :
      Arrives (first :: rest) (index + stride first rest)

/-- The lexeme can stand as the name of a copybook. -/
def CanName (operand : Lexeme) : Prop :=
  operand.kind = .word ∨ operand.kind = .integer ∨ operand.kind = .literal

/-- What the word COPY at this place gives: a reference, or one report of why it gives none. -/
inductive Gives (uri : String) (lexemes : List Lexeme) (index : Nat) : Finding → Prop where
  | reference {operand : Lexeme} {name : LogicalName} (next : lexemes[index + 1]? = some operand)
      (canName : CanName operand) (parsed : LogicalName.parse operand.text = .ok name) :
      Gives uri lexemes index (.copy ⟨name, operand.location uri⟩)
  | invalid {operand : Lexeme} {failure : NameError} (next : lexemes[index + 1]? = some operand)
      (canName : CanName operand) (refused : LogicalName.parse operand.text = .error failure) :
      Gives uri lexemes index (.problem (.error (operand.location uri)
        Diagnostic.Code.missingCopybookName ("Invalid copybook name: " ++ failure.message)))
  | missing {copy : Lexeme} (here : lexemes[index]? = some copy)
      (none : ∀ operand, lexemes[index + 1]? = some operand → ¬CanName operand) :
      Gives uri lexemes index (.problem (.error (copy.location uri)
        Diagnostic.Code.missingCopybookName "COPY statement is missing a copybook name"))

/-- The words COPY at which the walk arrives, in order, each with the one finding that it gives.
These findings are all the references and all the reports of missing names. -/
structure Accounts (uri : String) (lexemes : List Lexeme) (references : List Reference)
    (diagnostics : List Diagnostic) (accounts : List (Nat × Finding)) : Prop where
  ordered : accounts.Pairwise fun earlier later => earlier.1 < later.1
  arrived : ∀ index, index ∈ accounts.map Prod.fst ↔
    Arrives lexemes index ∧ WordAt lexemes "COPY" index
  given : ∀ account ∈ accounts, Gives uri lexemes account.1 account.2
  asked : references = accounts.filterMap fun account => account.2.reference?
  reported : diagnostics.filter Diagnostic.isNameReport =
    accounts.filterMap fun account => account.2.problem?

/-! ### One step of the walk -/

theorem canName_iff (operand : Lexeme) :
    (operand.isName || operand.kind == .literal) = true ↔ CanName operand := by
  unfold CanName
  rw [Bool.or_eq_true, isName_iff, beq_iff_eq, or_assoc]

theorem CopyStatement.gives (uri : String) (copy : Lexeme) (rest : List Lexeme) :
    Gives uri (copy :: rest) 0 (finding uri copy rest) := by
  unfold finding
  cases named : operand? rest with
  | none =>
      refine .missing rfl ?_
      intro operand next canName
      have absent := Option.filter_eq_none_iff.mp named operand
      rw [List.head?_eq_getElem?] at absent
      exact absent next ((canName_iff operand).mpr canName)
  | some operand =>
      obtain ⟨first, names⟩ := Option.filter_eq_some_iff.mp named
      rw [List.head?_eq_getElem?] at first
      have canName := (canName_iff operand).mp names
      simp only
      cases parsed : LogicalName.parse operand.text with
      | ok name => exact .reference first canName parsed
      | error failure => exact .invalid first canName parsed

section Steps

variable {uri : String} {lexemes : List Lexeme} {first : Lexeme} {rest : List Lexeme}

theorem Gives.of_drop {count index : Nat} {finding : Finding}
    (gives : Gives uri (lexemes.drop count) index finding) :
    Gives uri lexemes (index + count) finding := by
  have moved : ∀ place, (lexemes.drop count)[place]? = lexemes[place + count]? := by
    intro place
    rw [List.getElem?_drop, Nat.add_comm]
  have after : index + count + 1 = index + 1 + count := Nat.add_right_comm index count 1
  cases gives with
  | reference next canName parsed =>
      rw [moved, ← after] at next
      exact .reference next canName parsed
  | invalid next canName refused =>
      rw [moved, ← after] at next
      exact .invalid next canName refused
  | missing here none =>
      rw [moved] at here none
      rw [← after] at none
      exact .missing here none

theorem arrives_cons_iff (index : Nat) :
    Arrives (first :: rest) index ↔ index = 0 ∨ ∃ further,
      Arrives ((first :: rest).drop (stride first rest)) further ∧
        index = further + stride first rest := by
  constructor
  · intro arrives
    cases arrives with
    | start => exact Or.inl rfl
    | onward further => exact Or.inr ⟨_, further, rfl⟩
  · intro either
    rcases either with rfl | ⟨further, arrives, rfl⟩
    · exact .start _
    · exact .onward arrives

theorem Accounts.nil (uri : String) : Accounts uri [] [] [] [] where
  ordered := .nil
  arrived := by
    intro index
    refine iff_of_false List.not_mem_nil ?_
    intro both
    exact absurd both.2.within (Nat.not_lt_zero index)
  given := List.forall_mem_nil _
  asked := rfl
  reported := rfl

/-- What is passed has an account if it is a COPY statement, and the others are moved on. -/
theorem Accounts.step {asked more : List Reference} {reported others : List Diagnostic}
    {accounts : List (Nat × Finding)} (own : List (Nat × Finding))
    (further : Accounts uri ((first :: rest).drop (stride first rest)) more others accounts)
    (places : own.map Prod.fst = if first.isWord "COPY" then [0] else [])
    (given : ∀ account ∈ own, Gives uri (first :: rest) account.1 account.2)
    (asks : asked = own.filterMap fun account => account.2.reference?)
    (reports : reported.filter Diagnostic.isNameReport =
      own.filterMap fun account => account.2.problem?) :
    Accounts uri (first :: rest) (asked ++ more) (reported ++ others)
      (own ++ accounts.map fun account => (account.1 + stride first rest, account.2)) where
  ordered := by
    have alone : own.Pairwise fun earlier later => earlier.1 < later.1 := by
      have single : (own.map Prod.fst).Pairwise (· < ·) := by
        rw [places]
        split
        · exact List.pairwise_singleton _ _
        · exact .nil
      exact List.pairwise_map.mp single
    have moved : (accounts.map fun account => (account.1 + stride first rest, account.2)).Pairwise
        fun earlier later => earlier.1 < later.1 := by
      apply List.pairwise_map.mpr
      apply further.ordered.imp
      intro earlier later before
      exact Nat.add_lt_add_right before _
    refine List.pairwise_append.mpr ⟨alone, moved, ?_⟩
    intro earlier here later there
    obtain ⟨account, _, rfl⟩ := List.mem_map.mp there
    have atStart : earlier.1 ∈ own.map Prod.fst := List.mem_map_of_mem here
    rw [places] at atStart
    split at atStart
    · rw [List.mem_singleton.mp atStart]
      exact Nat.add_pos_right account.1 (stride_pos first rest)
    · cases atStart
  arrived := by
    intro index
    have atStart : index ∈ own.map Prod.fst ↔
        index = 0 ∧ WordAt (first :: rest) "COPY" index := by
      rw [places]
      by_cases copy : first.isWord "COPY" = true
      · rw [if_pos copy, List.mem_singleton]
        refine (and_iff_left_of_imp ?_).symm
        intro zero
        rw [zero]
        exact copy
      · rw [if_neg copy]
        refine iff_of_false List.not_mem_nil ?_
        intro both
        obtain ⟨rfl, word⟩ := both
        exact copy word
    have moved : (accounts.map fun account => (account.1 + stride first rest, account.2)).map
        Prod.fst = (accounts.map Prod.fst).map (· + stride first rest) := by
      rw [List.map_map, List.map_map]
      rfl
    rw [List.map_append, List.mem_append, atStart, moved, List.mem_map, arrives_cons_iff,
      or_and_right]
    apply or_congr_right
    simp only [further.arrived, wordAt_drop]
    constructor
    · intro found
      obtain ⟨place, ⟨arrives, word⟩, rfl⟩ := found
      rw [Nat.add_comm] at word
      exact ⟨⟨place, arrives, rfl⟩, word⟩
    · intro found
      obtain ⟨⟨place, arrives, rfl⟩, word⟩ := found
      rw [Nat.add_comm] at word
      exact ⟨place, ⟨arrives, word⟩, rfl⟩
  given := by
    intro account member
    rcases List.mem_append.mp member with here | there
    · exact given account here
    · obtain ⟨later, among, rfl⟩ := List.mem_map.mp there
      exact (further.given later among).of_drop
  asked := by
    rw [List.filterMap_append, List.filterMap_map, asks, further.asked]
    rfl
  reported := by
    rw [List.filter_append, List.filterMap_append, List.filterMap_map, reports, further.reported]
    rfl

theorem Accounts.past {more : List Reference} {others : List Diagnostic}
    {accounts : List (Nat × Finding)} (further : Accounts uri rest more others accounts)
    (other : first.isWord "COPY" = false) {own : List Finding}
    (asks : own.filterMap Finding.reference? = [])
    (reports : (own.filterMap Finding.problem?).filter Diagnostic.isNameReport = []) :
    Accounts uri (first :: rest) (own.filterMap Finding.reference? ++ more)
      (own.filterMap Finding.problem? ++ others)
      (accounts.map fun account => (account.1 + stride first rest, account.2)) := by
  have one : stride first rest = 1 := by
    unfold stride
    rw [other]
    rfl
  have after : Accounts uri ((first :: rest).drop (stride first rest)) more others accounts := by
    rw [one]
    exact further
  refine Accounts.step [] after ?_ (List.forall_mem_nil _) asks reports
  rw [other]
  rfl

theorem Accounts.pastCopy {more : List Reference} {others : List Diagnostic}
    {accounts : List (Nat × Finding)}
    (further : Accounts uri (rest.drop (CopyStatement.extent rest)) more others accounts)
    (copy : first.isWord "COPY" = true) :
    let given := CopyStatement.finding uri first rest
    Accounts uri (first :: rest) ([given].filterMap Finding.reference? ++ more)
      ([given].filterMap Finding.problem? ++ others)
      ((0, given) :: accounts.map fun account => (account.1 + stride first rest, account.2)) := by
  have whole : stride first rest = CopyStatement.extent rest + 1 := if_pos copy
  have after : Accounts uri ((first :: rest).drop (stride first rest)) more others accounts := by
    rw [whole]
    exact further
  refine Accounts.step [(0, CopyStatement.finding uri first rest)] after ?_ ?_ rfl ?_
  · rw [copy]
    rfl
  · intro account member
    rw [List.mem_singleton.mp member]
    exact CopyStatement.gives uri first rest
  · rcases CopyStatement.finding_cases uri first rest with
      ⟨reference, found⟩ | ⟨location, message, found⟩
    · rw [found]
      rfl
    · rw [found]
      rfl

end Steps

/-! ### The whole walk -/

theorem isNameReport_of_mem_foundAt {setting : Setting} {progress : Progress}
    {lexeme : Lexeme} {rest : List Lexeme} {diagnostic : Diagnostic}
    (member : .problem diagnostic ∈ foundAt setting progress lexeme rest) :
    diagnostic.isNameReport = false := by
  rcases mem_foundAt_cases member with same | ⟨_, sentence⟩ | ⟨_, _, none⟩
  · cases same
    rfl
  · rcases Sentence.mem_findings_cases sentence with ⟨_, _, _, _, none⟩ | ⟨_, same⟩
    · cases none
    · cases same
      rfl
  · cases none

theorem unaccounted_foundAt (setting : Setting) (progress : Progress) (lexeme : Lexeme)
    (rest : List Lexeme) :
    (foundAt setting progress lexeme rest).filterMap Finding.reference? = [] ∧
      ((foundAt setting progress lexeme rest).filterMap Finding.problem?).filter
        Diagnostic.isNameReport = [] := by
  constructor
  · rw [List.filterMap_eq_nil_iff]
    intro finding member
    exact reference?_eq_none_of_mem_foundAt member
  · rw [List.filter_eq_nil_iff]
    intro diagnostic member
    obtain ⟨finding, here, same⟩ := List.mem_filterMap.mp member
    rw [Finding.problem?_eq_some_iff.mp same] at here
    rw [isNameReport_of_mem_foundAt here]
    exact Bool.false_ne_true

theorem accounts_of_walk (setting : Setting) (progress : Progress) (lexemes : List Lexeme) :
    ∃ accounts, Accounts setting.uri lexemes
      ((walk setting progress lexemes).filterMap Finding.reference?)
      ((walk setting progress lexemes).filterMap Finding.problem?) accounts := by
  induction progress, lexemes using walk_induction with
  | nil progress =>
      rw [walk]
      exact ⟨[], Accounts.nil setting.uri⟩
  | copy progress lexeme rest copy ih =>
      obtain ⟨accounts, further⟩ := ih
      rw [walk_copy setting progress copy, ← List.singleton_append (l := walk _ _ _),
        List.filterMap_append, List.filterMap_append]
      exact ⟨_, further.pastCopy copy⟩
  | other progress lexeme rest other ih =>
      obtain ⟨accounts, further⟩ := ih
      obtain ⟨asks, reports⟩ := unaccounted_foundAt setting progress lexeme rest
      rw [walk_step other, List.filterMap_append, List.filterMap_append]
      exact ⟨_, further.past other asks reports⟩

/-! ### The order of the references -/

theorem start_lt_of_precedes {first second : Lexeme} (visible : first.text ≠ [])
    (precedes : first.Precedes second) (uri : String) :
    (first.location uri).span.start < (second.location uri).span.start := by
  have length : 0 < first.text.length := List.length_pos_iff.mpr visible
  change first.line < second.line ∨ first.line = second.line ∧ first.column < second.column
  unfold Lexeme.Precedes at precedes
  omega

theorem text_ne_nil_of_mem_scan {text : List Char} {lexeme : Lexeme}
    (member : lexeme ∈ Lexeme.scan text) : lexeme.text ≠ [] := by
  obtain ⟨_, _, _, _, stands⟩ := Lexeme.mem_scanLines member
  obtain ⟨first, rest, shape, _⟩ := stands.visible
  rw [shape]
  exact List.cons_ne_nil first rest

theorem Gives.operand {uri : String} {lexemes : List Lexeme} {index : Nat} {reference : Reference}
    (gives : Gives uri lexemes index (.copy reference)) :
    ∃ operand, lexemes[index + 1]? = some operand ∧
      reference.location = operand.location uri ∧
        LogicalName.parse operand.text = .ok reference.name := by
  cases gives with
  | reference next _ parsed => exact ⟨_, next, rfl, parsed⟩

/-- References come in the order of their places. -/
theorem Accounts.references_ordered {uri : String} {text : List Char}
    {references : List Reference} {diagnostics : List Diagnostic} {accounts : List (Nat × Finding)}
    (accounted : Accounts uri (Lexeme.scan text) references diagnostics accounts) :
    references.Pairwise fun first second =>
      first.location.span.start < second.location.span.start := by
  rw [accounted.asked, List.pairwise_filterMap]
  apply accounted.ordered.imp_of_mem
  intro earlier later here there before first firstFound second secondFound
  have firstGiven := accounted.given earlier here
  have secondGiven := accounted.given later there
  rw [Finding.eq_copy_of_reference? firstFound] at firstGiven
  rw [Finding.eq_copy_of_reference? secondFound] at secondGiven
  obtain ⟨operand, next, place, _⟩ := firstGiven.operand
  obtain ⟨other, further, otherPlace, _⟩ := secondGiven.operand
  obtain ⟨within, rfl⟩ := List.getElem?_eq_some_iff.mp next
  obtain ⟨also, rfl⟩ := List.getElem?_eq_some_iff.mp further
  have precedes := List.pairwise_iff_getElem.mp (Lexeme.pairwise_scan text) _ _ within also
    (Nat.add_lt_add_right before 1)
  rw [place, otherPlace]
  exact start_lt_of_precedes (text_ne_nil_of_mem_scan (List.getElem_mem within)) precedes uri

/-! ### Copybooks among the symbols -/

def placesOf (name : List Char) (references : List Reference) : List Location :=
  (references.filter fun reference => reference.name.text = name).map Reference.location

theorem mem_placesOf_iff {name : List Char} {references : List Reference} {location : Location} :
    location ∈ placesOf name references ↔
      ∃ reference ∈ references, reference.name.text = name ∧ reference.location = location := by
  unfold placesOf
  simp only [List.mem_map, List.mem_filter, decide_eq_true_eq, and_assoc]

theorem Finding.says_mentioned_iff {finding : Finding} {key : SymbolKey} :
    finding.Says (.mentioned key) ↔ finding.key? = some key := by
  cases finding with
  | problem diagnostic => exact iff_of_false id (Option.some_ne_none key).symm
  | definition kind written location => exact eq_comm.trans Option.some_inj.symm
  | usage kind written location => exact eq_comm.trans Option.some_inj.symm
  | copy reference => exact eq_comm.trans Option.some_inj.symm

theorem kind_of_usage_mem_walk {setting : Setting} {progress : Progress} {lexemes : List Lexeme}
    {kind : SymbolKind} {written : List Char} {location : Location}
    (member : .usage kind written location ∈ walk setting progress lexemes) :
    kind = .paragraph := by
  rcases mem_walk_cases member rfl with ⟨_, none⟩ | ⟨_, _, _, sentence⟩ | ⟨_, same⟩
  · cases none
  · exact absurd sentence Sentence.usage_not_mem_findings
  · cases same
    rfl

section Copybooks

variable {setting : Setting} {progress : Progress} {lexemes : List Lexeme} {finding : Finding}
  {name : List Char}

theorem ofWritten_copybook {reference : Reference}
    (member : .copy reference ∈ walk setting progress lexemes) :
    SymbolKey.ofWritten .copybook reference.name.text = ⟨.copybook, reference.name.text⟩ := by
  obtain ⟨_, names⟩ := names_of_mem_walk member
  obtain ⟨operand, _, _, parsed⟩ := names.name
  exact congrArg (SymbolKey.mk .copybook) (LogicalName.normal_of_parse parsed)

theorem key?_eq_copybook_iff (member : finding ∈ walk setting progress lexemes) :
    finding.key? = some ⟨.copybook, name⟩ ↔
      ∃ reference, finding = .copy reference ∧ reference.name.text = name := by
  cases finding with
  | problem diagnostic => exact iff_of_false nofun nofun
  | definition kind written location =>
      have other := kind_of_mem_walk member
      refine iff_of_false ?_ nofun
      intro key
      exact other (congrArg SymbolKey.kind (Option.some.inj key))
  | usage kind written location =>
      rw [kind_of_usage_mem_walk member]
      exact iff_of_false nofun nofun
  | copy reference =>
      change some (SymbolKey.ofWritten .copybook reference.name.text) = _ ↔ _
      rw [ofWritten_copybook member]
      simp

theorem says_usedAt_copybook_iff (member : finding ∈ walk setting progress lexemes)
    {location : Location} :
    finding.Says (.usedAt ⟨.copybook, name⟩ location) ↔
      ∃ reference, finding = .copy reference ∧ reference.name.text = name ∧
        reference.location = location := by
  constructor
  · intro told
    obtain ⟨key, stands⟩ := Finding.of_says_usedAt told
    obtain ⟨reference, rfl, same⟩ := (key?_eq_copybook_iff member).mp key
    exact ⟨reference, rfl, same, Option.some.inj stands⟩
  · intro found
    obtain ⟨reference, rfl, rfl, rfl⟩ := found
    rw [← ofWritten_copybook member]
    exact says_copy reference

/-- A copybook is among the symbols if it is asked for. It is used where it is asked for, and it is
defined nowhere. -/
theorem get?_copybook (setting : Setting) (progress : Progress) (lexemes : List Lexeme)
    (name : List Char) :
    let parsed := ParsedDocument.ofFindings (walk setting progress lexemes)
    parsed.context.symbols.get? ⟨.copybook, name⟩ =
      if placesOf name parsed.references = [] then none
      else some ⟨.empty, .ofList (placesOf name parsed.references)⟩ := by
  intro parsed
  have places : ∀ location, location ∈ placesOf name parsed.references ↔
      ∃ finding ∈ walk setting progress lexemes, ∃ reference, finding = .copy reference ∧
        reference.name.text = name ∧ reference.location = location := by
    intro location
    rw [mem_placesOf_iff]
    constructor
    · intro found
      obtain ⟨reference, member, rest⟩ := found
      obtain ⟨finding, there, same⟩ := List.mem_filterMap.mp member
      exact ⟨finding, there, reference, Finding.eq_copy_of_reference? same, rest⟩
    · intro found
      obtain ⟨_, there, reference, rfl, rest⟩ := found
      exact ⟨reference, List.mem_filterMap.mpr ⟨_, there, rfl⟩, rest⟩
  have used : ∀ location, parsed.context.Knows (.usedAt ⟨.copybook, name⟩ location) ↔
      location ∈ placesOf name parsed.references := by
    intro location
    rw [knows_ofFindings, places]
    exact exists_congr fun finding =>
      and_congr_right fun member => says_usedAt_copybook_iff member
  have undefined : ∀ location, ¬parsed.context.Knows (.definedAt ⟨.copybook, name⟩ location) := by
    intro location known
    obtain ⟨finding, member, told⟩ := (knows_ofFindings _ _).mp known
    obtain ⟨kind, written, rfl, same⟩ := Finding.of_says_definedAt told
    exact kind_of_mem_walk member (congrArg SymbolKey.kind same).symm
  have mentioned : (∃ found, parsed.context.symbols.get? ⟨.copybook, name⟩ = some found) ↔
      ∃ location, location ∈ placesOf name parsed.references := by
    rw [← Context.knows_mentioned, knows_ofFindings]
    constructor
    · intro known
      obtain ⟨finding, member, told⟩ := known
      obtain ⟨reference, copy, same⟩ :=
        (key?_eq_copybook_iff member).mp (Finding.says_mentioned_iff.mp told)
      exact ⟨_, (places _).mpr ⟨finding, member, reference, copy, same, rfl⟩⟩
    · intro known
      obtain ⟨location, there⟩ := known
      obtain ⟨finding, member, reference, copy, same, _⟩ := (places location).mp there
      exact ⟨finding, member, Finding.says_mentioned_iff.mpr
        ((key?_eq_copybook_iff member).mpr ⟨reference, copy, same⟩)⟩
  by_cases unasked : placesOf name parsed.references = []
  · rw [if_pos unasked, Option.eq_none_iff_forall_ne_some]
    intro found held
    obtain ⟨location, there⟩ := mentioned.mp ⟨found, held⟩
    rw [unasked] at there
    cases there
  · rw [if_neg unasked]
    obtain ⟨found, held⟩ := mentioned.mpr (List.exists_mem_of_ne_nil _ unasked)
    have definitions : found.definitions = .empty := by
      apply OrderedSet.eq_of_mem_iff
      intro location
      refine iff_of_false ?_ List.not_mem_nil
      rw [← Context.knows_definedAt held]
      exact undefined location
    have usages : found.usages = .ofList (placesOf name parsed.references) := by
      apply OrderedSet.eq_of_mem_iff
      intro location
      rw [OrderedSet.mem_ofList, ← Context.knows_usedAt held]
      exact used location
    rw [held, ← definitions, ← usages]

end Copybooks

/-- Every word COPY at which the walk arrives gives one reference or one report of why there is
none. The references come in the order of the text, each stands at the name after its COPY, and
what the document knows of copybooks is that they are used there. -/
theorem copies_accounted_for (uri : String) (text : List Char) (format : Source.Format)
    (options : Options) :
    ∃ parsed, standard uri text format options = .ok parsed ∧
      (parsed.references.Pairwise fun first second =>
        first.location.span.start < second.location.span.start) ∧
      (∀ reference ∈ parsed.references, ∃ index, WordAt (Lexeme.scan text) "COPY" index ∧
        Gives uri (Lexeme.scan text) index (.copy reference)) ∧
      (∀ name, parsed.context.symbols.get? ⟨.copybook, name⟩ =
        if placesOf name parsed.references = [] then none
        else some ⟨.empty, .ofList (placesOf name parsed.references)⟩) ∧
      ∃ accounts, Accounts uri (Lexeme.scan text) parsed.references parsed.context.diagnostics
        accounts := by
  obtain ⟨accounts, accounted⟩ :=
    accounts_of_walk ⟨uri, format, options⟩ .start (Lexeme.scan text)
  refine ⟨_, rfl, accounted.references_ordered, ?_,
    get?_copybook ⟨uri, format, options⟩ .start (Lexeme.scan text), accounts, ?_⟩
  · intro reference member
    rw [show (document uri text format options).references = _ from accounted.asked] at member
    obtain ⟨account, among, found⟩ := List.mem_filterMap.mp member
    have given := accounted.given account among
    rw [Finding.eq_copy_of_reference? found] at given
    exact ⟨account.1, ((accounted.arrived _).mp (List.mem_map_of_mem among)).2, given⟩
  · unfold document
    rw [diagnostics_ofFindings]
    exact accounted

/-- The second word COPY is passed as a library, and the third one names no copybook. -/
example : (document "root" "COPY A OF COPY B. COPY 'X Y'. COPY C".toList .free
    ⟨true, true⟩).references.map (fun reference => reference.name.text) = [['A'], ['C']] := by
  decide +kernel

end Parse

end CobolAnalysis
