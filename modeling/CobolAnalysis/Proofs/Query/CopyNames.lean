/-
Questions about the name in a COPY statement.

Inside the name of a COPY statement of the root document, the cursor is on the copybook and on
no other symbol: nothing else stands there in the document itself, and what comes from copybooks
stands in other documents. So the questions about that place are answered with the start of the
copybook, if it was brought in anywhere, and with the statement's own place.
-/

import CobolAnalysis.Proofs.Analysis.IncludeGraph
import CobolAnalysis.Proofs.Analysis.Turns
import CobolAnalysis.Proofs.Parse.Places
import CobolAnalysis.Proofs.Scenario.Bench
import CobolAnalysis.Proofs.Text.LetterCase
import CobolAnalysis.Query.Definition
import CobolAnalysis.Query.Hover
import CobolAnalysis.Query.Mention

namespace CobolAnalysis

open Parse (Finding ParsedDocument Reference)

/-! ### The symbol at a place -/

namespace Context

theorem places_iff_mem_all {context : Context} {key : SymbolKey} {found : Occurrences}
    (held : context.symbols.get? key = some found) (location : Location) :
    context.Places key location ↔ location ∈ found.all := by
  unfold Places Occurrences.all
  rw [knows_definedAt held, knows_usedAt held, List.mem_append]
  rfl

theorem symbolAt?_eq {context : Context} {key : SymbolKey} {found : Occurrences}
    (held : context.symbols.get? key = some found) {uri : String} {position : Position}
    {location : Location} (member : location ∈ found.all)
    (covers : location.covers uri position = true)
    (only : ∀ other place, context.Places other place → place.covers uri position = true →
      other = key) :
    context.symbolAt? uri position = some (key, found) := by
  have entries := Table.lookup_eq_some_iff context.symbols.distinct
  have isSome : (context.symbolAt? uri position).isSome := by
    unfold symbolAt?
    rw [List.find?_isSome]
    exact ⟨_, (entries key found).mp held, List.any_eq_true.mpr ⟨location, member, covers⟩⟩
  obtain ⟨⟨other, others⟩, there⟩ := Option.isSome_iff_exists.mp isSome
  have inside : context.symbols.get? other = some others :=
    (entries other others).mpr (List.mem_of_find?_eq_some there)
  unfold symbolAt? at there
  obtain ⟨place, among, alsoCovers⟩ := List.any_eq_true.mp
    (List.find?_some (p := fun entry : SymbolKey × Occurrences =>
      entry.2.all.any fun location => location.covers uri position) there)
  obtain rfl := only other place ((places_iff_mem_all inside place).mpr among) alsoCovers
  cases held.symm.trans inside
  exact there

end Context

/-! ### Documents that are read in the standard way -/

theorem Reading.standard_findings {config : Config} {format : Source.Format}
    {options : Parse.Options} {uri : String} {text : List Char} {document : ParsedDocument}
    (read : (Reading.standard config format options).document uri text = .ok document) :
    ∃ value, let findings := Parse.findingsOf ⟨uri, format, options⟩ value
      (∀ fact, document.context.Knows fact ↔
        (ParsedDocument.ofFindings findings).context.Knows fact) ∧
      document.references = findings.filterMap Finding.reference? := by
  unfold Reading.document at read
  split at read
  · cases read
  next preprocessed _ =>
    split at read
    · cases read
    next parsed accepted =>
      cases read
      cases accepted
      refine ⟨preprocessed.value, fun fact => ?_, rfl⟩
      rw [Context.knows_merge]
      exact or_iff_right (Context.not_knows_ofDiagnostics _ fact)

/-! ### Copybooks that are read in the standard way -/

namespace Shelf

variable {shelf : Shelf} {format : Source.Format} {options : Parse.Options}

theorem read_of_copybook? {name : LogicalName} {document : ParsedDocument}
    (found : shelf.copybook? name = some document) :
    ∃ text, shelf.reading.document name.uri text = .ok document := by
  have asRequest : shelf.copybook? (Analyzer.requestOf name).name = some document := found
  obtain ⟨text, _, read⟩ := settle_of_copybook? asRequest
  exact ⟨text, read⟩

variable (reads : shelf.reading = .standard shelf.config format options)

include reads

theorem uri_of_places {uri : String} {text : List Char} {document : ParsedDocument}
    (read : shelf.reading.document uri text = .ok document) {key : SymbolKey}
    {location : Location} (places : document.context.Places key location) :
    location.uri = uri := by
  rw [reads] at read
  obtain ⟨value, facts, _⟩ := Reading.standard_findings read
  unfold Context.Places at places
  rw [facts, facts] at places
  obtain ⟨finding, member, _, stands⟩ := Parse.places_ofFindings places
  obtain ⟨lexeme, _, rfl⟩ := Parse.stands_of_mem_walk member stands
  rfl

theorem not_defines_copybook {uri : String} {text : List Char} {document : ParsedDocument}
    (read : shelf.reading.document uri text = .ok document) {key : SymbolKey}
    (copybook : key.kind = .copybook) (location : Location) :
    ¬document.context.Knows (.definedAt key location) := by
  rw [reads] at read
  obtain ⟨value, facts, _⟩ := Reading.standard_findings read
  rw [facts, Parse.knows_ofFindings]
  rintro ⟨finding, member, told⟩
  obtain ⟨kind, written, rfl, rfl⟩ := Finding.of_says_definedAt told
  exact Parse.kind_of_mem_walk member copybook

theorem normal_of_mem_references {uri : String} {text : List Char} {document : ParsedDocument}
    (read : shelf.reading.document uri text = .ok document) {reference : Reference}
    (member : reference ∈ document.references) : reference.name.Normal := by
  rw [reads] at read
  obtain ⟨value, _, references⟩ := Reading.standard_findings read
  rw [references] at member
  obtain ⟨finding, there, same⟩ := List.mem_filterMap.mp member
  obtain rfl := Finding.eq_copy_of_reference? same
  obtain ⟨_, names⟩ := Parse.names_of_mem_walk there
  obtain ⟨_, _, _, parsed⟩ := names.name
  exact LogicalName.normal_of_parse parsed

theorem normal_of_reaches {references : List Reference} {steps : Nat} {name : LogicalName}
    (reaches : shelf.Reaches references steps name)
    (normal : ∀ reference ∈ references, reference.name.Normal) : name.Normal := by
  induction reaches with
  | here member => exact normal _ member
  | further member found onward ih =>
      obtain ⟨text, read⟩ := read_of_copybook? found
      exact ih fun reference there => normal_of_mem_references reads read there

end Shelf

/-! ### Facts that a copybook adds -/

namespace Brought

theorem knows_iff_says (item : Brought) (fact : Fact) :
    item.Knows fact ↔ item.own.Knows fact ∨
      (Finding.definition .copybook item.name.text (.documentStart item.uri)).Says fact := by
  refine or_congr_right ?_
  rw [Context.knows_define_bears]
  exact or_iff_right (Context.not_knows_ofDiagnostics [] fact)

theorem uri_of_knows {item : Brought}
    (own : ∀ key location, item.own.Places key location → location.uri = item.uri)
    {key : SymbolKey} {location : Location}
    (known : item.Knows (.definedAt key location) ∨ item.Knows (.usedAt key location)) :
    location.uri = item.uri := by
  rcases known with known | known <;> rcases (item.knows_iff_says _).mp known with inside | told
  · exact own key location (Or.inl inside)
  · obtain ⟨kind, written, same, _⟩ := Finding.of_says_definedAt told
    cases same
    rfl
  · exact own key location (Or.inr inside)
  · cases (Finding.of_says_usedAt told).2
    rfl

end Brought

/-! ### Answers -/

namespace Query.Cursor

/-- The questions at a cursor are answered with the copybook that the reference names: with the
start of the copybook, if it was brought in, and with the place of the reference. -/
structure OnCopyName (cursor : Cursor) (reference : Reference) (isBroughtIn : Prop) : Prop where
  found : isBroughtIn → cursor.definitions =
    [⟨.documentStart reference.name.uri, .copybook, reference.name.text⟩]
  missing : ¬isBroughtIn → cursor.definitions = []
  hover : ∃ hover, cursor.hover? = some hover ∧ hover.kind = .copybook ∧
    hover.name = reference.name.text ∧ hover.span = some reference.location.span
  mentions : ⟨reference.location, false, .copybook⟩ ∈ (cursor.mentions true).found

theorem onCopyName {cursor : Cursor} {reference : Reference} {isBroughtIn : Prop}
    {found : Occurrences}
    (symbols : cursor.symbols = [(⟨.copybook, reference.name.text⟩, found)])
    (definitions : ∀ location, location ∈ found.definitions ↔
      isBroughtIn ∧ location = .documentStart reference.name.uri)
    (used : reference.location ∈ found.usages)
    (touched : cursor.touches reference.location = true)
    (only : ∀ place ∈ found.all, cursor.touches place = true → place = reference.location) :
    cursor.OnCopyName reference isBroughtIn := by
  have answers : cursor.definitions = targetsOf (⟨.copybook, reference.name.text⟩, found) := by
    unfold Cursor.definitions
    rw [symbols, List.flatMap_singleton]
  refine ⟨fun there => ?_, fun missing => ?_, ?_, ?_⟩
  · have same : found.definitions =
        OrderedSet.empty.insert (.documentStart reference.name.uri) := by
      refine OrderedSet.eq_of_mem_iff _ _ fun location => ?_
      rw [definitions, OrderedSet.mem_insert_empty]
      exact and_iff_right there
    rw [answers, targetsOf, same]
    rfl
  · have none : found.definitions.toList = [] := by
      refine List.eq_nil_iff_forall_not_mem.mpr fun location member => ?_
      exact missing ((definitions location).mp member).1
    rw [answers, targetsOf, none]
    rfl
  · refine ⟨.ofSymbol cursor ⟨.copybook, reference.name.text⟩ found, ?_, rfl, rfl, ?_⟩
    · unfold Cursor.hover?
      rw [symbols]
      rfl
    · have present : reference.location ∈ found.all := List.mem_append_right _ used
      have isSome : (found.all.find? cursor.touches).isSome := by
        rw [List.find?_isSome]
        exact ⟨_, present, touched⟩
      obtain ⟨place, first⟩ := Option.isSome_iff_exists.mp isSome
      have same := only place (List.mem_of_find?_eq_some first) (List.find?_some first)
      change (found.all.find? cursor.touches).map Location.span = _
      rw [first, same]
      rfl
  · unfold Cursor.mentions
    rw [symbols, List.flatMap_singleton]
    exact List.mem_append_right _ (List.mem_map.mpr ⟨_, used, rfl⟩)

end Query.Cursor

/-! ### The context of a whole analysis -/

section Whole

variable {shelf : Shelf} {format : Source.Format} {options : Parse.Options}
variable {uri : String} {text : List Char} {root : ParsedDocument} {brought : List Brought}
variable {context : Context}

theorem Shelf.foreign_of_not_prefix (foreign : ¬"copybook:///".toList <+: uri.toList)
    (name : LogicalName) : name.uri ≠ uri := by
  rintro rfl
  apply foreign
  unfold LogicalName.uri
  rw [String.toList_append]
  exact List.prefix_append _ _

/-- What the analysis of a document knows: what the document says, and what is brought in. -/
structure Shelf.Gathers (shelf : Shelf) (root : ParsedDocument) (brought : List Brought)
    (context : Context) : Prop where
  facts : ∀ fact, context.Knows fact ↔
    root.context.Knows fact ∨ ∃ item ∈ brought, item.Knows fact
  sound : ∀ item ∈ brought, (∃ steps, shelf.Reaches root.references steps item.name) ∧
    ∃ document, shelf.copybook? item.name = some document ∧
      item = .ofDocument item.name document

variable (reads : shelf.reading = .standard shelf.config format options)
variable (read : shelf.reading.document uri text = .ok root)
variable (gathers : shelf.Gathers root brought context)

include reads read gathers

omit read in
theorem Shelf.Gathers.root_places (foreign : ¬"copybook:///".toList <+: uri.toList)
    {key : SymbolKey} {location : Location} (places : context.Places key location)
    (here : location.uri = uri) : root.context.Places key location := by
  have elsewhere : ∀ item ∈ brought,
      ¬(item.Knows (.definedAt key location) ∨ item.Knows (.usedAt key location)) := by
    intro item member known
    obtain ⟨_, document, found, same⟩ := gathers.sound item member
    obtain ⟨_, copybookRead⟩ := Shelf.read_of_copybook? found
    refine Shelf.foreign_of_not_prefix foreign item.name ?_
    rw [← here]
    rw [same] at known ⊢
    exact (Brought.uri_of_knows (fun _ _ inside =>
      Shelf.uri_of_places reads copybookRead inside) known).symm
  rcases places with known | known <;>
    rcases (gathers.facts _).mp known with own | ⟨item, member, added⟩
  · exact Or.inl own
  · exact absurd (Or.inl added) (elsewhere item member)
  · exact Or.inr own
  · exact absurd (Or.inr added) (elsewhere item member)

theorem Shelf.Gathers.defines_copybook {name : LogicalName} (normal : name.Normal)
    (location : Location) :
    context.Knows (.definedAt (.ofWritten .copybook name.text) location) ↔
      (∃ item ∈ brought, item.name = name) ∧ location = .documentStart name.uri := by
  rw [gathers.facts, or_iff_right (Shelf.not_defines_copybook reads read rfl location)]
  constructor
  · rintro ⟨item, member, known⟩
    obtain ⟨⟨_, reached⟩, document, found, same⟩ := gathers.sound item member
    obtain ⟨_, copybookRead⟩ := Shelf.read_of_copybook? found
    rw [Brought.knows_iff_says, same, Brought.ofDocument,
      or_iff_right (Shelf.not_defines_copybook reads copybookRead rfl location)] at known
    obtain ⟨kind, written, defined, key⟩ := Finding.of_says_definedAt known
    cases defined
    have itemNormal : item.name.Normal := Shelf.normal_of_reaches reads reached
      fun reference there => Shelf.normal_of_mem_references reads read there
    have texts : Text.upper name.text = Text.upper item.name.text :=
      congrArg SymbolKey.name key
    have names : item.name = name := by
      rw [normal, itemNormal] at texts
      exact congrArg LogicalName.mk texts.symm
    exact ⟨⟨item, member, names⟩, by rw [names]⟩
  · rintro ⟨⟨item, member, rfl⟩, rfl⟩
    obtain ⟨_, document, found, same⟩ := gathers.sound item member
    refine ⟨item, member, (item.knows_iff_says _).mpr (Or.inr ⟨rfl, ?_⟩)⟩
    rw [same]
    exact OrderedSet.mem_insert_self _ _

/-- Inside the name of a COPY statement, the cursor is on the copybook. -/
theorem Shelf.Gathers.onCopyName (foreign : ¬"copybook:///".toList <+: uri.toList)
    {reference : Reference} (member : reference ∈ root.references) {position : Position}
    (inside : reference.location.span.Inside position) (shown : List Char) :
    (Query.Cursor.mk uri shown context position).OnCopyName reference
      (∃ item ∈ brought, item.name = reference.name) := by
  have normal := Shelf.normal_of_mem_references reads read member
  have readings := read
  rw [reads] at readings
  obtain ⟨value, facts, references⟩ := Reading.standard_findings readings
  obtain ⟨finding, there, isCopy⟩ := List.mem_filterMap.mp (references ▸ member)
  obtain rfl := Finding.eq_copy_of_reference? isCopy
  have only : ∀ key place, context.Places key place → place.covers uri position = true →
      key = .ofWritten .copybook reference.name.text ∧ place = reference.location := by
    intro key place places covers
    have here : place.uri = uri := by
      unfold Location.covers at covers
      rw [Bool.and_eq_true] at covers
      exact beq_iff_eq.mp covers.1
    have own := gathers.root_places reads foreign places here
    unfold Context.Places at own
    rw [facts, facts] at own
    obtain ⟨other, among, isKey, stands⟩ := Parse.places_ofFindings own
    obtain rfl := Parse.eq_copy_of_covers (Lexeme.pairwise_scan value) there inside among stands
      covers
    exact ⟨(Option.some.inj isKey).symm, (Option.some.inj stands).symm⟩
  have covers : reference.location.covers uri position = true := by
    obtain ⟨lexeme, _, place⟩ := Parse.stands_of_mem_walk there rfl
    rw [place] at inside ⊢
    exact Lexeme.covers_of_inside inside
  have known : context.Knows
      (.usedAt (.ofWritten .copybook reference.name.text) reference.location) := by
    rw [gathers.facts, facts, Parse.knows_ofFindings]
    exact Or.inl ⟨_, there, Parse.says_copy reference⟩
  obtain ⟨_, found, held, rfl, used⟩ := known
  have key : SymbolKey.ofWritten .copybook reference.name.text =
      ⟨.copybook, reference.name.text⟩ := congrArg (SymbolKey.mk .copybook) normal
  have atPlace := Context.symbolAt?_eq held (List.mem_append_right _ used) covers
    fun other place places alsoCovers => (only other place places alsoCovers).1
  refine Query.Cursor.onCopyName ?_ (fun location => ?_) used covers fun place among touched => ?_
  · unfold Query.Cursor.symbols
    simp only [atPlace, key]
  · rw [← Context.knows_definedAt held]
    exact gathers.defines_copybook reads read normal location
  · exact (only _ place ((Context.places_iff_mem_all held place).mpr among) touched).2

end Whole

/-- Wherever the root document names a copybook in a COPY statement, the cursor inside that name
leads to the copybook, if it was read for any reference in the course of the analysis, and nowhere
otherwise. -/
theorem copy_names_lead_to_copybooks {σ : Type} (shelf : Shelf) (format : Source.Format)
    (options : Parse.Options) (reads : shelf.reading = .standard shelf.config format options)
    (venue : Venue σ) (bus : Bus (Board σ)) (attached : venue.Attached shelf.stock [] bus)
    (uri : String) (foreign : ¬"copybook:///".toList <+: uri.toList) (text : List Char) :
    ∃ least, ∀ limit, least ≤ limit → ∃ outcome tree turns,
      let analyzer := shelf.analyzer venue limit
      analyzer.document uri text bus = some outcome ∧
      analyzer.Recounts (.document uri text) bus tree turns outcome ∧
      ∀ root, shelf.reading.document uri text = .ok root → ∀ reference ∈ root.references,
        ∀ position, reference.location.span.Inside position → ∀ shown,
          (Query.Cursor.mk uri shown outcome.context position).OnCopyName reference
            (∃ turn ∈ turns, ∃ item, turn.brought? analyzer = some item ∧
              item.name = reference.name) := by
  obtain ⟨first, rest, analyzed, _⟩ := shelf.document_mirrors attached uri text
  let roots := ((shelf.analyzer venue 0).roots (.document uri text))
  obtain ⟨second, _, mirrored, _⟩ := shelf.explore_mirrors shelf.config.maxDepth [] roots
    (.start ()) bus attached
  refine ⟨max first second, fun limit enough => ?_⟩
  have ran := analyzed limit (by omega)
  have asRun : (shelf.analyzer venue limit).run (.document uri text) bus = some _ := ran
  obtain ⟨tree, turns, recounts, _⟩ := Analyzer.run_recounts asRun
  refine ⟨_, tree, turns, ran, recounts, fun root read reference member position inside shown => ?_⟩
  obtain ⟨base, fromRoot⟩ := (shelf.analyzer venue limit).reads_document read
  have same : roots = root.references := ((shelf.analyzer venue 0).reads_document read).2
  have surveyed : tree = (shelf.survey shelf.config.maxDepth [] root.references (.start ())).1 := by
    obtain ⟨ledger, explored, _⟩ := recounts.passes
    have course := mirrored limit (by omega)
    rw [same] at course
    rw [fromRoot] at explored
    exact congrArg Prod.fst (Option.some.inj (explored.symm.trans course))
  have gathers : shelf.Gathers root tree.brought (shelf.document uri text).context := by
    refine ⟨fun fact => ?_, fun item there => ?_⟩
    · rw [recounts.result.facts, base]
    · rw [surveyed] at there
      obtain ⟨steps, _, reaches, found⟩ := Shelf.reaches_of_mem_survey there
      exact ⟨⟨steps, reaches⟩, found⟩
  have broughtIn : (∃ turn ∈ turns, ∃ item,
      turn.brought? (shelf.analyzer venue limit) = some item ∧ item.name = reference.name) ↔
        ∃ item ∈ tree.brought, item.name = reference.name := by
    simp only [recounts.brought.mem_iff, List.mem_filterMap]
    constructor
    · rintro ⟨turn, among, item, brings, named⟩
      exact ⟨item, ⟨turn, among, brings⟩, named⟩
    · rintro ⟨item, ⟨turn, among, brings⟩, named⟩
      exact ⟨turn, among, item, brings, named⟩
  rw [broughtIn]
  exact gathers.onCopyName reads read foreign member inside shown

namespace Scenario.Customers

def name : LogicalName := ⟨"CUSTREC".toList⟩

def stock : Provider.Memory where
  copybooks := .ofList [(name, "       01 CUSTOMER.".toList)]
  silent := []
  requests := 0

def text : List Char := "       COPY CUSTREC.".toList

def shelf : Shelf := ⟨.standard .standard .fixed ⟨true, true⟩, .standard, stock⟩

def reference : Reference := ⟨name, "root", .onLine 0 12 7⟩

end Scenario.Customers

section Sample

open Scenario

/-- In the middle of the name, the cursor is on the copybook. -/
theorem sample_copy_name_leads_to_copybook :
    ∃ least, ∀ limit, least ≤ limit → ∃ outcome tree turns,
      let analyzer := Customers.shelf.analyzer (Bench.venue Script.empty) limit
      let bus := Bench.withMemory Script.empty Customers.stock
      analyzer.document "root" Customers.text bus = some outcome ∧
      analyzer.Recounts (.document "root" Customers.text) bus tree turns outcome ∧
      let cursor := Query.Cursor.mk "root" Customers.text outcome.context ⟨0, 15⟩
      cursor.OnCopyName Customers.reference
        (∃ turn ∈ turns, ∃ item, turn.brought? analyzer = some item ∧
          item.name = Customers.name) ∧
      cursor.definitions =
        [⟨.documentStart "copybook:///CUSTREC", .copybook, Customers.name.text⟩] := by
  have attached := Bench.attached_unscripted Customers.stock
  obtain ⟨first, analyzed⟩ := copy_names_lead_to_copybooks Customers.shelf .fixed ⟨true, true⟩ rfl
    _ _ attached "root" (by decide) Customers.text
  obtain ⟨second, evaluates⟩ :=
    Customers.shelf.document_evaluates attached "root" Customers.text
  have asks : ((Customers.shelf.reading.document "root" Customers.text).toOption.map
      ParsedDocument.references) = some [Customers.reference] := by
    decide +kernel
  refine ⟨max first second, fun limit enough => ?_⟩
  obtain ⟨outcome, tree, turns, ran, recounts, leads⟩ := analyzed limit (by omega)
  obtain ⟨context, _⟩ := evaluates limit (by omega) outcome ran
  have defined : (Query.Cursor.mk "root" Customers.text outcome.context ⟨0, 15⟩).definitions =
      [⟨.documentStart "copybook:///CUSTREC", .copybook, Customers.name.text⟩] := by
    rw [context]
    decide +kernel
  refine ⟨outcome, tree, turns, ran, recounts, ?_, defined⟩
  cases read : Customers.shelf.reading.document "root" Customers.text with
  | error error =>
      rw [read] at asks
      cases asks
  | ok root =>
      rw [read] at asks
      have references : root.references = [Customers.reference] := Option.some.inj asks
      have member : Customers.reference ∈ root.references := by
        rw [references]
        exact List.mem_singleton_self _
      exact leads root read Customers.reference member ⟨0, 15⟩
        ⟨rfl, by decide, by decide⟩ Customers.text

end Sample

end CobolAnalysis
