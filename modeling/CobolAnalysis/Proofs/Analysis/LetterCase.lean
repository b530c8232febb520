/-
Analyses have no regard to letter case.

Take documents and copybooks that differ in the case of ASCII letters only. What is read from
them is the same, but for the case of what messages quote, so their analyses correspond: they
ask for the same copybooks, find the same symbols and report the same problems.
-/

import CobolAnalysis.Proofs.Analysis.Correspondence
import CobolAnalysis.Proofs.Analysis.Journal
import CobolAnalysis.Proofs.Parse.LetterCase
import CobolAnalysis.Proofs.Scenario.Bench
import Mathlib.Data.List.Forall2

namespace CobolAnalysis

open Provider (Memory)
open Text (upper)

/-- The same problem at the same place, in words that are the same but for letter case. -/
structure Diagnostic.SameButCase (diagnostic other : Diagnostic) : Prop where
  location : diagnostic.location = other.location
  severity : diagnostic.severity = other.severity
  code : diagnostic.code = other.code
  related : diagnostic.related = other.related
  message : Text.sameLetters diagnostic.message.toList other.message.toList = true

theorem Diagnostic.sameButCase_of_capitals {diagnostic other : Diagnostic}
    (same : diagnostic.capitals = other.capitals) : diagnostic.SameButCase other := by
  obtain ⟨location, severity, code, message, related⟩ := diagnostic
  obtain ⟨otherLocation, otherSeverity, otherCode, otherMessage, otherRelated⟩ := other
  obtain ⟨sameLocation, sameSeverity, sameCode, sameMessage, sameRelated⟩ :=
    Diagnostic.mk.inj same
  exact ⟨sameLocation, sameSeverity, sameCode, sameRelated,
    beq_iff_eq.mpr (String.ofList_inj.mp sameMessage)⟩

/-! ### Contexts -/

namespace Context

/-- The context with its messages in capitals. -/
def capitals (context : Context) : Context :=
  { context with diagnostics := context.diagnostics.map Diagnostic.capitals }

def SameButCase (context other : Context) : Prop := context.capitals = other.capitals

theorem SameButCase.symbols {context other : Context} (same : context.SameButCase other) :
    context.symbols = other.symbols := by
  have symbols := congrArg Context.symbols (show context.capitals = other.capitals from same)
  exact symbols

theorem SameButCase.diagnostics {context other : Context} (same : context.SameButCase other) :
    List.Forall₂ Diagnostic.SameButCase context.diagnostics other.diagnostics := by
  have listed : List.Forall₂ Eq (context.diagnostics.map Diagnostic.capitals)
      (other.diagnostics.map Diagnostic.capitals) := by
    rw [List.forall₂_eq_eq_eq]
    exact congrArg Context.diagnostics same
  have pairs := List.forall₂_map_left_iff.mp (List.forall₂_map_right_iff.mp listed)
  exact pairs.imp fun _ _ => Diagnostic.sameButCase_of_capitals

theorem capitals_record (context : Context) (key : SymbolKey)
    (change : Occurrences → Occurrences) :
    (context.record key change).capitals = context.capitals.record key change :=
  rfl

theorem capitals_merge (left right : Context) :
    (left.merge right).capitals = left.capitals.merge right.capitals := by
  have symbols : (left.merge right).symbols = (left.capitals.merge right.capitals).symbols :=
    symbols_merge_congr rfl rfl
  unfold merge capitals at *
  rw [List.map_append]
  exact congrArg (Context.mk · _) symbols

theorem sameButCase_congruence : Congruence SameButCase where
  reports := fun _ => rfl
  merge := fun left right => by
    unfold SameButCase at *
    rw [capitals_merge, capitals_merge, left, right]
  define := fun same kind written location => by
    unfold SameButCase define at *
    rw [capitals_record, capitals_record, same]

end Context

/-! ### Reading -/

namespace Parse

theorem Finding.record_capitals (context : Context) (finding : Finding) :
    finding.capitals.record context.capitals = (finding.record context).capitals := by
  have sameKey : ∀ kind written,
      SymbolKey.ofWritten kind (upper written) = .ofWritten kind written :=
    fun kind written => congrArg (SymbolKey.mk kind) (Text.upper_upper written)
  cases finding with
  | problem diagnostic =>
      change Context.mk _ (context.diagnostics.map Diagnostic.capitals ++ [diagnostic.capitals]) =
        ⟨_, (context.diagnostics ++ [diagnostic]).map Diagnostic.capitals⟩
      rw [List.map_append]
      rfl
  | definition kind written location =>
      exact congrArg (context.capitals.record · fun found => found.define location)
        (sameKey kind written)
  | usage kind written location =>
      exact congrArg (context.capitals.record · fun found => found.use location)
        (sameKey kind written)
  | copy reference => rfl

namespace ParsedDocument

def capitals (parsed : ParsedDocument) : ParsedDocument :=
  ⟨parsed.context.capitals, parsed.references⟩

theorem ofFindings_capitals (findings : List Finding) :
    ofFindings (findings.map Finding.capitals) = (ofFindings findings).capitals := by
  have recorded : ∀ context : Context,
      (findings.map Finding.capitals).foldl Finding.record context.capitals =
        (findings.foldl Finding.record context).capitals := by
    induction findings with
    | nil => exact fun _ => rfl
    | cons finding rest ih =>
        intro context
        rw [List.map_cons, List.foldl_cons, List.foldl_cons, Finding.record_capitals, ih]
  have asked : ∀ finding : Finding, finding.capitals.reference? = finding.reference? :=
    fun finding => by cases finding <;> rfl
  unfold ofFindings
  rw [List.filterMap_map]
  exact congrArg₂ ParsedDocument.mk (recorded .empty)
    (congrArg (List.filterMap · findings) (funext asked))

end ParsedDocument

theorem document_upper (uri : String) (text : List Char) (format : Source.Format)
    (options : Options) :
    (document uri (upper text) format options).capitals =
      (document uri text format options).capitals := by
  unfold document
  rw [← ParsedDocument.ofFindings_capitals, ← ParsedDocument.ofFindings_capitals]
  exact congrArg ParsedDocument.ofFindings (findingsOf_upper ⟨uri, format, options⟩ text)

end Parse

section Standard

variable (config : Config) (format : Source.Format) (options : Parse.Options)

theorem Reading.standard_upper (uri : String) (text : List Char) :
    ((standard config format options).document uri (upper text)).map
        Parse.ParsedDocument.capitals =
      ((standard config format options).document uri text).map Parse.ParsedDocument.capitals := by
  have ignores := Source.Stage.standard_ignoresCase config.debugLinesAsCode
  unfold Reading.document Reading.standard Config.stage
  simp only
  rw [Source.preprocess_upper ignores]
  cases Source.preprocess (.pipeline (Source.Stage.standard config.debugLinesAsCode)) uri format
      text with
  | error cause => rfl
  | ok written =>
      have parsed := Parse.document_upper uri written.value format options
      have context := congrArg Parse.ParsedDocument.context parsed
      have references := congrArg Parse.ParsedDocument.references parsed
      refine congrArg Except.ok (congrArg₂ Parse.ParsedDocument.mk ?_ references)
      change ((Context.ofDiagnostics written.diagnostics).merge
        (Parse.document uri (upper written.value) format options).context).capitals = _
      rw [Context.capitals_merge]
      exact (congrArg (Context.merge _) context).trans (Context.capitals_merge _ _).symm

theorem Reading.standard_readsLike (uri : String) {text other : List Char}
    (same : Text.sameLetters text other = true) :
    ReadsLike Context.SameButCase ((standard config format options).document uri text)
      ((standard config format options).document uri other) := by
  have capitals : ((standard config format options).document uri text).map
      Parse.ParsedDocument.capitals = ((standard config format options).document uri other).map
        Parse.ParsedDocument.capitals := by
    rw [← standard_upper, beq_iff_eq.mp same, standard_upper]
  cases read : (standard config format options).document uri text with
  | error error =>
      cases otherwise : (standard config format options).document uri other with
      | error another =>
          rw [read, otherwise] at capitals
          exact Except.error.inj capitals ▸ .refused error
      | ok parsed =>
          rw [read, otherwise] at capitals
          cases capitals
  | ok parsed =>
      cases otherwise : (standard config format options).document uri other with
      | error another =>
          rw [read, otherwise] at capitals
          cases capitals
      | ok another =>
          rw [read, otherwise] at capitals
          obtain ⟨own, references⟩ := parsed
          obtain ⟨alternative, others⟩ := another
          obtain ⟨context, asks⟩ := Parse.ParsedDocument.mk.inj (Except.ok.inj capitals)
          cases asks
          exact .read (show Context.SameButCase own alternative from context) references

end Standard

/-! ### Analyses -/

/-- The same names with texts that differ in letter case only, and the same names kept silent. -/
structure Provider.Memory.SameButCase (stock other : Memory) : Prop where
  silent : ∀ name, stock.isSilent name = other.isSilent name
  copybooks : ∀ name, Option.Rel (fun text another => Text.sameLetters text another = true)
    (stock.copybooks.get? name) (other.copybooks.get? name)

theorem Provider.Memory.SameButCase.shelves {stock other : Memory}
    (same : stock.SameButCase other) (config : Config) (format : Source.Format)
    (options : Parse.Options) :
    Shelf.Corresponds Context.SameButCase (.standard config format options stock)
      (.standard config format options other) where
  config := rfl
  silent := same.silent
  copybooks := fun name => by
    have held := same.copybooks name
    change Option.Rel _ (stock.copybooks.get? name) (other.copybooks.get? name)
    cases found : stock.copybooks.get? name <;> cases there : other.copybooks.get? name <;>
      rw [found, there] at held <;> cases held
    case none.none => exact .none
    case some.some letters =>
      exact .some (Reading.standard_readsLike config format options name.uri letters)

/-- A document and copybooks in another letter case are analyzed with the same requests, the same
symbols and the same problems. -/
theorem analysis_ignores_letter_case {σ τ : Type} (config : Config) (format : Source.Format)
    (options : Parse.Options) {stock other : Memory} (copybooks : stock.SameButCase other)
    (venue : Venue σ) (bus : Bus (Board σ)) (attached : venue.Attached stock [] bus)
    (place : Venue τ) (line : Bus (Board τ)) (joined : place.Attached other [] line)
    (uri : String) {text another : List Char} (letters : Text.sameLetters text another = true) :
    ∃ least, ∀ limit, least ≤ limit → ∃ outcome otherwise,
      let analyzer := (Shelf.standard config format options stock).analyzer venue limit
      let alternative := (Shelf.standard config format options other).analyzer place limit
      analyzer.document uri text bus = some outcome ∧
      alternative.document uri another line = some otherwise ∧
      ((analyzer.journaled.document uri text (bus, [])).map fun watched => watched.world.2) =
        ((alternative.journaled.document uri another (line, [])).map
          fun watched => watched.world.2) ∧
      outcome.requests = otherwise.requests ∧
      outcome.context.symbols = otherwise.context.symbols ∧
      List.Forall₂ Diagnostic.SameButCase outcome.context.diagnostics
        otherwise.context.diagnostics := by
  obtain ⟨least, rest, mirrors, _⟩ :=
    (Shelf.standard config format options stock).document_mirrors attached uri text
  obtain ⟨enough, remaining, follows, _⟩ :=
    (Shelf.standard config format options other).document_mirrors joined uri another
  obtain ⟨requests, contexts⟩ := (copybooks.shelves config format options).document
    Context.sameButCase_congruence (Reading.standard_readsLike config format options uri letters)
  refine ⟨max least enough, fun limit atLeast => ?_⟩
  have ran := mirrors limit (Nat.le_trans (Nat.le_max_left _ _) atLeast)
  have followed := follows limit (Nat.le_trans (Nat.le_max_right _ _) atLeast)
  refine ⟨_, _, ran, followed, ?_, requests, contexts.symbols, contexts.diagnostics⟩
  rw [Analyzer.document_journaled, Analyzer.document_journaled, ran, followed]
  exact congrArg (fun requests => some (requests.map Request.name)) requests

namespace Scenario.Letters

/-! ### A document in two letter cases

The copybook asks for another one, and each text has a literal that is not closed. -/

def outer : LogicalName := ⟨"OUTER".toList⟩

def inner : LogicalName := ⟨"INNER".toList⟩

def small : Memory where
  copybooks := .ofList [(outer, "       copy Inner. 'lost".toList),
    (inner, "       01 item.".toList)]
  silent := []
  requests := 0

def large : Memory where
  copybooks := .ofList [(inner, "       01 ITEM.".toList),
    (outer, "       Copy INNER. 'Lost".toList)]
  silent := []
  requests := 0

def text : List Char := "       copy outer. \"open".toList

def capitals : List Char := "       COPY OUTER. \"OPEN".toList

theorem sameButCase : small.SameButCase large where
  silent := fun name => by
    change ([] : List LogicalName).contains name = ([] : List LogicalName).contains name
    rfl
  copybooks := fun name => by
    change Option.Rel _ (((Table.empty.insert outer _).insert inner _).get? name)
      (((Table.empty.insert inner _).insert outer _).get? name)
    simp only [Table.get?_insert, Table.get?_empty]
    by_cases isInner : name = inner
    · have apart : ¬name = outer := by
        rw [isInner]
        decide
      rw [if_pos isInner, if_pos isInner, if_neg apart]
      exact .some (by decide +kernel)
    · rw [if_neg isInner, if_neg isInner]
      split
      · exact .some (by decide +kernel)
      · exact .none

end Scenario.Letters

section Sample

open Scenario

/-- Both documents ask for the outer copybook and then for the inner one. -/
theorem sample_analysis_ignores_letter_case :
    ∃ least, ∀ limit, least ≤ limit → ∃ outcome otherwise,
      ((Shelf.standard .standard .fixed ⟨true, true⟩ Letters.small).analyzer
        (Bench.venue Script.empty) limit).document "root" Letters.text
          (Bench.withMemory Script.empty Letters.small) = some outcome ∧
      ((Shelf.standard .standard .fixed ⟨true, true⟩ Letters.large).analyzer
        (Bench.venue Script.empty) limit).document "root" Letters.capitals
          (Bench.withMemory Script.empty Letters.large) = some otherwise ∧
      outcome.requests = otherwise.requests ∧
      outcome.requests.map Request.name = [Letters.outer, Letters.inner] ∧
      outcome.context.symbols = otherwise.context.symbols ∧
      outcome.context.definedNames .dataItem = ["ITEM".toList] ∧
      List.Forall₂ Diagnostic.SameButCase outcome.context.diagnostics
        otherwise.context.diagnostics ∧
      outcome.context.diagnostics.map (fun diagnostic => diagnostic.message) =
        ["Unexpected character '\"open'", "Unexpected character ''lost'"] ∧
      otherwise.context.diagnostics.map (fun diagnostic => diagnostic.message) =
        ["Unexpected character '\"OPEN'", "Unexpected character ''Lost'"] := by
  let shelf := Shelf.standard .standard .fixed ⟨true, true⟩ Letters.small
  let other := Shelf.standard .standard .fixed ⟨true, true⟩ Letters.large
  have attached := Bench.attached_unscripted Letters.small
  have joined := Bench.attached_unscripted Letters.large
  have letters : Text.sameLetters Letters.text Letters.capitals = true := by
    decide +kernel
  obtain ⟨first, analyzed⟩ := analysis_ignores_letter_case .standard .fixed ⟨true, true⟩
    Letters.sameButCase _ _ attached _ _ joined "root" letters
  obtain ⟨second, evaluates⟩ := shelf.document_evaluates attached "root" Letters.text
  obtain ⟨third, otherEvaluates⟩ := other.document_evaluates joined "root" Letters.capitals
  refine ⟨max first (max second third), fun limit enough => ?_⟩
  obtain ⟨outcome, otherwise, ran, followed, _, requests, symbols, diagnostics⟩ :=
    analyzed limit (by omega)
  obtain ⟨context, asked⟩ := evaluates limit (by omega) outcome ran
  obtain ⟨otherContext, _⟩ := otherEvaluates limit (by omega) otherwise followed
  refine ⟨outcome, otherwise, ran, followed, requests, ?_, symbols, ?_, diagnostics, ?_, ?_⟩
  · rw [asked]
    decide +kernel
  · rw [context]
    decide +kernel
  · rw [context]
    decide +kernel
  · rw [otherContext]
    decide +kernel

end Sample

end CobolAnalysis
