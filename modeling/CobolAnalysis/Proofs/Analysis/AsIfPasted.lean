/-
Documents whose copybooks could as well be pasted in.

Where every reference brings its copybook in anew, a document defines the same data items,
sections and paragraphs as the text with the copybooks in place of its COPY statements. But a
copybook is parsed by itself: the procedure division has not begun before it, and what begins
in it has no effect on the lines after the COPY statement. So a sentence that begins with an
integer can be a data entry the one way and a paragraph the other.
-/

import CobolAnalysis.Proofs.Analysis.Contributions
import CobolAnalysis.Proofs.Parse.Pasting

namespace CobolAnalysis

open Parse (Pasteable Pastes ReadAlike Reference definedBy)
open Provider (Memory)

/-- The lines of the copybook that a request for the name is answered with. -/
def Provider.Memory.lines? (stock : Memory) (name : LogicalName) : Option (List (List Char)) :=
  ((stock.answer? name).bind FetchResult.content).map Text.lines

/-! ### A document as its lines have it -/

theorem Reading.standard_reads (config : Config) (format : Source.Format)
    (options : Parse.Options) (uri : String) {text : List Char}
    (readable : ∀ raw ∈ Text.lines text, '\x00' ∉ raw) :
    let findings := Parse.findingsIn ⟨uri, format, options⟩ config.debugLinesAsCode
      (Text.lines text)
    ∃ parsed, (Reading.standard config format options).document uri text = .ok parsed ∧
      (∀ key, parsed.context.Defines key ↔ key ∈ Parse.defined findings) ∧
      parsed.references.map Reference.name = Parse.requested findings := by
  intro findings
  have oneLine : ∀ raw ∈ Text.lines text, '\n' ∉ raw := fun raw member =>
    Text.newline_not_mem_of_mem_lines member
  have tidy := Source.rendered_tidy format config.debugLinesAsCode oneLine
  rcases Source.preprocess_standard config.debugLinesAsCode uri format text with
    ⟨number, ⟨⟨raw, there, binary⟩, _⟩, _⟩ | ⟨_, diagnostics, written⟩
  · exact absurd binary (readable raw (List.mem_of_getElem? there))
  · have scanned : Parse.findingsOf ⟨uri, format, options⟩ (Text.unlines
        (Source.rendered format config.debugLinesAsCode (Text.lines text))) = findings := by
      unfold Parse.findingsOf
      rw [Lexeme.scan_unlines tidy]
      rfl
    have read : (Reading.standard config format options).document uri text =
        .ok ⟨(Context.ofDiagnostics diagnostics).merge (Parse.ParsedDocument.ofFindings
          findings).context, (Parse.ParsedDocument.ofFindings findings).references⟩ := by
      unfold Reading.document Reading.standard Config.stage
      simp only [written, Parse.standard, Parse.document, scanned]
    refine ⟨_, read, fun key => ?_, rfl⟩
    rw [← Parse.defines_ofFindings]
    constructor
    · rintro ⟨location, known⟩
      rcases (Context.knows_merge _ _ _).mp known with reports | found
      · exact absurd reports (Context.not_knows_ofDiagnostics _ _)
      · exact ⟨location, found⟩
    · rintro ⟨location, found⟩
      exact ⟨location, (Context.knows_merge _ _ _).mpr (Or.inr found)⟩

/-! ### A copybook that could be pasted in -/

section Copybooks

variable {shelf : Shelf} {format : Source.Format} {options : Parse.Options}

theorem Shelf.lookUp_of_lines? (reads : shelf.reading = .standard shelf.config format options)
    {name : LogicalName} {copybook : List (List Char)}
    (found : shelf.stock.lines? name = some copybook)
    (pasteable : Pasteable format shelf.config.debugLinesAsCode copybook) :
    ∃ document, shelf.lookUp name = .ok document ∧ document.references = [] ∧
      ∀ key, document.context.Defines key ↔
        key ∈ definedBy format shelf.config.debugLinesAsCode false copybook := by
  unfold Memory.lines? at found
  obtain ⟨text, content, rfl⟩ := Option.map_eq_some_iff.mp found
  obtain ⟨answer, answered, held⟩ := Option.bind_eq_some_iff.mp content
  obtain ⟨document, read, defines, asks⟩ :=
    Reading.standard_reads shelf.config format options name.uri pasteable.readable
  rw [← reads] at read
  refine ⟨document, ?_, ?_, fun key => ?_⟩
  · unfold Shelf.lookUp
    simp only [answered, held, read]
  · have asksNothing := asks.trans (Parse.requested_walk pasteable.free _ .start)
    exact List.map_eq_nil_iff.mp asksNothing
  · have alone := Parse.defined_walk_eq_definedBy pasteable.free name.uri options
      Parse.Progress.start_alike_resumed 0
    rw [defines, ← alone]
    rfl

/-- A reference to such a copybook contributes what the copybook defines, and the copybook itself
as a symbol. -/
theorem Shelf.defines_contribution
    (reads : shelf.reading = .standard shelf.config format options)
    (deep : 0 < shelf.config.maxDepth)
    {reference : Reference} {copybook : List (List Char)}
    (found : shelf.stock.lines? reference.name = some copybook)
    (pasteable : Pasteable format shelf.config.debugLinesAsCode copybook) {key : SymbolKey}
    (other : key.kind ≠ .copybook) :
    (shelf.contribution shelf.config.maxDepth [] .root reference).Defines key ↔
      key ∈ definedBy format shelf.config.debugLinesAsCode false copybook := by
  obtain ⟨document, looked, asksNothing, defines⟩ := Shelf.lookUp_of_lines? reads found pasteable
  obtain ⟨deeper, depth⟩ := Nat.exists_eq_succ_of_ne_zero (Nat.pos_iff_ne_zero.mp deep)
  have contributes : shelf.contribution shelf.config.maxDepth [] .root reference =
      document.context.define .copybook reference.name.text
        (.documentStart reference.name.uri) := by
    rw [depth, Shelf.contribution, if_neg List.not_mem_nil, looked]
    simp only [asksNothing]
    rfl
  rw [contributes, Context.defines_define, defines]
  refine or_iff_left ?_
  rintro rfl
  exact other rfl

theorem Shelf.defines_contributions
    (reads : shelf.reading = .standard shelf.config format options)
    (deep : 0 < shelf.config.maxDepth)
    {references : List Reference}
    (pasteable : ∀ name ∈ references.map Reference.name, ∃ copybook,
      shelf.stock.lines? name = some copybook ∧
        Pasteable format shelf.config.debugLinesAsCode copybook)
    {key : SymbolKey} (other : key.kind ≠ .copybook) :
    (∃ context ∈ references.map (shelf.contribution shelf.config.maxDepth [] .root),
        context.Defines key) ↔
      key ∈ Parse.broughtIn format shelf.config.debugLinesAsCode shelf.stock.lines?
        (references.map Reference.name) := by
  unfold Parse.broughtIn
  simp only [List.mem_map, List.mem_flatMap, exists_exists_and_eq_and]
  refine exists_congr fun reference => and_congr_right fun member => ?_
  obtain ⟨copybook, found, fits⟩ := pasteable reference.name (List.mem_map_of_mem member)
  rw [Shelf.defines_contribution reads deep found fits other, found]
  rfl

end Copybooks

/-! ### Pasted in or not -/

/-- A document defines the same data items, sections and paragraphs whether its copybooks are
brought in by reference or pasted in, unless a sentence that begins with an integer is read inside
the procedure division the one way and outside it the other. -/
theorem defines_as_if_pasted {σ : Type} (shelf : Shelf) (format : Source.Format)
    (options : Parse.Options) (reads : shelf.reading = .standard shelf.config format options)
    (independent : shelf.config.dedup = .independent) (deep : 0 < shelf.config.maxDepth)
    (venue : Venue σ) (bus : Bus (Board σ)) (attached : venue.Attached shelf.stock [] bus)
    (uri : String) (text : List Char) (readable : ∀ raw ∈ Text.lines text, '\x00' ∉ raw)
    (pastedUri : String) (pasted : List Char)
    (pastes : Pastes format shelf.config.debugLinesAsCode shelf.stock.lines?
      (ReadAlike format shelf.config.debugLinesAsCode) false false (Text.lines text)
      (Text.lines pasted)) :
    ∃ parsed, shelf.reading.document pastedUri pasted = .ok parsed ∧
      ∃ least, ∀ limit, least ≤ limit → ∃ outcome,
        (shelf.analyzer venue limit).document uri text bus = some outcome ∧
          ∀ kind, kind ≠ .copybook →
            outcome.context.definedNames kind = parsed.context.definedNames kind := by
  obtain ⟨document, read, defines, asks⟩ :=
    Reading.standard_reads shelf.config format options uri readable
  obtain ⟨parsed, pastedRead, pastedDefines, _⟩ :=
    Reading.standard_reads shelf.config format options pastedUri (pastes.readable readable)
  rw [← reads] at read pastedRead
  obtain ⟨least, composed⟩ := Shelf.composes independent attached uri text
  refine ⟨parsed, pastedRead, least, fun limit enough => ?_⟩
  obtain ⟨outcome, composes⟩ := composed limit enough
  refine ⟨outcome, composes.ran, fun kind other => Context.definedNames_eq fun name => ?_⟩
  have together := pastes.defined_document uri pastedUri options
  have found := pastes.requested_document uri options
  rw [← asks] at found
  obtain ⟨base, roots⟩ := Analyzer.reads_document (shelf.analyzer venue limit) read
  calc outcome.context.Defines ⟨kind, name⟩
    _ ↔ document.context.Defines ⟨kind, name⟩ ∨ ∃ context ∈ document.references.map
          (shelf.contribution shelf.config.maxDepth [] .root), context.Defines ⟨kind, name⟩ := by
        rw [composes.merged, base, roots, Context.defines_foldl_merge]
    _ ↔ _ ∨ ⟨kind, name⟩ ∈ Parse.broughtIn format shelf.config.debugLinesAsCode
          shelf.stock.lines? (document.references.map Reference.name) := by
        rw [defines, Shelf.defines_contributions reads deep found other]
    _ ↔ parsed.context.Defines ⟨kind, name⟩ := by
        rw [asks, pastedDefines, ← List.mem_append]
        exact together.mem_iff.symm

namespace Scenario.Program

/-! ### Data and procedures from copybooks -/

def items : LogicalName := ⟨['I']⟩

def steps : LogicalName := ⟨['S']⟩

def stock : Memory where
  copybooks := .ofList [(items, "       01 ITEM.".toList), (steps, "       STEP.".toList)]
  silent := []
  requests := 0

def text : List Char :=
  "       COPY I.\n       PROCEDURE DIVISION.\n       COPY S.".toList

def pasted : List Char :=
  "       01 ITEM.\n       PROCEDURE DIVISION.\n       STEP.".toList

def shelf : Shelf :=
  let config := { Config.standard with dedup := .independent }
  ⟨.standard config .fixed ⟨true, true⟩, config, stock⟩

theorem pastes : Pastes .fixed false stock.lines? (ReadAlike .fixed false) false false
    (Text.lines text) (Text.lines pasted) := by
  have lines : Text.lines text = [] ++ "       COPY I.".toList ::
      (["       PROCEDURE DIVISION.".toList] ++ "       COPY S.".toList :: []) := by
    decide +kernel
  have pastedLines : Text.lines pasted = [] ++ (["       01 ITEM.".toList] ++
      (["       PROCEDURE DIVISION.".toList] ++ (["       STEP.".toList] ++ []))) := by
    decide +kernel
  rw [lines, pastedLines]
  refine .copy (by decide +kernel) (.inl rfl) (show _ = some items by decide +kernel)
    (by decide +kernel) (by decide +kernel) (.inl rfl) (by decide +kernel) ?_
  refine .copy (by decide +kernel) (by decide +kernel) (show _ = some steps by decide +kernel)
    (by decide +kernel) (by decide +kernel) (.inr (by decide +kernel)) (by decide +kernel) ?_
  exact .own (by decide +kernel) (.inr trivial)

end Scenario.Program

section Sample

open Scenario

/-- The copybooks bring in a data item and a paragraph. -/
theorem sample_defines_as_if_pasted :
    ∃ least, ∀ limit, least ≤ limit → ∃ outcome,
      (Program.shelf.analyzer (Bench.venue Script.empty) limit).document "root" Program.text
          (Bench.withMemory Script.empty Program.stock) = some outcome ∧
        outcome.context.definedNames .dataItem = ["ITEM".toList] ∧
        outcome.context.definedNames .paragraph = ["STEP".toList] := by
  have attached := Bench.attached_unscripted Program.stock
  obtain ⟨parsed, read, least, analyzed⟩ := defines_as_if_pasted Program.shelf .fixed ⟨true, true⟩
    rfl rfl (by decide) _ _ attached "root" Program.text (by decide +kernel) "pasted"
    Program.pasted Program.pastes
  have names : (Program.shelf.reading.document "pasted" Program.pasted).toOption.map
      (fun parsed => (parsed.context.definedNames .dataItem,
        parsed.context.definedNames .paragraph)) = some (["ITEM".toList], ["STEP".toList]) := by
    decide +kernel
  rw [read] at names
  obtain ⟨dataItems, paragraphs⟩ := Prod.mk.inj (Option.some.inj names)
  refine ⟨least, fun limit enough => ?_⟩
  obtain ⟨outcome, ran, same⟩ := analyzed limit enough
  refine ⟨outcome, ran, ?_, ?_⟩
  · exact (same .dataItem (by decide)).trans dataItems
  · exact (same .paragraph (by decide)).trans paragraphs

end Sample

namespace Scenario.Numbered

/-! ### A paragraph that is lost

In the procedure division the document asks for a copybook with the paragraph 0100. Parsed by
itself, the copybook has a data entry without a name there. -/

def steps : LogicalName := ⟨['P']⟩

def stock : Memory where
  copybooks := .ofList [(steps, "       0100.".toList)]
  silent := []
  requests := 0

def text : List Char := "       PROCEDURE DIVISION.\n       COPY P.".toList

def pasted : List Char := "       PROCEDURE DIVISION.\n       0100.".toList

def shelf : Shelf :=
  let config := { Config.standard with dedup := .independent }
  ⟨.standard config .fixed ⟨true, false⟩, config, stock⟩

/-- With the copybook pasted in, the text defines a paragraph which the analysis does not have. -/
theorem paragraph_lost_when_copied :
    Pastes .fixed false stock.lines? (fun _ _ _ => True) false false (Text.lines text)
        (Text.lines pasted) ∧
      ∃ parsed, shelf.reading.document "pasted" pasted = .ok parsed ∧
        ∃ least, ∀ limit, least ≤ limit → ∃ outcome,
          (shelf.analyzer (Bench.venue Script.empty) limit).document "root" text
              (Bench.withMemory Script.empty stock) = some outcome ∧
            outcome.context.definedNames .paragraph ≠ parsed.context.definedNames .paragraph := by
  constructor
  · have lines : Text.lines text =
        ["       PROCEDURE DIVISION.".toList] ++ "       COPY P.".toList :: [] := by decide +kernel
    have pastedLines : Text.lines pasted =
        ["       PROCEDURE DIVISION.".toList] ++ (["       0100.".toList] ++ []) := by
      decide +kernel
    rw [lines, pastedLines]
    refine .copy (by decide +kernel) trivial (show _ = some steps by decide +kernel)
      (by decide +kernel) (by decide +kernel) trivial (by decide +kernel) ?_
    exact .own (by decide +kernel) trivial
  · have attached := Bench.attached_unscripted stock
    obtain ⟨least, _, analyzed, _⟩ := shelf.document_mirrors attached "root" text
    have readable : ∀ raw ∈ Text.lines pasted, '\x00' ∉ raw := by decide +kernel
    obtain ⟨parsed, read, _⟩ :=
      Reading.standard_reads shelf.config .fixed ⟨true, false⟩ "pasted" readable
    have found : ((shelf.reading.document "pasted" pasted).toOption.map
        fun parsed => parsed.context.definedNames .paragraph) = some ["0100".toList] := by
      decide +kernel
    have lost : (shelf.document "root" text).context.definedNames .paragraph = [] := by
      decide +kernel
    refine ⟨parsed, read, least, fun limit enough => ⟨_, analyzed limit enough, ?_⟩⟩
    change (shelf.document "root" text).context.definedNames .paragraph ≠ _
    rw [show shelf.reading.document "pasted" pasted = _ from read] at found
    have there : parsed.context.definedNames .paragraph = ["0100".toList] := Option.some.inj found
    rw [lost, there]
    decide

end Scenario.Numbered

end CobolAnalysis
