/-
Parsing has no regard to the line on which a document begins.

Lexemes that were moved down are answered for in the same way, and their places are recorded as
many lines further down. So the findings of the walk are moved down, and with them what the document
knows and asks for.
-/

import CobolAnalysis.Proofs.Lexemes
import CobolAnalysis.Proofs.Lowering
import CobolAnalysis.Proofs.Parse.Questions
import CobolAnalysis.Proofs.Parse.Walk

namespace CobolAnalysis

namespace Lexeme

theorem keepsAnswers_lowered (lines : Nat) : KeepsAnswers (lowered lines) where
  kind := fun _ => rfl
  beforeBlank := fun _ => rfl
  column := fun _ => rfl
  letters := fun _ _ => rfl

end Lexeme

namespace Parse

def Reference.lowered (lines : Nat) (reference : Reference) : Reference :=
  { reference with location := reference.location.lowered lines }

namespace Finding

def lowered (lines : Nat) : Finding → Finding
  | problem diagnostic => problem (diagnostic.lowered lines)
  | definition kind written location => definition kind written (location.lowered lines)
  | usage kind written location => usage kind written (location.lowered lines)
  | copy reference => copy (reference.lowered lines)

theorem record_lowered (lines : Nat) (context : Context) (finding : Finding) :
    (finding.lowered lines).record (context.lowered lines) =
      (finding.record context).lowered lines := by
  cases finding with
  | problem diagnostic => exact (context.lowered_report lines diagnostic).symm
  | definition kind written location =>
      exact (context.lowered_define lines kind written location).symm
  | usage kind written location => exact (context.lowered_use lines kind written location).symm
  | copy reference =>
      exact (context.lowered_use lines .copybook reference.name.text reference.location).symm

theorem reference?_lowered (lines : Nat) (finding : Finding) :
    (finding.lowered lines).reference? = finding.reference?.map (Reference.lowered lines) := by
  cases finding <;> rfl

end Finding

namespace ParsedDocument

def lowered (lines : Nat) (parsed : ParsedDocument) : ParsedDocument :=
  ⟨parsed.context.lowered lines, parsed.references.map (Reference.lowered lines)⟩

theorem ofFindings_lowered (lines : Nat) (findings : List Finding) :
    ofFindings (findings.map (Finding.lowered lines)) = (ofFindings findings).lowered lines := by
  have recorded : ∀ context : Context,
      (findings.map (Finding.lowered lines)).foldl Finding.record (context.lowered lines) =
        (findings.foldl Finding.record context).lowered lines := by
    induction findings with
    | nil => exact fun _ => rfl
    | cons finding rest ih =>
        intro context
        rw [List.map_cons, List.foldl_cons, List.foldl_cons, Finding.record_lowered, ih]
  have asked : (findings.map (Finding.lowered lines)).filterMap Finding.reference? =
      (findings.filterMap Finding.reference?).map (Reference.lowered lines) := by
    rw [List.filterMap_map, List.map_filterMap]
    exact List.filterMap_congr fun finding _ => finding.reference?_lowered lines
  exact congrArg₂ ParsedDocument.mk (recorded .empty) asked

end ParsedDocument

/-! ### Findings at one place -/

section Places

variable (lines : Nat) (setting : Setting) (inProcedure : Bool) (rest : List Lexeme)

theorem Sentence.dataEntry_lowered (first : Lexeme) (level : Nat) :
    dataEntry setting (first.lowered lines) level (rest.map (Lexeme.lowered lines)) =
      (dataEntry setting first level rest).map (Finding.lowered lines) := by
  unfold dataEntry
  split
  · cases rest with
    | nil => rfl
    | cons name others =>
        simp only [List.map_cons, List.head?_cons, (Lexeme.keepsAnswers_lowered lines).kind,
          (Lexeme.keepsAnswers_lowered lines).isAnyOf]
        split <;> rfl
  · split <;> rfl

theorem Sentence.findings_lowered (first : Lexeme) :
    findings setting inProcedure (first.lowered lines) (rest.map (Lexeme.lowered lines)) =
      (findings setting inProcedure first rest).map (Finding.lowered lines) := by
  have keeps := Lexeme.keepsAnswers_lowered lines
  have levels : level? inProcedure (first.lowered lines) = level? inProcedure first := rfl
  unfold findings
  rw [levels]
  cases level? inProcedure first with
  | some level => exact dataEntry_lowered lines setting rest first level
  | none =>
      simp only [procedureName]
      rw [beginsSection_map keeps, beginsParagraph_map keeps, inAreaA_map keeps, keeps.isName]
      split
      · split
        · rfl
        split <;> rfl
      · rfl

theorem Transfer.findings_lowered (uri : String) (word : Lexeme) :
    findings uri (word.lowered lines) (rest.map (Lexeme.lowered lines)) =
      (findings uri word rest).map (Finding.lowered lines) := by
  unfold findings
  rw [targets_map (Lexeme.keepsAnswers_lowered lines), List.map_map, List.map_map]
  rfl

theorem CopyStatement.finding_lowered (uri : String) (copy : Lexeme) :
    finding uri (copy.lowered lines) (rest.map (Lexeme.lowered lines)) =
      (finding uri copy rest).lowered lines := by
  unfold finding
  rw [operand?_map (Lexeme.keepsAnswers_lowered lines)]
  cases operand? rest with
  | none => rfl
  | some operand =>
      have written : LogicalName.parse (operand.lowered lines).text =
          LogicalName.parse operand.text := rfl
      simp only [Option.map_some, written]
      cases LogicalName.parse operand.text <;> rfl

end Places

/-! ### The walk -/

theorem Progress.Alike.pastCopy {first second : Progress} (alike : first.Alike second)
    (lines : Nat) (copy : Lexeme) (operands : List Lexeme) :
    (first.pastCopy (copy.lowered lines) (operands.map (Lexeme.lowered lines))).Alike
      (second.pastCopy copy operands) := by
  have last : (operands.map (Lexeme.lowered lines)).getLastD (copy.lowered lines) =
      (operands.getLastD copy).lowered lines := by
    rw [List.getLastD_eq_getLast?, List.getLastD_eq_getLast?, List.getLast?_map]
    cases operands.getLast? <;> rfl
  refine ⟨rfl, ?_⟩
  intro lexeme
  unfold Progress.pastCopy Progress.inProcedureAt
  simp only [last, alike.inProcedure]
  rfl

theorem foundAt_lowered (setting : Setting) (lines : Nat) {first second : Progress}
    (alike : first.Alike second) (lexeme : Lexeme) (rest : List Lexeme) :
    foundAt setting first (lexeme.lowered lines) (rest.map (Lexeme.lowered lines)) =
      (foundAt setting second lexeme rest).map (Finding.lowered lines) := by
  have here : first.inProcedureAt (lexeme.lowered lines) = second.inProcedureAt lexeme :=
    alike.procedure lexeme
  unfold foundAt findingsAt
  rw [(Lexeme.keepsAnswers_lowered lines).isRecognized, here, alike.start,
    Sentence.findings_lowered, Transfer.findings_lowered]
  split
  · rw [List.map_append, apply_ite (List.map _), apply_ite (List.map _)]
    rfl
  · rfl

theorem walk_lowered (setting : Setting) (lines : Nat) {first second : Progress}
    (alike : first.Alike second) (lexemes : List Lexeme) :
    walk setting first (lexemes.map (Lexeme.lowered lines)) =
      (walk setting second lexemes).map (Finding.lowered lines) := by
  have keeps := Lexeme.keepsAnswers_lowered lines
  induction second, lexemes using walk_induction generalizing first with
  | nil second =>
      rw [List.map_nil, walk, walk]
      rfl
  | copy second lexeme rest copy ih =>
      rw [List.map_cons, walk_copy setting first ((keeps.isWord lexeme "COPY").trans copy),
        walk_copy setting second copy, CopyStatement.extent_map keeps, ← List.map_take,
        ← List.map_drop, CopyStatement.finding_lowered, ih (alike.pastCopy lines lexeme _)]
      rfl
  | other second lexeme rest other ih =>
      have onward : (first.step (lexeme.lowered lines)).Alike (second.step lexeme) :=
        alike.step rfl
      rw [List.map_cons, walk_step ((keeps.isWord lexeme "COPY").trans other), walk_step other,
        foundAt_lowered setting lines alike, List.map_append, ih onward]

end Parse

end CobolAnalysis
