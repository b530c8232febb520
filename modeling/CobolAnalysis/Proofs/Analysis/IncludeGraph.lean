/-
The include graph of a document, and what an analysis brings in from it.

A document leads to every name it asks for, and on from there if the name stands for a
copybook that is at hand and can be read. Whatever the policy, an analysis brings in
only copybooks to which the document leads within the nesting depth, each as it reads by
itself.
-/

import CobolAnalysis.Proofs.Analysis.Survey
import CobolAnalysis.Proofs.SymbolFacts

namespace CobolAnalysis

open Parse (Reference)
open Provider (Memory)

/-- A copybook that was brought in, and what it says by itself. -/
structure Brought where
  name : LogicalName
  uri : String
  own : Context

namespace Brought

def ofDocument (name : LogicalName) (document : Parse.ParsedDocument) : Brought :=
  ⟨name, name.uri, document.context⟩

/-- The facts that a copybook adds: its own ones, and that it is defined where it starts. -/
def Knows (brought : Brought) (fact : Fact) : Prop :=
  brought.own.Knows fact ∨
    (Context.empty.define .copybook brought.name.text (.documentStart brought.uri)).Knows fact

end Brought

namespace Inclusions

def brought : Inclusions → List Brought
  | none => []
  | refused _ _ rest => brought rest
  | repeated _ rest => brought rest
  | included reference uri own below rest =>
      ⟨reference.name, uri, own⟩ :: (brought below ++ brought rest)

theorem knows_contexts (tree : Inclusions) (site : Site) (fact : Fact) :
    (∃ context ∈ tree.contexts site, context.Knows fact) ↔
      ∃ brought ∈ tree.brought, brought.Knows fact := by
  induction tree generalizing site with
  | none =>
      constructor
      · rintro ⟨_, member, _⟩
        exact absurd member List.not_mem_nil
      · rintro ⟨_, member, _⟩
        exact absurd member List.not_mem_nil
  | refused reference refusal rest ih =>
      rw [brought, ← ih site, contexts]
      simp only [List.mem_cons, exists_eq_or_imp]
      exact or_iff_right (Context.not_knows_ofDiagnostics _ fact)
  | «repeated» reference rest ih => exact ih site
  | included reference uri own below rest ihBelow ih =>
      rw [brought, contexts]
      simp only [List.mem_cons, List.mem_append, or_and_right, exists_or, exists_eq_left]
      rw [Context.knows_define, Context.knows_foldl_merge, ihBelow, ih site]
      unfold Brought.Knows
      constructor
      · rintro (((ofOwn | ofBelow) | ofDefinition) | ofRest)
        · exact Or.inl (Or.inl ofOwn)
        · exact Or.inr (Or.inl ofBelow)
        · exact Or.inl (Or.inr ofDefinition)
        · exact Or.inr (Or.inr ofRest)
      · rintro ((ofOwn | ofDefinition) | ofBelow | ofRest)
        · exact Or.inl (Or.inl (Or.inl ofOwn))
        · exact Or.inl (Or.inr ofDefinition)
        · exact Or.inl (Or.inl (Or.inr ofBelow))
        · exact Or.inr ofRest

end Inclusions

namespace Shelf

variable (shelf : Shelf)

/-- The copybook of that name, if it is given out and can be read. -/
def copybook? (name : LogicalName) : Option Parse.ParsedDocument :=
  if shelf.stock.isSilent name then none
  else
    match shelf.stock.copybooks.get? name with
    | none => none
    | some text => (shelf.reading.document name.uri text).toOption

/-- A document with these references leads to the name in so many COPY steps. -/
inductive Reaches : List Reference → Nat → LogicalName → Prop where
  | here {references : List Reference} {reference : Reference} (member : reference ∈ references) :
      Reaches references 1 reference.name
  | further {references : List Reference} {reference : Reference}
      {document : Parse.ParsedDocument}
      {steps : Nat} {name : LogicalName} (member : reference ∈ references)
      (found : shelf.copybook? reference.name = some document)
      (onward : Reaches document.references steps name) : Reaches references (steps + 1) name

variable {shelf}

theorem settle_of_copybook? {reference : Reference} {document : Parse.ParsedDocument}
    (found : shelf.copybook? reference.name = some document) :
    ∃ text, shelf.settle reference = .resolved reference text reference.name.uri ∧
      shelf.reading.document reference.name.uri text = .ok document := by
  unfold copybook? at found
  unfold settle
  by_cases silent : shelf.stock.isSilent reference.name
  · rw [if_pos silent] at found
    cases found
  · rw [if_neg silent] at found ⊢
    cases held : shelf.stock.copybooks.get? reference.name with
    | none =>
        rw [held] at found
        cases found
    | some text =>
        rw [held] at found
        refine ⟨text, rfl, ?_⟩
        cases read : shelf.reading.document reference.name.uri text with
        | error error =>
            simp only [read] at found
            cases found
        | ok parsed =>
            simp only [read] at found
            cases found
            rfl

theorem settle_eq_resolved {reference of : Reference} {text : List Char} {uri : String}
    (settled : shelf.settle reference = .resolved of text uri) :
    of = reference ∧ uri = reference.name.uri ∧
      shelf.stock.isSilent reference.name = false ∧
        shelf.stock.copybooks.get? reference.name = some text := by
  unfold settle at settled
  by_cases silent : shelf.stock.isSilent reference.name
  · rw [if_pos silent] at settled
    cases settled
  · rw [if_neg silent] at settled
    cases held : shelf.stock.copybooks.get? reference.name with
    | none =>
        rw [held] at settled
        cases settled
    | some kept =>
        rw [held] at settled
        cases settled
        exact ⟨rfl, rfl, Bool.eq_false_iff.mpr silent, rfl⟩

theorem copybook?_of_settle {reference of : Reference} {text : List Char} {uri : String}
    {document : Parse.ParsedDocument} (settled : shelf.settle reference = .resolved of text uri)
    (read : shelf.reading.document uri text = .ok document) :
    shelf.copybook? reference.name = some document := by
  obtain ⟨_, same, audible, held⟩ := settle_eq_resolved settled
  rw [same] at read
  unfold copybook?
  rw [if_neg (Bool.eq_false_iff.mp audible), held]
  simp only [read]
  rfl

theorem settle_of_mem_settleAll {chain : List LogicalName} {references : List Reference}
    {record : Ledger Unit} {of : Reference} {text : List Char} {uri : String}
    (member : .resolved of text uri ∈ (shelf.settleAll chain references record).1) :
    ∃ reference ∈ references, shelf.settle reference = .resolved of text uri := by
  induction references generalizing record with
  | nil => exact absurd member List.not_mem_nil
  | cons reference rest ih =>
      have later : ∀ {record : Ledger Unit},
          .resolved of text uri ∈ (shelf.settleAll chain rest record).1 →
            ∃ other ∈ reference :: rest, shelf.settle other = .resolved of text uri := by
        intro record there
        obtain ⟨other, present, settled⟩ := ih there
        exact ⟨other, List.mem_cons_of_mem reference present, settled⟩
      rcases shelf.settleAll_cases chain reference rest record with
        ⟨circular, whole⟩ | ⟨off, again, whole⟩ | ⟨off, fresh, whole⟩
      · rw [whole] at member
        rcases List.mem_cons.mp member with here | there
        · cases here
        · exact later there
      · rw [whole] at member
        rcases List.mem_cons.mp member with here | there
        · cases here
        · exact later there
      · rw [whole] at member
        rcases List.mem_cons.mp member with here | there
        · exact ⟨reference, List.mem_cons_self, here.symm⟩
        · exact later there

theorem resolved_of_mem_graft
    {follow : LogicalName → List Reference → Ledger Unit → Inclusions × Ledger Unit}
    {settled : List Settled} {record : Ledger Unit} {brought : Brought}
    (member : brought ∈ (shelf.graft follow settled record).1.brought) :
    ∃ reference text uri document between,
      .resolved reference text uri ∈ settled ∧ shelf.reading.document uri text = .ok document ∧
        (brought = ⟨reference.name, uri, document.context⟩ ∨
          brought ∈ (follow reference.name document.references between).1.brought) := by
  induction settled generalizing record with
  | nil => exact absurd member List.not_mem_nil
  | cons entry rest ih =>
      have later : ∀ {record : Ledger Unit},
          brought ∈ (shelf.graft follow rest record).1.brought →
            ∃ reference text uri document between, .resolved reference text uri ∈ entry :: rest ∧
              shelf.reading.document uri text = .ok document ∧
              (brought = ⟨reference.name, uri, document.context⟩ ∨
                brought ∈ (follow reference.name document.references between).1.brought) := by
        intro record there
        obtain ⟨reference, text, uri, document, between, present, parts⟩ := ih there
        exact ⟨reference, text, uri, document, between, List.mem_cons_of_mem entry present, parts⟩
      cases entry with
      | refused reference refusal => exact later member
      | «repeated» reference => exact later member
      | resolved reference text uri =>
          cases read : shelf.reading.document uri text with
          | error error =>
              simp only [graft, read] at member
              exact later member
          | ok document =>
              simp only [graft, read] at member
              rcases List.mem_cons.mp member with here | there
              · exact ⟨reference, text, uri, document, record, List.mem_cons_self, read, .inl here⟩
              · rcases List.mem_append.mp there with below | after
                · exact ⟨reference, text, uri, document, record, List.mem_cons_self, read,
                    .inr below⟩
                · exact later after

theorem brought_survey_zero (chain : List LogicalName) (references : List Reference)
    (record : Ledger Unit) : (shelf.survey 0 chain references record).1.brought = [] := by
  induction references with
  | nil => rfl
  | cons reference rest ih => exact ih

/-- Nothing is brought in but what the references lead to, no deeper than allowed. -/
theorem reaches_of_mem_survey {deeper : Nat} {chain : List LogicalName}
    {references : List Reference} {record : Ledger Unit} {brought : Brought}
    (member : brought ∈ (shelf.survey deeper chain references record).1.brought) :
    ∃ steps, steps ≤ deeper ∧ shelf.Reaches references steps brought.name ∧
      ∃ document, shelf.copybook? brought.name = some document ∧
        brought = .ofDocument brought.name document := by
  induction deeper generalizing chain references record with
  | zero =>
      rw [brought_survey_zero] at member
      exact absurd member List.not_mem_nil
  | succ deeper ih =>
      obtain ⟨of, text, uri, document, between, settled, read, place⟩ :=
        resolved_of_mem_graft member
      obtain ⟨reference, present, same⟩ := settle_of_mem_settleAll settled
      have found := copybook?_of_settle same read
      obtain ⟨rfl, rfl, _⟩ := settle_eq_resolved same
      rcases place with here | below
      · subst here
        exact ⟨1, Nat.succ_le_succ (Nat.zero_le deeper), .here present, document, found, rfl⟩
      · obtain ⟨steps, enough, onward, origin⟩ := ih below
        exact ⟨steps + 1, Nat.succ_le_succ enough, .further present found onward, origin⟩

/-! ### Facts of a whole document -/

theorem knows_document {uri : String} {text : List Char} {root : Parse.ParsedDocument}
    (read : shelf.reading.document uri text = .ok root) (fact : Fact) :
    (shelf.document uri text).context.Knows fact ↔ root.context.Knows fact ∨
      ∃ brought ∈ (shelf.survey shelf.config.maxDepth [] root.references (.start ())).1.brought,
        brought.Knows fact := by
  simp only [document, read]
  rw [Context.knows_foldl_merge, Inclusions.knows_contexts]

theorem knows_brought_iff {tree : Inclusions} {Reached : LogicalName → Prop}
    (sound : ∀ brought ∈ tree.brought, Reached brought.name ∧
      ∃ document, shelf.copybook? brought.name = some document ∧
        brought = .ofDocument brought.name document)
    (complete : ∀ name document, Reached name → shelf.copybook? name = some document →
      Brought.ofDocument name document ∈ tree.brought) (fact : Fact) :
    (∃ brought ∈ tree.brought, brought.Knows fact) ↔
      ∃ name document, Reached name ∧ shelf.copybook? name = some document ∧
        (document.context.Knows fact ∨
          (Context.empty.define .copybook name.text (.documentStart name.uri)).Knows fact) := by
  constructor
  · rintro ⟨brought, member, known⟩
    obtain ⟨reached, document, found, same⟩ := sound brought member
    rw [same] at known
    exact ⟨brought.name, document, reached, found, known⟩
  · rintro ⟨name, document, reached, found, known⟩
    exact ⟨.ofDocument name document, complete name document reached found, known⟩

end Shelf

end CobolAnalysis
