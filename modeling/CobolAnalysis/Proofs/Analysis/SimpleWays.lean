/-
What is brought in when every reference brings its copybook in anew.

An analysis then follows all ways through the include graph on which no name comes twice,
as far as the nesting depth allows. A way that comes back to a name can be cut short, so
these ways lead to everything that any way of at most that many steps leads to.
-/

import CobolAnalysis.Proofs.Analysis.IncludeGraph
import CobolAnalysis.Proofs.Scenario.Bench

namespace CobolAnalysis

open Parse (Reference)

namespace Shelf

/-- As many steps lead to the name, and none of them to a name that is avoided. -/
inductive Leads (shelf : Shelf) (avoided : List LogicalName) :
    List Reference → Nat → LogicalName → Prop where
  | here {references : List Reference} {reference : Reference} (member : reference ∈ references)
      (free : reference.name ∉ avoided) : Leads shelf avoided references 1 reference.name
  | further {references : List Reference} {reference : Reference}
      {document : Parse.ParsedDocument} {steps : Nat} {name : LogicalName}
      (member : reference ∈ references) (free : reference.name ∉ avoided)
      (found : shelf.copybook? reference.name = some document)
      (onward : Leads shelf avoided document.references steps name) :
      Leads shelf avoided references (steps + 1) name

variable {shelf : Shelf}

theorem Reaches.leads {references : List Reference} {steps : Nat} {name : LogicalName}
    (reaches : shelf.Reaches references steps name) : shelf.Leads [] references steps name := by
  induction reaches with
  | here member => exact .here member List.not_mem_nil
  | further member found onward ih => exact .further member List.not_mem_nil found ih

/-- A way either avoids one more copybook, or can be taken from its last visit to it on. -/
theorem Leads.shorten {avoided : List LogicalName} {references : List Reference} {steps : Nat}
    {name passed : LogicalName} {document : Parse.ParsedDocument}
    (found : shelf.copybook? passed = some document) (other : name ≠ passed)
    (leads : shelf.Leads avoided references steps name) :
    (∃ fewer, fewer ≤ steps ∧ shelf.Leads (avoided ++ [passed]) references fewer name) ∨
      ∃ fewer, fewer ≤ steps ∧
        shelf.Leads (avoided ++ [passed]) document.references fewer name := by
  have stillFree : ∀ {item : LogicalName}, item ∉ avoided → item ≠ passed →
      item ∉ avoided ++ [passed] := by
    intro item free different member
    rcases List.mem_append.mp member with before | last
    · exact free before
    · exact different (List.mem_singleton.mp last)
  induction leads with
  | here member free =>
      exact Or.inl ⟨1, Nat.le_refl 1, .here member (stillFree free other)⟩
  | @further references reference inner steps name member free foundThere onward ih =>
      rcases ih other with ⟨fewer, enough, avoiding⟩ | ⟨fewer, enough, avoiding⟩
      -- The way from here on avoids the copybook; whether all of it does depends on this step.
      · by_cases same : reference.name = passed
        · have atPassed : inner = document := by
            rw [same, found] at foundThere
            exact (Option.some.inj foundThere).symm
          rw [atPassed] at avoiding
          exact Or.inr ⟨fewer, by omega, avoiding⟩
        · have longer := Leads.further member (stillFree free same) foundThere avoiding
          exact Or.inl ⟨fewer + 1, by omega, longer⟩
      · exact Or.inr ⟨fewer, by omega, avoiding⟩

theorem settle_mem_settleAll (independent : shelf.config.dedup = .independent)
    {chain : List LogicalName} {references : List Reference} (record : Ledger Unit)
    {reference : Reference} (member : reference ∈ references) (free : reference.name ∉ chain) :
    shelf.settle reference ∈ (shelf.settleAll chain references record).1 := by
  induction references generalizing record with
  | nil => exact absurd member List.not_mem_nil
  | cons first rest ih =>
      rcases shelf.settleAll_cases chain first rest record with
        ⟨circular, whole⟩ | ⟨off, again, whole⟩ | ⟨off, fresh, whole⟩
      · rw [whole]
        rcases List.mem_cons.mp member with here | later
        · rw [here] at free
          exact absurd circular free
        · exact List.mem_cons_of_mem _ (ih _ later)
      · rw [independent] at again
        cases again.1
      · rw [whole]
        rcases List.mem_cons.mp member with here | later
        · rw [here]
          exact List.mem_cons_self
        · exact List.mem_cons_of_mem _ (ih _ later)

theorem mem_graft_of_resolved
    {follow : LogicalName → List Reference → Ledger Unit → Inclusions × Ledger Unit}
    {settled : List Settled} {reference : Reference} {text : List Char} {uri : String}
    {document : Parse.ParsedDocument} (record : Ledger Unit)
    (member : .resolved reference text uri ∈ settled)
    (read : shelf.reading.document uri text = .ok document) :
    ∃ between, ∀ brought, (brought = ⟨reference.name, uri, document.context⟩ ∨
        brought ∈ (follow reference.name document.references between).1.brought) →
      brought ∈ (shelf.graft follow settled record).1.brought := by
  induction settled generalizing record with
  | nil => exact absurd member List.not_mem_nil
  | cons entry rest ih =>
      cases entry with
      | refused of refusal =>
          rcases List.mem_cons.mp member with here | later
          · cases here
          · exact ih record later
      | «repeated» of =>
          rcases List.mem_cons.mp member with here | later
          · cases here
          · exact ih record later
      | resolved of content place =>
          rcases List.mem_cons.mp member with here | later
          · cases here
            refine ⟨record, ?_⟩
            intro brought choice
            simp only [graft, read]
            rcases choice with own | below
            · rw [own]
              exact List.mem_cons_self
            · exact List.mem_cons_of_mem _ (List.mem_append_left _ below)
          · cases parsed : shelf.reading.document place content with
            | error error =>
                simp only [graft, parsed]
                exact ih record later
            | ok inner =>
                obtain ⟨between, included⟩ :=
                  ih (follow of.name inner.references record).2 later
                refine ⟨between, ?_⟩
                intro brought choice
                simp only [graft, parsed]
                exact List.mem_cons_of_mem _ (List.mem_append_right _ (included brought choice))

/-- Every way that is short enough and avoids the names around it is followed to its end. -/
theorem mem_survey_of_leads (independent : shelf.config.dedup = .independent)
    {deeper steps : Nat} {chain : List LogicalName} {references : List Reference}
    {record : Ledger Unit} {name : LogicalName} {document : Parse.ParsedDocument}
    (leads : shelf.Leads chain references steps name) (enough : steps ≤ deeper)
    (found : shelf.copybook? name = some document) :
    .ofDocument name document ∈ (shelf.survey deeper chain references record).1.brought := by
  induction deeper generalizing chain references record steps with
  | zero =>
      cases leads with
      | here member free => omega
      | further member free foundThere onward => omega
  | succ deeper ih =>
      cases leads with
      | @here references reference member free =>
          obtain ⟨text, settled, read⟩ := settle_of_copybook? found
          have resolved := settle_mem_settleAll independent record member free
          rw [settled] at resolved
          obtain ⟨between, included⟩ := mem_graft_of_resolved _ resolved read
          exact included _ (Or.inl rfl)
      | @further references reference inner steps name member free foundThere onward =>
          obtain ⟨text, settled, read⟩ := settle_of_copybook? foundThere
          have resolved := settle_mem_settleAll independent record member free
          rw [settled] at resolved
          obtain ⟨between, included⟩ := mem_graft_of_resolved _ resolved read
          apply included
          by_cases same : name = reference.name
          · rw [same, foundThere] at found
            cases found
            rw [same]
            exact Or.inl rfl
          · right
            rcases onward.shorten foundThere same with
              ⟨fewer, less, avoiding⟩ | ⟨fewer, less, avoiding⟩
            · exact ih avoiding (by omega)
            · exact ih avoiding (by omega)

end Shelf

/-- If every reference brings its copybook in anew, the result has just the symbols of the document,
of each copybook that is at hand and can be read to which at most as many COPY steps lead as may lie
inside one another, and of the definitions of these copybooks. -/
theorem symbols_eq_union_within_depth {σ : Type} (shelf : Shelf) (venue : Venue σ)
    (bus : Bus (Board σ)) (attached : venue.Attached shelf.stock [] bus)
    (independent : shelf.config.dedup = .independent) (uri : String) (text : List Char)
    (root : Parse.ParsedDocument) (read : shelf.reading.document uri text = .ok root) :
    ∃ least, ∀ limit, least ≤ limit → ∃ outcome,
      (shelf.analyzer venue limit).document uri text bus = some outcome ∧
        ∀ fact, outcome.context.Knows fact ↔ root.context.Knows fact ∨
          ∃ name document,
            (∃ steps, steps ≤ shelf.config.maxDepth ∧ shelf.Reaches root.references steps name) ∧
              shelf.copybook? name = some document ∧
              (document.context.Knows fact ∨
                (Context.empty.define .copybook name.text (.documentStart name.uri)).Knows
                  fact) := by
  obtain ⟨least, rest, analyzed, _⟩ := shelf.document_mirrors attached uri text
  refine ⟨least, fun limit enough => ⟨_, analyzed limit enough, ?_⟩⟩
  intro fact
  refine (Shelf.knows_document read fact).trans (or_congr_right ?_)
  apply Shelf.knows_brought_iff
  · intro brought member
    obtain ⟨steps, within, reaches, origin⟩ := Shelf.reaches_of_mem_survey member
    exact ⟨⟨steps, within, reaches⟩, origin⟩
  · rintro name document ⟨steps, within, reaches⟩ found
    exact Shelf.mem_survey_of_leads independent reaches.leads within found

section Sample

open Scenario

/-- The references of the outer copybook all lie too deep or lead back to it. The inner one is asked
for by the document itself, too, so it is known to be defined. -/
theorem sample_symbols_within_depth :
    (Bench.venue Sample.script).Attached Sample.stock []
        (Bench.withMemory Sample.script Sample.stock) ∧
      (Sample.shelf .independent 1).config.dedup = .independent ∧
      ∃ least, ∀ limit, least ≤ limit → ∃ outcome,
        ((Sample.shelf .independent 1).analyzer (Bench.venue Sample.script) limit).document "root"
            Sample.text (Bench.withMemory Sample.script Sample.stock) = some outcome ∧
          outcome.context.Knows
            (.definedAt (.ofWritten .copybook Sample.inner.text)
              (.documentStart Sample.inner.uri)) := by
  have attached := Sample.attached
  obtain ⟨root, document, read, reaches, found⟩ := Sample.inner_reached .independent 1
  obtain ⟨least, analyzed⟩ := symbols_eq_union_within_depth (Sample.shelf .independent 1) _ _
    attached rfl "root" Sample.text root read
  refine ⟨attached, rfl, least, fun limit enough => ?_⟩
  obtain ⟨outcome, ends, union⟩ := analyzed limit enough
  refine ⟨outcome, ends, (union _).mpr (Or.inr ?_)⟩
  refine ⟨Sample.inner, document, ⟨1, Nat.le_refl 1, reaches⟩, found, Or.inr ?_⟩
  exact ⟨_, _, rfl, rfl, List.mem_singleton_self _⟩

end Sample

end CobolAnalysis
