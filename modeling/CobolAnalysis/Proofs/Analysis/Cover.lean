/-
Nothing that a document leads to is lost when no reference lies too deep.

An analysis takes a name up before it follows anything, and follows each name that is
taken up at most once where repetitions are dropped. What was taken up and not yet
brought in is always among the references that are still to be followed; so in the end
every name taken up is covered: its copybook was brought in, and all names that this
copybook asks for were taken up, too.
-/

import CobolAnalysis.Proofs.Analysis.IncludeGraph
import CobolAnalysis.Proofs.Analysis.Surfacing
import CobolAnalysis.Proofs.Scenario.Bench

namespace CobolAnalysis

open Parse (Reference)

/-! ### Trees in which nothing is cut off -/

namespace Inclusions

/-- No reference was refused because of its depth. -/
def Untruncated : Inclusions → Prop
  | none => True
  | refused _ refusal rest => (∀ limit, refusal ≠ .tooDeep limit) ∧ Untruncated rest
  | repeated _ rest => Untruncated rest
  | included _ _ _ below rest => Untruncated below ∧ Untruncated rest

theorem untruncated_of_reports (tree : Inclusions) (site : Site)
    (quiet : ∀ diagnostic ∈ (tree.contexts site).flatMap Context.diagnostics,
      diagnostic.code ≠ some Diagnostic.Code.copybookTooDeep) : tree.Untruncated := by
  induction tree generalizing site with
  | none => trivial
  | refused reference refusal rest ih =>
      constructor
      · intro limit tooDeep
        have reported : refusal.diagnostic reference ∈
            (Inclusions.contexts site (.refused reference refusal rest)).flatMap
              Context.diagnostics :=
          List.mem_append_left _ List.mem_cons_self
        apply quiet _ reported
        rw [refusal.code_diagnostic, tooDeep]
        rfl
      · apply ih site
        intro diagnostic member
        exact quiet diagnostic (List.mem_append_right _ member)
  | «repeated» reference rest ih => exact ih site quiet
  | included reference uri own below rest ihBelow ih =>
      rw [diagnostics_included] at quiet
      constructor
      · apply ihBelow (site.below reference)
        intro diagnostic member
        exact quiet diagnostic (List.mem_append_left _ (List.mem_append_right _ member))
      · apply ih site
        intro diagnostic member
        exact quiet diagnostic (List.mem_append_right _ member)

end Inclusions

namespace Shelf

variable {shelf : Shelf}

/-- If the name stands for a copybook, it was brought in, and what it asks for was taken up. -/
def Covered (shelf : Shelf) (name : LogicalName) (brought : List Brought)
    (claimed : List LogicalName) : Prop :=
  ∀ document, shelf.copybook? name = some document →
    .ofDocument name document ∈ brought ∧
      ∀ reference ∈ document.references, reference.name ∈ claimed

theorem Covered.mono {name : LogicalName} {brought more : List Brought}
    {claimed further : List LogicalName} (covered : shelf.Covered name brought claimed)
    (bring : ∀ item ∈ brought, item ∈ more) (claim : ∀ item ∈ claimed, item ∈ further) :
    shelf.Covered name more further := by
  intro document found
  obtain ⟨present, taken⟩ := covered document found
  exact ⟨bring _ present, fun reference member => claim _ (taken reference member)⟩

/-- Names that were not taken up before are covered. -/
structure Covers (shelf : Shelf) (before : List LogicalName) (result : Inclusions × Ledger Unit) :
    Prop where
  grows : ∀ name ∈ before, name ∈ result.2.claimed
  covered : ∀ name ∈ result.2.claimed,
    name ∈ before ∨ shelf.Covered name result.1.brought result.2.claimed

/-- What settling the references of one document takes up. -/
structure Takes (shelf : Shelf) (references : List Reference) (before : List LogicalName)
    (result : List Settled × Ledger Unit) : Prop where
  grows : ∀ name ∈ before, name ∈ result.2.claimed
  taken : ∀ reference ∈ references, reference.name ∈ result.2.claimed
  settled : ∀ name ∈ result.2.claimed,
    name ∈ before ∨ ∃ reference, reference.name = name ∧ shelf.settle reference ∈ result.1

theorem Takes.cons_known {reference : Reference} {references : List Reference}
    {before : List LogicalName} {result : List Settled × Ledger Unit}
    (takes : shelf.Takes references before result) (known : reference.name ∈ before)
    (entry : Settled) :
    shelf.Takes (reference :: references) before (entry :: result.1, result.2) := by
  refine ⟨takes.grows, ?_, ?_⟩
  · exact List.forall_mem_cons.mpr ⟨takes.grows _ known, takes.taken⟩
  · intro name member
    rcases takes.settled name member with old | ⟨other, same, present⟩
    · exact Or.inl old
    · exact Or.inr ⟨other, same, List.mem_cons_of_mem entry present⟩

theorem Takes.cons_new {reference : Reference} {references : List Reference}
    {before : List LogicalName} {result : List Settled × Ledger Unit}
    (takes : shelf.Takes references (before ++ [reference.name]) result) :
    shelf.Takes (reference :: references) before
      (shelf.settle reference :: result.1, result.2) := by
  refine ⟨?_, ?_, ?_⟩
  · intro name member
    exact takes.grows name (List.mem_append_left _ member)
  · have own : reference.name ∈ before ++ [reference.name] :=
      List.mem_append_right _ (List.mem_singleton_self _)
    exact List.forall_mem_cons.mpr ⟨takes.grows _ own, takes.taken⟩
  · intro name member
    rcases takes.settled name member with known | ⟨other, same, present⟩
    · rcases List.mem_append.mp known with old | new
      · exact Or.inl old
      · exact Or.inr ⟨reference, (List.mem_singleton.mp new).symm, List.mem_cons_self⟩
    · exact Or.inr ⟨other, same, List.mem_cons_of_mem _ present⟩

theorem settleAll_takes {chain : List LogicalName} (references : List Reference)
    (record : Ledger Unit) (chained : ∀ name ∈ chain, name ∈ record.claimed) :
    shelf.Takes references record.claimed (shelf.settleAll chain references record) := by
  induction references generalizing record with
  | nil =>
      refine ⟨fun name member => member, List.forall_mem_nil _, ?_⟩
      intro name member
      exact Or.inl member
  | cons reference rest ih =>
      rcases shelf.settleAll_cases chain reference rest record with
        ⟨circular, whole⟩ | ⟨off, again, whole⟩ | ⟨off, fresh, whole⟩
      · rw [whole]
        exact (ih record chained).cons_known (chained _ circular) _
      · rw [whole]
        exact (ih record chained).cons_known again.2 _
      · rw [whole]
        apply Takes.cons_new
        apply ih ((record.claim reference.name).asked ⟨chain, reference.name⟩ ())
        intro name member
        exact List.mem_append_left _ (chained name member)

/-- Following the references takes all of them up, and covers what is new. -/
structure Follows (shelf : Shelf) (references : List Reference) (before : List LogicalName)
    (result : Inclusions × Ledger Unit) : Prop where
  covers : shelf.Covers before result
  taken : ∀ reference ∈ references, reference.name ∈ result.2.claimed

/-- Bringing in what was settled covers what is new, and brings in all that can be read. -/
structure Brings (shelf : Shelf) (settled : List Settled) (before : List LogicalName)
    (result : Inclusions × Ledger Unit) : Prop where
  covers : shelf.Covers before result
  brings : ∀ reference text uri document, .resolved reference text uri ∈ settled →
    shelf.reading.document uri text = .ok document →
      ⟨reference.name, uri, document.context⟩ ∈ result.1.brought ∧
        ∀ inner ∈ document.references, inner.name ∈ result.2.claimed

theorem Brings.cons_barren {entry : Settled} {settled : List Settled} {before : List LogicalName}
    {result : Inclusions × Ledger Unit} {tree : Inclusions}
    (brings : shelf.Brings settled before result) (same : tree.brought = result.1.brought)
    (barren : ∀ reference text uri document, entry = .resolved reference text uri →
      shelf.reading.document uri text ≠ .ok document) :
    shelf.Brings (entry :: settled) before (tree, result.2) := by
  constructor
  · constructor
    · exact brings.covers.grows
    · intro name member
      rw [same]
      exact brings.covers.covered name member
  · intro reference text uri document member read
    rw [same]
    rcases List.mem_cons.mp member with here | later
    · exact absurd read (barren reference text uri document here.symm)
    · exact brings.brings reference text uri document later read

theorem Brings.cons_included {reference : Reference} {text : List Char} {uri : String}
    {document : Parse.ParsedDocument} {settled : List Settled} {before : List LogicalName}
    {below others : Inclusions × Ledger Unit}
    (read : shelf.reading.document uri text = .ok document)
    (inside : shelf.Follows document.references before below)
    (rest : shelf.Brings settled below.2.claimed others) :
    shelf.Brings (.resolved reference text uri :: settled) before
      (.included reference uri document.context below.1 others.1, others.2) := by
  have fromBelow : ∀ item ∈ below.1.brought, item ∈
      (Inclusions.included reference uri document.context below.1 others.1).brought :=
    fun item member => List.mem_cons_of_mem _ (List.mem_append_left _ member)
  have fromOthers : ∀ item ∈ others.1.brought, item ∈
      (Inclusions.included reference uri document.context below.1 others.1).brought :=
    fun item member => List.mem_cons_of_mem _ (List.mem_append_right _ member)
  constructor
  · constructor
    · intro name member
      exact rest.covers.grows name (inside.covers.grows name member)
    · intro name member
      rcases rest.covers.covered name member with known | covered
      · rcases inside.covers.covered name known with old | covered
        · exact Or.inl old
        · exact Or.inr (covered.mono fromBelow rest.covers.grows)
      · exact Or.inr (covered.mono fromOthers fun _ there => there)
  · intro other content place parsed member there
    rcases List.mem_cons.mp member with here | later
    · cases here
      rw [read] at there
      cases there
      refine ⟨List.mem_cons_self, ?_⟩
      intro inner present
      exact rest.covers.grows inner.name (inside.taken inner present)
    · obtain ⟨brought, taken⟩ := rest.brings other content place parsed later there
      exact ⟨fromOthers _ brought, taken⟩

theorem graft_brings {chain : List LogicalName}
    {follow : LogicalName → List Reference → Ledger Unit → Inclusions × Ledger Unit}
    (followed : ∀ name references record,
      (∀ held ∈ chain ++ [name], held ∈ record.claimed) →
        (follow name references record).1.Untruncated →
          shelf.Follows references record.claimed (follow name references record))
    (settled : List Settled) (record : Ledger Unit)
    (chained : ∀ name ∈ chain, name ∈ record.claimed)
    (known : ∀ reference text uri, .resolved reference text uri ∈ settled →
      reference.name ∈ record.claimed)
    (untruncated : (shelf.graft follow settled record).1.Untruncated) :
    shelf.Brings settled record.claimed (shelf.graft follow settled record) := by
  -- Claims only grow, so a name settled further on is still claimed when its turn comes.
  induction settled generalizing record with
  | nil =>
      refine ⟨⟨fun name member => member, fun name member => Or.inl member⟩, ?_⟩
      intro reference text uri document member
      exact absurd member List.not_mem_nil
  | cons entry rest ih =>
      have later : ∀ reference text uri, .resolved reference text uri ∈ rest →
          reference.name ∈ record.claimed :=
        fun reference text uri member =>
          known reference text uri (List.mem_cons_of_mem entry member)
      cases entry with
      | refused reference refusal =>
          refine (ih record chained later untruncated.2).cons_barren (by rfl) ?_
          intro other text uri document impossible
          cases impossible
      | «repeated» reference =>
          refine (ih record chained later untruncated).cons_barren (by rfl) ?_
          intro other text uri document impossible
          cases impossible
      | resolved reference text uri =>
          cases read : shelf.reading.document uri text with
          | error error =>
              simp only [graft, read] at untruncated ⊢
              refine (ih record chained later untruncated.2).cons_barren (by rfl) ?_
              intro other content place document same there
              cases same
              rw [read] at there
              cases there
          | ok document =>
              simp only [graft, read] at untruncated ⊢
              have here : reference.name ∈ record.claimed :=
                known reference text uri List.mem_cons_self
              have chainedBelow : ∀ held ∈ chain ++ [reference.name], held ∈ record.claimed := by
                intro held member
                rcases List.mem_append.mp member with inChain | atEnd
                · exact chained held inChain
                · rw [List.mem_singleton.mp atEnd]
                  exact here
              have inside := followed reference.name document.references record chainedBelow
                untruncated.1
              apply Brings.cons_included read inside
              apply ih _ _ _ untruncated.2
              · exact fun name member => inside.covers.grows name (chained name member)
              · intro other content place member
                exact inside.covers.grows _ (later other content place member)

theorem mem_chain_of_untruncated {chain : List LogicalName} {references : List Reference}
    {record : Ledger Unit} (untruncated : (shelf.survey 0 chain references record).1.Untruncated) :
    ∀ reference ∈ references, reference.name ∈ chain := by
  induction references with
  | nil => exact List.forall_mem_nil _
  | cons reference rest ih =>
      obtain ⟨admissible, others⟩ := untruncated
      refine List.forall_mem_cons.mpr ⟨?_, ih others⟩
      apply Decidable.byContradiction
      intro outside
      apply admissible shelf.config.maxDepth
      unfold refusalAtLimit
      rw [if_neg fun there => outside (List.contains_iff_mem.mp there)]

/-- The invariant of following references, at every depth and for every state of the claims. -/
theorem survey_follows (deeper : Nat) (chain : List LogicalName) (references : List Reference)
    (record : Ledger Unit) (chained : ∀ name ∈ chain, name ∈ record.claimed)
    (untruncated : (shelf.survey deeper chain references record).1.Untruncated) :
    shelf.Follows references record.claimed (shelf.survey deeper chain references record) := by
  induction deeper generalizing chain references record with
  | zero =>
      constructor
      · exact ⟨fun name member => member, fun name member => Or.inl member⟩
      · intro reference member
        exact chained _ (mem_chain_of_untruncated untruncated reference member)
  | succ deeper ih =>
      have takes := shelf.settleAll_takes references record chained
      have brings := graft_brings
        (fun name references record => ih (chain ++ [name]) references record) _ _
        (fun name member => takes.grows name (chained name member))
        (by
          intro of text uri member
          obtain ⟨reference, present, settled⟩ := settle_of_mem_settleAll member
          obtain ⟨same, _⟩ := settle_eq_resolved settled
          rw [same]
          exact takes.taken reference present)
        untruncated
      constructor
      · constructor
        · intro name member
          exact brings.covers.grows name (takes.grows name member)
        · intro name member
          rcases brings.covers.covered name member with known | covered
          · rcases takes.settled name known with old | ⟨reference, same, settled⟩
            · exact Or.inl old
            · refine Or.inr fun document found => ?_
              rw [← same] at found ⊢
              obtain ⟨text, resolved, read⟩ := settle_of_copybook? found
              rw [resolved] at settled
              exact brings.brings reference text _ document settled read
          · exact Or.inr covered
      · intro reference member
        exact brings.covers.grows _ (takes.taken reference member)

theorem mem_claimed_of_reaches {brought : List Brought} {claimed : List LogicalName}
    (covered : ∀ name ∈ claimed, shelf.Covered name brought claimed) {references : List Reference}
    (taken : ∀ reference ∈ references, reference.name ∈ claimed) {steps : Nat} {name : LogicalName}
    (reaches : shelf.Reaches references steps name) : name ∈ claimed := by
  induction reaches with
  | here member => exact taken _ member
  | further member found onward ih =>
      apply ih
      exact (covered _ (taken _ member) _ found).2

theorem mem_survey_of_reaches {roots : List Reference}
    (untruncated : (shelf.survey shelf.config.maxDepth [] roots (.start ())).1.Untruncated)
    {steps : Nat} {name : LogicalName} {document : Parse.ParsedDocument}
    (reaches : shelf.Reaches roots steps name) (found : shelf.copybook? name = some document) :
    .ofDocument name document ∈
      (shelf.survey shelf.config.maxDepth [] roots (.start ())).1.brought := by
  have follows := shelf.survey_follows shelf.config.maxDepth [] roots (.start ())
    (List.forall_mem_nil _) untruncated
  have covered := fun name member =>
    (follows.covers.covered name member).resolve_left List.not_mem_nil
  exact (covered name (mem_claimed_of_reaches covered follows.taken reaches) document found).1

theorem knows_document_of_quiet {uri : String} {text : List Char} {root : Parse.ParsedDocument}
    (read : shelf.reading.document uri text = .ok root)
    (quiet : ∀ diagnostic ∈ (shelf.document uri text).context.diagnostics,
      diagnostic.code ≠ some Diagnostic.Code.copybookTooDeep) (fact : Fact) :
    (shelf.document uri text).context.Knows fact ↔ root.context.Knows fact ∨
      ∃ name document, (∃ steps, shelf.Reaches root.references steps name) ∧
        shelf.copybook? name = some document ∧
        (document.context.Knows fact ∨
          (Context.empty.define .copybook name.text (.documentStart name.uri)).Knows fact) := by
  have untruncated :
      (shelf.survey shelf.config.maxDepth [] root.references (.start ())).1.Untruncated := by
    apply Inclusions.untruncated_of_reports _ .root
    intro diagnostic member
    apply quiet diagnostic
    simp only [document, read]
    rw [Context.diagnostics_foldl_merge]
    exact List.mem_append_right _ member
  rw [knows_document read]
  apply or_congr_right
  apply knows_brought_iff
  · intro brought member
    obtain ⟨steps, _, reaches, origin⟩ := reaches_of_mem_survey member
    exact ⟨⟨steps, reaches⟩, origin⟩
  · rintro name document ⟨steps, reaches⟩ found
    exact mem_survey_of_reaches untruncated reaches found

end Shelf

/-- If nothing is reported to lie too deep, the result has just the symbols of the document, of
each copybook it leads to that is at hand and can be read, and of the definitions of these
copybooks. Cycles and repetitions lose nothing and add nothing, whatever the policy. -/
theorem symbols_eq_union_of_quiet {σ : Type} (shelf : Shelf) (venue : Venue σ)
    (bus : Bus (Board σ)) (attached : venue.Attached shelf.stock [] bus) (uri : String)
    (text : List Char) (root : Parse.ParsedDocument)
    (read : shelf.reading.document uri text = .ok root) :
    ∃ least, ∀ limit, least ≤ limit → ∃ outcome,
      (shelf.analyzer venue limit).document uri text bus = some outcome ∧
        ((∀ diagnostic ∈ outcome.context.diagnostics,
            diagnostic.code ≠ some Diagnostic.Code.copybookTooDeep) →
          ∀ fact, outcome.context.Knows fact ↔ root.context.Knows fact ∨
            ∃ name document, (∃ steps, shelf.Reaches root.references steps name) ∧
              shelf.copybook? name = some document ∧
              (document.context.Knows fact ∨
                (Context.empty.define .copybook name.text (.documentStart name.uri)).Knows
                  fact)) := by
  obtain ⟨least, rest, analyzed, _⟩ := shelf.document_mirrors attached uri text
  refine ⟨least, fun limit enough => ⟨_, analyzed limit enough, ?_⟩⟩
  intro quiet
  exact Shelf.knows_document_of_quiet read quiet

section Sample

open Scenario

/-- The outer copybook asks for itself and the inner one is asked for twice; nothing lies too deep,
so the inner one is known to be defined. -/
theorem sample_symbols_eq_union :
    (Bench.venue Sample.script).Attached Sample.stock []
        (Bench.withMemory Sample.script Sample.stock) ∧
      ∃ least, ∀ limit, least ≤ limit → ∃ outcome,
        ((Sample.shelf .shared 10).analyzer (Bench.venue Sample.script) limit).document "root"
            Sample.text (Bench.withMemory Sample.script Sample.stock) = some outcome ∧
          (∀ diagnostic ∈ outcome.context.diagnostics,
            diagnostic.code ≠ some Diagnostic.Code.copybookTooDeep) ∧
          outcome.context.Knows
            (.definedAt (.ofWritten .copybook Sample.inner.text)
              (.documentStart Sample.inner.uri)) := by
  have attached := Sample.attached
  obtain ⟨root, document, read, reaches, found⟩ := Sample.inner_reached .shared 10
  obtain ⟨first, analyzed⟩ := symbols_eq_union_of_quiet (Sample.shelf .shared 10) _ _ attached
    "root" Sample.text root read
  obtain ⟨second, evaluates⟩ := (Sample.shelf .shared 10).document_evaluates attached "root"
    Sample.text
  refine ⟨attached, max first second, fun limit enough => ?_⟩
  obtain ⟨outcome, ends, union⟩ := analyzed limit (by omega)
  obtain ⟨context, _⟩ := evaluates limit (by omega) outcome ends
  have quiet : ∀ diagnostic ∈ outcome.context.diagnostics,
      diagnostic.code ≠ some Diagnostic.Code.copybookTooDeep := by
    rw [context]
    decide +kernel
  refine ⟨outcome, ends, quiet, (union quiet _).mpr (Or.inr ?_)⟩
  refine ⟨Sample.inner, document, ⟨1, reaches⟩, found, Or.inr ?_⟩
  exact ⟨_, _, rfl, rfl, List.mem_singleton_self _⟩

end Sample

end CobolAnalysis
