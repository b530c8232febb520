/-
Analyses whose documents correspond.

Two sets of copybooks correspond if they have the same names, and under each name documents
that ask for the same copybooks at the same places. Following the COPY statements then takes
the same course with both: the same requests, refusals and repetitions. Whatever relation
between the documents' own contexts respects merging holds between the results too.
-/

import CobolAnalysis.Proofs.Analysis.StandardReading
import CobolAnalysis.Proofs.Analysis.Survey
import CobolAnalysis.Proofs.Merging

namespace CobolAnalysis

open Parse (Reference)

/-- Copybooks that are read by the standard stages and the standard parser. -/
def Shelf.standard (config : Config) (format : Source.Format) (options : Parse.Options)
    (stock : Provider.Memory) : Shelf :=
  ⟨.standard config format options, config, stock⟩

/-- A relation between contexts that is kept when contexts are put together. -/
structure Context.Congruence (Like : Context → Context → Prop) : Prop where
  reports : ∀ diagnostics, Like (.ofDiagnostics diagnostics) (.ofDiagnostics diagnostics)
  merge : ∀ {left right other another}, Like left other → Like right another →
    Like (left.merge right) (other.merge another)
  define : ∀ {left right}, Like left right → ∀ kind written location,
    Like (left.define kind written location) (right.define kind written location)

theorem Context.agreeOn_congruence (keep : Diagnostic → Bool) : Congruence (AgreeOn keep) where
  reports := fun _ => ⟨rfl, rfl⟩
  merge := AgreeOn.merge
  define := AgreeOn.define

variable {Like : Context → Context → Prop}

theorem Context.Congruence.merges (congruence : Congruence Like) {contexts others : List Context}
    (pairs : List.Forall₂ Like contexts others) {base other : Context} (start : Like base other) :
    Like (contexts.foldl Context.merge base) (others.foldl Context.merge other) := by
  induction pairs generalizing base other with
  | nil => exact start
  | cons here _ ih => exact ih (congruence.merge start here)

section Relations

variable (Like)

/-- Two texts that are read with the same references, or refused for the same reason. -/
inductive ReadsLike : Except ReadingError Parse.ParsedDocument →
    Except ReadingError Parse.ParsedDocument → Prop where
  | refused (error : ReadingError) : ReadsLike (.error error) (.error error)
  | read {own other : Context} (like : Like own other) (references : List Reference) :
      ReadsLike (.ok ⟨own, references⟩) (.ok ⟨other, references⟩)

/-- The same became of the same references, but for what the included copybooks say by
themselves. -/
inductive Inclusions.Corresponds : Inclusions → Inclusions → Prop where
  | none : Corresponds .none .none
  | refused (reference : Reference) (refusal : Refusal) {rest other : Inclusions}
      (later : Corresponds rest other) :
      Corresponds (.refused reference refusal rest) (.refused reference refusal other)
  | repeated (reference : Reference) {rest other : Inclusions} (later : Corresponds rest other) :
      Corresponds (.repeated reference rest) (.repeated reference other)
  | included (reference : Reference) (uri : String) {own another : Context}
      (like : Like own another) {below inside rest other : Inclusions}
      (deeper : Corresponds below inside) (later : Corresponds rest other) :
      Corresponds (.included reference uri own below rest)
        (.included reference uri another inside other)

/-- The same settings, and copybooks under the same names that are read alike. -/
structure Shelf.Corresponds (shelf other : Shelf) : Prop where
  config : shelf.config = other.config
  silent : ∀ name, shelf.stock.isSilent name = other.stock.isSilent name
  copybooks : ∀ name, Option.Rel
    (fun text another => ReadsLike Like (shelf.reading.document name.uri text)
      (other.reading.document name.uri another))
    (shelf.stock.copybooks.get? name) (other.stock.copybooks.get? name)

/-- References that are settled in the same way, with texts that are read alike. -/
inductive Settled.Corresponds (shelf other : Shelf) : Settled → Settled → Prop where
  | refused (reference : Reference) (refusal : Refusal) :
      Corresponds shelf other (.refused reference refusal) (.refused reference refusal)
  | repeated (reference : Reference) :
      Corresponds shelf other (.repeated reference) (.repeated reference)
  | resolved (reference : Reference) (uri : String) {text another : List Char}
      (like : ReadsLike Like (shelf.reading.document uri text)
        (other.reading.document uri another)) :
      Corresponds shelf other (.resolved reference text uri) (.resolved reference another uri)

end Relations

theorem ReadsLike.cases {one another : Except ReadingError Parse.ParsedDocument}
    (like : ReadsLike Like one another) :
    (∃ error, one = .error error ∧ another = .error error) ∨
      ∃ own other references, Like own other ∧ one = .ok ⟨own, references⟩ ∧
        another = .ok ⟨other, references⟩ := by
  cases like with
  | refused error => exact Or.inl ⟨error, rfl, rfl⟩
  | read like references => exact Or.inr ⟨_, _, references, like, rfl, rfl⟩

theorem Inclusions.Corresponds.contexts (congruence : Context.Congruence Like)
    {tree other : Inclusions} (corresponds : Corresponds Like tree other) (site : Site) :
    List.Forall₂ Like (tree.contexts site) (other.contexts site) := by
  induction corresponds generalizing site with
  | none => exact .nil
  | refused reference refusal _ ih => exact .cons (congruence.reports _) (ih site)
  | «repeated» reference _ ih => exact ih site
  | included reference uri like _ _ ihDeeper ih =>
      refine .cons (congruence.define ?_ _ _ _) (ih site)
      exact congruence.merges (ihDeeper (site.below reference)) like

namespace Shelf

variable {shelf other : Shelf}

theorem Corresponds.settle (corresponds : Corresponds Like shelf other) (reference : Reference) :
    Settled.Corresponds Like shelf other (shelf.settle reference) (other.settle reference) := by
  have held := corresponds.copybooks reference.name
  unfold Shelf.settle
  rw [corresponds.silent reference.name]
  split
  · rw [corresponds.config]
    exact .refused reference _
  · cases texts : shelf.stock.copybooks.get? reference.name <;>
      cases others : other.stock.copybooks.get? reference.name <;>
      rw [texts, others] at held <;> cases held
    case none.none => exact .refused reference _
    case some.some like => exact .resolved reference _ like

theorem Corresponds.settleAll (corresponds : Corresponds Like shelf other)
    (chain : List LogicalName) (references : List Reference) (record : Ledger Unit) :
    List.Forall₂ (Settled.Corresponds Like shelf other)
        (shelf.settleAll chain references record).1 (other.settleAll chain references record).1 ∧
      (shelf.settleAll chain references record).2 =
        (other.settleAll chain references record).2 := by
  induction references generalizing record with
  | nil => exact ⟨.nil, rfl⟩
  | cons reference rest ih =>
      have same : shelf.isRepeated record reference.name =
          other.isRepeated record reference.name := by
        unfold isRepeated
        rw [corresponds.config]
      unfold Shelf.settleAll
      rw [same]
      split
      · exact ⟨.cons (.refused _ _) (ih record).1, (ih record).2⟩
      · split
        · exact ⟨.cons (.repeated _) (ih record).1, (ih record).2⟩
        · exact ⟨.cons (corresponds.settle reference) (ih _).1, (ih _).2⟩

theorem Corresponds.graft
    {follow another : LogicalName → List Reference → Ledger Unit → Inclusions × Ledger Unit}
    (followed : ∀ name references record,
      Inclusions.Corresponds Like (follow name references record).1
          (another name references record).1 ∧
        (follow name references record).2 = (another name references record).2)
    {settled others : List Settled}
    (pairs : List.Forall₂ (Settled.Corresponds Like shelf other) settled others)
    (record : Ledger Unit) :
    Inclusions.Corresponds Like (shelf.graft follow settled record).1
        (other.graft another others record).1 ∧
      (shelf.graft follow settled record).2 = (other.graft another others record).2 := by
  induction pairs generalizing record with
  | nil => exact ⟨.none, rfl⟩
  | cons here _ ih =>
      cases here with
      | refused reference refusal => exact ⟨.refused _ _ (ih record).1, (ih record).2⟩
      | «repeated» reference => exact ⟨.repeated _ (ih record).1, (ih record).2⟩
      | resolved reference uri like =>
          rcases like.cases with
            ⟨error, read, same⟩ | ⟨own, alternative, references, like, read, same⟩
          · simp only [Shelf.graft, read, same]
            exact ⟨.refused _ _ (ih record).1, (ih record).2⟩
          · simp only [Shelf.graft, read, same]
            obtain ⟨deeper, onward⟩ := followed reference.name references record
            rw [← onward]
            exact ⟨.included _ _ like deeper (ih _).1, (ih _).2⟩

theorem Corresponds.survey (corresponds : Corresponds Like shelf other) (deeper : Nat)
    (chain : List LogicalName) (references : List Reference) (record : Ledger Unit) :
    Inclusions.Corresponds Like (shelf.survey deeper chain references record).1
        (other.survey deeper chain references record).1 ∧
      (shelf.survey deeper chain references record).2 =
        (other.survey deeper chain references record).2 := by
  induction deeper generalizing chain references record with
  | zero =>
      refine ⟨?_, rfl⟩
      induction references with
      | nil => exact .none
      | cons reference rest ih =>
          have same : shelf.refusalAtLimit chain reference =
              other.refusalAtLimit chain reference := by
            unfold refusalAtLimit
            rw [corresponds.config]
          simp only [Shelf.survey, List.foldr_cons]
          rw [same]
          exact .refused _ _ ih
  | succ deeper ih =>
      obtain ⟨settled, same⟩ := corresponds.settleAll chain references record
      simp only [Shelf.survey]
      rw [← same]
      exact Corresponds.graft (fun name => ih (chain ++ [name])) settled _

/-- Documents that are read alike come to the same requests, and to contexts that are related. -/
theorem Corresponds.document (congruence : Context.Congruence Like)
    (corresponds : Corresponds Like shelf other) {uri : String} {text another : List Char}
    (like : ReadsLike Like (shelf.reading.document uri text)
      (other.reading.document uri another)) :
    (shelf.document uri text).requests = (other.document uri another).requests ∧
      Like (shelf.document uri text).context (other.document uri another).context := by
  unfold Shelf.document
  rcases like.cases with ⟨error, read, same⟩ | ⟨own, alternative, references, like, read, same⟩
  · simp only [read, same]
    exact ⟨trivial, congruence.reports _⟩
  · simp only [read, same]
    obtain ⟨tree, ledger⟩ :=
      corresponds.survey shelf.config.maxDepth [] references (.start ())
    rw [← corresponds.config, ← ledger]
    exact ⟨rfl, congruence.merges (tree.contexts congruence .root) like⟩

end Shelf

end CobolAnalysis
