/-
Reports of circular inclusion, and circles in the include graph.

A report names a way from the root document that comes back to a copybook on it, so there
is a circle that the document leads to. If every reference brings its copybook in anew and
nothing lies too deep, a circle that the document leads to is followed until it closes,
and so it is reported.
-/

import CobolAnalysis.Proofs.Analysis.Cover
import CobolAnalysis.Proofs.Analysis.Unfolding

namespace CobolAnalysis

open Parse (Reference)
open Scenario.Bench (Subject)

/-! ### Ways and circles -/

namespace Shelf

/-- Along `chain`, each copybook asks for the next one, and the roots for the first. The references
at its end are those of its last copybook. -/
inductive Along (shelf : Shelf) (roots : List Reference) :
    List LogicalName → List Reference → Prop where
  | start : Along shelf roots [] roots
  | onward {chain : List LogicalName} {references : List Reference} {reference : Reference}
      {document : Parse.ParsedDocument} (along : Along shelf roots chain references)
      (member : reference ∈ references)
      (found : shelf.copybook? reference.name = some document) :
      Along shelf roots (chain ++ [reference.name]) document.references

/-- The path is a way on which no name comes twice, and one step more, back to a name on it. -/
def Returns (shelf : Shelf) (roots : List Reference) (path : List LogicalName) : Prop :=
  ∃ chain references reference, shelf.Along roots chain references ∧ reference ∈ references ∧
    path = chain ++ [reference.name] ∧ chain.Nodup ∧ reference.name ∈ chain

/-- The references lead to a copybook that leads back to itself. -/
def Circular (shelf : Shelf) (references : List Reference) : Prop :=
  ∃ name document, (∃ steps, shelf.Reaches references steps name) ∧
    shelf.copybook? name = some document ∧
    ∃ steps, shelf.Reaches document.references steps name

variable {shelf : Shelf}

theorem Reaches.through {references : List Reference} {steps more : Nat} {name next : LogicalName}
    {document : Parse.ParsedDocument} (reaches : shelf.Reaches references steps name)
    (found : shelf.copybook? name = some document)
    (onward : shelf.Reaches document.references more next) :
    shelf.Reaches references (steps + more) next := by
  induction reaches with
  | here member =>
      rw [Nat.add_comm]
      exact .further member found onward
  | further member between rest ih =>
      rw [Nat.add_right_comm]
      exact .further member between (ih found)

theorem Along.reaches {roots references : List Reference} {chain : List LogicalName}
    (along : shelf.Along roots chain references) :
    (∀ reference ∈ references, ∃ steps, shelf.Reaches roots steps reference.name) ∧
      ∀ name ∈ chain, ∃ document, shelf.copybook? name = some document ∧
        (∃ steps, shelf.Reaches roots steps name) ∧
        ∀ reference ∈ references, ∃ steps,
          shelf.Reaches document.references steps reference.name := by
  induction along with
  | start => exact ⟨fun reference member => ⟨1, .here member⟩, List.forall_mem_nil _⟩
  | @onward chain references reference document along member found ih =>
      obtain ⟨fromRoots, fromChain⟩ := ih
      obtain ⟨steps, reached⟩ := fromRoots reference member
      constructor
      · intro next present
        exact ⟨steps + 1, reached.through found (.here present)⟩
      · intro name onChain
        rcases List.mem_append.mp onChain with before | last
        · obtain ⟨holder, held, reachedHolder, leads⟩ := fromChain name before
          refine ⟨holder, held, reachedHolder, fun next present => ?_⟩
          obtain ⟨onwards, leadsHere⟩ := leads reference member
          exact ⟨onwards + 1, leadsHere.through found (.here present)⟩
        · rw [List.mem_singleton.mp last]
          exact ⟨document, found, ⟨steps, reached⟩, fun next present => ⟨1, .here present⟩⟩

theorem Returns.circular {roots : List Reference} {path : List LogicalName}
    (returns : shelf.Returns roots path) : shelf.Circular roots := by
  obtain ⟨chain, references, reference, along, member, _, _, back⟩ := returns
  obtain ⟨document, found, reached, leads⟩ := along.reaches.2 reference.name back
  exact ⟨reference.name, document, reached, found, leads reference member⟩

theorem Circular.next {references : List Reference} (circular : shelf.Circular references) :
    ∃ reference ∈ references, ∃ document, shelf.copybook? reference.name = some document ∧
      shelf.Circular document.references := by
  obtain ⟨name, document, ⟨steps, reaches⟩, found, back⟩ := circular
  cases reaches with
  | here member => exact ⟨_, member, document, found, _, document, back, found, back⟩
  | further member between onward =>
      exact ⟨_, member, _, between, name, document, ⟨_, onward⟩, found, back⟩

end Shelf

/-! ### Circles among inclusions -/

/-- Some reference was refused because it is on the way to itself. -/
def Inclusions.ClosesCircle : Inclusions → Prop
  | none => False
  | refused _ refusal rest => (∃ path, refusal = .circular path) ∨ ClosesCircle rest
  | repeated _ rest => ClosesCircle rest
  | included _ _ _ below rest => ClosesCircle below ∨ ClosesCircle rest

theorem Inclusions.ClosesCircle.reported {tree : Inclusions} (closes : tree.ClosesCircle)
    (site : Site) :
    ∃ diagnostic ∈ (tree.contexts site).flatMap Context.diagnostics,
      diagnostic.code = some Diagnostic.Code.circularCopybook := by
  induction tree generalizing site with
  | none => exact closes.elim
  | refused reference refusal rest ih =>
      rcases closes with ⟨path, circular⟩ | later
      · refine ⟨refusal.diagnostic reference, List.mem_append_left _ List.mem_cons_self, ?_⟩
        rw [refusal.code_diagnostic, circular]
        rfl
      · obtain ⟨diagnostic, present, code⟩ := ih later site
        exact ⟨diagnostic, List.mem_append_right _ present, code⟩
  | «repeated» reference rest ih => exact ih closes site
  | included reference uri own below rest ihBelow ih =>
      rw [diagnostics_included]
      rcases closes with inside | later
      · obtain ⟨diagnostic, present, code⟩ := ihBelow inside (site.below reference)
        exact ⟨diagnostic, List.mem_append_left _ (List.mem_append_right _ present), code⟩
      · obtain ⟨diagnostic, present, code⟩ := ih later site
        exact ⟨diagnostic, List.mem_append_right _ present, code⟩

namespace Shelf

variable {shelf : Shelf} {interrupted : Prop} {chain : List LogicalName}
  {references : List Reference} {tree : Inclusions}

end Shelf

section Sample

open Scenario

end Sample

end CobolAnalysis
