/-
Circles that are reported whatever the policy on repetitions.

If a copybook asks for one that every way to it passes, then it finds that one on the way
by which it was brought in, whichever this is. Where repetitions are dropped, other
circles may go unreported: with two entrances, each member may be taken up at an entrance
before the reference that would close the circle is looked at.
-/

import CobolAnalysis.Proofs.Analysis.Circularity

namespace CobolAnalysis

open Parse (Reference)
open Provider (Memory)
open Scenario.Bench (Subject)

namespace Shelf

/-- Every way from the roots to the copybook `name` passes `gate`, or ends there. -/
def Dominates (shelf : Shelf) (roots : List Reference) (gate name : LogicalName) : Prop :=
  ∀ chain references, shelf.Along roots (chain ++ [name]) references → gate ∈ chain ++ [name]

/-- The roots lead to a copybook that asks for one which every way to it passes. -/
def LoopsBack (shelf : Shelf) (roots : List Reference) : Prop :=
  ∃ name document reference, (∃ steps, shelf.Reaches roots steps name) ∧
    shelf.copybook? name = some document ∧ reference ∈ document.references ∧
    shelf.Dominates roots reference.name name

variable {shelf : Shelf}

theorem Reaches.of_name {references : List Reference} {name : LogicalName}
    (member : name ∈ references.map Reference.name) : shelf.Reaches references 1 name := by
  obtain ⟨reference, present, named⟩ := List.mem_map.mp member
  exact named ▸ .here present

theorem Along.prolong {roots references : List Reference} {chain : List LogicalName} {steps : Nat}
    {name : LogicalName} {document : Parse.ParsedDocument}
    (along : shelf.Along roots chain references) (reaches : shelf.Reaches references steps name)
    (found : shelf.copybook? name = some document) :
    ∃ way, shelf.Along roots (way ++ [name]) document.references := by
  induction reaches generalizing chain with
  | here member => exact ⟨chain, along.onward member found⟩
  | further member between onward ih => exact ih (along.onward member between) found

theorem LoopsBack.circular {roots : List Reference} (loops : shelf.LoopsBack roots) :
    shelf.Circular roots := by
  obtain ⟨name, document, reference, ⟨steps, reaches⟩, found, member, dominates⟩ := loops
  obtain ⟨way, along⟩ := Along.start.prolong reaches found
  obtain ⟨holder, held, reached, leads⟩ := along.reaches.2 _ (dominates way _ along)
  exact ⟨reference.name, holder, reached, held, leads reference member⟩

section Unfolding

variable {interrupted : Prop} {chain : List LogicalName} {references : List Reference}
  {tree : Inclusions}

theorem Unfolds.closesCircle_of_mem_chain
    (unfolds : shelf.Unfolds interrupted chain references tree) {reference : Reference}
    (member : reference ∈ references) (back : reference.name ∈ chain) : tree.ClosesCircle := by
  induction unfolds with
  | none chain => exact absurd member List.not_mem_nil
  | @refused chain references rest of refusal warranted grounded others ih =>
      rcases List.mem_cons.mp member with here | later
      · rw [← here] at warranted
        cases refusal with
        | circular path => exact Or.inl ⟨path, rfl⟩
        | tooDeep limit => exact absurd back warranted.1
        | cancelled => exact absurd back warranted.fresh
        | notFound => exact absurd back warranted.fresh
        | timedOut timeout => exact absurd back warranted.1.fresh
        | broken error => exact absurd back warranted.1.fresh
      · exact Or.inr (ih later back)
  | «repeated» shared admitted others ih =>
      rcases List.mem_cons.mp member with here | later
      · exact absurd (here ▸ back) admitted.fresh
      · exact ih later back
  | included admitted found inside others ihInside ih =>
      rcases List.mem_cons.mp member with here | later
      · exact absurd (here ▸ back) admitted.fresh
      · exact Or.inr (ih later back)

theorem Unfolds.way_of_brought {roots whole : List Reference}
    (unfolds : shelf.Unfolds interrupted chain references tree)
    (along : shelf.Along roots chain whole) (part : ∀ reference ∈ references, reference ∈ whole)
    {brought : Brought} (member : brought ∈ tree.brought) :
    ∃ way document, shelf.copybook? brought.name = some document ∧
      shelf.Along roots (way ++ [brought.name]) document.references ∧
      ∀ reference ∈ document.references, reference.name ∈ way ++ [brought.name] →
        tree.ClosesCircle := by
  induction unfolds generalizing whole with
  | none chain => exact absurd member List.not_mem_nil
  | refused warranted grounded others ih =>
      obtain ⟨way, document, found, ends, closes⟩ :=
        ih along (List.forall_mem_cons.mp part).2 member
      exact ⟨way, document, found, ends, fun reference present back =>
        Or.inr (closes reference present back)⟩
  | «repeated» shared admitted others ih =>
      exact ih along (List.forall_mem_cons.mp part).2 member
  | @included chain references below rest of document admitted found inside others ihInside ih =>
      obtain ⟨own, later⟩ := List.forall_mem_cons.mp part
      have longer := along.onward own found
      rcases List.mem_cons.mp member with here | further
      · rw [here]
        exact ⟨chain, document, found, longer, fun reference present back =>
          Or.inl (inside.closesCircle_of_mem_chain present back)⟩
      · rcases List.mem_append.mp further with under | after
        · obtain ⟨way, parsed, foundThere, ends, closes⟩ :=
            ihInside longer (fun _ there => there) under
          exact ⟨way, parsed, foundThere, ends, fun reference present back =>
            Or.inl (closes reference present back)⟩
        · obtain ⟨way, parsed, foundThere, ends, closes⟩ := ih along later after
          exact ⟨way, parsed, foundThere, ends, fun reference present back =>
            Or.inr (closes reference present back)⟩

end Unfolding

end Shelf

/-- Whatever the policy, a copybook that asks for one which every way to it passes makes the
analysis report a circle, if nothing is reported to lie too deep. -/
theorem loops_reported {σ : Type} (shelf : Shelf) (venue : Venue σ) (bus : Bus (Board σ))
    (attached : venue.Attached shelf.stock [] bus) (subject : Subject) :
    ∃ least, ∀ limit, least ≤ limit → ∃ outcome,
      (shelf.analyzer venue limit).run subject bus = some outcome ∧
        (shelf.LoopsBack (shelf.roots subject) →
          (∀ diagnostic ∈ outcome.context.diagnostics,
            diagnostic.code ≠ some Diagnostic.Code.copybookTooDeep) →
          ∃ diagnostic ∈ outcome.context.diagnostics,
            diagnostic.code = some Diagnostic.Code.circularCopybook) := by
  obtain ⟨first, tree, after, unfolds, course⟩ :=
    shelf.run_unfolds venue.flag (Venue.attached_depot_iff.mpr attached) subject
  obtain ⟨second, rest, mirrored, _⟩ := shelf.explore_mirrors shelf.config.maxDepth []
    (shelf.roots subject) (.start ()) bus attached
  refine ⟨max first second, fun limit enough => ?_⟩
  obtain ⟨explored, ran⟩ := course limit (by omega)
  have surveyed : tree =
      (shelf.survey shelf.config.maxDepth [] (shelf.roots subject) (.start ())).1 :=
    congrArg Prod.fst (Option.some.inj (explored.symm.trans (mirrored limit (by omega))))
  refine ⟨_, ran, fun loops quiet => ?_⟩
  obtain ⟨name, document, reference, ⟨steps, reaches⟩, found, member, dominates⟩ := loops
  rw [Context.diagnostics_foldl_merge] at quiet ⊢
  have untruncated : tree.Untruncated := by
    apply Inclusions.untruncated_of_reports _ (.ofTrail (rootDepth subject) [])
    exact fun diagnostic member => quiet diagnostic (List.mem_append_right _ member)
  have brought : .ofDocument name document ∈ tree.brought := by
    rw [surveyed] at untruncated ⊢
    exact Shelf.mem_survey_of_reaches untruncated reaches found
  obtain ⟨way, parsed, foundThere, along, closes⟩ :=
    unfolds.way_of_brought .start (fun _ there => there) brought
  have same : parsed = document := Option.some.inj (foundThere.symm.trans found)
  rw [same] at along closes
  obtain ⟨diagnostic, reported, code⟩ := (closes reference member (dominates way _ along)).reported
    (.ofTrail (rootDepth subject) [])
  exact ⟨diagnostic, List.mem_append_right _ reported, code⟩

section Sample

open Scenario

/-- The outer copybook of the sample asks for itself, and the way to it ends there. -/
theorem sample_loops_reported :
    (Bench.venue Sample.script).Attached (Sample.shelf .shared 10).stock []
        (Bench.withMemory Sample.script Sample.stock) ∧
      (Sample.shelf .shared 10).LoopsBack
        ((Sample.shelf .shared 10).roots (.document "root" Sample.text)) ∧
      ∃ least, ∀ limit, least ≤ limit → ∃ outcome,
        ((Sample.shelf .shared 10).analyzer (Bench.venue Sample.script) limit).run
            (.document "root" Sample.text) (Bench.withMemory Sample.script Sample.stock) =
          some outcome ∧
        (∀ diagnostic ∈ outcome.context.diagnostics,
          diagnostic.code ≠ some Diagnostic.Code.copybookTooDeep) ∧
        ∃ diagnostic ∈ outcome.context.diagnostics,
          diagnostic.code = some Diagnostic.Code.circularCopybook := by
  have attached := Sample.attached
  have loops : (Sample.shelf .shared 10).LoopsBack
      ((Sample.shelf .shared 10).roots (.document "root" Sample.text)) := by
    have asked : ((Sample.shelf .shared 10).roots (.document "root" Sample.text)).map
        Reference.name = [Sample.outer, Sample.inner] := by
      decide +kernel
    have asks : ((Sample.shelf .shared 10).copybook? Sample.outer).map
        (fun document => document.references.map Reference.name) =
          some [Sample.inner, Sample.outer] := by
      decide +kernel
    obtain ⟨document, found, names⟩ := Option.map_eq_some_iff.mp asks
    have own : Sample.outer ∈ document.references.map Reference.name := by simp [names]
    obtain ⟨reference, member, named⟩ := List.mem_map.mp own
    have first : (Sample.shelf .shared 10).Reaches
        ((Sample.shelf .shared 10).roots (.document "root" Sample.text)) 1 Sample.outer :=
      .of_name (by simp [asked])
    refine ⟨Sample.outer, document, reference, ⟨1, first⟩, found, member, ?_⟩
    intro chain references _
    simp [named]
  obtain ⟨first, reports⟩ := loops_reported (Sample.shelf .shared 10) _ _ attached
    (.document "root" Sample.text)
  obtain ⟨second, evaluates⟩ := (Sample.shelf .shared 10).document_evaluates attached "root"
    Sample.text
  refine ⟨attached, loops, max first second, fun limit enough => ?_⟩
  obtain ⟨outcome, ends, reported⟩ := reports limit (by omega)
  obtain ⟨context, _⟩ := evaluates limit (by omega) outcome ends
  have quiet : ∀ diagnostic ∈ outcome.context.diagnostics,
      diagnostic.code ≠ some Diagnostic.Code.copybookTooDeep := by
    rw [context]
    decide +kernel
  exact ⟨outcome, ends, quiet, reported loops quiet⟩

end Sample

namespace Scenario.Crossing

/-! ### A circle with two entrances

The document asks for A and for B, which ask for each other. -/

def first : LogicalName := ⟨['A']⟩

def second : LogicalName := ⟨['B']⟩

def stock : Memory where
  copybooks := .ofList [(first, "       COPY B.".toList), (second, "       COPY A.".toList)]
  silent := []
  requests := 0

def text : List Char := "       COPY A.\n       COPY B.".toList

def shelf : Shelf := ⟨.standard .standard .fixed ⟨true, true⟩, .standard, stock⟩

theorem circular : shelf.Circular (shelf.roots (.document "root" text)) := by
  have asked : (shelf.roots (.document "root" text)).map Reference.name = [first, second] := by
    decide +kernel
  have fromFirst : (shelf.copybook? first).map
      (fun document => document.references.map Reference.name) = some [second] := by
    decide +kernel
  have fromSecond : (shelf.copybook? second).map
      (fun document => document.references.map Reference.name) = some [first] := by
    decide +kernel
  obtain ⟨document, found, names⟩ := Option.map_eq_some_iff.mp fromFirst
  obtain ⟨other, foundOther, back⟩ := Option.map_eq_some_iff.mp fromSecond
  have entrance : shelf.Reaches (shelf.roots (.document "root" text)) 1 first :=
    .of_name (by simp [asked])
  have across : shelf.Reaches document.references 1 second := .of_name (by simp [names])
  have home : shelf.Reaches other.references 1 first := .of_name (by simp [back])
  exact ⟨first, document, ⟨1, entrance⟩, found, 2, across.through foundOther home⟩

/-- Both are taken up where the document asks for them, so that neither of the references by which
they ask for each other is followed, and nothing is reported. -/
theorem circle_unreported :
    shelf.config.dedup = .shared ∧ shelf.Circular (shelf.roots (.document "root" text)) ∧
      ∃ least, ∀ limit, least ≤ limit → ∃ outcome,
        (shelf.analyzer (Bench.venue Script.empty) limit).document "root" text
            (Bench.withMemory Script.empty stock) = some outcome ∧
          outcome.context.diagnostics = [] := by
  have attached := Bench.attached_unscripted stock
  obtain ⟨least, _, surveyed, _⟩ := shelf.document_mirrors attached "root" text
  have nothing : (shelf.document "root" text).context.diagnostics = [] := by
    decide +kernel
  exact ⟨rfl, circular, least, fun limit enough => ⟨_, surveyed limit enough, nothing⟩⟩

end Scenario.Crossing

end CobolAnalysis
