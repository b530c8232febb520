/-
The bench, as a bus with one attached provider.

A script that cancels nothing, and whose prepared answers are all for other names than
the one they are prepared for, is a bystander: it listens before the provider, and may
panic.

The sample is such a script with a few copybooks that ask for one another. One of them
asks for itself, and one is kept silent.
-/

import CobolAnalysis.Proofs.Analysis.IncludeGraph
import CobolAnalysis.Proofs.Analysis.StandardReading
import CobolAnalysis.Scenario.Script

namespace CobolAnalysis.Scenario

open Provider (Memory)

namespace Script

/-- Nothing that the script does on a request bears on what becomes of it. -/
structure Harmless (script : Script) (stock : Memory) : Prop where
  cancelsNothing : script.cancelOn = []
  uncancelled : script.cancelled = false
  foreign : ∀ name, ∀ event ∈ (script.answers.get? name).getD [], stock.Foreign name event

theorem empty_harmless (stock : Memory) : empty.Harmless stock := by
  refine ⟨rfl, rfl, ?_⟩
  intro name event member
  change event ∈ ((Table.empty : Table LogicalName (List Event)).get? name).getD [] at member
  rw [Table.get?_empty] at member
  cases member

/-- The script has the given answers ready and has cancelled nothing. -/
def Keeps (answers : Table LogicalName (List Event)) (script : Script) : Prop :=
  script.cancelOn = [] ∧ script.cancelled = false ∧ script.answers = answers

theorem keeps_onRequest {answers : Table LogicalName (List Event)} {script : Script}
    (keeps : Keeps answers script) (name : LogicalName) :
    Keeps answers (onRequest name script) := by
  obtain ⟨cancelsNothing, uncancelled, same⟩ := keeps
  unfold onRequest
  rw [cancelsNothing]
  exact ⟨cancelsNothing, uncancelled, same⟩

theorem respond_unobtrusive {stock : Memory} (answers : Table LogicalName (List Event))
    (foreign : ∀ name, ∀ event ∈ (answers.get? name).getD [], stock.Foreign name event)
    (id : Nat) (name : LogicalName) (script : Script) (keeps : Keeps answers script) :
    (respond id (.scan name)).Unobtrusive (stock.Foreign name) (Keeps answers) script := by
  have noted := keeps_onRequest keeps name
  refine ⟨noted, ?_⟩
  change (reply name (onRequest name script)).Unobtrusive _ _ _
  unfold reply
  split
  · trivial
  · rw [noted.2.2]
    exact Procedure.Unobtrusive.publishAll _ (foreign name) _

end Script

namespace Bench

/-- The bench as the place of an analysis; the script keeps to its answers. -/
def venue (script : Script) : Venue (Bench Memory) where
  memory := providerPart
  flag := cancelledPart
  steady := fun bench => Script.Keeps script.answers bench.script
  apart := fun _ _ => rfl
  counted := fun _ keeps => keeps

theorem attached_withMemory (script : Script) (stock : Memory)
    (harmless : script.Harmless stock) :
    (venue script).Attached stock [] (withMemory script stock) := by
  have keeps : Script.Keeps script.answers script :=
    ⟨harmless.cancelsNothing, harmless.uncancelled, rfl⟩
  refine ⟨rfl, ⟨[_], 1, [], rfl, ?_⟩, rfl, fun _ _ => rfl, List.forall_mem_nil _, rfl,
    harmless.uncancelled, keeps⟩
  intro registration member
  rw [List.append_nil, List.mem_singleton] at member
  refine ⟨Script.respond.within scriptPart, congrArg Registration.observer member, ?_⟩
  intro id name count bench holds
  refine Procedure.Unobtrusive.within scriptPart ?_ (Script.respond id (.scan name)) bench holds
    (Script.respond_unobtrusive script.answers harmless.foreign id name bench.script holds.2.2)
  intro inner outer innerKeeps outerHolds
  exact ⟨outerHolds.1, innerKeeps.2.1, innerKeeps⟩

theorem attached_unscripted (stock : Memory) :
    (venue .empty).Attached stock [] (withMemory .empty stock) :=
  attached_withMemory .empty stock (Script.empty_harmless stock)

end Bench

namespace Sample

def outer : LogicalName := ⟨['A']⟩

def inner : LogicalName := ⟨['B']⟩

def silent : LogicalName := ⟨['C']⟩

def stock : Memory where
  copybooks := .ofList [(outer, "       COPY B.\n       COPY A.".toList),
    (inner, "       01 ITEM-B.\n       COPY C.".toList)]
  silent := [silent]
  requests := 0

def script : Script :=
  { Script.empty with
    panicOn := [inner.text]
    answers := .ofList [(outer, [.fetch (.located inner "       COPY A.".toList)])] }

theorem harmless : script.Harmless stock := by
  refine ⟨rfl, rfl, ?_⟩
  intro name event member
  change event ∈ ((Table.empty.insert outer _).get? name).getD [] at member
  rw [Table.get?_insert, Table.get?_empty] at member
  by_cases requested : name = outer
  · rw [if_pos requested] at member
    rw [List.mem_singleton.mp member, requested]
    exact ⟨by decide, rfl⟩
  · rw [if_neg requested] at member
    cases member

theorem attached : (Bench.venue script).Attached stock [] (Bench.withMemory script stock) :=
  Bench.attached_withMemory script stock harmless

def text : List Char := "       COPY A.\n       COPY B.".toList

def shelf (dedup : Dedup) (maxDepth : Nat) : Shelf :=
  let config := { Config.standard with dedup := dedup, maxDepth := maxDepth }
  ⟨.standard config .fixed ⟨true, true⟩, config, stock⟩

def analyzer : Analyzer (Bus (Board (Bench Memory))) Task :=
  ⟨.standard .standard .fixed ⟨true, true⟩, .standard, Bench.exchange⟩

theorem document_reads (dedup : Dedup) (maxDepth : Nat) :
    ∃ root, (shelf dedup maxDepth).reading.document "root" text = .ok root ∧
      root.references.map Parse.Reference.name = [outer, inner] := by
  have evaluated : ((shelf .shared 10).reading.document "root" text).toOption.map
      (fun root => root.references.map Parse.Reference.name) = some [outer, inner] := by
    decide +kernel
  change ((shelf dedup maxDepth).reading.document "root" text).toOption.map _ = _ at evaluated
  cases read : (shelf dedup maxDepth).reading.document "root" text with
  | error error =>
      rw [read] at evaluated
      cases evaluated
  | ok root =>
      rw [read] at evaluated
      exact ⟨root, rfl, Option.some.inj evaluated⟩

theorem inner_reached (dedup : Dedup) (maxDepth : Nat) :
    ∃ root document, (shelf dedup maxDepth).reading.document "root" text = .ok root ∧
      (shelf dedup maxDepth).Reaches root.references 1 inner ∧
      (shelf dedup maxDepth).copybook? inner = some document := by
  obtain ⟨root, read, names⟩ := document_reads dedup maxDepth
  have readable : ((shelf .shared 10).copybook? inner).isSome := by
    decide +kernel
  obtain ⟨document, found⟩ := Option.isSome_iff_exists.mp readable
  have asked : inner ∈ root.references.map Parse.Reference.name := by
    rw [names]
    exact List.mem_cons_of_mem outer (List.mem_singleton_self inner)
  obtain ⟨reference, member, named⟩ := List.mem_map.mp asked
  exact ⟨root, document, read, named ▸ .here member, found⟩

end Sample

end CobolAnalysis.Scenario
