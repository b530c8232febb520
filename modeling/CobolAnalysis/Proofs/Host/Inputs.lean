/-
What a host was last told.

A history of operations on a host and on the copybooks that its provider holds comes to a few
last inputs: which documents are open, the text to which each was last set, and the copybooks
that were held when it was last analyzed. Analyzing all open documents again brings the last of
these up to date, in whatever order they are visited.
-/

import CobolAnalysis.Host
import CobolAnalysis.Proofs.Tables
import Mathlib.Data.List.Induction
import Mathlib.Data.List.Nodup

namespace CobolAnalysis

/-! ### Tables -/

namespace Table

variable {κ ν μ : Type} [DecidableEq κ]

section Refilled

variable (build : κ × μ → ν)

def refilled (table : Table κ ν) (items : List (κ × μ)) : Table κ ν :=
  items.foldl (fun table item => table.insert item.1 (build item)) table

theorem keys_refilled {items : List (κ × μ)} {table : Table κ ν}
    (present : ∀ item ∈ items, item.1 ∈ table.keys) :
    (table.refilled build items).keys = table.keys := by
  induction items generalizing table with
  | nil => rfl
  | cons item rest ih =>
      obtain ⟨here, later⟩ := List.forall_mem_cons.mp present
      have same := table.keys_insert here (build item)
      refine (ih fun other member => ?_).trans same
      rw [same]
      exact later other member

theorem get?_refilled_other {items : List (κ × μ)} {key : κ}
    (absent : key ∉ items.map Prod.fst) (table : Table κ ν) :
    (table.refilled build items).get? key = table.get? key := by
  induction items generalizing table with
  | nil => rfl
  | cons item rest ih =>
      obtain ⟨notHere, notLater⟩ := List.ne_and_not_mem_of_not_mem_cons absent
      refine (ih notLater (table.insert item.1 (build item))).trans ?_
      rw [get?_insert, if_neg notHere]

theorem get?_refilled {items : List (κ × μ)} (distinct : (items.map Prod.fst).Nodup)
    {item : κ × μ} (member : item ∈ items) (table : Table κ ν) :
    (table.refilled build items).get? item.1 = some (build item) := by
  induction items generalizing table with
  | nil => cases member
  | cons first rest ih =>
      have headTail := List.nodup_cons.mp distinct
      rcases List.mem_cons.mp member with rfl | later
      · refine (get?_refilled_other build headTail.1 (table.insert item.1 (build item))).trans ?_
        rw [get?_insert, if_pos rfl]
      · exact ih headTail.2 later (table.insert first.1 (build first))

theorem refilled_eq_mapValues {table : Table κ ν} (part : ν → μ) (change : ν → ν)
    (builds : ∀ key value, build (key, part value) = change value) {items : List (κ × μ)}
    (complete : items.Perm (table.entries.map fun entry => (entry.1, part entry.2))) :
    table.refilled build items = table.mapValues change := by
  have keys : (items.map Prod.fst).Perm table.keys := by
    have mapped := complete.map Prod.fst
    rw [List.map_map] at mapped
    exact mapped
  have distinct : (items.map Prod.fst).Nodup := keys.nodup_iff.mpr table.distinct
  refine eq_of_get? ?_ fun key => ?_
  · rw [keys_mapValues]
    exact keys_refilled build fun item member => keys.subset (List.mem_map_of_mem member)
  · rw [get?_mapValues]
    cases held : table.get? key with
    | none =>
        have absent : key ∉ items.map Prod.fst := by
          intro member
          have present := (table.contains_iff key).mpr (keys.subset member)
          unfold contains at present
          rw [held] at present
          cases present
        exact (get?_refilled_other build absent table).trans held
    | some value =>
        have member : (key, part value) ∈ items :=
          complete.mem_iff.mpr (List.mem_map.mpr
            ⟨(key, value), (table.get?_eq_some_iff key value).mp held, rfl⟩)
        exact (get?_refilled build distinct member table).trans (congrArg some (builds key value))

end Refilled

end Table

/-! ### Operations -/

inductive Operation where
  | set (uri : String) (text : List Char)
  | reanalyze (visit : Visit (String × OpenDocument))
  | close (uri : String)
  | insert (name : LogicalName) (text : List Char)
  | erase (name : LogicalName)
  /-- Reaches no analysis, since none is running between operations. -/
  | cancel

namespace Operation

def restock (copybooks : Table LogicalName (List Char)) : Operation → Table LogicalName (List Char)
  | insert name text => copybooks.insert name text
  | erase name => copybooks.erase name
  | _ => copybooks

/-- Sets the document or closes it. -/
def Decides (uri : String) : Operation → Prop
  | set other _ => other = uri
  | close other => other = uri
  | _ => False

/-- Analyzes the document, if it is open afterwards. -/
def Analyzes (uri : String) : Operation → Prop
  | set other _ => other = uri
  | reanalyze _ => True
  | _ => False

/-- May make a difference to what is known of the document. -/
def Concerns (uri : String) : Operation → Prop
  | set other _ => other = uri
  | close other => other = uri
  | reanalyze _ => True
  | _ => False

def isCancel : Operation → Bool
  | cancel => true
  | _ => false

end Operation

/-! ### Histories -/

/-- Some item of the history happens, and none after it voids it. What happens may depend on what
comes before it. -/
def Latest {α : Type} (happens : List α → α → Prop) (voids : α → Prop) (history : List α) : Prop :=
  ∃ earlier item later, history = earlier ++ item :: later ∧ happens earlier item ∧
    ∀ other ∈ later, ¬voids other

theorem latest_append {α : Type} {happens : List α → α → Prop} {voids : α → Prop}
    (history : List α) (last : α) :
    Latest happens voids (history ++ [last]) ↔
      happens history last ∨ ¬voids last ∧ Latest happens voids history := by
  constructor
  · rintro ⟨earlier, item, later, split, happened, free⟩
    rcases List.eq_nil_or_concat later with rfl | ⟨between, final, rfl⟩
    · obtain ⟨rfl, same⟩ := List.append_inj' split rfl
      cases same
      exact Or.inl happened
    · rw [List.concat_eq_append, ← List.cons_append, ← List.append_assoc] at split
      obtain ⟨rfl, same⟩ := List.append_inj' split rfl
      cases same
      refine Or.inr ⟨free last (by simp), earlier, item, between, rfl, happened, ?_⟩
      exact fun other member => free other (by simp [member])
  · rintro (happened | ⟨free, earlier, item, later, rfl, happened, others⟩)
    · exact ⟨history, last, [], rfl, happened, List.forall_mem_nil _⟩
    · refine ⟨earlier, item, later ++ [last], by simp, happened, ?_⟩
      exact List.forall_mem_append.mpr ⟨others, List.forall_mem_singleton.mpr free⟩

theorem not_latest_nil {α : Type} {happens : List α → α → Prop} {voids : α → Prop} :
    ¬Latest happens voids [] := by
  rintro ⟨earlier, item, later, split, _⟩
  cases earlier <;> cases split

section Histories

variable (start : Table LogicalName (List Char)) (operations : List Operation) (uri : String)

def copybooksAfter : Table LogicalName (List Char) := operations.foldl Operation.restock start

/-- The document is open, and was last set to this text. -/
def LastSet (text : List Char) : Prop :=
  Latest (fun _ operation => operation = .set uri text) (Operation.Decides uri) operations

/-- The last operation that analyzes the document comes when these copybooks are held. -/
def LastAnalyzed (copybooks : Table LogicalName (List Char)) : Prop :=
  Latest (fun earlier operation => operation.Analyzes uri ∧
    copybooks = copybooksAfter start earlier) (Operation.Analyzes uri) operations

end Histories

/-- What is known of an open document: its text, and what the provider held when it was analyzed. -/
structure Input where
  text : List Char
  copybooks : Table LogicalName (List Char)

structure Inputs where
  documents : Table String Input
  copybooks : Table LogicalName (List Char)

namespace Inputs

def start (copybooks : Table LogicalName (List Char)) : Inputs := ⟨.empty, copybooks⟩

def set (inputs : Inputs) (uri : String) (text : List Char) : Inputs :=
  { inputs with documents := inputs.documents.insert uri ⟨text, inputs.copybooks⟩ }

def renewed (copybooks : Table LogicalName (List Char)) (input : Input) : Input :=
  { input with copybooks := copybooks }

def after (inputs : Inputs) : Operation → Inputs
  | .set uri text => inputs.set uri text
  | .reanalyze _ => { inputs with documents := inputs.documents.mapValues (renewed inputs.copybooks) }
  | .close uri => { inputs with documents := inputs.documents.erase uri }
  | .insert name text => { inputs with copybooks := inputs.copybooks.insert name text }
  | .erase name => { inputs with copybooks := inputs.copybooks.erase name }
  | .cancel => inputs

def afterAll (inputs : Inputs) (operations : List Operation) : Inputs := operations.foldl after inputs

theorem copybooks_after (inputs : Inputs) (operation : Operation) :
    (inputs.after operation).copybooks = operation.restock inputs.copybooks := by
  cases operation <;> rfl

theorem copybooks_afterAll (inputs : Inputs) (operations : List Operation) :
    (inputs.afterAll operations).copybooks = copybooksAfter inputs.copybooks operations := by
  induction operations generalizing inputs with
  | nil => rfl
  | cons operation rest ih =>
      refine (ih (inputs.after operation)).trans ?_
      rw [copybooks_after]
      rfl

theorem sets_eq_after (inputs : Inputs) {texts : List (String × List Char)}
    (complete : texts.Perm (inputs.documents.entries.map fun entry => (entry.1, entry.2.text)))
    (visit : Visit (String × OpenDocument)) :
    texts.foldl (fun inputs entry => inputs.set entry.1 entry.2) inputs =
      inputs.after (.reanalyze visit) := by
  have together : ∀ (texts : List (String × List Char)) (documents : Table String Input),
      texts.foldl (fun (inputs : Inputs) entry => inputs.set entry.1 entry.2)
          ⟨documents, inputs.copybooks⟩ =
        ⟨documents.refilled (fun item => ⟨item.2, inputs.copybooks⟩) texts, inputs.copybooks⟩ := by
    intro texts
    induction texts with
    | nil => exact fun _ => rfl
    | cons entry rest ih => exact fun documents => ih _
  refine (together texts inputs.documents).trans ?_
  rw [Table.refilled_eq_mapValues _ Input.text (renewed inputs.copybooks) (fun _ _ => rfl)
    complete]
  rfl

theorem get?_after_set (inputs : Inputs) (other : String) (text : List Char) (uri : String) :
    (inputs.after (.set other text)).documents.get? uri =
      if uri = other then some ⟨text, inputs.copybooks⟩ else inputs.documents.get? uri :=
  Table.get?_insert inputs.documents other uri ⟨text, inputs.copybooks⟩

theorem get?_after_reanalyze (inputs : Inputs) (visit : Visit (String × OpenDocument))
    (uri : String) :
    (inputs.after (.reanalyze visit)).documents.get? uri =
      (inputs.documents.get? uri).map (renewed inputs.copybooks) :=
  Table.get?_mapValues inputs.documents (renewed inputs.copybooks) uri

theorem get?_after_close (inputs : Inputs) (other uri : String) :
    (inputs.after (.close other)).documents.get? uri =
      if uri = other then none else inputs.documents.get? uri :=
  Table.get?_erase inputs.documents other uri

theorem afterAll_append (inputs : Inputs) (earlier : List Operation) (last : Operation) :
    inputs.afterAll (earlier ++ [last]) = (inputs.afterAll earlier).after last :=
  List.foldl_append

section Histories

variable (copybooks : Table LogicalName (List Char)) (operations : List Operation) (uri : String)

theorem text_afterAll (text : List Char) :
    (((start copybooks).afterAll operations).documents.get? uri).map Input.text = some text ↔
      LastSet operations uri text := by
  unfold LastSet
  induction operations using List.reverseRecOn with
  | nil => exact iff_of_false nofun not_latest_nil
  | append_singleton earlier last ih =>
      rw [afterAll_append, latest_append]
      generalize (start copybooks).afterAll earlier = inputs at ih
      cases last with
      | set other content =>
          rw [get?_after_set]
          by_cases same : uri = other
          · rw [if_pos same]
            simp [Operation.Decides, same]
          · rw [if_neg same, ih]
            simp [Operation.Decides, Ne.symm same]
      | reanalyze visit =>
          rw [get?_after_reanalyze, Option.map_map]
          exact ih.trans (by simp [Operation.Decides])
      | close other =>
          rw [get?_after_close]
          by_cases same : uri = other
          · rw [if_pos same]
            simp [Operation.Decides, same]
          · rw [if_neg same, ih]
            simp [Operation.Decides, Ne.symm same]
      | insert name content => exact ih.trans (by simp [Operation.Decides])
      | erase name => exact ih.trans (by simp [Operation.Decides])
      | cancel => exact ih.trans (by simp [Operation.Decides])

theorem copybooks_of_get?_afterAll {input : Input}
    (found : ((start copybooks).afterAll operations).documents.get? uri = some input)
    (stock : Table LogicalName (List Char)) :
    LastAnalyzed copybooks operations uri stock ↔ stock = input.copybooks := by
  unfold LastAnalyzed
  induction operations using List.reverseRecOn generalizing input with
  | nil => cases found
  | append_singleton earlier last ih =>
      have held := (start copybooks).copybooks_afterAll earlier
      rw [afterAll_append] at found
      rw [latest_append]
      generalize (start copybooks).afterAll earlier = inputs at ih held found
      cases last with
      | set other content =>
          rw [get?_after_set] at found
          by_cases same : uri = other
          · rw [if_pos same] at found
            cases found
            simp [Operation.Analyzes, same, held, start]
          · rw [if_neg same] at found
            exact Iff.trans (by simp [Operation.Analyzes, Ne.symm same]) (ih found)
      | reanalyze visit =>
          rw [get?_after_reanalyze] at found
          obtain ⟨input, _, rfl⟩ := Option.map_eq_some_iff.mp found
          simp [Operation.Analyzes, renewed, held, start]
      | close other =>
          rw [get?_after_close] at found
          by_cases same : uri = other
          · rw [if_pos same] at found
            cases found
          · rw [if_neg same] at found
            exact Iff.trans (by simp [Operation.Analyzes]) (ih found)
      | insert name content => exact Iff.trans (by simp [Operation.Analyzes]) (ih found)
      | erase name => exact Iff.trans (by simp [Operation.Analyzes]) (ih found)
      | cancel => exact Iff.trans (by simp [Operation.Analyzes]) (ih found)

/-- The inputs are what the history says: a document is open with the text to which it was last
set, and with the copybooks that were held when it was last analyzed. -/
theorem documents_afterAll (input : Input) :
    ((start copybooks).afterAll operations).documents.get? uri = some input ↔
      LastSet operations uri input.text ∧
        LastAnalyzed copybooks operations uri input.copybooks := by
  constructor
  · intro found
    refine ⟨?_, (copybooks_of_get?_afterAll copybooks operations uri found _).mpr rfl⟩
    rw [← text_afterAll copybooks, found]
    rfl
  · rintro ⟨lastSet, lastAnalyzed⟩
    obtain ⟨held, found, sameText⟩ :=
      Option.map_eq_some_iff.mp ((text_afterAll copybooks operations uri input.text).mpr lastSet)
    have sameStock :=
      (copybooks_of_get?_afterAll copybooks operations uri found input.copybooks).mp lastAnalyzed
    rw [found]
    obtain ⟨text, stock⟩ := input
    cases sameText
    cases sameStock
    rfl

end Histories

end Inputs

end CobolAnalysis
