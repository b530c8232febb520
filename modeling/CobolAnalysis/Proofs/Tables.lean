/-
What determines a table.

A table is given by its entries, and so by the order of its keys and by what is found under
each of them.
-/

import CobolAnalysis.Table
import Mathlib.Data.List.Nodup

namespace CobolAnalysis.Table

variable {κ ν μ : Type}

theorem ext_entries {table other : Table κ ν} (same : table.entries = other.entries) :
    table = other := by
  obtain ⟨entries, distinct⟩ := table
  cases same
  rfl

theorem keys_mapValues (table : Table κ ν) (change : ν → ν) :
    (table.mapValues change).keys = table.keys := by
  change (table.entries.map fun entry => (entry.1, change entry.2)).map Prod.fst = _
  rw [List.map_map]
  rfl

variable [DecidableEq κ]

theorem lookup_eq_some_iff {entries : List (κ × ν)}
    (distinct : (entries.map Prod.fst).Nodup) (key : κ) (value : ν) :
    lookup entries key = some value ↔ (key, value) ∈ entries := by
  induction entries with
  | nil => exact iff_of_false (by simp [lookup]) List.not_mem_nil
  | cons entry rest ih =>
      obtain ⟨first, held⟩ := entry
      have headTail := List.nodup_cons.mp distinct
      rw [lookup_cons, List.mem_cons, Prod.mk.injEq]
      by_cases same : first = key
      · have absent : (key, value) ∉ rest := fun member =>
          headTail.1 (List.mem_map.mpr ⟨_, member, same.symm⟩)
        rw [if_pos same, Option.some.injEq]
        constructor
        · intro equal
          exact Or.inl ⟨same.symm, equal.symm⟩
        · intro either
          rcases either with ⟨_, equal⟩ | member
          · exact equal.symm
          · exact absurd member absent
      · rw [if_neg same, ih headTail.2]
        exact (or_iff_right fun equal => same equal.1.symm).symm

theorem entries_eq_map {table : Table κ ν} {other : Table κ μ} (change : κ → μ → ν)
    (keys : table.keys = other.keys)
    (found : ∀ key, table.get? key = (other.get? key).map (change key)) :
    table.entries = other.entries.map fun entry => (entry.1, change entry.1 entry.2) := by
  obtain ⟨entries, distinct⟩ := table
  obtain ⟨others, otherDistinct⟩ := other
  change entries.map Prod.fst = others.map Prod.fst at keys
  change ∀ key, lookup entries key = (lookup others key).map (change key) at found
  induction entries generalizing others with
  | nil =>
      cases others with
      | nil => rfl
      | cons first more => cases keys
  | cons entry rest ih =>
      cases others with
      | nil => cases keys
      | cons first more =>
          obtain ⟨key, value⟩ := entry
          obtain ⟨rfl, sameKeys⟩ : key = first.1 ∧ rest.map Prod.fst = more.map Prod.fst :=
            List.cons.inj keys
          have headTail := List.nodup_cons.mp distinct
          have here := found first.1
          rw [lookup_cons, lookup_cons, if_pos rfl, if_pos rfl] at here
          refine congrArg₂ List.cons (congrArg (Prod.mk first.1) (Option.some.inj here))
            (ih headTail.2 more (List.nodup_cons.mp otherDistinct).2 sameKeys fun key => ?_)
          by_cases atHead : first.1 = key
          · -- Further on, neither list has the key of the first entry.
            have absent : ∀ {α : Type} (list : List (κ × α)), first.1 ∉ list.map Prod.fst →
                lookup list key = none := by
              intro α list missing
              rw [← Option.not_isSome_iff_eq_none, lookup_isSome, ← atHead]
              exact missing
            rw [absent rest headTail.1, absent more (sameKeys ▸ headTail.1)]
            rfl
          · have there := found key
            rwa [lookup_cons, lookup_cons, if_neg atHead, if_neg atHead] at there

/-- A table is determined by the order of its keys and by what is found under each. -/
theorem eq_of_get? {table other : Table κ ν} (keys : table.keys = other.keys)
    (found : ∀ key, table.get? key = other.get? key) : table = other := by
  have entries := entries_eq_map (fun _ value => value) keys fun key => by
    rw [found, Option.map_id_fun']
    rfl
  exact ext_entries (entries.trans (List.map_id _))

theorem get?_eq_some_iff (table : Table κ ν) (key : κ) (value : ν) :
    table.get? key = some value ↔ (key, value) ∈ table.entries :=
  lookup_eq_some_iff table.distinct key value

theorem get?_mapValues (table : Table κ ν) (change : ν → ν) (key : κ) :
    (table.mapValues change).get? key = (table.get? key).map change := by
  obtain ⟨entries, distinct⟩ := table
  change lookup (entries.map fun entry => (entry.1, change entry.2)) key =
    (lookup entries key).map change
  clear distinct
  induction entries with
  | nil => rfl
  | cons entry rest ih =>
      rw [List.map_cons, lookup_cons, lookup_cons, ih]
      split <;> rfl

theorem mapValues_alter (table : Table κ ν) (key : κ) {change : ν → ν} {first second : Option ν → ν}
    (same : ∀ found, change (first found) = second (found.map change)) :
    (table.alter key first).mapValues change = (table.mapValues change).alter key second := by
  apply eq_of_get?
  · rw [keys_mapValues, keys_alter, keys_alter, keys_mapValues]
  · intro other
    rw [get?_mapValues, get?_alter, get?_alter, get?_mapValues, get?_mapValues]
    split
    · exact congrArg some (same _)
    · rfl

theorem keys_insert (table : Table κ ν) {key : κ} (present : key ∈ table.keys) (value : ν) :
    (table.insert key value).keys = table.keys :=
  (keys_alter table key _).trans (if_pos present)

theorem keys_erase (table : Table κ ν) (key : κ) :
    (table.erase key).keys = table.keys.filter fun other => !decide (other = key) := by
  unfold keys
  rw [List.filter_map]
  rfl

/-! ### Lists of keys and values -/

theorem lookup_append (first second : List (κ × ν)) (key : κ) :
    lookup (first ++ second) key = (lookup first key).or (lookup second key) := by
  induction first with
  | nil => rfl
  | cons entry rest ih =>
      rw [List.cons_append, lookup_cons, lookup_cons, ih]
      split
      · rfl
      · rfl

theorem lookup_flatMap {α : Type} (items : List α) (entries : α → List (κ × ν)) (key : κ) :
    lookup (items.flatMap entries) key = items.findSome? fun item => lookup (entries item) key := by
  induction items with
  | nil => rfl
  | cons item rest ih =>
      rw [List.flatMap_cons, lookup_append, ih, List.findSome?_cons]
      cases lookup (entries item) key with
      | none => rfl
      | some value => rfl

theorem lookup_filterMap {α : Type} (items : List α) (key? : α → Option κ) (value : α → ν)
    (key : κ) :
    lookup (items.filterMap fun item => (key? item).map fun found => (found, value item)) key =
      (items.find? fun item => key? item = some key).map value := by
  induction items with
  | nil => rfl
  | cons item rest ih =>
      rw [List.filterMap_cons, List.find?_cons]
      cases keyed : key? item with
      | none => exact ih
      | some found =>
          change lookup ((found, value item) :: _) key = _
          rw [lookup_cons, ih]
          by_cases same : found = key
          · simp [same]
          · simp [same]

end CobolAnalysis.Table
