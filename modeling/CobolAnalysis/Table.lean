/-
Finite maps that remember the order in which their keys first appeared.

Each key occurs once. Changing the value of a present key keeps its place, a
new key goes to the end, and removing a key closes the gap.
-/

namespace CobolAnalysis

structure Table (κ ν : Type) where
  entries : List (κ × ν)
  distinct : (entries.map Prod.fst).Nodup

namespace Table

variable {κ ν : Type}

def empty : Table κ ν := ⟨[], List.nodup_nil⟩

instance : Inhabited (Table κ ν) := ⟨empty⟩

def keys (table : Table κ ν) : List κ := table.entries.map Prod.fst

def size (table : Table κ ν) : Nat := table.entries.length

def isEmpty (table : Table κ ν) : Bool := table.entries.isEmpty

def mapValues (change : ν → ν) (table : Table κ ν) : Table κ ν :=
  ⟨table.entries.map fun entry => (entry.1, change entry.2), by
    have same : (table.entries.map fun entry => (entry.1, change entry.2)).map Prod.fst =
        table.entries.map Prod.fst := by
      rw [List.map_map]
      exact List.map_congr_left fun _ _ => rfl
    rw [same]
    exact table.distinct⟩

variable [DecidableEq κ]

def lookup (entries : List (κ × ν)) (key : κ) : Option ν :=
  (entries.find? fun entry => entry.1 = key).map Prod.snd

def get? (table : Table κ ν) (key : κ) : Option ν := lookup table.entries key

def contains (table : Table κ ν) (key : κ) : Bool := (table.get? key).isSome

/-- The entry of `key` with its value changed in place, or added at the end. -/
def adjust (key : κ) (change : Option ν → ν) : List (κ × ν) → List (κ × ν)
  | [] => [(key, change none)]
  | entry :: rest =>
      if entry.1 = key then (key, change (some entry.2)) :: rest
      else entry :: adjust key change rest

theorem mem_keys_adjust (key item : κ) (change : Option ν → ν) (entries : List (κ × ν)) :
    item ∈ (adjust key change entries).map Prod.fst ↔
      item = key ∨ item ∈ entries.map Prod.fst := by
  induction entries with
  | nil => simp [adjust]
  | cons entry rest ih =>
      unfold adjust
      split
      · rename_i same
        simp only [List.map_cons, List.mem_cons, same]
        exact ⟨Or.inr, fun choice => choice.elim Or.inl id⟩
      · simp only [List.map_cons, List.mem_cons, ih]
        exact or_left_comm

theorem adjust_distinct (key : κ) (change : Option ν → ν) (entries : List (κ × ν))
    (distinct : (entries.map Prod.fst).Nodup) :
    ((adjust key change entries).map Prod.fst).Nodup := by
  induction entries with
  | nil => simp [adjust]
  | cons entry rest ih =>
      have headTail := List.nodup_cons.mp distinct
      unfold adjust
      split
      · rename_i same
        exact same ▸ distinct
      · rename_i different
        refine List.nodup_cons.mpr ⟨fun member => ?_, ih headTail.2⟩
        rcases (mem_keys_adjust key entry.1 change rest).mp member with isKey | inRest
        · exact different isKey
        · exact headTail.1 inRest

/-- The value of `key` replaced by what `change` makes of it, or of its absence. -/
def alter (table : Table κ ν) (key : κ) (change : Option ν → ν) : Table κ ν :=
  ⟨adjust key change table.entries, adjust_distinct key change table.entries table.distinct⟩

def insert (table : Table κ ν) (key : κ) (value : ν) : Table κ ν :=
  table.alter key fun _ => value

def erase (table : Table κ ν) (key : κ) : Table κ ν :=
  ⟨table.entries.filter fun entry => !decide (entry.1 = key),
    table.distinct.sublist (List.filter_sublist.map Prod.fst)⟩

/-- Later pairs win over earlier ones with the same key. -/
def ofList (pairs : List (κ × ν)) : Table κ ν :=
  pairs.foldl (fun table pair => table.insert pair.1 pair.2) empty

/-! ### What is looked up after a change -/

@[simp] theorem get?_empty (key : κ) : (empty : Table κ ν).get? key = none := rfl

theorem lookup_cons (entry : κ × ν) (rest : List (κ × ν)) (key : κ) :
    lookup (entry :: rest) key = if entry.1 = key then some entry.2 else lookup rest key := by
  unfold lookup
  rw [List.find?_cons]
  by_cases same : entry.1 = key
  · rw [if_pos same, decide_eq_true same]
    rfl
  · rw [if_neg same, decide_eq_false same]

theorem lookup_adjust (key other : κ) (change : Option ν → ν) (entries : List (κ × ν)) :
    lookup (adjust key change entries) other =
      if other = key then some (change (lookup entries key)) else lookup entries other := by
  induction entries with
  | nil =>
      unfold adjust
      rw [lookup_cons]
      by_cases same : other = key
      · rw [if_pos same.symm, if_pos same]
        rfl
      · rw [if_neg (Ne.symm same), if_neg same]
  | cons entry rest ih =>
      unfold adjust
      by_cases atEntry : entry.1 = key
      · rw [if_pos atEntry, lookup_cons, lookup_cons, lookup_cons, if_pos atEntry]
        by_cases same : other = key
        · rw [if_pos same.symm, if_pos same]
        · rw [if_neg (Ne.symm same), if_neg same, atEntry, if_neg (Ne.symm same)]
      · rw [if_neg atEntry, lookup_cons, ih, lookup_cons, lookup_cons, if_neg atEntry]
        by_cases same : other = key
        · subst same
          rw [if_neg atEntry, if_pos rfl, if_pos rfl]
        · rw [if_neg same, if_neg same]

theorem get?_alter (table : Table κ ν) (key other : κ) (change : Option ν → ν) :
    (table.alter key change).get? other =
      if other = key then some (change (table.get? key)) else table.get? other :=
  lookup_adjust key other change table.entries

theorem get?_insert (table : Table κ ν) (key other : κ) (value : ν) :
    (table.insert key value).get? other = if other = key then some value else table.get? other :=
  get?_alter table key other fun _ => value

theorem lookup_filter_ne (key other : κ) (entries : List (κ × ν)) :
    lookup (entries.filter fun entry => !decide (entry.1 = key)) other =
      if other = key then none else lookup entries other := by
  induction entries with
  | nil => exact (ite_self _).symm
  | cons entry rest ih =>
      by_cases atEntry : entry.1 = key
      · rw [List.filter_cons_of_neg (by simp [atEntry]), ih, lookup_cons]
        by_cases same : other = key
        · rw [if_pos same, if_pos same]
        · rw [if_neg same, if_neg same, atEntry, if_neg (Ne.symm same)]
      · rw [List.filter_cons_of_pos (by simp [atEntry]), lookup_cons, ih, lookup_cons]
        by_cases same : other = key
        · rw [if_pos same, same, if_neg atEntry, if_pos rfl]
        · rw [if_neg same, if_neg same]

theorem get?_erase (table : Table κ ν) (key other : κ) :
    (table.erase key).get? other = if other = key then none else table.get? other :=
  lookup_filter_ne key other table.entries

theorem lookup_isSome (entries : List (κ × ν)) (key : κ) :
    (lookup entries key).isSome ↔ key ∈ entries.map Prod.fst := by
  induction entries with
  | nil => exact iff_of_false (by simp [lookup]) List.not_mem_nil
  | cons entry rest ih =>
      rw [lookup_cons, List.map_cons, List.mem_cons]
      by_cases atEntry : entry.1 = key
      · rw [if_pos atEntry]
        exact iff_of_true rfl (Or.inl atEntry.symm)
      · rw [if_neg atEntry, ih]
        exact (or_iff_right (Ne.symm atEntry)).symm

theorem contains_iff (table : Table κ ν) (key : κ) : table.contains key ↔ key ∈ table.keys :=
  lookup_isSome table.entries key

/-! ### The order of the keys -/

theorem keys_adjust (key : κ) (change : Option ν → ν) (entries : List (κ × ν)) :
    (adjust key change entries).map Prod.fst =
      if key ∈ entries.map Prod.fst then entries.map Prod.fst
      else entries.map Prod.fst ++ [key] := by
  induction entries with
  | nil => rfl
  | cons entry rest ih =>
      unfold adjust
      by_cases atEntry : entry.1 = key
      · rw [if_pos atEntry, List.map_cons, List.map_cons, atEntry, if_pos List.mem_cons_self]
      · rw [if_neg atEntry, List.map_cons, List.map_cons, ih]
        by_cases present : key ∈ rest.map Prod.fst
        · rw [if_pos present, if_pos (List.mem_cons_of_mem entry.1 present)]
        · have absent : key ∉ entry.1 :: rest.map Prod.fst := fun member =>
            (List.mem_cons.mp member).elim (Ne.symm atEntry) present
          rw [if_neg present, if_neg absent, List.cons_append]

/-- A present key keeps its place, a new one comes last. -/
theorem keys_alter (table : Table κ ν) (key : κ) (change : Option ν → ν) :
    (table.alter key change).keys =
      if key ∈ table.keys then table.keys else table.keys ++ [key] :=
  keys_adjust key change table.entries

end Table

end CobolAnalysis
