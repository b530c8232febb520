/-
Merging contexts.

A merged context bears out the facts of both contexts. Its symbols come in the order in which
they are first mentioned, in the first context and then in the second, and its problems are
those of the one and then those of the other. So it makes no difference how a row of contexts is
grouped, the empty context changes nothing, and a context that has the symbols of another one
already gains none from it.
-/

import CobolAnalysis.Proofs.SymbolFacts

namespace CobolAnalysis

theorem Occurrences.none_union (found : Occurrences) : Occurrences.none.union found = found := by
  have unchanged : ∀ set : OrderedSet Location, OrderedSet.empty.union set = set := by
    intro set
    apply OrderedSet.eq_of_mem_iff
    intro location
    rw [OrderedSet.mem_union]
    exact or_iff_right List.not_mem_nil
  exact congrArg₂ Occurrences.mk (unchanged found.definitions) (unchanged found.usages)

namespace Context

/-! ### What is found under a key -/

theorem get?_absorb (context : Context) {entries : List (SymbolKey × Occurrences)}
    (distinct : (entries.map Prod.fst).Nodup) (key : SymbolKey) :
    (context.absorb entries).symbols.get? key =
      Option.merge Occurrences.union (context.symbols.get? key) (Table.lookup entries key) := by
  induction entries generalizing context with
  | nil => exact Option.merge_none_right.symm
  | cons entry rest ih =>
      obtain ⟨apart, others⟩ := List.nodup_cons.mp distinct
      let change := fun found : Occurrences => found.union entry.2
      have after : (context.record entry.1 change).symbols.get? key =
          if key = entry.1 then some (change ((context.symbols.get? entry.1).getD .none))
          else context.symbols.get? key :=
        context.symbols.get?_alter entry.1 key _
      change ((context.record entry.1 change).absorb rest).symbols.get? key = _
      rw [ih (context.record entry.1 change) others, after, Table.lookup_cons]
      by_cases here : key = entry.1
      · have absent : Table.lookup rest key = none := by
          rw [← Option.not_isSome_iff_eq_none, Table.lookup_isSome, here]
          exact apart
        rw [if_pos here, if_pos here.symm, absent, here]
        cases context.symbols.get? entry.1 with
        | none => exact congrArg some (Occurrences.none_union entry.2)
        | some found => rfl
      · rw [if_neg here, if_neg (Ne.symm here)]

theorem get?_merge (left right : Context) (key : SymbolKey) :
    (left.merge right).symbols.get? key =
      Option.merge Occurrences.union (left.symbols.get? key) (right.symbols.get? key) :=
  left.get?_absorb right.symbols.distinct key

theorem defines_merge (left right : Context) (key : SymbolKey) :
    (left.merge right).Defines key ↔ left.Defines key ∨ right.Defines key := by
  unfold Defines
  simp only [knows_merge, exists_or]

/-! ### The order of the symbols -/

theorem mem_keys_iff (context : Context) (key : SymbolKey) :
    key ∈ context.symbols.keys ↔ context.Knows (.mentioned key) := by
  rw [knows_mentioned, ← Table.contains_iff]
  exact Option.isSome_iff_exists

theorem keys_record (context : Context) (key : SymbolKey) (change : Occurrences → Occurrences) :
    (context.record key change).symbols.keys =
      if key ∈ context.symbols.keys then context.symbols.keys
      else context.symbols.keys ++ [key] :=
  context.symbols.keys_alter key _

theorem keys_absorb (context : Context) {entries : List (SymbolKey × Occurrences)}
    (distinct : (entries.map Prod.fst).Nodup) :
    (context.absorb entries).symbols.keys = context.symbols.keys ++
      (entries.map Prod.fst).filter fun key => key ∉ context.symbols.keys := by
  induction entries generalizing context with
  | nil => exact (List.append_nil _).symm
  | cons entry rest ih =>
      obtain ⟨apart, others⟩ := List.nodup_cons.mp distinct
      let change := fun found : Occurrences => found.union entry.2
      change ((context.record entry.1 change).absorb rest).symbols.keys = _
      rw [ih (context.record entry.1 change) others, keys_record, List.map_cons, List.filter_cons]
      by_cases present : entry.1 ∈ context.symbols.keys
      · simp only [present, if_true, not_true_eq_false, decide_false, Bool.false_eq_true, if_false]
      · -- The key that was just added does not come again among the others.
        have unchanged : (rest.map Prod.fst).filter
              (fun key => key ∉ context.symbols.keys ++ [entry.1]) =
            (rest.map Prod.fst).filter fun key => key ∉ context.symbols.keys := by
          apply List.filter_congr
          intro key member
          have other : key ≠ entry.1 := fun same => apart (same ▸ member)
          simp only [List.mem_append, List.mem_singleton, other, or_false]
        simp only [present, if_false, not_false_eq_true, decide_true, if_true]
        rw [unchanged, List.append_assoc, List.singleton_append]

theorem keys_merge (left right : Context) :
    (left.merge right).symbols.keys = left.symbols.keys ++
      right.symbols.keys.filter fun key => key ∉ left.symbols.keys :=
  left.keys_absorb right.symbols.distinct

/-- The problems make no difference to the symbols. -/
theorem symbols_merge_congr {left other right another : Context}
    (lefts : left.symbols = other.symbols) (rights : right.symbols = another.symbols) :
    (left.merge right).symbols = (other.merge another).symbols := by
  apply Table.eq_of_get?
  · rw [keys_merge, keys_merge, lefts, rights]
  · intro key
    rw [get?_merge, get?_merge, lefts, rights]

/-- A context is determined by its facts, the order of its symbols and its problems. -/
theorem eq_of_same_facts {left right : Context}
    (facts : ∀ fact, left.Knows fact ↔ right.Knows fact)
    (keys : left.symbols.keys = right.symbols.keys)
    (diagnostics : left.diagnostics = right.diagnostics) : left = right := by
  have symbols := Table.eq_of_get? keys (get?_eq_of_same_facts facts)
  obtain ⟨_, _⟩ := left
  cases symbols
  cases diagnostics
  rfl

/-! ### Laws of merging -/

theorem merge_assoc (first second third : Context) :
    (first.merge second).merge third = first.merge (second.merge third) := by
  apply eq_of_same_facts
  · intro fact
    simp only [knows_merge, or_assoc]
  · simp only [keys_merge, List.filter_append, List.append_assoc, List.filter_filter]
    refine congrArg (first.symbols.keys ++ ·) (congrArg (_ ++ ·) (List.filter_congr ?_))
    intro key _
    rw [← Bool.decide_and, decide_eq_decide, List.mem_append, List.mem_filter]
    by_cases inFirst : key ∈ first.symbols.keys
    · simp only [inFirst, true_or, not_true_eq_false, false_and]
    · simp only [inFirst, false_or, not_false_eq_true, true_and, decide_true, and_true]
  · exact List.append_assoc _ _ _

theorem empty_merge (context : Context) : empty.merge context = context := by
  have nothing : ∀ fact, ¬empty.Knows fact := not_knows_ofDiagnostics []
  apply eq_of_same_facts
  · intro fact
    rw [knows_merge, or_iff_right (nothing fact)]
  · rw [keys_merge]
    exact List.filter_eq_self.mpr fun _ _ => rfl
  · rfl

theorem merge_empty (context : Context) : context.merge empty = context :=
  congrArg (Context.mk context.symbols) (List.append_nil context.diagnostics)

theorem merge_record_union (left right : Context) (key : SymbolKey) (added : Occurrences) :
    (left.merge right).record key (fun found => found.union added) =
      left.merge (right.record key fun found => found.union added) := by
  apply eq_of_same_facts
  · intro fact
    rw [knows_record_union, knows_merge, knows_merge, knows_record_union, or_assoc]
  · rw [keys_record, keys_merge, keys_merge, keys_record]
    by_cases inRight : key ∈ right.symbols.keys
    · by_cases inLeft : key ∈ left.symbols.keys <;> simp [inLeft, inRight]
    · by_cases inLeft : key ∈ left.symbols.keys <;> simp [inLeft, inRight]
  · rfl

instance : Std.Associative merge := ⟨merge_assoc⟩

theorem merge_comm_symbols (left right : Context) (key : SymbolKey) :
    (left.merge right).symbols.get? key = (right.merge left).symbols.get? key := by
  apply get?_eq_of_same_facts
  intro fact
  rw [knows_merge, knows_merge, or_comm]

/-- Whatever `part` says about symbols, `whole` says too. -/
def Contains (whole part : Context) : Prop := ∀ fact, part.Knows fact → whole.Knows fact

theorem Contains.refl (context : Context) : context.Contains context := fun _ known => known

theorem contains_merge (left right : Context) : (left.merge right).Contains right :=
  fun fact known => (knows_merge left right fact).mpr (Or.inr known)

theorem Contains.symbols_merge {whole part : Context} (contains : whole.Contains part) :
    (whole.merge part).symbols = whole.symbols := by
  have same : ∀ fact, (whole.merge part).Knows fact ↔ whole.Knows fact := by
    intro fact
    rw [knows_merge]
    exact or_iff_left_of_imp (contains fact)
  have noneNew : part.symbols.keys.filter (fun key => key ∉ whole.symbols.keys) = [] := by
    apply List.filter_eq_nil_iff.mpr
    intro key member
    have present := (whole.mem_keys_iff key).mpr
      (contains _ ((part.mem_keys_iff key).mp member))
    simpa using present
  refine Table.eq_of_get? ?_ (get?_eq_of_same_facts same)
  rw [keys_merge, noneNew, List.append_nil]

theorem foldl_merge (base : Context) (contexts : List Context) :
    contexts.foldl merge base = base.merge (mergeAll contexts) := by
  have split : contexts.foldl merge (base.merge empty) = base.merge (contexts.foldl merge empty) :=
    List.foldl_assoc
  rwa [merge_empty] at split

theorem mergeAll_append (contexts others : List Context) :
    mergeAll (contexts ++ others) = (mergeAll contexts).merge (mergeAll others) := by
  unfold mergeAll
  rw [List.foldl_append]
  exact foldl_merge _ others

theorem mergeAll_flatten (pieces : List (List Context)) :
    mergeAll pieces.flatten = mergeAll (pieces.map mergeAll) := by
  induction pieces with
  | nil => rfl
  | cons piece rest ih =>
      rw [List.flatten_cons, mergeAll_append, ih, List.map_cons]
      have alone := mergeAll_append [mergeAll piece] (rest.map mergeAll)
      have single : mergeAll [mergeAll piece] = mergeAll piece := empty_merge _
      rw [List.singleton_append, single] at alone
      exact alone.symm

/-- Merging is associative, with the empty context as neutral element, in every respect: the order
of the symbols and of the problems too. As for what is found under each key, it is commutative and
idempotent, and a context that contains another one keeps its symbols and their order when that is
merged into it. A row of contexts may be merged piece by piece. A merged context bears out just
the facts of both, so each of its symbols has the definitions and the usages of both. -/
theorem merging_laws (first second third : Context) :
    (first.merge second).merge third = first.merge (second.merge third) ∧
      empty.merge first = first ∧
      first.merge empty = first ∧
      (∀ key, (first.merge second).symbols.get? key = (second.merge first).symbols.get? key) ∧
      (first.merge first).symbols = first.symbols ∧
      (first.Contains second → (first.merge second).symbols = first.symbols) ∧
      (∀ pieces : List (List Context),
        mergeAll pieces.flatten = mergeAll (pieces.map mergeAll)) ∧
      (∀ key, (first.merge second).symbols.get? key =
        Option.merge Occurrences.union (first.symbols.get? key) (second.symbols.get? key)) ∧
      (∀ fact, (first.merge second).Knows fact ↔ first.Knows fact ∨ second.Knows fact) ∧
      (first.merge second).diagnostics = first.diagnostics ++ second.diagnostics :=
  ⟨merge_assoc first second third, empty_merge first, merge_empty first,
    merge_comm_symbols first second, (Contains.refl first).symbols_merge, Contains.symbols_merge,
    mergeAll_flatten, first.get?_merge second, first.knows_merge second, rfl⟩

namespace Sample

def program : Context :=
  ((empty.define .dataItem "Item".toList ⟨"root", .onLine 3 11 4⟩).use .paragraph "MAIN".toList
    ⟨"root", .onLine 9 19 4⟩).report
      (.warning ⟨"root", .onLine 5 7 2⟩ Diagnostic.Code.invalidLevel "Invalid level number 50")

def copied : Context :=
  (empty.define .paragraph "Main".toList ⟨"copybook:///B", .onLine 0 7 4⟩).define .dataItem
    "ITEM".toList ⟨"copybook:///B", .onLine 2 11 4⟩

end Sample

/-- Merged a second time, the copybook adds nothing, and the symbols stay in the order of the
program. -/
theorem sample_merging_laws :
    (Sample.program.merge Sample.copied).Contains Sample.copied ∧
      ((Sample.program.merge Sample.copied).merge Sample.copied).symbols =
        (Sample.program.merge Sample.copied).symbols ∧
      ((Sample.program.merge Sample.copied).symbols.get? ⟨.dataItem, "ITEM".toList⟩).map
          (fun found => found.definitions.toList.map Location.uri) =
        some ["copybook:///B", "root"] ∧
      (Sample.program.merge Sample.copied).symbols.keys =
        [⟨.dataItem, "ITEM".toList⟩, ⟨.paragraph, "MAIN".toList⟩] := by
  have contains := contains_merge Sample.program Sample.copied
  obtain ⟨_, _, _, _, _, gains, _⟩ :=
    merging_laws (Sample.program.merge Sample.copied) Sample.copied .empty
  exact ⟨contains, gains contains, by decide +kernel, by decide +kernel⟩

/-! ### Contexts that agree but for some problems -/

/-- The same symbols in the same order, and the same problems but for those that are not kept. -/
structure AgreeOn (keep : Diagnostic → Bool) (left right : Context) : Prop where
  symbols : left.symbols = right.symbols
  diagnostics : left.diagnostics.filter keep = right.diagnostics.filter keep

theorem AgreeOn.merge {keep : Diagnostic → Bool} {left other right another : Context}
    (first : AgreeOn keep left other) (second : AgreeOn keep right another) :
    AgreeOn keep (left.merge right) (other.merge another) where
  symbols := symbols_merge_congr first.symbols second.symbols
  diagnostics := by
    change (left.diagnostics ++ right.diagnostics).filter keep =
      (other.diagnostics ++ another.diagnostics).filter keep
    rw [List.filter_append, List.filter_append, first.diagnostics, second.diagnostics]

theorem AgreeOn.record {keep : Diagnostic → Bool} {left right : Context}
    (agree : AgreeOn keep left right) (key : SymbolKey) (change : Occurrences → Occurrences) :
    AgreeOn keep (left.record key change) (right.record key change) where
  symbols := congrArg (fun symbols => symbols.alter key fun found => change (found.getD .none))
    agree.symbols
  diagnostics := agree.diagnostics

theorem AgreeOn.define {keep : Diagnostic → Bool} {left right : Context}
    (agree : AgreeOn keep left right) (kind : SymbolKind) (written : List Char)
    (location : Location) :
    AgreeOn keep (left.define kind written location) (right.define kind written location) :=
  agree.record (.ofWritten kind written) fun found => found.define location

theorem AgreeOn.use {keep : Diagnostic → Bool} {left right : Context}
    (agree : AgreeOn keep left right) (kind : SymbolKind) (written : List Char)
    (location : Location) :
    AgreeOn keep (left.use kind written location) (right.use kind written location) :=
  agree.record (.ofWritten kind written) fun found => found.use location

theorem AgreeOn.report {keep : Diagnostic → Bool} {left right : Context}
    (agree : AgreeOn keep left right) (diagnostic : Diagnostic) :
    AgreeOn keep (left.report diagnostic) (right.report diagnostic) where
  symbols := agree.symbols
  diagnostics := by
    change (left.diagnostics ++ [diagnostic]).filter keep =
      (right.diagnostics ++ [diagnostic]).filter keep
    rw [List.filter_append, List.filter_append, agree.diagnostics]

theorem AgreeOn.report_right {keep : Diagnostic → Bool} {left right : Context}
    (agree : AgreeOn keep left right) {diagnostic : Diagnostic} (dropped : keep diagnostic = false) :
    AgreeOn keep left (right.report diagnostic) where
  symbols := agree.symbols
  diagnostics := by
    change _ = (right.diagnostics ++ [diagnostic]).filter keep
    rw [List.filter_append, List.filter_cons, dropped, agree.diagnostics]
    exact (List.append_nil _).symm

end Context

end CobolAnalysis
