/-
A context is the table of everything recorded in it.

However definitions, usages and merges of contexts follow one another, the symbols are those that
were recorded, each once, under its kind and its name in capitals, in the order of their first
mention. Under each symbol stand the places at which it was defined, and those at which it was
used. What can be asked of a context follows from that.
-/

import CobolAnalysis.Proofs.Merging
import CobolAnalysis.Proofs.Text.LetterCase

namespace CobolAnalysis

/-! ### The first of each -/

theorem eraseDups_filter {α : Type} [DecidableEq α] (test : α → Bool) (items : List α) :
    (items.filter test).eraseDups = items.eraseDups.filter test := by
  induction count : items.length using Nat.strongRecOn generalizing items with
  | ind count ih =>
    cases items with
    | nil => rfl
    | cons item rest =>
        have others := ih (rest.filter fun other => !other == item).length (by
          rw [← count, List.length_cons]
          exact Nat.lt_succ_of_le (List.length_filter_le _ _)) _ rfl
        rw [List.filter_filter] at others
        rw [List.eraseDups_cons, List.filter_cons, List.filter_cons, ← others]
        by_cases passes : test item = true
        · rw [if_pos passes, if_pos passes, List.eraseDups_cons, List.filter_filter]
          refine congrArg (fun kept => item :: List.eraseDups kept) (List.filter_congr ?_)
          intro other _
          exact Bool.and_comm _ _
        · rw [if_neg passes, if_neg passes]
          refine congrArg List.eraseDups (List.filter_congr ?_)
          intro other _
          by_cases same : other = item
          · simpa [same] using passes
          · simp [same]

theorem eraseDups_append_filter {α : Type} [DecidableEq α] (items others : List α) :
    (items ++ others).eraseDups =
      items.eraseDups ++ others.eraseDups.filter fun item => item ∉ items.eraseDups := by
  have removed : others.removeAll items = others.filter fun item => item ∉ items.eraseDups := by
    unfold List.removeAll
    apply List.filter_congr
    intro item _
    rw [List.elem_eq_mem, ← decide_not, decide_eq_decide, List.mem_eraseDups]
  rw [List.eraseDups_append, removed, eraseDups_filter]

/-! ### Records -/

/-- That a symbol, written in whatever letter case, is defined or else used at a place. -/
structure Record where
  isDefinition : Bool
  kind : SymbolKind
  written : List Char
  location : Location

namespace Record

def key (record : Record) : SymbolKey := .ofWritten record.kind record.written

/-- It is about a symbol of that kind and of that name, but for the case of letters. -/
def Concerns (record : Record) (kind : SymbolKind) (written : List Char) : Prop :=
  record.kind = kind ∧ Text.sameLetters record.written written = true

theorem concerns_iff (record : Record) (kind : SymbolKind) (written : List Char) :
    record.Concerns kind written ↔ record.key = .ofWritten kind written := by
  unfold Concerns key SymbolKey.ofWritten Text.sameLetters
  rw [SymbolKey.mk.injEq, beq_iff_eq]

/-- The record bears the fact out. -/
def Says (record : Record) : Fact → Prop
  | .mentioned key => record.key = key
  | .definedAt key location =>
      record.key = key ∧ record.isDefinition = true ∧ record.location = location
  | .usedAt key location =>
      record.key = key ∧ record.isDefinition = false ∧ record.location = location

theorem says_definition_iff (kind : SymbolKind) (written : List Char) (location : Location)
    (fact : Fact) :
    (Record.mk true kind written location).Says fact ↔
      (Occurrences.none.define location).Bears (.ofWritten kind written) fact := by
  rw [Occurrences.bears_define_iff]
  cases fact <;> simp [Says, Record.key, eq_comm]

theorem says_usage_iff (kind : SymbolKind) (written : List Char) (location : Location)
    (fact : Fact) :
    (Record.mk false kind written location).Says fact ↔
      (Occurrences.none.use location).Bears (.ofWritten kind written) fact := by
  rw [Occurrences.bears_use_iff]
  cases fact <;> simp [Says, Record.key, eq_comm]

end Record

/-! ### Recordings -/

/-- A context in the making: what is done to it, one after the other, from the empty context on. -/
inductive Recording where
  | nothing
  | define (earlier : Recording) (kind : SymbolKind) (written : List Char) (location : Location)
  | use (earlier : Recording) (kind : SymbolKind) (written : List Char) (location : Location)
  /-- Another context, made in the same way, is merged into this one. -/
  | merge (earlier other : Recording)

namespace Recording

def context : Recording → Context
  | nothing => .empty
  | define earlier kind written location => earlier.context.define kind written location
  | use earlier kind written location => earlier.context.use kind written location
  | merge earlier other => earlier.context.merge other.context

def records : Recording → List Record
  | nothing => []
  | define earlier kind written location => earlier.records ++ [⟨true, kind, written, location⟩]
  | use earlier kind written location => earlier.records ++ [⟨false, kind, written, location⟩]
  | merge earlier other => earlier.records ++ other.records

theorem knows_context (recording : Recording) (fact : Fact) :
    recording.context.Knows fact ↔ ∃ record ∈ recording.records, record.Says fact := by
  induction recording with
  | nothing =>
      refine iff_of_false (Context.not_knows_ofDiagnostics [] fact) ?_
      simp [records]
  | define earlier kind written location ih =>
      change (earlier.context.define kind written location).Knows fact ↔ _
      rw [Context.knows_define_bears, ih, ← Record.says_definition_iff]
      simp only [records, List.mem_append, List.mem_singleton, or_and_right, exists_or,
        exists_eq_left]
  | use earlier kind written location ih =>
      change (earlier.context.use kind written location).Knows fact ↔ _
      rw [Context.knows_use_bears, ih, ← Record.says_usage_iff]
      simp only [records, List.mem_append, List.mem_singleton, or_and_right, exists_or,
        exists_eq_left]
  | merge earlier other ih otherIh =>
      change (earlier.context.merge other.context).Knows fact ↔ _
      rw [Context.knows_merge, ih, otherIh]
      simp only [records, List.mem_append, or_and_right, exists_or]

theorem keys_record_of_first {context : Context} {mentions : List SymbolKey}
    (keys : context.symbols.keys = mentions.eraseDups) (key : SymbolKey)
    (change : Occurrences → Occurrences) :
    (context.record key change).symbols.keys = (mentions ++ [key]).eraseDups := by
  have alone : [key].eraseDups = [key] := rfl
  rw [Context.keys_record, keys, eraseDups_append_filter, alone, List.filter_singleton]
  by_cases present : key ∈ mentions.eraseDups
  · simp only [present, if_true, not_true_eq_false, decide_false, cond_false, List.append_nil]
  · simp only [present, if_false, not_false_eq_true, decide_true, cond_true]

/-- Symbols come in the order in which they are first mentioned. -/
theorem keys_context (recording : Recording) :
    recording.context.symbols.keys = (recording.records.map Record.key).eraseDups := by
  induction recording with
  | nothing => rfl
  | define earlier kind written location ih =>
      rw [records, List.map_append]
      exact keys_record_of_first ih _ _
  | use earlier kind written location ih =>
      rw [records, List.map_append]
      exact keys_record_of_first ih _ _
  | merge earlier other ih otherIh =>
      rw [records, List.map_append, eraseDups_append_filter, ← ih, ← otherIh]
      exact Context.keys_merge _ _

theorem symbol?_eq_none_iff (recording : Recording) (kind : SymbolKind) (written : List Char) :
    recording.context.symbol? kind written = none ↔
      ∀ record ∈ recording.records, ¬record.Concerns kind written := by
  have mentioned := recording.knows_context (.mentioned (.ofWritten kind written))
  rw [Context.knows_mentioned, ← Option.isSome_iff_exists] at mentioned
  unfold Context.symbol?
  rw [← Option.not_isSome_iff_eq_none, mentioned]
  simp only [Record.concerns_iff, Record.Says, not_exists, not_and]

theorem defines_iff (recording : Recording) (kind : SymbolKind) (name : List Char) :
    recording.context.Defines ⟨kind, name⟩ ↔ ∃ record ∈ recording.records,
      record.isDefinition = true ∧ record.kind = kind ∧ Text.upper record.written = name := by
  have same : ∀ record : Record, record.key = ⟨kind, name⟩ ↔
      record.kind = kind ∧ Text.upper record.written = name := by
    intro record
    unfold Record.key SymbolKey.ofWritten
    rw [SymbolKey.mk.injEq]
  unfold Context.Defines
  simp only [recording.knows_context, Record.Says, same]
  constructor
  · rintro ⟨location, record, member, named, defines, _⟩
    exact ⟨record, member, defines, named⟩
  · rintro ⟨record, member, defines, named⟩
    exact ⟨record.location, record, member, named, defines, rfl⟩

end Recording

/-! ### Tables of records -/

namespace Context

/-- What is asked of the context is answered from the records. -/
structure Tabulates (context : Context) (records : List Record) : Prop where
  distinct : context.symbols.keys.Nodup
  capitals : ∀ key ∈ context.symbols.keys, ∀ character ∈ key.name, character.isLower = false
  /-- Of the symbols that are mentioned, the first mention of each. -/
  ordered : context.symbols.keys = (records.map Record.key).eraseDups
  missing : ∀ kind written, context.symbol? kind written = none ↔
    ∀ record ∈ records, ¬record.Concerns kind written
  definitions : ∀ kind written found, context.symbol? kind written = some found →
    ∀ location, location ∈ found.definitions ↔ ∃ record ∈ records,
      record.Concerns kind written ∧ record.isDefinition = true ∧ record.location = location
  usages : ∀ kind written found, context.symbol? kind written = some found →
    ∀ location, location ∈ found.usages ↔ ∃ record ∈ records,
      record.Concerns kind written ∧ record.isDefinition = false ∧ record.location = location
  /-- Every kind of symbol with the name is found, in the same order. -/
  named : ∀ written, (context.lookup written).map Prod.fst =
    (records.map Record.key).eraseDups.filter fun key => key.name == Text.upper written
  whole : ∀ written, ∀ entry ∈ context.lookup written,
    context.symbol? entry.1.kind written = some entry.2
  sorted : ∀ kind, (context.definedNames kind).Pairwise (· < ·)
  defined : ∀ kind name, name ∈ context.definedNames kind ↔ ∃ record ∈ records,
    record.isDefinition = true ∧ record.kind = kind ∧ Text.upper record.written = name

theorem map_fst_lookup (context : Context) (written : List Char) :
    (context.lookup written).map Prod.fst =
      context.symbols.keys.filter fun key => key.name == Text.upper written := by
  unfold lookup Table.keys
  rw [List.filter_map]
  rfl

theorem symbol?_of_mem_lookup {context : Context} {written : List Char}
    {entry : SymbolKey × Occurrences} (member : entry ∈ context.lookup written) :
    context.symbol? entry.1.kind written = some entry.2 := by
  obtain ⟨listed, named⟩ := (context.mem_lookup_iff written entry).mp member
  have same : SymbolKey.ofWritten entry.1.kind written = entry.1 := by
    unfold SymbolKey.ofWritten
    rw [← named]
  unfold symbol?
  rw [same]
  exact (Table.get?_eq_some_iff _ _ _).mpr listed

end Context

/-- However definitions, usages and merges follow one another, the context is the table of
everything recorded. -/
theorem Recording.tabulated (recording : Recording) :
    recording.context.Tabulates recording.records where
  distinct := recording.context.symbols.distinct
  capitals := by
    intro key member character there
    rw [recording.keys_context, List.mem_eraseDups, List.mem_map] at member
    obtain ⟨record, _, rfl⟩ := member
    obtain ⟨original, _, rfl⟩ := List.mem_map.mp there
    exact Text.isLower_toUpper original
  ordered := recording.keys_context
  missing := recording.symbol?_eq_none_iff
  definitions := by
    intro kind written found held location
    rw [← Context.knows_definedAt held, recording.knows_context]
    simp only [Record.Says, Record.concerns_iff]
  usages := by
    intro kind written found held location
    rw [← Context.knows_usedAt held, recording.knows_context]
    simp only [Record.Says, Record.concerns_iff]
  named := by
    intro written
    rw [Context.map_fst_lookup, recording.keys_context]
  whole := fun _ _ => Context.symbol?_of_mem_lookup
  sorted := recording.context.definedNames_increasing
  defined := by
    intro kind name
    rw [Context.mem_definedNames, recording.defines_iff]

end CobolAnalysis
