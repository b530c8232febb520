/-
What a context says about symbols, one fact at a time.

A fact is that a symbol is mentioned, that it is defined at a place, or that it is used
at a place. Merging and recording add facts and lose none, and two contexts with the same
facts have the same occurrences under every key.
-/

import CobolAnalysis.Context
import CobolAnalysis.Proofs.Tables

namespace CobolAnalysis

inductive Fact where
  | mentioned (key : SymbolKey)
  | definedAt (key : SymbolKey) (location : Location)
  | usedAt (key : SymbolKey) (location : Location)

namespace Occurrences

/-- The occurrences, held for `key`, bear the fact out. -/
def Bears (key : SymbolKey) (found : Occurrences) : Fact → Prop
  | .mentioned other => other = key
  | .definedAt other location => other = key ∧ location ∈ found.definitions
  | .usedAt other location => other = key ∧ location ∈ found.usages

theorem bears_union (key : SymbolKey) (left right : Occurrences) (fact : Fact) :
    (left.union right).Bears key fact ↔ left.Bears key fact ∨ right.Bears key fact := by
  cases fact with
  | mentioned other => exact (or_self_iff).symm
  | definedAt other location =>
      change _ ∧ location ∈ left.definitions.union right.definitions ↔ _
      rw [OrderedSet.mem_union, and_or_left]
      rfl
  | usedAt other location =>
      change _ ∧ location ∈ left.usages.union right.usages ↔ _
      rw [OrderedSet.mem_union, and_or_left]
      rfl

theorem bears_of_none {key : SymbolKey} {fact : Fact} (bears : Occurrences.none.Bears key fact)
    (found : Occurrences) : found.Bears key fact := by
  cases fact with
  | mentioned other => exact bears
  | definedAt other location => exact absurd bears.2 List.not_mem_nil
  | usedAt other location => exact absurd bears.2 List.not_mem_nil

theorem bears_define_iff (key : SymbolKey) (location : Location) (fact : Fact) :
    (Occurrences.none.define location).Bears key fact ↔
      fact = .mentioned key ∨ fact = .definedAt key location := by
  cases fact with
  | mentioned other => simp [Bears]
  | definedAt other place =>
      change _ ∧ place ∈ OrderedSet.empty.insert location ↔ _
      rw [OrderedSet.mem_insert_empty]
      simp
  | usedAt other place =>
      refine iff_of_false (fun told => List.not_mem_nil told.2) ?_
      simp

theorem bears_use_iff (key : SymbolKey) (location : Location) (fact : Fact) :
    (Occurrences.none.use location).Bears key fact ↔
      fact = .mentioned key ∨ fact = .usedAt key location := by
  cases fact with
  | mentioned other => simp [Bears]
  | definedAt other place =>
      refine iff_of_false (fun told => List.not_mem_nil told.2) ?_
      simp
  | usedAt other place =>
      change _ ∧ place ∈ OrderedSet.empty.insert location ↔ _
      rw [OrderedSet.mem_insert_empty]
      simp

end Occurrences

namespace Context

def Knows (context : Context) (fact : Fact) : Prop :=
  ∃ key found, context.symbols.get? key = some found ∧ found.Bears key fact

theorem not_knows_ofDiagnostics (diagnostics : List Diagnostic) (fact : Fact) :
    ¬(ofDiagnostics diagnostics).Knows fact := by
  rintro ⟨key, found, held, _⟩
  cases held

/-! ### Facts determine the symbols -/

theorem knows_mentioned (context : Context) (key : SymbolKey) :
    context.Knows (.mentioned key) ↔ ∃ found, context.symbols.get? key = some found := by
  constructor
  · rintro ⟨_, found, held, rfl⟩
    exact ⟨found, held⟩
  · rintro ⟨found, held⟩
    exact ⟨key, found, held, rfl⟩

theorem knows_definedAt {context : Context} {key : SymbolKey} {found : Occurrences}
    (held : context.symbols.get? key = some found) (location : Location) :
    context.Knows (.definedAt key location) ↔ location ∈ found.definitions := by
  constructor
  · rintro ⟨_, other, there, rfl, member⟩
    rw [held] at there
    cases there
    exact member
  · intro member
    exact ⟨key, found, held, rfl, member⟩

theorem knows_usedAt {context : Context} {key : SymbolKey} {found : Occurrences}
    (held : context.symbols.get? key = some found) (location : Location) :
    context.Knows (.usedAt key location) ↔ location ∈ found.usages := by
  constructor
  · rintro ⟨_, other, there, rfl, member⟩
    rw [held] at there
    cases there
    exact member
  · intro member
    exact ⟨key, found, held, rfl, member⟩

theorem get?_eq_of_same_facts {left right : Context}
    (same : ∀ fact, left.Knows fact ↔ right.Knows fact) (key : SymbolKey) :
    left.symbols.get? key = right.symbols.get? key := by
  have mentioned := same (.mentioned key)
  rw [knows_mentioned, knows_mentioned] at mentioned
  cases inLeft : left.symbols.get? key with
  | none =>
      cases inRight : right.symbols.get? key with
      | none => rfl
      | some other =>
          obtain ⟨found, held⟩ := mentioned.mpr ⟨other, inRight⟩
          rw [inLeft] at held
          cases held
  | some found =>
      obtain ⟨other, inRight⟩ := mentioned.mp ⟨found, inLeft⟩
      have definitions : found.definitions = other.definitions := by
        apply OrderedSet.eq_of_mem_iff
        intro location
        rw [← knows_definedAt inLeft, ← knows_definedAt inRight]
        exact same _
      have usages : found.usages = other.usages := by
        apply OrderedSet.eq_of_mem_iff
        intro location
        rw [← knows_usedAt inLeft, ← knows_usedAt inRight]
        exact same _
      have equal : found = other := by
        cases found
        cases other
        cases definitions
        cases usages
        rfl
      rw [inRight, equal]

/-! ### Facts after a change -/

theorem knows_record_union (context : Context) (key : SymbolKey) (added : Occurrences)
    (fact : Fact) :
    (context.record key fun found => found.union added).Knows fact ↔
      context.Knows fact ∨ added.Bears key fact := by
  have held := context.symbols.get?_alter key
  constructor
  · rintro ⟨other, found, there, bears⟩
    rw [record, held] at there
    by_cases same : other = key
    · rw [if_pos same] at there
      cases there
      rcases (Occurrences.bears_union other _ added fact).mp bears with before | new
      · cases already : context.symbols.get? key with
        | none =>
            rw [already] at before
            exact Or.inr (same ▸ Occurrences.bears_of_none before added)
        | some earlier =>
            rw [already] at before
            exact Or.inl ⟨key, earlier, already, same ▸ before⟩
      · exact Or.inr (same ▸ new)
    · rw [if_neg same] at there
      exact Or.inl ⟨other, found, there, bears⟩
  · have atKey : (context.record key fun found => found.union added).symbols.get? key =
        some (((context.symbols.get? key).getD .none).union added) := by
      rw [record, held, if_pos rfl]
    rintro (⟨other, found, there, bears⟩ | bears)
    · by_cases same : other = key
      · subst same
        rw [there] at atKey
        exact ⟨other, _, atKey, (Occurrences.bears_union other found added fact).mpr (.inl bears)⟩
      · refine ⟨other, found, ?_, bears⟩
        rw [record, held, if_neg same, there]
    · exact ⟨key, _, atKey, (Occurrences.bears_union key _ added fact).mpr (.inr bears)⟩

theorem knows_absorb (context : Context) (entries : List (SymbolKey × Occurrences)) (fact : Fact) :
    (context.absorb entries).Knows fact ↔
      context.Knows fact ∨ ∃ entry ∈ entries, entry.2.Bears entry.1 fact := by
  induction entries generalizing context with
  | nil =>
      constructor
      · intro known
        exact Or.inl known
      · rintro (known | ⟨_, member, _⟩)
        · exact known
        · exact absurd member List.not_mem_nil
  | cons entry rest ih =>
      have step : context.absorb (entry :: rest) =
          (context.record entry.1 fun found => found.union entry.2).absorb rest := rfl
      rw [step, ih, knows_record_union, or_assoc]
      apply or_congr_right
      simp only [List.mem_cons, exists_eq_or_imp]

theorem knows_iff_entries (context : Context) (fact : Fact) :
    context.Knows fact ↔ ∃ entry ∈ context.symbols.entries, entry.2.Bears entry.1 fact := by
  have holds := Table.lookup_eq_some_iff context.symbols.distinct
  constructor
  · rintro ⟨key, found, held, bears⟩
    exact ⟨(key, found), (holds key found).mp held, bears⟩
  · rintro ⟨⟨key, found⟩, member, bears⟩
    exact ⟨key, found, (holds key found).mpr member, bears⟩

theorem knows_merge (left right : Context) (fact : Fact) :
    (left.merge right).Knows fact ↔ left.Knows fact ∨ right.Knows fact := by
  rw [knows_iff_entries right]
  exact knows_absorb left right.symbols.entries fact

theorem knows_foldl_merge (contexts : List Context) (base : Context) (fact : Fact) :
    (contexts.foldl merge base).Knows fact ↔
      base.Knows fact ∨ ∃ context ∈ contexts, context.Knows fact := by
  induction contexts generalizing base with
  | nil =>
      constructor
      · intro known
        exact Or.inl known
      · rintro (known | ⟨_, member, _⟩)
        · exact known
        · exact absurd member List.not_mem_nil
  | cons context rest ih =>
      rw [List.foldl_cons, ih, knows_merge, or_assoc]
      apply or_congr_right
      simp only [List.mem_cons, exists_eq_or_imp]

theorem knows_define_bears (context : Context) (kind : SymbolKind) (written : List Char)
    (location : Location) (fact : Fact) :
    (context.define kind written location).Knows fact ↔ context.Knows fact ∨
      (Occurrences.none.define location).Bears (.ofWritten kind written) fact :=
  knows_record_union context (.ofWritten kind written) (Occurrences.none.define location) fact

theorem knows_define (context : Context) (kind : SymbolKind) (written : List Char)
    (location : Location) (fact : Fact) :
    (context.define kind written location).Knows fact ↔
      context.Knows fact ∨ (empty.define kind written location).Knows fact := by
  have nothing : ¬empty.Knows fact := not_knows_ofDiagnostics [] fact
  rw [knows_define_bears, knows_define_bears empty, or_iff_right nothing]

theorem knows_use_bears (context : Context) (kind : SymbolKind) (written : List Char)
    (location : Location) (fact : Fact) :
    (context.use kind written location).Knows fact ↔ context.Knows fact ∨
      (Occurrences.none.use location).Bears (.ofWritten kind written) fact :=
  knows_record_union context (.ofWritten kind written) (Occurrences.none.use location) fact

/-! ### Symbols with a definition -/

def Defines (context : Context) (key : SymbolKey) : Prop :=
  ∃ location, context.Knows (.definedAt key location)

theorem defines_define (context : Context) (kind : SymbolKind) (written : List Char)
    (location : Location) (key : SymbolKey) :
    (context.define kind written location).Defines key ↔
      context.Defines key ∨ key = .ofWritten kind written := by
  unfold Defines
  simp only [knows_define_bears]
  constructor
  · rintro ⟨place, known | ⟨same, _⟩⟩
    · exact Or.inl ⟨place, known⟩
    · exact Or.inr same
  · rintro (⟨place, known⟩ | same)
    · exact ⟨place, Or.inl known⟩
    · exact ⟨location, Or.inr ⟨same, OrderedSet.mem_insert_self _ _⟩⟩

theorem defines_use (context : Context) (kind : SymbolKind) (written : List Char)
    (location : Location) (key : SymbolKey) :
    (context.use kind written location).Defines key ↔ context.Defines key := by
  unfold Defines
  simp only [knows_use_bears]
  constructor
  · rintro ⟨place, known | ⟨_, none⟩⟩
    · exact ⟨place, known⟩
    · exact absurd none List.not_mem_nil
  · rintro ⟨place, known⟩
    exact ⟨place, Or.inl known⟩

theorem defines_foldl_merge (contexts : List Context) (base : Context) (key : SymbolKey) :
    (contexts.foldl merge base).Defines key ↔
      base.Defines key ∨ ∃ context ∈ contexts, context.Defines key := by
  unfold Defines
  simp only [knows_foldl_merge]
  constructor
  · rintro ⟨place, known | ⟨context, member, known⟩⟩
    · exact Or.inl ⟨place, known⟩
    · exact Or.inr ⟨context, member, place, known⟩
  · rintro (⟨place, known⟩ | ⟨context, member, place, known⟩)
    · exact ⟨place, Or.inl known⟩
    · exact ⟨place, Or.inr ⟨context, member, known⟩⟩

theorem mem_definedNames (context : Context) (kind : SymbolKind) (name : List Char) :
    name ∈ context.definedNames kind ↔ context.Defines ⟨kind, name⟩ := by
  unfold definedNames Defines
  rw [(Sorting.perm_sort _).mem_iff, List.mem_map]
  simp only [knows_iff_entries, List.mem_filter, Bool.and_eq_true, beq_iff_eq]
  constructor
  · rintro ⟨⟨⟨_, _⟩, found⟩, ⟨member, rfl, present⟩, rfl⟩
    obtain ⟨place, there⟩ : ∃ place, place ∈ found.definitions.toList := by
      apply List.exists_mem_of_ne_nil
      intro none
      unfold OrderedSet.isEmpty at present
      rw [none] at present
      cases present
    exact ⟨place, _, member, rfl, there⟩
  · rintro ⟨place, ⟨_, found⟩, member, rfl, there⟩
    refine ⟨_, ⟨member, rfl, ?_⟩, rfl⟩
    unfold OrderedSet.isEmpty
    rw [Bool.not_eq_true', List.isEmpty_eq_false_iff]
    exact List.ne_nil_of_mem there

/-- Symbols of one kind differ in their names, so no name comes twice. -/
theorem definedNames_increasing (context : Context) (kind : SymbolKind) :
    (context.definedNames kind).Pairwise (· < ·) := by
  unfold definedNames
  apply Sorting.sort_increasing
  have distinct := List.pairwise_map.mp context.symbols.distinct
  refine List.pairwise_map.mpr ((distinct.filter _).imp_of_mem ?_)
  intro first second here there apart sameName
  have sameKind : first.1.kind = second.1.kind := by
    have firstKind := (List.mem_filter.mp here).2
    have secondKind := (List.mem_filter.mp there).2
    simp only [Bool.and_eq_true, beq_iff_eq] at firstKind secondKind
    rw [firstKind.1, secondKind.1]
  exact apart (congrArg₂ SymbolKey.mk sameKind sameName)

theorem definedNames_eq {left right : Context} {kind : SymbolKind}
    (same : ∀ name, left.Defines ⟨kind, name⟩ ↔ right.Defines ⟨kind, name⟩) :
    left.definedNames kind = right.definedNames kind := by
  have members : ∀ name, name ∈ left.definedNames kind ↔ name ∈ right.definedNames kind := by
    intro name
    rw [mem_definedNames, mem_definedNames]
    exact same name
  exact OrderedSet.eq_of_same_members _ _ (left.definedNames_increasing kind)
    (right.definedNames_increasing kind) members

/-! ### Symbols by name -/

theorem mem_lookup_iff (context : Context) (written : List Char)
    (entry : SymbolKey × Occurrences) :
    entry ∈ context.lookup written ↔
      entry ∈ context.symbols.entries ∧ entry.1.name = Text.upper written := by
  unfold lookup
  rw [List.mem_filter, beq_iff_eq]

end Context

end CobolAnalysis
