/-
Questions at one place agree on the symbol that stands there.

The symbol is the earliest mentioned one with an occurrence that covers the place. Where nothing is
recorded it is the one that the word names, the earliest again if there are several. Definitions,
mentions and descriptions are all about it, and about it alone where it is recorded, whatever the
text says.
-/

import CobolAnalysis.Proofs.SymbolFacts
import CobolAnalysis.Query.Definition
import CobolAnalysis.Query.Hover
import CobolAnalysis.Query.Mention

namespace CobolAnalysis

/-! ### The earliest symbol -/

/-- Of the symbols with the property, the one that is mentioned first. -/
def Context.Earliest (context : Context) (property : SymbolKey × Occurrences → Prop)
    (symbol : SymbolKey × Occurrences) : Prop :=
  ∃ before after, context.symbols.entries = before ++ symbol :: after ∧ property symbol ∧
    ∀ other ∈ before, ¬property other

theorem Context.earliest_iff_find? (context : Context) {property : SymbolKey × Occurrences → Prop}
    {test : SymbolKey × Occurrences → Bool} (tests : ∀ symbol, test symbol = true ↔ property symbol)
    (symbol : SymbolKey × Occurrences) :
    context.Earliest property symbol ↔ context.symbols.entries.find? test = some symbol := by
  rw [List.find?_eq_some_iff_append, tests]
  simp only [Bool.not_eq_true', ← Bool.not_eq_true, tests]
  constructor
  · rintro ⟨before, after, split, holds, none⟩
    exact ⟨holds, before, after, split, none⟩
  · rintro ⟨holds, before, after, split, none⟩
    exact ⟨before, after, split, holds, none⟩

theorem Context.Earliest.mem {context : Context} {property : SymbolKey × Occurrences → Prop}
    {symbol : SymbolKey × Occurrences} (earliest : context.Earliest property symbol) :
    symbol ∈ context.symbols.entries ∧ property symbol := by
  obtain ⟨before, after, split, holds, _⟩ := earliest
  rw [split]
  exact ⟨List.mem_append_right _ List.mem_cons_self, holds⟩

theorem Context.exists_earliest (context : Context) {property : SymbolKey × Occurrences → Prop}
    {symbol : SymbolKey × Occurrences} (member : symbol ∈ context.symbols.entries)
    (holds : property symbol) : ∃ first, context.Earliest property first := by
  classical
  have tests : ∀ symbol, decide (property symbol) = true ↔ property symbol :=
    fun _ => decide_eq_true_iff
  simp only [context.earliest_iff_find? tests]
  rw [← Option.isSome_iff_exists, List.find?_isSome]
  exact ⟨symbol, member, (tests symbol).mpr holds⟩

namespace Query

namespace Cursor

variable (cursor : Cursor)

/-- The symbol has an occurrence in the cursor's document that covers its position. -/
def IsOn (symbol : SymbolKey × Occurrences) : Prop :=
  ∃ location, (location ∈ symbol.2.definitions ∨ location ∈ symbol.2.usages) ∧
    location.uri = cursor.uri ∧ location.span.covers cursor.position = true

/-- The word at the cursor is the name of the symbol, in whatever letter case. -/
def Names (symbol : SymbolKey × Occurrences) : Prop :=
  ∃ word, cursor.word? = some word ∧ symbol.1.name = Text.upper word

/-- The symbol that is described: what is recorded decides before what is written. -/
def Means (symbol : SymbolKey × Occurrences) : Prop :=
  cursor.context.Earliest cursor.IsOn symbol ∨
    (∀ other ∈ cursor.context.symbols.entries, ¬cursor.IsOn other) ∧
      cursor.context.Earliest cursor.Names symbol

/-! ### Symbols at the cursor -/

theorem touches_iff (location : Location) :
    cursor.touches location = true ↔
      location.uri = cursor.uri ∧ location.span.covers cursor.position = true := by
  unfold touches Location.covers
  rw [Bool.and_eq_true, beq_iff_eq]

theorem any_touches_iff (symbol : SymbolKey × Occurrences) :
    symbol.2.all.any cursor.touches = true ↔ cursor.IsOn symbol := by
  unfold IsOn
  simp only [List.any_eq_true, touches_iff, Occurrences.all, List.mem_append]
  rfl

theorem earliest_isOn_iff (symbol : SymbolKey × Occurrences) :
    cursor.context.Earliest cursor.IsOn symbol ↔
      cursor.context.symbolAt? cursor.uri cursor.position = some symbol :=
  cursor.context.earliest_iff_find? cursor.any_touches_iff symbol

theorem symbols_of_isOn {symbol : SymbolKey × Occurrences}
    (earliest : cursor.context.Earliest cursor.IsOn symbol) : cursor.symbols = [symbol] := by
  unfold symbols
  rw [(cursor.earliest_isOn_iff symbol).mp earliest]

theorem symbols_of_unrecorded
    (nothing : ∀ symbol ∈ cursor.context.symbols.entries, ¬cursor.IsOn symbol) :
    cursor.symbols = cursor.word?.elim [] cursor.context.lookup := by
  have unfound : cursor.context.symbolAt? cursor.uri cursor.position = none := by
    unfold Context.symbolAt?
    rw [List.find?_eq_none]
    intro symbol member covers
    exact nothing symbol member ((cursor.any_touches_iff symbol).mp covers)
  unfold symbols
  rw [unfound]

theorem recorded_cases :
    (∃ first, cursor.context.Earliest cursor.IsOn first) ∨
      ∀ symbol ∈ cursor.context.symbols.entries, ¬cursor.IsOn symbol := by
  by_cases recorded : ∃ symbol ∈ cursor.context.symbols.entries, cursor.IsOn symbol
  · obtain ⟨symbol, member, isOn⟩ := recorded
    exact Or.inl (cursor.context.exists_earliest member isOn)
  · right
    intro symbol member isOn
    exact recorded ⟨symbol, member, isOn⟩

theorem head?_symbols_iff (symbol : SymbolKey × Occurrences) :
    cursor.symbols.head? = some symbol ↔ cursor.Means symbol := by
  rcases cursor.recorded_cases with ⟨first, earliest⟩ | nothing
  · have alone : (∀ other ∈ cursor.context.symbols.entries, ¬cursor.IsOn other) → False :=
      fun none => none first earliest.mem.1 earliest.mem.2
    unfold Means
    rw [cursor.symbols_of_isOn earliest, or_iff_left fun both => alone both.1,
      cursor.earliest_isOn_iff, (cursor.earliest_isOn_iff first).mp earliest]
    rfl
  · have unrecorded : ¬cursor.context.Earliest cursor.IsOn symbol :=
      fun earliest => nothing symbol earliest.mem.1 earliest.mem.2
    unfold Means
    rw [cursor.symbols_of_unrecorded nothing, or_iff_right unrecorded, and_iff_right nothing]
    cases word : cursor.word? with
    | none =>
        refine iff_of_false nofun ?_
        intro earliest
        obtain ⟨_, named, _⟩ := earliest.mem.2
        rw [word] at named
        cases named
    | some name =>
        have tests : ∀ symbol : SymbolKey × Occurrences,
            (symbol.1.name == Text.upper name) = true ↔ cursor.Names symbol := by
          intro symbol
          unfold Names
          simp [word]
        rw [cursor.context.earliest_iff_find? tests, ← List.head?_filter]
        rfl

theorem Means.mem {cursor : Cursor} {symbol : SymbolKey × Occurrences}
    (means : cursor.Means symbol) : symbol ∈ cursor.context.symbols.entries := by
  rcases means with recorded | ⟨_, named⟩
  · exact recorded.mem.1
  · exact named.mem.1

theorem exists_means_iff :
    (∃ symbol, cursor.Means symbol) ↔
      ∃ symbol ∈ cursor.context.symbols.entries, cursor.IsOn symbol ∨ cursor.Names symbol := by
  constructor
  · rintro ⟨symbol, recorded | ⟨_, named⟩⟩
    · exact ⟨symbol, recorded.mem.1, Or.inl recorded.mem.2⟩
    · exact ⟨symbol, named.mem.1, Or.inr named.mem.2⟩
  · rintro ⟨symbol, member, either⟩
    rcases cursor.recorded_cases with ⟨first, earliest⟩ | nothing
    · exact ⟨first, Or.inl earliest⟩
    · have named := either.resolve_left (nothing symbol member)
      obtain ⟨first, earliest⟩ := cursor.context.exists_earliest member named
      exact ⟨first, Or.inr ⟨nothing, earliest⟩⟩

/-! ### What is shown of a symbol -/

theorem filter_definitions (symbol : SymbolKey × Occurrences) :
    (mentionsOf true symbol).filter Mention.isDefinition =
      symbol.2.definitions.toList.map fun location => ⟨location, true, symbol.1.kind⟩ := by
  simp [mentionsOf, List.filter_map, Function.comp_def]

theorem filter_usages (symbol : SymbolKey × Occurrences) :
    (mentionsOf true symbol).filter (fun mention => !mention.isDefinition) =
      mentionsOf false symbol := by
  simp [mentionsOf, List.filter_map, Function.comp_def]

theorem hover?_eq_some_iff (hover : Hover) :
    cursor.hover? = some hover ↔
      ∃ symbol, cursor.Means symbol ∧ Hover.ofSymbol cursor symbol.1 symbol.2 = hover := by
  unfold hover?
  rw [Option.map_eq_some_iff]
  simp only [head?_symbols_iff]

theorem hover?_isSome_iff : cursor.hover?.isSome ↔ ∃ symbol, cursor.Means symbol := by
  unfold hover?
  rw [Option.isSome_map, Option.isSome_iff_exists]
  simp only [head?_symbols_iff]

theorem span_isSome_iff (symbol : SymbolKey × Occurrences) :
    (Hover.ofSymbol cursor symbol.1 symbol.2).span.isSome ↔ cursor.IsOn symbol := by
  change ((symbol.2.all.find? cursor.touches).map Location.span).isSome ↔ _
  rw [Option.isSome_map, ← any_touches_iff, List.find?_isSome, List.any_eq_true]

theorem isSome_span_iff :
    (cursor.hover?.bind Hover.span).isSome ↔
      ∃ symbol ∈ cursor.context.symbols.entries, cursor.IsOn symbol := by
  constructor
  · intro marked
    obtain ⟨span, there⟩ := Option.isSome_iff_exists.mp marked
    obtain ⟨hover, shown, same⟩ := Option.bind_eq_some_iff.mp there
    obtain ⟨symbol, means, rfl⟩ := (cursor.hover?_eq_some_iff hover).mp shown
    have isOn := (cursor.span_isSome_iff symbol).mp (by rw [same]; rfl)
    exact ⟨symbol, means.mem, isOn⟩
  · rintro ⟨symbol, member, isOn⟩
    obtain ⟨first, earliest⟩ := cursor.context.exists_earliest member isOn
    have shown := (cursor.hover?_eq_some_iff _).mpr ⟨first, Or.inl earliest, rfl⟩
    rw [shown]
    exact (cursor.span_isSome_iff first).mpr earliest.mem.2

theorem exists_location_of_span {symbol : SymbolKey × Occurrences} {span : Span}
    (marked : (Hover.ofSymbol cursor symbol.1 symbol.2).span = some span) :
    ∃ location, (location ∈ symbol.2.definitions ∨ location ∈ symbol.2.usages) ∧
      location.uri = cursor.uri ∧ location.span.covers cursor.position = true ∧
        location.span = span := by
  change (symbol.2.all.find? cursor.touches).map Location.span = some span at marked
  obtain ⟨location, found, same⟩ := Option.map_eq_some_iff.mp marked
  obtain ⟨uri, covers⟩ := (cursor.touches_iff location).mp (List.find?_some found)
  exact ⟨location, List.mem_append.mp (List.mem_of_find?_eq_some found), uri, covers, same⟩

/-- All questions at the cursor are answered with this symbol alone. -/
structure Concerns (symbol : SymbolKey × Occurrences) : Prop where
  definitions : cursor.definitions =
    symbol.2.definitions.toList.map fun location => ⟨location, symbol.1.kind, symbol.1.name⟩
  mentions : (cursor.mentions true).found =
    (symbol.2.definitions.toList.map fun location => ⟨location, true, symbol.1.kind⟩) ++
      symbol.2.usages.toList.map fun location => ⟨location, false, symbol.1.kind⟩
  usages : (cursor.mentions false).found =
    symbol.2.usages.toList.map fun location => ⟨location, false, symbol.1.kind⟩
  hover : ∃ hover, cursor.hover? = some hover ∧ hover.kind = symbol.1.kind ∧
    hover.name = symbol.1.name

theorem concerns_of_symbols {symbol : SymbolKey × Occurrences} (alone : cursor.symbols = [symbol]) :
    cursor.Concerns symbol where
  definitions := by
    unfold Cursor.definitions
    rw [alone, List.flatMap_singleton]
    rfl
  mentions := by
    unfold Cursor.mentions
    rw [alone, List.flatMap_singleton]
    rfl
  usages := by
    unfold Cursor.mentions
    rw [alone, List.flatMap_singleton]
    rfl
  hover := by
    refine ⟨Hover.ofSymbol cursor symbol.1 symbol.2, ?_, rfl, rfl⟩
    unfold hover?
    rw [alone]
    rfl

/-! ### Agreement -/

/-- The three questions at a cursor are answered consistently. -/
structure Agrees : Prop where
  /-- What is gone to are the definitions among all that is mentioned, in the same order. -/
  definitions : (cursor.definitions.map fun target => (target.location, target.kind)) =
    ((cursor.mentions true).found.filter Mention.isDefinition).map fun mention =>
      (mention.location, mention.kind)
  usages : (cursor.mentions false).found =
    (cursor.mentions true).found.filter fun mention => !mention.isDefinition
  described : cursor.hover?.isSome ↔
    ∃ symbol ∈ cursor.context.symbols.entries, cursor.IsOn symbol ∨ cursor.Names symbol
  meant : ∀ hover, cursor.hover? = some hover → ∃ symbol, cursor.Means symbol ∧
    hover.kind = symbol.1.kind ∧ hover.name = symbol.1.name ∧
      ∀ span, hover.span = some span →
        ∃ location, (location ∈ symbol.2.definitions ∨ location ∈ symbol.2.usages) ∧
          location.uri = cursor.uri ∧ location.span.covers cursor.position = true ∧
            location.span = span
  marked : (cursor.hover?.bind Hover.span).isSome ↔
    ∃ symbol ∈ cursor.context.symbols.entries, cursor.IsOn symbol
  /-- Where something is recorded, the text has no say. -/
  alone : (∃ symbol ∈ cursor.context.symbols.entries, cursor.IsOn symbol) →
    ∃ symbol, cursor.context.Earliest cursor.IsOn symbol ∧
      ∀ text, { cursor with text := text }.Concerns symbol

/-- The three questions are answered about the same symbol: the earliest one with an occurrence at
the cursor, and else the earliest one that the word there names. -/
theorem queries_agree (cursor : Cursor) : cursor.Agrees where
  definitions := by
    unfold Cursor.definitions Cursor.mentions
    rw [List.filter_flatMap, List.map_flatMap, List.map_flatMap]
    simp only [filter_definitions, targetsOf, List.map_map]
    rfl
  usages := by
    unfold Cursor.mentions
    rw [List.filter_flatMap]
    simp only [filter_usages]
  described := by
    rw [hover?_isSome_iff, exists_means_iff]
  meant := by
    intro hover there
    obtain ⟨symbol, means, rfl⟩ := (cursor.hover?_eq_some_iff hover).mp there
    exact ⟨symbol, means, rfl, rfl, fun span => cursor.exists_location_of_span⟩
  marked := cursor.isSome_span_iff
  alone := by
    intro recorded
    obtain ⟨symbol, member, isOn⟩ := recorded
    obtain ⟨first, earliest⟩ := cursor.context.exists_earliest member isOn
    refine ⟨first, earliest, fun text => ?_⟩
    exact Cursor.concerns_of_symbols _ (symbols_of_isOn { cursor with text := text } earliest)

namespace Sample

/-- Two symbols are recorded at one place, and the text has the name of the second. -/
def doubled : Cursor where
  uri := "root"
  text := "PERFORM TOTALS.".toList
  context := (Context.empty.use .paragraph "SUMS".toList ⟨"root", .onLine 0 8 6⟩).define .dataItem
    "TOTALS".toList ⟨"root", .onLine 0 8 6⟩
  position := ⟨0, 9⟩

def sums : SymbolKey × Occurrences :=
  (⟨.paragraph, "SUMS".toList⟩, Occurrences.none.use ⟨"root", .onLine 0 8 6⟩)

end Sample

/-- The symbol that was recorded first answers alone, under any text. -/
theorem sample_queries_agree :
    Sample.doubled.word? = some "TOTALS".toList ∧
      (∃ symbol ∈ Sample.doubled.context.symbols.entries, Sample.doubled.IsOn symbol) ∧
      ∀ text, { Sample.doubled with text := text }.Concerns Sample.sums := by
  have found : Sample.doubled.context.symbolAt? "root" ⟨0, 9⟩ = some Sample.sums := by
    decide +kernel
  have first := ((earliest_isOn_iff Sample.doubled Sample.sums).mpr found).mem
  obtain ⟨symbol, earliest, alone⟩ :=
    (queries_agree Sample.doubled).alone ⟨Sample.sums, first.1, first.2⟩
  have same : some symbol = some Sample.sums :=
    ((earliest_isOn_iff Sample.doubled symbol).mp earliest).symm.trans found
  cases same
  exact ⟨by decide +kernel, ⟨Sample.sums, first.1, first.2⟩, alone⟩

end Cursor

end Query

end CobolAnalysis
