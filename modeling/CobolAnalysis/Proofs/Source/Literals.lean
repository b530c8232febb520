/-
Literals, and the quote that is open at the end of a text.

Read from its start, a text is made of characters that are no quotes and of literals with both
their quotes; at its end one literal may be left open. Which one that is, the quote after each
character tells.
-/

import CobolAnalysis.Source.Literal

namespace CobolAnalysis.Source

/-! ### The quote after some characters -/

theorem quoteAfter_plain {character : Char} (plain : isQuote character = false) :
    quoteAfter none character = none := by
  unfold quoteAfter
  dsimp only
  rw [plain]
  rfl

theorem quoteAfter_opens {quote : Char} (quotes : isQuote quote = true) :
    quoteAfter none quote = some quote := by
  unfold quoteAfter
  dsimp only
  rw [if_pos quotes]

theorem quoteAfter_closes (quote : Char) : quoteAfter (some quote) quote = none := if_pos rfl

theorem quoteAfter_inside {quote character : Char} (other : character ≠ quote) :
    quoteAfter (some quote) character = some quote := if_neg other

theorem foldl_quoteAfter_plain {text : List Char}
    (plain : ∀ character ∈ text, isQuote character = false) :
    text.foldl quoteAfter none = none := by
  induction text with
  | nil => rfl
  | cons character rest ih =>
      obtain ⟨here, later⟩ := List.forall_mem_cons.mp plain
      rw [List.foldl_cons, quoteAfter_plain here, ih later]

theorem foldl_quoteAfter_inside {quote : Char} {inside : List Char} (closed : quote ∉ inside) :
    inside.foldl quoteAfter (some quote) = some quote := by
  induction inside with
  | nil => rfl
  | cons character rest ih =>
      rw [List.mem_cons, not_or] at closed
      rw [List.foldl_cons, quoteAfter_inside fun same => closed.1 same.symm, ih closed.2]

theorem foldl_quoteAfter_literal {quote : Char} {inside : List Char}
    (quotes : isQuote quote = true) (closed : quote ∉ inside) :
    (quote :: (inside ++ [quote])).foldl quoteAfter none = none := by
  rw [List.foldl_cons, quoteAfter_opens quotes, List.foldl_append, foldl_quoteAfter_inside closed]
  exact quoteAfter_closes quote

/-! ### Whole literals -/

/-- Characters that are no quotes, and literals with both their quotes. -/
inductive Whole : List Char → Prop where
  | nil : Whole []
  | plain {before : List Char} {character : Char} (whole : Whole before)
      (plain : isQuote character = false) : Whole (before ++ [character])
  | literal {before inside : List Char} {quote : Char} (whole : Whole before)
      (quotes : isQuote quote = true) (closed : quote ∉ inside) :
      Whole (before ++ quote :: (inside ++ [quote]))

/-- The text ends inside a literal that this quote opens. -/
structure EndsInside (text : List Char) (quote : Char) : Prop where
  quotes : isQuote quote = true
  opened : ∃ before inside, text = before ++ quote :: inside ∧ Whole before ∧ quote ∉ inside

theorem Whole.openQuote {text : List Char} (whole : Whole text) : openQuote text = none := by
  unfold Source.openQuote
  induction whole with
  | nil => rfl
  | plain whole plain ih =>
      rw [List.foldl_append, ih]
      exact quoteAfter_plain plain
  | literal whole quotes closed ih =>
      rw [List.foldl_append, ih, foldl_quoteAfter_literal quotes closed]

theorem EndsInside.openQuote {text : List Char} {quote : Char} (inside : EndsInside text quote) :
    openQuote text = some quote := by
  obtain ⟨quotes, before, rest, rfl, whole, closed⟩ := inside
  unfold Source.openQuote
  rw [List.foldl_append, show before.foldl quoteAfter none = none from whole.openQuote,
    List.foldl_cons, quoteAfter_opens quotes, foldl_quoteAfter_inside closed]

/-- What a text is, given the quote that is open at its end. -/
def Leaves (text : List Char) : Option Char → Prop
  | none => Whole text
  | some quote => EndsInside text quote

theorem Leaves.step {text : List Char} {opened : Option Char} (leaves : Leaves text opened)
    (character : Char) : Leaves (text ++ [character]) (quoteAfter opened character) := by
  cases opened with
  | none =>
      by_cases quotes : isQuote character = true
      · rw [quoteAfter_opens quotes]
        exact ⟨quotes, text, [], rfl, leaves, List.not_mem_nil⟩
      · have plain := Bool.eq_false_iff.mpr quotes
        rw [quoteAfter_plain plain]
        exact Whole.plain leaves plain
  | some quote =>
      obtain ⟨quotes, before, inside, rfl, whole, closed⟩ := leaves
      rw [List.append_assoc, List.cons_append]
      by_cases same : character = quote
      · rw [same, quoteAfter_closes]
        exact Whole.literal whole quotes closed
      · rw [quoteAfter_inside same]
        refine ⟨quotes, before, inside ++ [character], rfl, whole, ?_⟩
        rw [List.mem_append, List.mem_singleton, not_or]
        exact ⟨closed, fun again => same again.symm⟩

theorem Leaves.run {text : List Char} {opened : Option Char} (leaves : Leaves text opened)
    (rest : List Char) : Leaves (text ++ rest) (rest.foldl quoteAfter opened) := by
  induction rest generalizing text opened with
  | nil =>
      rw [List.append_nil]
      exact leaves
  | cons character others ih =>
      have onward := ih (leaves.step character)
      rw [List.append_assoc] at onward
      exact onward

theorem leaves_openQuote (text : List Char) : Leaves text (openQuote text) := by
  have start : Leaves [] none := Whole.nil
  exact start.run text

theorem openQuote_eq_some_iff (text : List Char) (quote : Char) :
    openQuote text = some quote ↔ EndsInside text quote := by
  constructor
  · intro opened
    have leaves := leaves_openQuote text
    rw [opened] at leaves
    exact leaves
  · exact EndsInside.openQuote

end CobolAnalysis.Source
