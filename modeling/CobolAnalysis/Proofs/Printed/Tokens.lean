/-
Tokens as they are written on a line.

Words, literals, operators, parentheses and periods are written one after the other with gaps
between them; only a period may follow directly. Scanned, such a text is the same tokens again,
each where it was written, and no comment begins inside it.
-/

import CobolAnalysis.Proofs.Lexemes
import Mathlib.Data.List.Forall2

namespace CobolAnalysis.Printed

open Lexeme (operator_cases isBlank_of_isNameCharacter isQuote_of_isNameCharacter isBlank_of_isQuote
  isNameCharacter_of_isNameStart isSkipped_of_starts longest_of_isNameStart longest_of_isQuote
  longest_of_isOperator takeWhile_append_of_stops takeWhile_until)

def isGap (character : Char) : Bool :=
  character == ' ' || character == '\t' || character == '\x0c' || character == '\r'

inductive Token where
  | word (text : List Char)
  | literal (quote : Char) (inside : List Char)
  | operator (text : List Char)
  | leftParenthesis
  | rightParenthesis
  | period
  deriving DecidableEq

namespace Token

def text : Token → List Char
  | word text => text
  | literal quote inside => quote :: (inside ++ [quote])
  | operator text => text
  | leftParenthesis => ['(']
  | rightParenthesis => [')']
  | period => ['.']

def kind : Token → LexemeKind
  | word text => if text.all Char.isDigit then .integer else .word
  | literal _ _ => .literal
  | operator _ => .operator
  | leftParenthesis => .leftParenthesis
  | rightParenthesis => .rightParenthesis
  | period => .period

/-- Literals are closed by the quote that opens them, and no operator begins a comment. -/
inductive WellFormed : Token → Prop where
  | word {first : Char} {rest : List Char} (starts : Lexeme.isNameStart first = true)
      (goesOn : rest.all Lexeme.isNameCharacter = true) : WellFormed (.word (first :: rest))
  | literal {quote : Char} {inside : List Char} (quotes : Source.isQuote quote = true)
      (closed : quote ∉ inside) : WellFormed (.literal quote inside)
  | operator {first : Char} {rest : List Char}
      (operators : (first :: rest).all Lexeme.isOperator = true)
      (noComment : ¬['*', '>'] <:+: first :: rest) : WellFormed (.operator (first :: rest))
  | leftParenthesis : WellFormed .leftParenthesis
  | rightParenthesis : WellFormed .rightParenthesis
  | period : WellFormed .period

/-- Behind the token the text ends, a gap begins, or a period follows; behind a period no other
period. -/
def endsBefore (token : Token) (rest : List Char) : Bool :=
  rest.head?.all fun next => isGap next || (next == '.' && token != .period)

end Token

/-- A token at a place. -/
structure Placed where
  token : Token
  line : Nat
  column : Nat

namespace Placed

/-- The lexeme is the token at its place; a period ends its sentence. -/
structure Is (lexeme : Lexeme) (placed : Placed) : Prop where
  kind : lexeme.kind = placed.token.kind
  text : lexeme.text = placed.token.text
  line : lexeme.line = placed.line
  column : lexeme.column = placed.column
  ends : placed.token = .period → lexeme.beforeBlank = true

end Placed

/-- A text of tokens and gaps that stands on `line` from `column` on. -/
inductive Prints (line : Nat) : Nat → List Char → List Placed → Prop where
  | gap {column : Nat} {gap : List Char} (gaps : gap.all isGap = true) :
      Prints line column gap []
  | token {column : Nat} {gap rest : List Char} {token : Token} {later : List Placed}
      (gaps : gap.all isGap = true) (wellFormed : token.WellFormed)
      (ends : token.endsBefore rest = true)
      (more : Prints line (column + gap.length + token.text.length) rest later) :
      Prints line column (gap ++ (token.text ++ rest))
        (⟨token, line, column + gap.length⟩ :: later)

/-! ### Characters -/

theorem gap_cases {character : Char} (gap : isGap character = true) :
    character = ' ' ∨ character = '\t' ∨ character = '\x0c' ∨ character = '\r' := by
  unfold isGap at gap
  simp only [Bool.or_eq_true, beq_iff_eq, or_assoc] at gap
  exact gap

theorem isSkipped_of_gap {character : Char} (gap : isGap character = true) :
    Lexeme.isSkipped character = true := by
  rcases gap_cases gap with rfl | rfl | rfl | rfl <;> decide

theorem isBlank_of_gap {character : Char} (gap : isGap character = true) :
    Text.isBlank character = true := by
  rcases gap_cases gap with rfl | rfl | rfl | rfl <;> decide

theorem stops_of_gap_or_period {character : Char} (stops : isGap character = true ∨ character = '.') :
    Lexeme.isNameCharacter character = false ∧ Lexeme.isOperator character = false := by
  rcases stops with gap | rfl
  · rcases gap_cases gap with rfl | rfl | rfl | rfl <;> decide
  · decide

/-! ### Scanning -/

theorem Token.stops {token : Token} {rest : List Char} (ends : token.endsBefore rest = true)
    {next : Char} (head : rest.head? = some next) : isGap next = true ∨ next = '.' := by
  unfold endsBefore at ends
  rw [head, Option.all_some, Bool.or_eq_true, Bool.and_eq_true, beq_iff_eq] at ends
  exact ends.imp_right And.left

/-- The longest lexeme at the start of a token that ends there is the token. -/
theorem Token.longest_append {token : Token} (wellFormed : token.WellFormed) {rest : List Char}
    (ends : token.endsBefore rest = true) :
    ∃ first tail, token.text = first :: tail ∧ Lexeme.isSkipped first = false ∧
      Lexeme.longest first (tail ++ rest) = (token.kind, tail) := by
  have stops : ∀ next, rest.head? = some next →
      Lexeme.isNameCharacter next = false ∧ Lexeme.isOperator next = false :=
    fun next head => stops_of_gap_or_period (token.stops ends head)
  cases wellFormed with
  | @word first tail starts goesOn =>
      refine ⟨first, tail, rfl, isSkipped_of_starts (.inl starts), ?_⟩
      rw [longest_of_isNameStart starts,
        takeWhile_append_of_stops goesOn fun next head => (stops next head).1]
      rfl
  | @literal quote inside quotes closed =>
      refine ⟨quote, inside ++ [quote], rfl, isSkipped_of_starts (.inr (.inl quotes)), ?_⟩
      have present : (inside ++ [quote] ++ rest).contains quote = true := by
        rw [List.contains_iff_mem]
        exact List.mem_append_left rest List.mem_concat_self
      rw [longest_of_isQuote quotes, if_pos present, List.append_assoc,
        show [quote] ++ rest = quote :: rest from rfl, takeWhile_until closed]
      rfl
  | @operator first tail operators noComment =>
      obtain ⟨here, later⟩ := List.forall_mem_cons.mp (List.all_eq_true.mp operators)
      refine ⟨first, tail, rfl, isSkipped_of_starts (.inr (.inr here)), ?_⟩
      have whole := takeWhile_append_of_stops (List.all_eq_true.mpr later)
        fun next head => (stops next head).2
      rw [longest_of_isOperator here, whole]
      rfl
  | leftParenthesis => exact ⟨'(', [], rfl, by decide, rfl⟩
  | rightParenthesis => exact ⟨')', [], rfl, by decide, rfl⟩
  | period => exact ⟨'.', [], rfl, by decide, rfl⟩

theorem scanFrom_gap {gap : List Char} (gaps : gap.all isGap = true) (line column : Nat)
    (rest : List Char) :
    Lexeme.scanFrom line column (gap ++ rest) =
      Lexeme.scanFrom line (column + gap.length) rest := by
  induction gap generalizing column with
  | nil => rfl
  | cons character others ih =>
      obtain ⟨here, later⟩ := Bool.and_eq_true_iff.mp gaps
      rw [List.cons_append, Lexeme.scanFrom, if_pos (isSkipped_of_gap here), ih later,
        List.length_cons, Nat.add_assoc, Nat.add_comm 1]

theorem Prints.scan {line column : Nat} {text : List Char} {placed : List Placed}
    (prints : Prints line column text placed) :
    List.Forall₂ Placed.Is (Lexeme.scanFrom line column text) placed := by
  induction prints with
  | @gap column gap gaps =>
      have skipped := scanFrom_gap gaps line column []
      rw [List.append_nil, Lexeme.scanFrom] at skipped
      rw [skipped]
      exact .nil
  | @token column gap rest token later gaps wellFormed ends more ih =>
      obtain ⟨first, tail, written, visible, longest⟩ := token.longest_append wellFormed ends
      have onward : (tail ++ rest).drop tail.length = rest := List.drop_left
      have width : column + gap.length + 1 + tail.length =
          column + gap.length + token.text.length := by
        rw [written, List.length_cons, Nat.add_assoc, Nat.add_comm 1]
      rw [scanFrom_gap gaps, written, List.cons_append, Lexeme.scanFrom,
        if_neg (Bool.eq_false_iff.mp visible)]
      simp only [longest, onward, width]
      refine .cons ⟨rfl, written.symm, rfl, rfl, fun isPeriod => ?_⟩ ih
      cases head : rest.head? with
      | none => rfl
      | some next =>
          change Text.isBlank next = true
          unfold Token.endsBefore at ends
          rw [head, Option.all_some, show token = .period from isPeriod, Bool.or_eq_true,
            Bool.and_eq_true] at ends
          exact isBlank_of_gap (ends.resolve_right fun both => absurd both.2 (by decide))

/-! ### The end of the line -/

theorem Token.edge_visible {token : Token} (wellFormed : token.WellFormed) {edge : Char}
    (stands : token.text.head? = some edge ∨ token.text.getLast? = some edge) :
    Text.isBlank edge = false := by
  have member : edge ∈ token.text := stands.elim List.mem_of_head? List.mem_of_getLast?
  cases wellFormed with
  | @word first tail starts goesOn =>
      refine isBlank_of_isNameCharacter ?_
      rcases List.mem_cons.mp member with rfl | later
      · exact isNameCharacter_of_isNameStart starts
      · exact List.all_eq_true.mp goesOn edge later
  | @literal quote inside quotes closed =>
      have isQuote : quote = edge := by
        change (quote :: (inside ++ [quote])).head? = some edge ∨
          (quote :: (inside ++ [quote])).getLast? = some edge at stands
        rw [List.head?_cons, ← List.cons_append, List.getLast?_concat, or_self] at stands
        exact Option.some.inj stands
      exact isBlank_of_isQuote (isQuote ▸ quotes)
  | @operator first tail operators noComment =>
      have operator := List.all_eq_true.mp operators edge member
      rcases operator_cases operator with rfl | rfl | rfl | rfl | rfl | rfl | rfl | rfl <;> decide
  | leftParenthesis => exact List.mem_singleton.mp member ▸ by decide
  | rightParenthesis => exact List.mem_singleton.mp member ▸ by decide
  | period => exact List.mem_singleton.mp member ▸ by decide

theorem Token.text_ne_nil {token : Token} (wellFormed : token.WellFormed) : token.text ≠ [] := by
  cases wellFormed <;> exact List.cons_ne_nil _ _

theorem Prints.trimEnd {line column : Nat} {text : List Char} {placed : List Placed}
    (prints : Prints line column text placed) : Prints line column (Text.trimEnd text) placed := by
  induction prints with
  | @gap column gap gaps =>
      have blank : Text.isBlankText gap = true :=
        List.all_eq_true.mpr fun character member =>
          isBlank_of_gap (List.all_eq_true.mp gaps character member)
      rw [(Text.trimEnd_eq_nil_iff gap).mpr blank]
      exact .gap rfl
  | @token column gap rest token later gaps wellFormed ends more ih =>
      have kept : Text.trimEnd (gap ++ (token.text ++ rest)) =
          gap ++ (token.text ++ Text.trimEnd rest) := by
        have trimmed := (Text.trimmed_of_getLast fun last ends => token.edge_visible wellFormed
          (.inr ends)).append_left (token.text_ne_nil wellFormed) gap
        rw [← List.append_assoc, ← List.append_assoc, Text.trimEnd_append]
        split
        next nothing => rw [nothing, List.append_nil, trimmed]
        next => rfl
      have stillEnds : token.endsBefore (Text.trimEnd rest) = true := by
        unfold Token.endsBefore at *
        cases shape : Text.trimEnd rest with
        | nil => rfl
        | cons next others =>
            obtain ⟨blanks, split⟩ := Text.trimEnd_starts rest
            rw [shape] at split
            rw [← split] at ends
            exact ends
      rw [kept]
      exact .token gaps wellFormed stillEnds ih

/-! ### No comment inside -/

theorem beforeComment_append {text : List Char}
    (plain : ∀ character ∈ text, Source.isQuote character = false)
    (noComment : ¬['*', '>'] <:+: text) {rest : List Char}
    (apart : text.getLast? = some '*' → rest.head? ≠ some '>') :
    Source.beforeComment none (text ++ rest) = text ++ Source.beforeComment none rest := by
  induction text with
  | nil => rfl
  | cons character others ih =>
      obtain ⟨here, later⟩ := List.forall_mem_cons.mp plain
      have unmarked : ¬((none : Option Char) = none ∧ character = '*' ∧
          (others ++ rest).head? = some '>') := by
        rintro ⟨_, rfl, next⟩
        cases others with
        | nil => exact apart rfl next
        | cons second more =>
            cases next
            exact noComment ⟨[], more, rfl⟩
      have outside : Source.quoteAfter none character = none := by
        unfold Source.quoteAfter
        simp only [here, Bool.false_eq_true, if_false]
      rw [List.cons_append, Source.beforeComment, if_neg unmarked, outside, ih later]
      · rfl
      · exact fun inside => noComment (inside.trans (List.suffix_cons _ _).isInfix)
      · intro ends
        refine apart ?_
        rw [List.getLast?_cons, ends]
        rfl

theorem beforeComment_inside {quote : Char} {inside : List Char} (closed : quote ∉ inside)
    (rest : List Char) :
    Source.beforeComment (some quote) (inside ++ quote :: rest) =
      inside ++ quote :: Source.beforeComment none rest := by
  have opened : ∀ {character rest}, ¬(some quote = none ∧ character = '*' ∧
      List.head? rest = some '>') := fun none => nomatch none.1
  induction inside with
  | nil =>
      rw [List.nil_append, Source.beforeComment, if_neg opened]
      simp only [Source.quoteAfter, if_true]
      rfl
  | cons character others ih =>
      rw [List.mem_cons, not_or] at closed
      have stays : Source.quoteAfter (some quote) character = some quote :=
        if_neg fun same => closed.1 same.symm
      rw [List.cons_append, Source.beforeComment, if_neg opened, stays, ih closed.2]
      rfl

theorem not_mark_of_not_mem {text : List Char} (noStar : '*' ∉ text) : ¬['*', '>'] <:+: text :=
  fun inside => noStar (inside.subset List.mem_cons_self)

theorem beforeComment_mark {mark : Char} (noQuote : Source.isQuote mark = false)
    (noStar : mark ≠ '*') (rest : List Char) :
    Source.beforeComment none ([mark] ++ rest) = [mark] ++ Source.beforeComment none rest := by
  refine beforeComment_append (List.forall_mem_singleton.mpr noQuote)
    (not_mark_of_not_mem fun star => ?_) fun ends => ?_
  · exact noStar (List.mem_singleton.mp star).symm
  · exact absurd (Option.some.inj ends) noStar

theorem Token.beforeComment_append {token : Token} (wellFormed : token.WellFormed)
    {rest : List Char} (apart : rest.head? ≠ some '>') :
    Source.beforeComment none (token.text ++ rest) =
      token.text ++ Source.beforeComment none rest := by
  cases wellFormed with
  | @word first tail starts goesOn =>
      have names : ∀ character ∈ first :: tail, Lexeme.isNameCharacter character = true :=
        List.forall_mem_cons.mpr
          ⟨isNameCharacter_of_isNameStart starts, List.all_eq_true.mp goesOn⟩
      refine Printed.beforeComment_append
        (fun character member => isQuote_of_isNameCharacter (names character member))
        (not_mark_of_not_mem fun star => absurd (names '*' star) (by decide)) fun _ => apart
  | @literal quote inside quotes closed =>
      change Source.beforeComment none (quote :: (inside ++ [quote] ++ rest)) = _
      have unmarked : ¬((none : Option Char) = none ∧ quote = '*' ∧
          (inside ++ [quote] ++ rest).head? = some '>') := by
        rintro ⟨_, rfl, _⟩
        exact absurd quotes (by decide)
      have opens : Source.quoteAfter none quote = some quote := by
        unfold Source.quoteAfter
        simp only [quotes, if_true]
      rw [Source.beforeComment, if_neg unmarked, opens, List.append_assoc]
      rw [show [quote] ++ rest = quote :: rest from rfl, beforeComment_inside closed]
      simp [text]
  | @operator first tail operators noComment =>
      refine Printed.beforeComment_append (fun character member => ?_) noComment fun _ => apart
      have operator := List.all_eq_true.mp operators character member
      rcases operator_cases operator with rfl | rfl | rfl | rfl | rfl | rfl | rfl | rfl <;> decide
  | leftParenthesis => exact beforeComment_mark rfl (by decide) rest
  | rightParenthesis => exact beforeComment_mark rfl (by decide) rest
  | period => exact beforeComment_mark rfl (by decide) rest

theorem beforeComment_gap {gap : List Char} (gaps : gap.all isGap = true) (rest : List Char) :
    Source.beforeComment none (gap ++ rest) = gap ++ Source.beforeComment none rest := by
  have plain : ∀ character ∈ gap, Source.isQuote character = false ∧ character ≠ '*' := by
    intro character member
    rcases gap_cases (List.all_eq_true.mp gaps character member) with rfl | rfl | rfl | rfl <;>
      decide
  refine beforeComment_append (fun character member => (plain character member).1)
    (not_mark_of_not_mem fun star => (plain '*' star).2 rfl) fun ends => ?_
  exact absurd rfl (plain '*' (List.mem_of_getLast? ends)).2

/-- What may follow printed text on its line: nothing, or a comment. -/
def IsComment (text : List Char) : Prop := text = [] ∨ ['*', '>'] <+: text

theorem IsComment.beforeComment {comment : List Char} (isComment : IsComment comment) :
    Source.beforeComment none comment = [] := by
  rcases isComment with rfl | ⟨rest, rfl⟩
  · rfl
  · exact if_pos ⟨rfl, rfl, rfl⟩

theorem IsComment.apart {comment : List Char} (isComment : IsComment comment) {token : Token}
    {rest : List Char} (ends : token.endsBefore rest = true) :
    (rest ++ comment).head? ≠ some '>' := by
  intro head
  cases rest with
  | nil =>
      rcases isComment with rfl | ⟨others, rfl⟩
      · cases head
      · exact absurd (Option.some.inj head) (by decide)
  | cons next others =>
      have isNext : next = '>' := Option.some.inj head
      have stops := token.stops ends (show (next :: others).head? = some next from rfl)
      rw [isNext] at stops
      exact absurd stops (by decide)

theorem Prints.beforeComment {line column : Nat} {text comment : List Char}
    {placed : List Placed} (prints : Prints line column text placed)
    (isComment : IsComment comment) : Source.beforeComment none (text ++ comment) = text := by
  induction prints with
  | @gap column gap gaps =>
      rw [beforeComment_gap gaps, isComment.beforeComment, List.append_nil]
  | @token column gap rest token later gaps wellFormed ends more ih =>
      rw [List.append_assoc, beforeComment_gap gaps, List.append_assoc,
        token.beforeComment_append wellFormed (isComment.apart ends), ih]

theorem Prints.eq_nil_of_mark {line column : Nat} {text comment : List Char}
    {placed : List Placed} (prints : Prints line column text placed)
    (isComment : IsComment comment) (mark : ['*', '>'] <+: Text.trimStart (text ++ comment)) :
    placed = [] := by
  cases prints with
  | gap gaps => rfl
  | @token column gap rest token later gaps wellFormed ends more =>
      obtain ⟨first, tail, written, _⟩ := token.longest_append wellFormed ends
      have visible : Text.isBlank first = false :=
        token.edge_visible wellFormed (.inl (by rw [written, List.head?_cons]))
      have blank : ∀ character ∈ gap, Text.isBlank character = true := fun character member =>
        isBlank_of_gap (List.all_eq_true.mp gaps character member)
      have starts : Text.trimStart (gap ++ (token.text ++ rest) ++ comment) =
          token.text ++ (rest ++ comment) := by
        unfold Text.trimStart
        rw [List.append_assoc, List.append_assoc, List.dropWhile_append_of_pos blank, written,
          List.cons_append, List.dropWhile_cons_of_neg (Bool.eq_false_iff.mp visible)]
      have hidden := IsComment.beforeComment (.inr mark)
      rw [starts, token.beforeComment_append wellFormed (isComment.apart ends), written] at hidden
      cases hidden

end CobolAnalysis.Printed
