/-
Literals as the scan and as the stages see them.

The scan takes a literal as one lexeme, and so it takes all that follows a quote without its
partner. The stages follow the quotes character by character. They agree: the quote that is open at
the end of a line is the one that the last lexeme leaves open, and a comment begins at the first
comment mark that no such lexeme holds. So no literal is cut where a comment is taken away, and no
comment mark is left outside.
-/

import CobolAnalysis.Proofs.Lexemes.LongestMatch
import CobolAnalysis.Proofs.Source.Literals
import CobolAnalysis.Proofs.Source.Positions
import Mathlib.Tactic.ByContra

namespace CobolAnalysis

namespace Lexeme

open Source (isQuote quoteAfter)

/-! ### Quotes in one lexeme -/

/-- A literal, or what a quote that is left open takes with it. -/
def Quoted (lexeme : Lexeme) : Prop :=
  lexeme.kind = .literal ∨ ∃ quote, lexeme.LeavesOpen quote

section Taken

variable (first : Char) (rest : List Char)

theorem quoted_takenAt_iff (number column : Nat) :
    (takenAt number column first rest).Quoted ↔ isQuote first = true := by
  constructor
  · intro quoted
    rcases quoted with literal | ⟨quote, _, starts, quotes⟩
    · have literal : (longest first rest).1 = .literal := literal
      have spells := spells_longest first rest (by rw [literal]; decide)
      rw [literal] at spells
      generalize (longest first rest).2 = tail at spells
      cases spells with
      | literal quotes closed => exact quotes
    · cases starts
      exact quotes
  · intro quotes
    have kinds : (longest first rest).1 = .literal ∨ (longest first rest).1 = .unrecognized := by
      rw [longest_of_isQuote quotes]
      split
      · exact Or.inl rfl
      · exact Or.inr rfl
    rcases kinds with literal | unknown
    · exact Or.inl literal
    · exact Or.inr ⟨first, unknown, rfl, quotes⟩

theorem leavesOpen_takenAt_iff (number column : Nat) (quote : Char) :
    (takenAt number column first rest).LeavesOpen quote ↔
      first = quote ∧ isQuote quote = true ∧ (longest first rest).1 = .unrecognized := by
  constructor
  · intro opens
    obtain ⟨unknown, starts, quotes⟩ := opens
    cases starts
    exact ⟨rfl, quotes, unknown⟩
  · intro both
    obtain ⟨rfl, quotes, unknown⟩ := both
    exact ⟨unknown, rfl, quotes⟩

theorem plain_of_plain {first : Char} (plain : ¬isQuote first = true) :
    ∀ character ∈ first :: (longest first rest).2, isQuote character = false := by
  by_cases unknown : (longest first rest).1 = .unrecognized
  · rw [unknown_longest unknown, if_neg plain]
    intro character member
    rw [List.mem_singleton.mp member]
    exact Bool.eq_false_iff.mpr plain
  · apply (spells_longest first rest unknown).plain
    intro literal
    exact plain ((quoted_takenAt_iff first rest 0 0).mp (Or.inl literal))

theorem quote_not_mem_take {first : Char} (quotes : isQuote first = true) {place : Nat}
    (within : place < (longest first rest).2.length) :
    first ∉ (longest first rest).2.take place := by
  rw [longest_of_isQuote quotes] at within ⊢
  split at within
  next closed =>
    rw [if_pos closed]
    rw [List.length_append, List.length_singleton] at within
    rw [List.take_append_of_le_length (Nat.le_of_lt_succ within)]
    intro member
    exact not_mem_takeWhile_until first rest (List.mem_of_mem_take member)
  next unclosed =>
    rw [if_neg unclosed]
    intro member
    exact unclosed (List.contains_iff_mem.mpr (List.mem_of_mem_take member))

theorem foldl_quoteAfter_takenAt (number column : Nat) (quote : Char) :
    (first :: (longest first rest).2).foldl quoteAfter none = some quote ↔
      (takenAt number column first rest).LeavesOpen quote := by
  rw [leavesOpen_takenAt_iff]
  by_cases quotes : isQuote first = true
  · rw [longest_of_isQuote quotes]
    split
    next closed =>
      rw [Source.foldl_quoteAfter_literal quotes (not_mem_takeWhile_until first rest)]
      apply iff_of_false
      · exact nofun
      · exact fun both => LexemeKind.noConfusion both.2.2
    next unclosed =>
      have apart : first ∉ rest := fun member => unclosed (List.contains_iff_mem.mpr member)
      rw [List.foldl_cons, Source.quoteAfter_opens quotes, Source.foldl_quoteAfter_inside apart]
      constructor
      · intro same
        cases same
        exact ⟨rfl, quotes, rfl⟩
      · intro both
        rw [both.1]
  · rw [Source.foldl_quoteAfter_plain (plain_of_plain rest quotes)]
    apply iff_of_false
    · exact nofun
    · intro both
      rw [both.1] at quotes
      exact quotes both.2.1

theorem first_append_drop :
    (first :: (longest first rest).2) ++ rest.drop (longest first rest).2.length = first :: rest :=
  congrArg (first :: ·) (longest_append_drop first rest)

theorem foldl_take_inside {place : Nat} {character : Char}
    (within : place < (first :: (longest first rest).2).length)
    (there : (first :: rest)[place]? = some character) (plain : isQuote character = false) :
    ((first :: rest).take place).foldl quoteAfter none = none ↔ ¬isQuote first = true := by
  rw [← first_append_drop first rest, List.take_append_of_le_length (Nat.le_of_lt within)]
  by_cases quotes : isQuote first = true
  · apply iff_of_false
    · cases place with
      | zero =>
          cases there
          rw [plain] at quotes
          cases quotes
      | succ place =>
          rw [List.take_succ_cons, List.foldl_cons, Source.quoteAfter_opens quotes,
            Source.foldl_quoteAfter_inside
              (quote_not_mem_take rest quotes (Nat.lt_of_succ_lt_succ within))]
          exact nofun
    · exact fun unquoted => unquoted quotes
  · apply iff_of_true _ quotes
    apply Source.foldl_quoteAfter_plain
    intro other member
    exact plain_of_plain rest quotes other (List.mem_of_mem_take member)

theorem drop_of_leavesOpen {number column : Nat} {quote : Char}
    (opens : (takenAt number column first rest).LeavesOpen quote) :
    rest.drop (longest first rest).2.length = [] := by
  obtain ⟨rfl, quotes, unknown⟩ := (leavesOpen_takenAt_iff first rest number column quote).mp opens
  have whole := unknown_longest unknown
  rw [if_pos quotes] at whole
  rw [(List.cons.inj whole).2, List.drop_length]

theorem foldl_take_behind {further : Nat} {character : Char}
    (there : (rest.drop (longest first rest).2.length)[further]? = some character) :
    ((first :: rest).take ((first :: (longest first rest).2).length + further)).foldl quoteAfter
        none =
      ((rest.drop (longest first rest).2.length).take further).foldl quoteAfter none := by
  have closed : (first :: (longest first rest).2).foldl quoteAfter none = none := by
    cases state : (first :: (longest first rest).2).foldl quoteAfter none with
    | none => rfl
    | some quote =>
        have opens := (foldl_quoteAfter_takenAt first rest 0 0 quote).mp state
        rw [drop_of_leavesOpen first rest opens] at there
        cases there
  conv =>
    lhs
    rw [← first_append_drop first rest]
  rw [List.take_append, List.take_of_length_le (Nat.le_add_right _ further),
    Nat.add_sub_cancel_left, List.foldl_append, closed]

end Taken

/-! ### Quotes on a line -/

theorem LeavesOpen.reaches {number column : Nat} {text : List Char} {lexeme : Lexeme}
    {quote : Char} (opens : lexeme.LeavesOpen quote)
    (member : lexeme ∈ scanFrom number column text) :
    lexeme.column + lexeme.text.length = column + text.length := by
  obtain ⟨before, first, rest, rfl, _, rfl⟩ := exists_takenAt_of_mem member
  obtain ⟨rfl, quotes, unknown⟩ := (leavesOpen_takenAt_iff first rest _ _ quote).mp opens
  have whole := unknown_longest unknown
  rw [if_pos quotes] at whole
  change column + before.length + (first :: (longest first rest).2).length = _
  rw [whole, List.length_append, Nat.add_assoc]

theorem exists_getLast?_cons {holds : Lexeme → Prop} {lexeme : Lexeme} (other : ¬holds lexeme)
    (rest : List Lexeme) :
    (∃ last, (lexeme :: rest).getLast? = some last ∧ holds last) ↔
      ∃ last, rest.getLast? = some last ∧ holds last := by
  cases rest with
  | nil =>
      apply iff_of_false
      · intro found
        obtain ⟨last, same, also⟩ := found
        cases same
        exact other also
      · intro found
        obtain ⟨last, none, _⟩ := found
        cases none
  | cons next others => rw [List.getLast?_cons_cons]

/-- The quote that is open at the end is the one that the last lexeme leaves open. -/
theorem openQuote_scanFrom (number column : Nat) (text : List Char) (quote : Char) :
    text.foldl quoteAfter none = some quote ↔
      ∃ last, (scanFrom number column text).getLast? = some last ∧ last.LeavesOpen quote := by
  induction column, text using scanFrom.induct with
  | case1 column =>
      rw [scanFrom]
      apply iff_of_false
      · intro none
        cases none
      · intro found
        obtain ⟨last, none, _⟩ := found
        cases none
  | case2 column first rest skipped ih =>
      rw [scanFrom_skipped skipped, List.foldl_cons,
        Source.quoteAfter_plain (isQuote_of_isSkipped skipped)]
      exact ih
  | case3 column first rest visible tail following ih =>
      have own := foldl_quoteAfter_takenAt first rest number column
      rw [scanFrom_visible visible, ← first_append_drop first rest, List.foldl_append]
      cases state : (first :: (longest first rest).2).foldl quoteAfter none with
      | some opened =>
          have opens := (own opened).mp state
          rw [drop_of_leavesOpen first rest opens, scanFrom]
          constructor
          · intro same
            cases same
            exact ⟨_, rfl, opens⟩
          · intro found
            obtain ⟨last, same, also⟩ := found
            cases same
            rw [← (own quote).mpr also, ← state]
            rfl
      | none =>
          have closed : ¬(takenAt number column first rest).LeavesOpen quote := by
            intro opens
            rw [(own quote).mpr opens] at state
            cases state
          rw [exists_getLast?_cons closed]
          exact ih

/-- Outside all literals is where no lexeme with quotes stands. -/
theorem outside_iff (number column : Nat) (text : List Char) :
    ∀ (place : Nat) (character : Char), text[place]? = some character →
      isQuote character = false →
        ((text.take place).foldl quoteAfter none = none ↔
          ∀ lexeme ∈ scanFrom number column text,
            lexeme.Occupies number (column + place) → ¬lexeme.Quoted) := by
  induction column, text using scanFrom.induct with
  | case1 =>
      intro place character there
      cases there
  | case2 column first rest skipped ih =>
      intro place character there plain
      rw [scanFrom_skipped skipped]
      cases place with
      | zero =>
          apply iff_of_true rfl
          intro lexeme member occupies
          exact absurd occupies (not_occupies_of_lt member (Nat.lt_succ_self column))
      | succ place =>
          rw [List.take_succ_cons, List.foldl_cons,
            Source.quoteAfter_plain (isQuote_of_isSkipped skipped),
            show column + (place + 1) = column + 1 + place by omega]
          exact ih place character there plain
  | case3 column first rest visible tail following ih =>
      intro place character there plain
      rw [scanFrom_visible visible, List.forall_mem_cons]
      rcases Nat.lt_or_ge place (first :: tail).length with within | beyond
      · have occupied : (takenAt number column first rest).Occupies number (column + place) :=
          ⟨rfl, Nat.le_add_right column place, Nat.add_lt_add_left within column⟩
        have before : column + place < column + 1 + tail.length := by
          rw [List.length_cons] at within
          omega
        rw [and_iff_left fun lexeme member occupies =>
            absurd occupies (not_occupies_of_lt member before),
          foldl_take_inside first rest within there plain,
          ← quoted_takenAt_iff first rest number column]
        constructor
        · exact fun unquoted _ => unquoted
        · exact fun free => free occupied
      · obtain ⟨further, rfl⟩ := Nat.exists_eq_add_of_le beyond
        have onward : following[further]? = some character := by
          rw [← first_append_drop first rest, List.getElem?_append_right beyond,
            Nat.add_sub_cancel_left] at there
          exact there
        have unoccupied : ¬(takenAt number column first rest).Occupies number
            (column + ((first :: tail).length + further)) := by
          intro occupies
          have left : column + ((first :: tail).length + further) <
            column + (first :: tail).length := occupies.left
          omega
        rw [and_iff_right fun occupies => absurd occupies unoccupied,
          foldl_take_behind first rest onward,
          show column + ((first :: tail).length + further) =
            column + 1 + tail.length + further by rw [List.length_cons]; omega]
        exact ih further character onward plain

theorem scan_of_oneLine {text : List Char} (oneLine : '\n' ∉ text) :
    scan text = scanFrom 0 0 text := by
  by_cases present : text = []
  · rw [present, scanFrom]
    rfl
  · unfold scan
    rw [Text.lines_single oneLine present, scanLines, scanLines, List.append_nil]
    rfl

end Lexeme

namespace Source

open Lexeme (scan outside_iff openQuote_scanFrom scan_of_oneLine)

/-! ### Where a comment begins -/

/-- The place of the comment mark before which the text ends, if there is one. -/
def commentStart? (content : List Char) : Option Nat :=
  let kept := beforeComment none content
  if kept.length < content.length then some kept.length else none

theorem beforeComment_eq (content : List Char) :
    beforeComment none content = (commentStart? content).elim content (content.take ·) := by
  have front := beforeComment_starts none content
  unfold commentStart?
  dsimp only
  split
  next shorter => exact List.prefix_iff_eq_take.mp front
  next whole => exact front.eq_of_length_le (Nat.le_of_not_lt whole)

theorem lt_length_beforeComment_iff (content : List Char) (place : Nat) :
    place < (beforeComment none content).length ↔
      place < content.length ∧ ∀ earlier ≤ place, ¬MarkAt none content earlier := by
  constructor
  · intro within
    have both := (beforeComment_getElem? none content place _).mp (List.getElem?_eq_getElem within)
    exact ⟨(List.getElem?_eq_some_iff.mp both.1).1, both.2⟩
  · intro both
    have there := (beforeComment_getElem? none content place _).mpr
      ⟨List.getElem?_eq_getElem both.1, both.2⟩
    exact (List.getElem?_eq_some_iff.mp there).1

theorem commentStart?_eq_some_iff (content : List Char) (place : Nat) :
    commentStart? content = some place ↔
      MarkAt none content place ∧ ∀ earlier < place, ¬MarkAt none content earlier := by
  have kept := lt_length_beforeComment_iff content
  unfold commentStart?
  dsimp only
  constructor
  · intro starts
    split at starts
    next shorter =>
      cases starts
      have unmarked : ∀ earlier < (beforeComment none content).length,
          ¬MarkAt none content earlier := fun earlier before =>
        ((kept earlier).mp before).2 earlier (Nat.le_refl earlier)
      refine ⟨?_, unmarked⟩
      by_contra absent
      apply Nat.lt_irrefl (beforeComment none content).length
      apply (kept _).mpr
      refine ⟨shorter, fun earlier within mark => ?_⟩
      rcases Nat.lt_or_eq_of_le within with before | same
      · exact unmarked earlier before mark
      · rw [same] at mark
        exact absent mark
    next => cases starts
  · intro first
    obtain ⟨mark, unmarked⟩ := first
    obtain ⟨present, _⟩ := List.getElem?_eq_some_iff.mp mark.star
    have length : (beforeComment none content).length = place := by
      apply Nat.le_antisymm
      · apply Nat.le_of_not_lt
        intro longer
        exact ((kept place).mp longer).2 place (Nat.le_refl place) mark
      · apply Nat.le_of_not_lt
        intro shorter
        apply Nat.lt_irrefl (beforeComment none content).length
        apply (kept _).mpr
        constructor
        · exact Nat.lt_trans shorter present
        · exact fun earlier within => unmarked earlier (Nat.lt_of_le_of_lt within shorter)
    rw [length, if_pos present]

/-! ### One line -/

/-- The lexeme of the line is a literal, or reaches from a quote without its partner to the end of
the line, and the character at this place is one of it. -/
structure Conceals (text : List Char) (lexeme : Lexeme) (place : Nat) : Prop where
  occupies : lexeme.Occupies 0 place
  quoted : lexeme.kind = .literal ∨
    ∃ quote, lexeme.LeavesOpen quote ∧ lexeme.column + lexeme.text.length = text.length

/-- A comment mark that no lexeme conceals. -/
structure OpenMark (text : List Char) (place : Nat) : Prop where
  star : text[place]? = some '*'
  greater : text[place + 1]? = some '>'
  shown : ∀ lexeme ∈ scan text, ¬Conceals text lexeme place

/-- A part of a line that ends outside all literals of the line and leaves no comment mark open. -/
structure CutOutside (text kept : List Char) : Prop where
  front : kept <+: text
  whole : ∀ lexeme ∈ scan text, lexeme.kind = .literal →
    kept.length ≤ lexeme.column ∨ lexeme.column + lexeme.text.length ≤ kept.length
  unmarked : ∀ place, kept[place]? = some '*' → kept[place + 1]? = some '>' →
    ∃ lexeme ∈ scan kept, Conceals kept lexeme place

section Line

variable {text : List Char}

theorem conceals_iff (oneLine : '\n' ∉ text) {lexeme : Lexeme} (member : lexeme ∈ scan text)
    (place : Nat) : Conceals text lexeme place ↔ lexeme.Occupies 0 place ∧ lexeme.Quoted := by
  rw [scan_of_oneLine oneLine] at member
  constructor
  · intro conceals
    refine ⟨conceals.occupies, conceals.quoted.imp_right ?_⟩
    intro opens
    obtain ⟨quote, leavesOpen, _⟩ := opens
    exact ⟨quote, leavesOpen⟩
  · intro both
    refine ⟨both.1, both.2.imp_right ?_⟩
    intro opens
    obtain ⟨quote, leavesOpen⟩ := opens
    have reaches := leavesOpen.reaches member
    rw [Nat.zero_add] at reaches
    exact ⟨quote, leavesOpen, reaches⟩

theorem openMark_iff (oneLine : '\n' ∉ text) (place : Nat) :
    OpenMark text place ↔ MarkAt none text place := by
  have shown : text[place]? = some '*' → ((text.take place).foldl quoteAfter none = none ↔
      ∀ lexeme ∈ scan text, ¬Conceals text lexeme place) := by
    intro star
    have outside := outside_iff 0 0 text place '*' star (by decide)
    rw [Nat.zero_add, ← scan_of_oneLine oneLine] at outside
    rw [outside]
    apply forall₂_congr
    intro lexeme member
    rw [conceals_iff oneLine member, not_and]
  constructor
  · intro mark
    exact ⟨mark.star, mark.greater, (shown mark.star).mpr mark.shown⟩
  · intro mark
    exact ⟨mark.star, mark.greater, (shown mark.star).mp mark.outside⟩

theorem openQuote_iff (oneLine : '\n' ∉ text) (quote : Char) :
    openQuote text = some quote ↔ ∃ last, (scan text).getLast? = some last ∧
      last.LeavesOpen quote ∧ last.column + last.text.length = text.length := by
  rw [scan_of_oneLine oneLine]
  constructor
  · intro opened
    obtain ⟨last, ends, opens⟩ := (openQuote_scanFrom 0 0 text quote).mp opened
    have reaches := opens.reaches (List.mem_of_getLast? ends)
    rw [Nat.zero_add] at reaches
    exact ⟨last, ends, opens, reaches⟩
  · intro found
    obtain ⟨last, ends, opens, _⟩ := found
    exact (openQuote_scanFrom 0 0 text quote).mpr ⟨last, ends, opens⟩

theorem commentStart?_iff (oneLine : '\n' ∉ text) (place : Nat) :
    commentStart? text = some place ↔
      OpenMark text place ∧ ∀ earlier < place, ¬OpenMark text earlier := by
  simp only [commentStart?_eq_some_iff, openMark_iff oneLine]

theorem conceals_of_mark (oneLine : '\n' ∉ text) {place : Nat} (star : text[place]? = some '*')
    (greater : text[place + 1]? = some '>') (unmarked : ¬MarkAt none text place) :
    ∃ lexeme ∈ scan text, Conceals text lexeme place := by
  by_contra none
  apply unmarked
  apply (openMark_iff oneLine place).mp
  refine ⟨star, greater, fun lexeme member conceals => none ⟨lexeme, member, conceals⟩⟩

theorem literal_apart (oneLine : '\n' ∉ text) {lexeme : Lexeme} (member : lexeme ∈ scan text)
    (literal : lexeme.kind = .literal) :
    (beforeComment none text).length ≤ lexeme.column ∨
      lexeme.column + lexeme.text.length ≤ (beforeComment none text).length := by
  have places : lexeme.line = 0 ∧ lexeme.column + lexeme.text.length ≤ text.length := by
    rw [scan_of_oneLine oneLine] at member
    obtain ⟨number, ⟨before, after, split, column⟩, _⟩ := Lexeme.mem_scanFrom member
    rw [split, column, List.length_append, List.length_append]
    omega
  by_contra cut
  rw [not_or] at cut
  have starts : commentStart? text = some (beforeComment none text).length := by
    apply if_pos
    omega
  have mark := ((commentStart?_iff oneLine _).mp starts).1
  apply mark.shown lexeme member
  constructor
  · exact ⟨places.1, by omega, by omega⟩
  · exact Or.inl literal

theorem not_markAt_beforeComment (place : Nat) : ¬MarkAt none (beforeComment none text) place := by
  intro mark
  obtain ⟨star, unmarked⟩ := (beforeComment_getElem? none text place '*').mp mark.star
  apply unmarked place (Nat.le_refl place)
  obtain ⟨within, _⟩ := List.getElem?_eq_some_iff.mp mark.greater
  obtain ⟨after, split⟩ := beforeComment_starts none text
  constructor
  · exact star
  · rw [← split, List.getElem?_append_left within]
    exact mark.greater
  · rw [← split, List.take_append_of_le_length (by omega)]
    exact mark.outside

theorem cutOutside_beforeComment (oneLine : '\n' ∉ text) :
    CutOutside text (beforeComment none text) where
  front := beforeComment_starts none text
  whole := fun _ member literal => literal_apart oneLine member literal
  unmarked := by
    intro place star greater
    have stillOneLine : '\n' ∉ beforeComment none text := fun member =>
      oneLine ((beforeComment_starts none text).subset member)
    exact conceals_of_mark stillOneLine star greater (not_markAt_beforeComment place)

theorem CutOutside.nil (text : List Char) : CutOutside text [] where
  front := List.nil_prefix
  whole := fun lexeme _ _ => Or.inl (Nat.zero_le lexeme.column)
  unmarked := by
    intro place star
    cases star

end Line

/-- What the scan of a line and the stages make of its quotes. -/
structure LiteralsAgree (text : List Char) : Prop where
  opened : ∀ quote, openQuote text = some quote ↔ ∃ last, (scan text).getLast? = some last ∧
    last.LeavesOpen quote ∧ last.column + last.text.length = text.length
  comment : ∀ place, commentStart? text = some place ↔
    OpenMark text place ∧ ∀ earlier < place, ¬OpenMark text earlier
  /-- A line whose content this is, among any others. -/
  cut : ∀ (uri : String) (lines : List Line) (number : Nat) (given : Line),
    lines[number]? = some given → given.content = text →
      ∃ answer kept, Stage.comment.transform uri lines = .ok answer ∧
        answer.value[number]? = some (given.withContent kept) ∧ CutOutside text kept ∧
        (given.isComment = false → kept = (commentStart? text).elim text (text.take ·))

/-- All that follow the quotes of a line agree on what is inside a literal. -/
theorem literals_agree {text : List Char} (oneLine : '\n' ∉ text) : LiteralsAgree text where
  opened := openQuote_iff oneLine
  comment := commentStart?_iff oneLine
  cut := by
    intro uri lines number given there same
    refine ⟨.clean (lines.map Stage.stripComment), (Stage.stripComment given).content, rfl, ?_⟩
    have value : (lines.map Stage.stripComment)[number]? = some (Stage.stripComment given) := by
      rw [List.getElem?_map, there]
      rfl
    unfold Stage.stripComment at value ⊢
    by_cases comment : given.isComment = true
    · rw [if_pos comment] at value ⊢
      refine ⟨value, .nil text, fun code => ?_⟩
      rw [comment] at code
      cases code
    · rw [if_neg comment, same] at value ⊢
      exact ⟨value, cutOutside_beforeComment oneLine, fun _ => beforeComment_eq text⟩

def LiteralsAgree.sample : List Char := "DISPLAY '\"*>' *> AN 'OLD NOTE".toList

theorem sample_literals_agree :
    '\n' ∉ LiteralsAgree.sample ∧ openQuote LiteralsAgree.sample = some '\'' ∧
      commentStart? LiteralsAgree.sample = some 14 ∧ LiteralsAgree LiteralsAgree.sample := by
  have oneLine : '\n' ∉ LiteralsAgree.sample := by decide
  exact ⟨oneLine, by decide, by decide, literals_agree oneLine⟩

end Source

end CobolAnalysis
