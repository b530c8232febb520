/-
Continuation lines and the lines they continue.

A continuation line continues the nearest line of code before it. What it says is joined on there,
without a quote that only repeats the one by which the continued text is still open, and it is left
empty itself. So nothing that can be seen is lost, and nothing is there twice. A continuation line
without any code before it is reported.
-/

import CobolAnalysis.Proofs.Lexemes
import CobolAnalysis.Proofs.Source.Literals
import CobolAnalysis.Proofs.Source.Preprocessing
import Mathlib.Data.List.Forall2

namespace CobolAnalysis

namespace Text

/-! ### What can be seen of a text -/

def visible (text : List Char) : List Char := text.filter fun character => !isBlank character

theorem visible_append (first second : List Char) :
    visible (first ++ second) = visible first ++ visible second := List.filter_append first second

theorem visible_of_isBlankText {text : List Char} (blank : isBlankText text = true) :
    visible text = [] := by
  apply List.filter_eq_nil_iff.mpr
  intro character member
  rw [List.all_eq_true.mp blank character member]
  decide

theorem visible_trimEnd (text : List Char) : visible (trimEnd text) = visible text := by
  obtain ⟨blanks, split, blank⟩ := exists_blanks text
  have whole := congrArg visible split
  rw [visible_append, visible_of_isBlankText blank, List.append_nil] at whole
  exact whole.symm

theorem visible_trimStart (text : List Char) : visible (trimStart text) = visible text := by
  have whole : visible (text.takeWhile isBlank ++ text.dropWhile isBlank) = visible text :=
    congrArg visible List.takeWhile_append_dropWhile
  rw [visible_append, visible_of_isBlankText List.all_takeWhile] at whole
  exact whole

theorem visible_trim (text : List Char) : visible (trim text) = visible text := by
  unfold trim
  rw [visible_trimEnd, visible_trimStart]

theorem head_trim_visible {text rest : List Char} {first : Char}
    (starts : trim text = first :: rest) : isBlank first = false := by
  unfold trim at starts
  have front := trimEnd_starts (trimStart text)
  rw [starts] at front
  obtain ⟨after, same⟩ := front
  have head := List.head?_dropWhile_not isBlank text
  rw [show text.dropWhile isBlank = first :: (rest ++ after) from same.symm] at head
  exact head

end Text

namespace Source

open Text (visible)

/-! ### Blanks and open literals -/

theorem isQuote_of_isBlank {character : Char} (blank : Text.isBlank character = true) :
    isQuote character = false := by
  apply Bool.eq_false_iff.mpr
  intro quotes
  rw [Lexeme.isBlank_of_isQuote quotes] at blank
  cases blank

theorem foldl_quoteAfter_blanks {opened : Option Char}
    (quotes : ∀ quote, opened = some quote → isQuote quote = true) {blanks : List Char}
    (blank : Text.isBlankText blanks = true) : blanks.foldl quoteAfter opened = opened := by
  have plain : ∀ character ∈ blanks, isQuote character = false := fun character member =>
    isQuote_of_isBlank (List.all_eq_true.mp blank character member)
  cases opened with
  | none => exact foldl_quoteAfter_plain plain
  | some quote =>
      apply foldl_quoteAfter_inside
      intro member
      have other := plain quote member
      rw [quotes quote rfl] at other
      cases other

theorem openQuote_trimEnd (text : List Char) : openQuote (Text.trimEnd text) = openQuote text := by
  obtain ⟨blanks, split, blank⟩ := Text.exists_blanks text
  have whole := congrArg openQuote split
  unfold openQuote at whole ⊢
  rw [List.foldl_append, foldl_quoteAfter_blanks _ blank] at whole
  · exact whole.symm
  · intro quote opened
    exact ((openQuote_eq_some_iff _ quote).mp opened).quotes

/-! ### Joining one line -/

/-- A text with the text of a continuation line joined on, and the quote that is dropped. -/
inductive JoinedOn (text next : List Char) : Option Char → List Char → Prop where
  /-- The quote only repeats the one by which the literal is open. -/
  | repeated {quote : Char} {rest : List Char} (inside : EndsInside text quote)
      (again : Text.trim next = quote :: rest) :
      JoinedOn text next (some quote) (Text.trimEnd text ++ rest)
  | whole (other : ∀ quote, EndsInside text quote → (Text.trim next).head? ≠ some quote) :
      JoinedOn text next none (Text.trimEnd text ++ Text.trim next)

theorem joinedOn_join (text next : List Char) :
    ∃ dropped, JoinedOn text next dropped (Stage.join text next) := by
  have inside : ∀ quote, openQuote (Text.trimEnd text) = some quote ↔ EndsInside text quote := by
    intro quote
    rw [openQuote_trimEnd, openQuote_eq_some_iff]
  rcases Stage.join_cases text next with ⟨quote, rest, opened, again, joins⟩ | ⟨other, joins⟩
  · rw [joins]
    exact ⟨some quote, .repeated ((inside quote).mp opened) again⟩
  · rw [joins]
    exact ⟨none, .whole fun quote ends => other quote ((inside quote).mpr ends)⟩

theorem JoinedOn.visible {text next longer : List Char} {dropped : Option Char}
    (joined : JoinedOn text next dropped longer) :
    ∃ seen, visible next = dropped.toList ++ seen ∧
      visible longer = visible text ++ seen := by
  cases joined with
  | @repeated quote rest inside again =>
      refine ⟨Text.visible rest, ?_, ?_⟩
      · rw [← Text.visible_trim, again]
        unfold Text.visible
        rw [List.filter_cons, Text.head_trim_visible again]
        rfl
      · rw [Text.visible_append, Text.visible_trimEnd]
  | whole other =>
      refine ⟨Text.visible next, rfl, ?_⟩
      rw [Text.visible_append, Text.visible_trimEnd, Text.visible_trim]

/-! ### Joining line after line -/

/-- A text with lines joined on one after the other, and for each line the quote that is dropped. -/
inductive AllJoinedOn : List Char → List Line → List (Option Char) → List Char → Prop where
  | nil (text : List Char) : AllJoinedOn text [] [] text
  | cons {text longer result : List Char} {next : Line} {more : List Line} {gone : Option Char}
      {dropped : List (Option Char)} (first : JoinedOn text next.content gone longer)
      (rest : AllJoinedOn longer more dropped result) :
      AllJoinedOn text (next :: more) (gone :: dropped) result

theorem allJoinedOn_foldl (text : List Char) (more : List Line) :
    ∃ dropped, AllJoinedOn text more dropped
      (more.foldl (fun text next => Stage.join text next.content) text) := by
  induction more generalizing text with
  | nil => exact ⟨[], .nil text⟩
  | cons next others ih =>
      obtain ⟨gone, first⟩ := joinedOn_join text next.content
      obtain ⟨dropped, rest⟩ := ih (Stage.join text next.content)
      exact ⟨gone :: dropped, .cons first rest⟩

theorem AllJoinedOn.visible {text result : List Char} {more : List Line}
    {dropped : List (Option Char)} (joined : AllJoinedOn text more dropped result) :
    ∃ seen : List (List Char),
      List.Forall₂ (fun (next : Line × Option Char) part =>
        visible next.1.content = next.2.toList ++ part) (more.zip dropped) seen ∧
      visible result = visible text ++ seen.flatten := by
  induction joined with
  | nil text => exact ⟨[], .nil, (List.append_nil _).symm⟩
  | cons first rest ih =>
      obtain ⟨part, own, longer⟩ := first.visible
      obtain ⟨seen, others, whole⟩ := ih
      refine ⟨part :: seen, .cons own others, ?_⟩
      rw [whole, longer, List.append_assoc, List.flatten_cons]

/-! ### Which line continues which -/

/-- The continuation line continues the line of code at `target`, the nearest before it. -/
structure Continues (lines : List Line) (target number : Nat) : Prop where
  after : target < number
  code : ∃ line, lines[target]? = some line ∧ Stage.isCode line = true
  continuation : ∃ line, lines[number]? = some line ∧ line.isContinuation = true
  nearest : ∀ between line, target < between → between < number → lines[between]? = some line →
    Stage.isCode line = false

/-- The continuation line has no line of code before it. -/
structure Orphaned (lines : List Line) (number : Nat) : Prop where
  continuation : ∃ line, lines[number]? = some line ∧ line.isContinuation = true
  alone : ∀ earlier line, earlier < number → lines[earlier]? = some line →
    Stage.isCode line = false

/-- The lines at certain places, in their order. -/
def LinesAt (lines : List Line) (places : Nat → Prop) (found : List Line) : Prop :=
  ∃ numbers : List Nat, numbers.Pairwise (· < ·) ∧ (∀ number, number ∈ numbers ↔ places number) ∧
    found = numbers.filterMap (lines[·]?)

theorem LinesAt.nil {lines : List Line} {places : Nat → Prop} (none : ∀ number, ¬places number) :
    LinesAt lines places [] := by
  refine ⟨[], .nil, fun number => ?_, rfl⟩
  exact iff_of_false List.not_mem_nil (none number)

theorem LinesAt.eq_nil {lines found : List Line} {places : Nat → Prop}
    (those : LinesAt lines places found) (none : ∀ number, ¬places number) : found = [] := by
  obtain ⟨numbers, _, members, rfl⟩ := those
  have empty : numbers = [] := by
    apply List.eq_nil_iff_forall_not_mem.mpr
    intro number member
    exact none number ((members number).mp member)
  rw [empty]
  rfl

theorem LinesAt.shift {lines found : List Line} {places further : Nat → Prop} {count : Nat}
    (those : LinesAt (lines.drop count) places found)
    (same : ∀ number, further number ↔ ∃ index, number = count + index ∧ places index) :
    LinesAt lines further found := by
  obtain ⟨numbers, ordered, members, rfl⟩ := those
  refine ⟨numbers.map (count + ·), ?_, ?_, ?_⟩
  · apply List.pairwise_map.mpr
    exact ordered.imp fun before => Nat.add_lt_add_left before count
  · intro number
    rw [same, List.mem_map]
    constructor
    · intro found
      obtain ⟨index, member, rfl⟩ := found
      exact ⟨index, rfl, (members index).mp member⟩
    · intro found
      obtain ⟨index, rfl, holds⟩ := found
      exact ⟨index, (members index).mpr holds, rfl⟩
  · rw [List.filterMap_map]
    apply List.filterMap_congr
    intro index _
    exact List.getElem?_drop

theorem LinesAt.behind {line : Line} {rest found : List Line} {places further : Nat → Prop}
    (those : LinesAt rest places found) (notFirst : ¬further 0)
    (same : ∀ number, further (number + 1) ↔ places number) :
    LinesAt (line :: rest) further found := by
  have dropped : LinesAt ((line :: rest).drop 1) places found := those
  apply dropped.shift
  intro number
  cases number with
  | zero =>
      apply iff_of_false notFirst
      intro found
      obtain ⟨index, none, _⟩ := found
      omega
  | succ number =>
      rw [same]
      constructor
      · exact fun holds => ⟨number, Nat.add_comm number 1, holds⟩
      · intro found
        obtain ⟨index, moved, holds⟩ := found
        rw [show number = index by omega]
        exact holds

theorem LinesAt.cons {line : Line} {rest found : List Line} {places further : Nat → Prop}
    (those : LinesAt rest places found) (first : further 0)
    (same : ∀ number, further (number + 1) ↔ places number) :
    LinesAt (line :: rest) further (line :: found) := by
  have behind : LinesAt (line :: rest) (fun number => number ≠ 0 ∧ further number) found := by
    apply those.behind
    · exact fun both => both.1 rfl
    · intro number
      rw [and_iff_right (Nat.succ_ne_zero number), same]
  obtain ⟨numbers, ordered, members, rfl⟩ := behind
  refine ⟨0 :: numbers, ?_, ?_, rfl⟩
  · apply List.pairwise_cons.mpr
    constructor
    · intro number member
      exact Nat.pos_of_ne_zero ((members number).mp member).1
    · exact ordered
  · intro number
    rw [List.mem_cons, members]
    constructor
    · intro found
      rcases found with rfl | ⟨_, holds⟩
      · exact first
      · exact holds
    · intro holds
      by_cases start : number = 0
      · exact Or.inl start
      · exact Or.inr ⟨start, holds⟩

theorem isCode_of_isContinuation {line : Line} (continues : line.isContinuation = true) :
    Stage.isCode line = false := by
  unfold Stage.isCode
  rw [continues]
  rfl

theorem orphaned_zero_iff (line : Line) (rest : List Line) :
    Orphaned (line :: rest) 0 ↔ line.isContinuation = true := by
  constructor
  · intro orphaned
    obtain ⟨other, same, continues⟩ := orphaned.continuation
    cases same
    exact continues
  · intro continues
    constructor
    · exact ⟨line, rfl, continues⟩
    · exact fun earlier _ before => absurd before (Nat.not_lt_zero earlier)

theorem orphaned_succ_iff {line : Line} {rest : List Line} (number : Nat) :
    Orphaned (line :: rest) (number + 1) ↔ Stage.isCode line = false ∧ Orphaned rest number := by
  constructor
  · intro orphaned
    obtain ⟨continuation, alone⟩ := orphaned
    refine ⟨alone 0 line (Nat.succ_pos number) rfl, continuation, ?_⟩
    intro earlier other before there
    exact alone (earlier + 1) other (Nat.succ_lt_succ before) there
  · intro both
    obtain ⟨uncoded, continuation, alone⟩ := both
    refine ⟨continuation, fun earlier other before there => ?_⟩
    cases earlier with
    | zero =>
        cases there
        exact uncoded
    | succ earlier => exact alone earlier other (Nat.lt_of_succ_lt_succ before) there

/-- Taking the lines one by one up to the next code line finds those without code before them. -/
theorem linesAt_continuations (lines : List Line) :
    LinesAt lines (Orphaned lines) (Stage.continuations lines) := by
  induction lines with
  | nil =>
      apply LinesAt.nil
      intro number orphaned
      obtain ⟨line, none, _⟩ := orphaned.continuation
      cases none
  | cons line rest ih =>
      rw [Stage.continuations]
      split
      next continues =>
        apply ih.cons
        · exact (orphaned_zero_iff line rest).mpr continues
        · intro number
          rw [orphaned_succ_iff, and_iff_right (isCode_of_isContinuation continues)]
      next whole =>
        have notFirst : ¬Orphaned (line :: rest) 0 := by
          rw [orphaned_zero_iff]
          exact whole
        split
        next code =>
          apply LinesAt.nil
          intro number orphaned
          cases number with
          | zero => exact notFirst orphaned
          | succ number =>
              have uncoded := ((orphaned_succ_iff number).mp orphaned).1
              rw [code] at uncoded
              cases uncoded
        next idle =>
          apply ih.behind notFirst
          intro number
          rw [orphaned_succ_iff, and_iff_right (Bool.eq_false_iff.mpr idle)]

theorem continues_iff {lines : List Line} {target : Nat} {line : Line}
    (there : lines[target]? = some line) (code : Stage.isCode line = true) (number : Nat) :
    Continues lines target number ↔
      ∃ index, number = target + 1 + index ∧ Orphaned (lines.drop (target + 1)) index := by
  constructor
  · intro continues
    obtain ⟨after, _, continuation, nearest⟩ := continues
    obtain ⟨index, rfl⟩ := Nat.exists_eq_add_of_le after
    refine ⟨index, rfl, ?_, ?_⟩
    · rw [List.getElem?_drop]
      exact continuation
    · intro earlier other before present
      rw [List.getElem?_drop] at present
      exact nearest (target + 1 + earlier) other (by omega) (by omega) present
  · intro found
    obtain ⟨index, rfl, continuation, alone⟩ := found
    rw [List.getElem?_drop] at continuation
    refine ⟨by omega, ⟨line, there, code⟩, continuation, ?_⟩
    intro between other after before present
    obtain ⟨earlier, rfl⟩ := Nat.exists_eq_add_of_le after
    apply alone earlier other (by omega)
    rw [List.getElem?_drop]
    exact present

theorem linesAt_continues {lines : List Line} {target : Nat} {line : Line}
    (there : lines[target]? = some line) (code : Stage.isCode line = true) :
    LinesAt lines (Continues lines target)
      (Stage.continuations (lines.drop (target + 1))) := by
  apply (linesAt_continuations (lines.drop (target + 1))).shift
  exact continues_iff there code

/-! ### All lines -/

/-- What becomes of lines when continuation lines are joined to the lines they continue. -/
structure Rejoins (uri : String) (lines : List Line) (answer : Diagnosed (List Line)) : Prop where
  count : answer.value.length = lines.length
  /-- Nothing but the content of a line changes. -/
  frame : ∀ (number : Nat) (line : Line), lines[number]? = some line →
    ∃ content, answer.value[number]? = some (line.withContent content)
  emptied : ∀ (number : Nat) (line : Line), lines[number]? = some line →
    line.isContinuation = true → answer.value[number]? = some line.cleared
  kept : ∀ (number : Nat) (line : Line), lines[number]? = some line → line.isContinuation = false →
    (∀ later, ¬Continues lines number later) → answer.value[number]? = some line
  /-- A line that is continued takes up all lines that continue it, and all that can be seen of
  them but for the quotes that are dropped. -/
  joined : ∀ (number : Nat) (line : Line), lines[number]? = some line →
    (∃ later, Continues lines number later) → ∃ more dropped content seen,
      LinesAt lines (Continues lines number) more ∧
      AllJoinedOn line.content more dropped content ∧
      answer.value[number]? = some (line.withContent content) ∧
      List.Forall₂ (fun (next : Line × Option Char) part =>
        visible next.1.content = next.2.toList ++ part) (more.zip dropped) seen ∧
      visible content = visible line.content ++ seen.flatten
  reported : ∃ orphans, LinesAt lines (Orphaned lines) orphans ∧
    answer.diagnostics = orphans.map fun line =>
      .warning (line.location uri) Diagnostic.Code.orphanContinuation
        "Continuation line has no preceding line to continue"

/-- Joining continuation lines keeps all that can be seen, once, in order, but for repeated
quotes. -/
theorem continuation_rejoins (uri : String) (lines : List Line) :
    ∃ answer, Stage.continuation.transform uri lines = .ok answer ∧ Rejoins uri lines answer := by
  refine ⟨_, Stage.continuation_transform uri lines, ?_⟩
  have value := Stage.getElem?_joinLines lines
  constructor
  · exact Stage.length_joinLines lines
  · intro number line there
    rw [value, there, Option.map_some]
    split
    · exact ⟨[], rfl⟩
    · split
      · exact ⟨_, rfl⟩
      · exact ⟨line.content, rfl⟩
  · intro number line there continues
    rw [value, there, Option.map_some, if_pos continues]
  · intro number line there whole alone
    rw [value, there, Option.map_some, if_neg (Bool.eq_false_iff.mp whole)]
    split
    next code =>
      unfold Stage.joined
      rw [(linesAt_continues there code).eq_nil alone]
      rfl
    next => rfl
  · intro number line there continued
    obtain ⟨later, continues⟩ := continued
    obtain ⟨other, same, code⟩ := continues.code
    rw [there] at same
    cases same
    have whole : ¬line.isContinuation = true := by
      intro continuation
      rw [isCode_of_isContinuation continuation] at code
      cases code
    obtain ⟨dropped, joined⟩ := allJoinedOn_foldl line.content
      (Stage.continuations (lines.drop (number + 1)))
    obtain ⟨seen, parts, all⟩ := joined.visible
    refine ⟨_, dropped, _, seen, linesAt_continues there code, joined, ?_, parts, all⟩
    rw [value, there, Option.map_some, if_neg whole, if_pos code]
    rfl
  · exact ⟨_, linesAt_continuations lines, rfl⟩

end Source

end CobolAnalysis
