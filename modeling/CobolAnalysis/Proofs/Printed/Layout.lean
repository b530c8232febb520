/-
Tokens laid out over the lines of a text.

In free format a line is printed text from its first column on; in variable-length format a
sequence area and a blank indicator stand before it. A comment may follow on the line, and blank
lines and comment lines may stand between such lines. Preprocessed and scanned, the text is the
same tokens again, each at its line and column.
-/

import CobolAnalysis.Proofs.Printed.Tokens
import CobolAnalysis.Proofs.Source.Positions
import CobolAnalysis.Proofs.Source.Stretches
import Mathlib.Data.List.TakeWhile

namespace CobolAnalysis.Printed

open Source (Format Line)

def IsMargin : Format → List Char → Prop
  | .free, margin => margin = []
  | _, margin => ∃ sequence, sequence.length = Source.indicatorColumn ∧ margin = sequence ++ [' ']

def IsBlankLine : Format → List Char → Prop
  | .free, raw => Text.isBlankText raw = true
  | _, raw => Text.isBlankText (raw.drop Source.indicatorColumn) = true

def IsCommentLine : Format → List Char → Prop
  | .free, raw => ['*', '>'] <+: Text.trimStart raw
  | _, raw => raw[Source.indicatorColumn]? = some '*' ∨ raw[Source.indicatorColumn]? = some '/'

/-- Line `number` holds the tokens at their places. -/
inductive Shows (format : Format) (number : Nat) : List Char → List Placed → Prop where
  | blank {raw : List Char} (blank : IsBlankLine format raw) : Shows format number raw []
  | comment {raw : List Char} (marked : IsCommentLine format raw) : Shows format number raw []
  | code {margin text comment : List Char} {placed : List Placed} (before : IsMargin format margin)
      (prints : Prints number margin.length text placed) (after : IsComment comment) :
      Shows format number (margin ++ (text ++ comment)) placed

/-- The lines from `number` on hold the tokens at their places. -/
inductive LaidOut (format : Format) : Nat → List (List Char) → List Placed → Prop where
  | none (number : Nat) : LaidOut format number [] []
  | line {number : Nat} {raw : List Char} {raws : List (List Char)} {here later : List Placed}
      (first : Shows format number raw here) (rest : LaidOut format (number + 1) raws later) :
      LaidOut format number (raw :: raws) (here ++ later)

/-! ### One line -/

theorem readLine_blankLine {format : Format} (notFixed : format ≠ .fixed) {raw : List Char}
    (blank : IsBlankLine format raw) : Source.indicatorOf format raw = .normal ∧
      Text.isBlankText (Source.readLine format 0 raw).content = true := by
  cases format with
  | fixed => exact absurd rfl notFixed
  | variableLength =>
      constructor
      · change (raw[Source.indicatorColumn]?).elim Source.Indicator.normal
          Source.Indicator.ofChar = .normal
        cases there : raw[Source.indicatorColumn]? with
        | none => rfl
        | some character =>
            have first : (raw.drop Source.indicatorColumn)[0]? = some character := by
              rw [List.getElem?_drop]
              exact there
            have isBlank := List.all_eq_true.mp blank character (List.mem_of_getElem? first)
            change Source.Indicator.ofChar character = .normal
            unfold Source.Indicator.ofChar
            split
            case h_6 => rfl
            all_goals exact absurd isBlank (by decide)
      · change Text.isBlankText (raw.drop (Source.indicatorColumn + 1)) = true
        rw [← List.drop_drop]
        exact List.all_eq_true.mpr fun character member =>
          List.all_eq_true.mp blank character (List.mem_of_mem_drop member)
  | free =>
      have nothing : Text.trimStart raw = [] :=
        List.dropWhile_eq_nil_iff.mpr fun character member =>
          List.all_eq_true.mp blank character member
      refine ⟨?_, blank⟩
      unfold Source.indicatorOf Source.readLine Source.freeLine
      rw [nothing]
      rfl

theorem indicatorOf_commentLine {format : Format} {raw : List Char}
    (marked : IsCommentLine format raw) : Source.indicatorOf format raw = .comment := by
  have reference : raw[Source.indicatorColumn]? = some '*' ∨
      raw[Source.indicatorColumn]? = some '/' →
        (raw[Source.indicatorColumn]?).elim Source.Indicator.normal Source.Indicator.ofChar =
          .comment := by
    rintro (there | there) <;> rw [there] <;> rfl
  cases format with
  | fixed => exact reference marked
  | variableLength => exact reference marked
  | free => exact if_pos (List.isPrefixOf_iff_prefix.mpr marked)

theorem readLine_code {format : Format} (notFixed : format ≠ .fixed) {margin : List Char}
    (before : IsMargin format margin) (content : List Char) :
    Source.textColumn format = margin.length ∧
      (Source.readLine format 0 (margin ++ content)).content = content ∧
      (Source.indicatorOf format (margin ++ content) = .normal ∨
        Source.indicatorOf format (margin ++ content) = .comment ∧
          ['*', '>'] <+: Text.trimStart content) := by
  cases format with
  | fixed => exact absurd rfl notFixed
  | variableLength =>
      obtain ⟨sequence, columns, rfl⟩ := before
      have width : Source.programTextColumn = (sequence ++ [' ']).length := by
        rw [List.length_append, columns]
        rfl
      refine ⟨width, ?_, Or.inl ?_⟩
      · change (sequence ++ [' '] ++ content).drop Source.programTextColumn = content
        rw [width, List.drop_left]
      · have blank : (sequence ++ [' '] ++ content)[Source.indicatorColumn]? = some ' ' := by
          rw [← columns, List.append_assoc, List.getElem?_append_right (Nat.le_refl _),
            Nat.sub_self]
          rfl
        unfold Source.indicatorOf Source.readLine Source.referenceLine
        simp only [blank]
        rfl
  | free =>
      change margin = [] at before
      rw [before]
      refine ⟨rfl, rfl, ?_⟩
      by_cases mark : ['*', '>'] <+: Text.trimStart content
      · exact Or.inr ⟨if_pos (List.isPrefixOf_iff_prefix.mpr mark), mark⟩
      · exact Or.inl (if_neg fun found => mark (List.isPrefixOf_iff_prefix.mp found))

theorem scanLine_written (number : Nat) (line : Line) :
    Lexeme.scanLine number line.written =
      Lexeme.scanFrom number line.offset (Text.trimEnd line.content) := by
  unfold Lexeme.scanLine Line.written
  split
  next empty =>
    rw [List.isEmpty_iff.mp empty, Text.trimEnd, Lexeme.scanFrom, Lexeme.scanFrom]
  next =>
    have spaces : (List.replicate line.offset ' ').all isGap = true :=
      List.all_eq_true.mpr fun character member =>
        (List.eq_of_mem_replicate member) ▸ (by decide)
    rw [scanFrom_gap spaces, List.length_replicate, Nat.zero_add]

theorem scanLine_of_blank (number : Nat) {line : Line}
    (blank : Text.isBlankText line.content = true) :
    Lexeme.scanLine number line.written = [] := by
  rw [scanLine_written, (Text.trimEnd_eq_nil_iff _).mpr blank, Lexeme.scanFrom]

theorem Shows.isContinuation {format : Format} (notFixed : format ≠ .fixed) {number : Nat}
    {raw : List Char} {placed : List Placed} (shows : Shows format number raw placed)
    (asCode : Bool) (place : Nat) :
    (Source.prepare format asCode place raw).isContinuation = false := by
  apply Bool.eq_false_iff.mpr
  intro continues
  have indicator := Source.prepare_isContinuation.mp continues
  cases shows with
  | blank blank =>
      rw [(readLine_blankLine notFixed blank).1] at indicator
      cases indicator
  | comment marked =>
      rw [indicatorOf_commentLine marked] at indicator
      cases indicator
  | @code margin text comment _ before prints after =>
      obtain ⟨_, _, normal | ⟨marked, _⟩⟩ := readLine_code notFixed before (text ++ comment)
      · rw [normal] at indicator
        cases indicator
      · rw [marked] at indicator
        cases indicator

theorem Shows.scan {format : Format} (notFixed : format ≠ .fixed) {number : Nat}
    {raw : List Char} {placed : List Placed} (shows : Shows format number raw placed)
    (asCode : Bool) :
    List.Forall₂ Placed.Is
      (Lexeme.scanLine number (Source.prepare format asCode 0 raw).written) placed := by
  have silent : ∀ {raw}, Source.indicatorOf format raw = .comment →
      Lexeme.scanLine number (Source.prepare format asCode 0 raw).written = [] := by
    intro raw marked
    apply scanLine_of_blank
    rw [Source.prepare_content_of_silent]
    · rfl
    · rw [marked]
      rintro (normal | ⟨debug, _⟩)
      · cases normal
      · cases debug
    · rw [marked]
      decide
  cases shows with
  | blank blank =>
      obtain ⟨normal, read⟩ := readLine_blankLine notFixed blank
      have content : Text.isBlankText (Source.prepare format asCode 0 raw).content = true := by
        rw [Source.prepare_content_of_speaks (Or.inl normal)]
        exact List.all_eq_true.mpr fun character member => List.all_eq_true.mp read character
          ((Source.beforeComment_starts none _).subset member)
      rw [scanLine_of_blank number content]
      exact .nil
  | comment marked =>
      rw [silent (indicatorOf_commentLine marked)]
      exact .nil
  | @code margin text comment _ before prints after =>
      obtain ⟨column, content, normal | ⟨marked, starts⟩⟩ :=
        readLine_code notFixed before (text ++ comment)
      · rw [scanLine_written, Source.prepare_offset, column,
          Source.prepare_content_of_speaks (Or.inl normal), content, prints.beforeComment after]
        exact prints.trimEnd.scan
      · rw [silent marked, prints.eq_nil_of_mark after starts]
        exact .nil

/-! ### All lines -/

section Texts

variable {format : Format} {number : Nat} {raws : List (List Char)} {placed : List Placed}

theorem LaidOut.isContinuation (notFixed : format ≠ .fixed)
    (laidOut : LaidOut format number raws placed) (asCode : Bool) :
    ∀ raw ∈ raws, ∀ place, (Source.prepare format asCode place raw).isContinuation = false := by
  induction laidOut with
  | none => exact List.forall_mem_nil _
  | line first rest ih =>
      exact List.forall_mem_cons.mpr ⟨first.isContinuation notFixed asCode, ih⟩

theorem LaidOut.scanLines (notFixed : format ≠ .fixed)
    (laidOut : LaidOut format number raws placed) (asCode : Bool) :
    List.Forall₂ Placed.Is (Lexeme.scanLines number
      ((raws.map (Source.prepare format asCode 0)).map Line.written)) placed := by
  induction laidOut with
  | none => exact .nil
  | line first rest ih => exact List.rel_append (first.scan notFixed asCode) ih

end Texts

/-- A text that tokens are laid out in is preprocessed without reports, and scanned as the
tokens. -/
theorem LaidOut.preprocess {format : Format} (notFixed : format ≠ .fixed) {text : List Char}
    (readable : ∀ raw ∈ Text.lines text, '\x00' ∉ raw) {placed : List Placed}
    (laidOut : LaidOut format 0 (Text.lines text) placed) (asCode : Bool) (uri : String) :
    ∃ written, Source.preprocess (.pipeline (Source.Stage.standard asCode)) uri format text =
        .ok (.clean written) ∧
      List.Forall₂ Placed.Is (Lexeme.scan written) placed := by
  have alone := laidOut.isContinuation notFixed asCode
  have whole : ∀ line ∈ (Text.lines text).map (Source.prepare format asCode 0),
      line.isContinuation = false :=
    List.forall_mem_map.mpr fun raw member => alone raw member 0
  have rendered : Source.rendered format asCode (Text.lines text) =
      ((Text.lines text).map (Source.prepare format asCode 0)).map Line.written := by
    rw [Source.rendered_eq, Source.Stage.joinLines_of_whole whole]
  have silent : Source.reports uri format asCode (Text.lines text) = [] := by
    have short : (Text.lines text).mapIdx (Source.overlong uri format) =
        (Text.lines text).map fun _ => [] := by
      refine List.ext_getElem? fun index => ?_
      rw [List.getElem?_mapIdx, List.getElem?_map]
      exact congrArg (Option.map · _) (funext fun raw => if_neg fun both => notFixed both.1)
    have orphans : Source.Stage.orphans (Source.prepareAll format asCode (Text.lines text)) = [] := by
      refine Source.Stage.continuations_of_whole fun line member => ?_
      obtain ⟨place, bound, rfl⟩ := List.mem_mapIdx.mp member
      exact alone _ (List.getElem_mem bound) place
    unfold Source.reports
    rw [short, orphans, List.map_nil, List.append_nil]
    exact List.flatten_eq_nil_iff.mpr fun list member => by
      obtain ⟨_, _, rfl⟩ := List.mem_map.mp member
      rfl
  have tidy := Source.rendered_tidy format asCode fun raw (member : raw ∈ Text.lines text) =>
    Text.newline_not_mem_of_mem_lines member
  refine ⟨Text.unlines (Source.rendered format asCode (Text.lines text)), ?_, ?_⟩
  · rw [Source.preprocess_readable asCode uri format text readable, silent]
    rfl
  · rw [Lexeme.scan_unlines tidy, rendered]
    exact laidOut.scanLines notFixed asCode

theorem LaidOut.widened {number : Nat} {raws : List (List Char)} {placed : List Placed}
    (laidOut : LaidOut .fixed number raws placed) :
    LaidOut .variableLength number raws placed := by
  induction laidOut with
  | none number => exact .none number
  | line first rest ih =>
      refine .line ?_ ih
      cases first with
      | blank blank => exact .blank blank
      | comment marked => exact .comment marked
      | code before prints after => exact .code before prints after

theorem LaidOut.preprocess_fitting {format : Format} {text : List Char}
    (readable : ∀ raw ∈ Text.lines text, '\x00' ∉ raw)
    (fits : format = .fixed → ∀ raw ∈ Text.lines text, raw.length ≤ Source.rightMargin)
    {placed : List Placed} (laidOut : LaidOut format 0 (Text.lines text) placed) (asCode : Bool)
    (uri : String) :
    ∃ written, Source.preprocess (.pipeline (Source.Stage.standard asCode)) uri format text =
        .ok (.clean written) ∧
      List.Forall₂ Placed.Is (Lexeme.scan written) placed := by
  by_cases isFixed : format = .fixed
  · subst isFixed
    rw [Source.preprocess_fixed_of_short (fits rfl)]
    exact laidOut.widened.preprocess (by decide) readable asCode uri
  · exact laidOut.preprocess isFixed readable asCode uri

end CobolAnalysis.Printed
