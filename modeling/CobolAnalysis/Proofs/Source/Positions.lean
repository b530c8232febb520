/-
Preprocessing keeps positions.

A line of the output starts with the program text of the line at the same place, each
character at its own column, up to the first comment mark outside a literal. More follows
only where a continuation line is joined on, so all that is scanned elsewhere stands at the
same line and column of the source.
-/

import CobolAnalysis.Proofs.Lexemes
import CobolAnalysis.Proofs.Source.Preprocessing

namespace CobolAnalysis.Source

/-! ### Program text and its columns -/

def textColumn : Format → Nat
  | .free => 0
  | _ => programTextColumn

def InTextArea (format : Format) (column : Nat) : Prop :=
  textColumn format ≤ column ∧ (format = .fixed → column < rightMargin)

instance (format : Format) (column : Nat) : Decidable (InTextArea format column) :=
  inferInstanceAs (Decidable (_ ∧ _))

def indicatorOf (format : Format) (raw : List Char) : Indicator := (readLine format 0 raw).indicator

/-- Whether a line with this indicator says anything by itself. -/
def Speaks (asCode : Bool) (indicator : Indicator) : Prop :=
  indicator = .normal ∨ indicator = .debug ∧ asCode = true

/-- A comment begins here: two characters of program text outside a literal. -/
structure CommentAt (format : Format) (raw : List Char) (column : Nat) : Prop where
  star : raw[column]? = some '*'
  area : InTextArea format column
  greater : raw[column + 1]? = some '>'
  within : InTextArea format (column + 1)
  outside : openQuote ((raw.take column).drop (textColumn format)) = none

/-- The character at this column of a line is program text that no comment hides. -/
structure Survives (format : Format) (asCode : Bool) (raw : List Char) (column : Nat) : Prop where
  speaks : Speaks asCode (indicatorOf format raw)
  area : InTextArea format column
  uncommented : ∀ place ≤ column, ¬CommentAt format raw place

/-- Text that holds what survives of a line, each character at its own column, and nothing else
but blanks before the program text. -/
structure OwnText (format : Format) (asCode : Bool) (raw own : List Char) : Prop where
  faithful : ∀ (column : Nat) (character : Char), own[column]? = some character →
    (column < textColumn format ∧ character = ' ') ∨
      (Survives format asCode raw column ∧ raw[column]? = some character)
  complete : ∀ (column : Nat) (character : Char), Survives format asCode raw column →
    raw[column]? = some character → Text.isBlank character = false →
      own[column]? = some character

/-! ### Indicators -/

theorem indicatorOf_reference {format : Format} (reference : format ≠ .free) (raw : List Char) :
    indicatorOf format raw = (raw[indicatorColumn]?).elim .normal Indicator.ofChar := by
  cases format with
  | fixed => rfl
  | variableLength => rfl
  | free => exact absurd rfl reference

theorem indicatorOf_reference_iff {format : Format} (reference : format ≠ .free)
    (raw : List Char) :
    (indicatorOf format raw = .comment ↔
      raw[indicatorColumn]? = some '*' ∨ raw[indicatorColumn]? = some '/') ∧
    (indicatorOf format raw = .continuation ↔ raw[indicatorColumn]? = some '-') ∧
    (indicatorOf format raw = .debug ↔
      raw[indicatorColumn]? = some 'D' ∨ raw[indicatorColumn]? = some 'd') := by
  rw [indicatorOf_reference reference]
  cases raw[indicatorColumn]? with
  | none => simp
  | some character =>
      simp only [Option.elim_some, Option.some.injEq]
      unfold Indicator.ofChar
      split <;> simp_all

/-- In free format a line is a comment if a comment mark comes before all else that is visible, and
a normal line otherwise. -/
theorem indicatorOf_free_iff (raw : List Char) :
    (indicatorOf .free raw = .comment ↔ ∃ blanks rest, raw = blanks ++ '*' :: '>' :: rest ∧
      Text.isBlankText blanks = true) ∧
    (indicatorOf .free raw = .normal ↔ indicatorOf .free raw ≠ .comment) := by
  have marks : (['*', '>'].isPrefixOf (Text.trimStart raw) = true) ↔
      ∃ blanks rest, raw = blanks ++ '*' :: '>' :: rest ∧ Text.isBlankText blanks = true := by
    rw [List.isPrefixOf_iff_prefix]
    constructor
    · rintro ⟨rest, begins⟩
      refine ⟨raw.takeWhile Text.isBlank, rest, ?_, List.all_takeWhile⟩
      change _ = _ ++ (['*', '>'] ++ rest)
      rw [begins]
      exact List.takeWhile_append_dropWhile.symm
    · rintro ⟨blanks, rest, rfl, blank⟩
      refine ⟨rest, ?_⟩
      unfold Text.trimStart
      rw [List.dropWhile_append_of_pos (List.all_eq_true.mp blank)]
      rfl
  rw [← marks]
  change ((if _ then Indicator.comment else .normal) = _ ↔ _) ∧
    ((if _ then Indicator.comment else .normal) = _ ↔
      (if _ then Indicator.comment else .normal) ≠ _)
  by_cases mark : ['*', '>'].isPrefixOf (Text.trimStart raw) = true
  · simp [mark]
  · simp [mark]

/-! ### Content -/

theorem readLine_content (format : Format) (number : Nat) (raw : List Char) (place : Nat) :
    (readLine format number raw).content[place]? =
      if InTextArea format (textColumn format + place) then raw[textColumn format + place]?
      else none := by
  cases format with
  | fixed =>
      change ((raw.take rightMargin).drop programTextColumn)[place]? = _
      rw [List.getElem?_drop, List.getElem?_take]
      by_cases below : programTextColumn + place < rightMargin
      · rw [if_pos below, if_pos ⟨Nat.le_add_right _ _, fun _ => below⟩]
        rfl
      · rw [if_neg below, if_neg fun inside => below (inside.2 rfl)]
  | variableLength =>
      change (raw.drop programTextColumn)[place]? = _
      rw [List.getElem?_drop, if_pos ⟨Nat.le_add_right _ _, fun none => nomatch none⟩]
      rfl
  | free =>
      rw [if_pos ⟨Nat.zero_le _, fun none => nomatch none⟩]
      exact congrArg (raw[·]?) (Nat.zero_add place).symm

theorem readLine_content_take (format : Format) (number : Nat) (raw : List Char) {place : Nat}
    (inside : InTextArea format (textColumn format + place)) :
    (readLine format number raw).content.take place =
      (raw.take (textColumn format + place)).drop (textColumn format) := by
  refine List.ext_getElem? fun index => ?_
  rw [List.getElem?_take, readLine_content, List.getElem?_drop, List.getElem?_take]
  by_cases before : index < place
  · rw [if_pos before, if_pos (Nat.add_lt_add_left before _), if_pos]
    refine ⟨Nat.le_add_right _ _, fun fixed => ?_⟩
    exact Nat.lt_trans (Nat.add_lt_add_left before _) (inside.2 fixed)
  · rw [if_neg before, if_neg]
    exact fun below => before (Nat.lt_of_add_lt_add_left below)

theorem readLine_offset (format : Format) (number : Nat) (raw : List Char) :
    (readLine format number raw).offset = textColumn format := by
  cases format <;> rfl

theorem readLine_indicator (format : Format) (number : Nat) (raw : List Char) :
    (readLine format number raw).indicator = indicatorOf format raw := by
  cases format <;> rfl

/-! ### Up to the first comment -/

/-- A comment mark in program text, a literal being open at its start or not. -/
structure MarkAt (opened : Option Char) (content : List Char) (place : Nat) : Prop where
  star : content[place]? = some '*'
  greater : content[place + 1]? = some '>'
  outside : (content.take place).foldl quoteAfter opened = none

theorem markAt_cons_zero {opened : Option Char} {character : Char} {rest : List Char} :
    MarkAt opened (character :: rest) 0 ↔
      opened = none ∧ character = '*' ∧ rest.head? = some '>' := by
  constructor
  · rintro ⟨star, greater, outside⟩
    refine ⟨outside, Option.some.inj star, ?_⟩
    rw [List.head?_eq_getElem?]
    exact greater
  · rintro ⟨outside, rfl, greater⟩
    refine ⟨rfl, ?_, outside⟩
    rw [List.head?_eq_getElem?] at greater
    exact greater

theorem markAt_cons_succ {opened : Option Char} {character : Char} {rest : List Char}
    {place : Nat} :
    MarkAt opened (character :: rest) (place + 1) ↔
      MarkAt (quoteAfter opened character) rest place :=
  ⟨fun ⟨star, greater, outside⟩ => ⟨star, greater, outside⟩,
    fun ⟨star, greater, outside⟩ => ⟨star, greater, outside⟩⟩

theorem beforeComment_getElem? (opened : Option Char) (content : List Char) (place : Nat)
    (character : Char) :
    (beforeComment opened content)[place]? = some character ↔
      content[place]? = some character ∧
        ∀ earlier ≤ place, ¬MarkAt opened content earlier := by
  induction content generalizing opened place with
  | nil =>
      refine iff_of_false (fun none => ?_) (fun both => ?_)
      · cases none
      · cases both.1
  | cons first rest ih =>
      rw [beforeComment]
      split
      next mark =>
        refine iff_of_false (fun none => ?_) (fun both => ?_)
        · cases none
        · exact both.2 0 (Nat.zero_le place) (markAt_cons_zero.mpr mark)
      next unmarked =>
        have clear : ¬MarkAt opened (first :: rest) 0 := fun mark =>
          unmarked (markAt_cons_zero.mp mark)
        cases place with
        | zero =>
            refine (and_iff_left fun earlier within => ?_).symm
            rw [Nat.le_zero.mp within]
            exact clear
        | succ place =>
            rw [List.getElem?_cons_succ, List.getElem?_cons_succ, ih]
            refine and_congr_right fun _ => ⟨fun later earlier within => ?_, fun all => ?_⟩
            · cases earlier with
              | zero => exact clear
              | succ earlier =>
                  exact fun mark => later earlier (Nat.le_of_succ_le_succ within)
                    (markAt_cons_succ.mp mark)
            · exact fun earlier within mark => all (earlier + 1) (Nat.succ_le_succ within)
                (markAt_cons_succ.mpr mark)

theorem markAt_content_iff (format : Format) (number : Nat) (raw : List Char) (place : Nat) :
    MarkAt none (readLine format number raw).content place ↔
      CommentAt format raw (textColumn format + place) := by
  have characters := readLine_content format number raw
  constructor
  · rintro ⟨star, greater, outside⟩
    rw [characters] at star greater
    split at star
    next area =>
      split at greater
      next within =>
        rw [readLine_content_take format number raw area] at outside
        exact ⟨star, area, greater, within, outside⟩
      next => cases greater
    next => cases star
  · rintro ⟨star, area, greater, within, outside⟩
    refine ⟨?_, ?_, ?_⟩
    · rw [characters, if_pos area]
      exact star
    · rw [characters, if_pos (show InTextArea format (textColumn format + (place + 1)) from within)]
      exact greater
    · rw [readLine_content_take format number raw area]
      exact outside

/-! ### Each line by itself -/

variable {format : Format} {asCode : Bool} {raw : List Char} {number : Nat}

theorem stripComment_content_of_code (code : indicatorOf format raw ≠ .comment) :
    (Stage.stripComment (readLine format number raw)).content =
      beforeComment none (readLine format number raw).content := by
  have notComment : (readLine format number raw).isComment = false := by
    unfold Line.isComment
    rw [readLine_indicator]
    exact beq_eq_false_iff_ne.mpr code
  unfold Stage.stripComment
  rw [if_neg (Bool.eq_false_iff.mp notComment)]
  rfl

theorem stripComment_indicator (line : Line) :
    (Stage.stripComment line).indicator = line.indicator := by
  unfold Stage.stripComment
  split <;> rfl

theorem prepare_content_of_speaks (speaks : Speaks asCode (indicatorOf format raw)) :
    (prepare format asCode number raw).content =
      beforeComment none (readLine format number raw).content := by
  have code : indicatorOf format raw ≠ .comment := by
    rintro comment
    rw [comment] at speaks
    rcases speaks with none | ⟨none, _⟩ <;> cases none
  have content := @stripComment_content_of_code format raw number code
  rw [← content]
  unfold prepare Stage.settleDebugLine
  split
  next debug =>
    rw [stripComment_indicator, readLine_indicator] at debug
    rcases speaks with normal | ⟨_, kept⟩
    · rw [debug] at normal
      cases normal
    · rw [if_pos kept]
  next => rfl

theorem prepare_offset : (prepare format asCode number raw).offset = textColumn format := by
  have stripped : (Stage.stripComment (readLine format number raw)).offset =
      (readLine format number raw).offset := by
    unfold Stage.stripComment
    split <;> rfl
  rw [← readLine_offset format number raw, ← stripped]
  unfold prepare Stage.settleDebugLine
  split
  · split <;> rfl
  · rfl

theorem prepare_isContinuation :
    (prepare format asCode number raw).isContinuation = true ↔
      indicatorOf format raw = .continuation := by
  have stripped := stripComment_indicator (readLine format number raw)
  rw [readLine_indicator] at stripped
  unfold prepare Stage.settleDebugLine Line.isContinuation
  rw [beq_iff_eq]
  split
  next debug =>
    have other : indicatorOf format raw ≠ .continuation := by
      rw [← stripped, debug]
      decide
    refine iff_of_false ?_ other
    split
    · exact Indicator.noConfusion
    · change (Stage.stripComment (readLine format number raw)).indicator ≠ _
      rw [debug]
      decide
  next => rw [stripped]

theorem prepare_content_of_silent (silent : ¬Speaks asCode (indicatorOf format raw))
    (whole : indicatorOf format raw ≠ .continuation) :
    (prepare format asCode number raw).content = [] := by
  have stripped := stripComment_indicator (readLine format number raw)
  rw [readLine_indicator] at stripped
  unfold prepare Stage.settleDebugLine
  rw [stripped]
  cases indicator : indicatorOf format raw with
  | normal => exact absurd (Or.inl indicator) silent
  | continuation => exact absurd indicator whole
  | debug =>
      have blanked : asCode = false := by
        apply Bool.eq_false_iff.mpr
        exact fun kept => silent (Or.inr ⟨indicator, kept⟩)
      rw [if_pos rfl, blanked]
      rfl
  | comment =>
      have comment : (readLine format number raw).isComment = true := by
        unfold Line.isComment
        rw [readLine_indicator, indicator]
        rfl
      rw [if_neg (by decide)]
      unfold Stage.stripComment
      rw [if_pos comment]
      rfl

theorem prepare_getElem? (speaks : Speaks asCode (indicatorOf format raw)) (place : Nat)
    (character : Char) :
    (prepare format asCode number raw).content[place]? = some character ↔
      Survives format asCode raw (textColumn format + place) ∧
        raw[textColumn format + place]? = some character := by
  rw [prepare_content_of_speaks speaks, beforeComment_getElem?, readLine_content]
  constructor
  · rintro ⟨there, unmarked⟩
    split at there
    next area =>
      refine ⟨⟨speaks, area, fun column within comment => ?_⟩, there⟩
      obtain ⟨earlier, rfl⟩ := Nat.exists_eq_add_of_le comment.area.1
      exact unmarked earlier (Nat.le_of_add_le_add_left within)
        ((markAt_content_iff format number raw earlier).mpr comment)
    next => cases there
  · rintro ⟨survives, there⟩
    rw [if_pos survives.area]
    refine ⟨there, fun earlier within mark => ?_⟩
    exact survives.uncommented _ (Nat.add_le_add_left within _)
      ((markAt_content_iff format number raw earlier).mp mark)

theorem getElem?_of_trimEnd {text : List Char} {place : Nat} {character : Char}
    (there : (Text.trimEnd text)[place]? = some character) : text[place]? = some character := by
  obtain ⟨blanks, split⟩ := Text.trimEnd_starts text
  obtain ⟨bound, _⟩ := List.getElem?_eq_some_iff.mp there
  rw [← split, List.getElem?_append_left bound]
  exact there

theorem trimEnd_getElem? {text : List Char} {place : Nat} {character : Char}
    (there : text[place]? = some character) (visible : Text.isBlank character = false) :
    (Text.trimEnd text)[place]? = some character := by
  obtain ⟨blanks, split, blank⟩ := Text.exists_blanks text
  rw [split] at there
  rcases Nat.lt_or_ge place (Text.trimEnd text).length with within | beyond
  · rw [List.getElem?_append_left within] at there
    exact there
  · rw [List.getElem?_append_right beyond] at there
    rw [List.all_eq_true.mp blank character (List.mem_of_getElem? there)] at visible
    cases visible

theorem OwnText.nil (silent : ¬Speaks asCode (indicatorOf format raw)) :
    OwnText format asCode raw [] := by
  constructor
  · intro column character none
    cases none
  · intro column character survives
    exact absurd survives.speaks silent

/-- A line by itself is written with what survives of it, unless it is a continuation line. -/
theorem written_prepare (whole : indicatorOf format raw ≠ .continuation) :
    OwnText format asCode raw (prepare format asCode number raw).written := by
  by_cases speaks : Speaks asCode (indicatorOf format raw)
  · have characters := @prepare_getElem? format asCode raw number speaks
    have written := (prepare format asCode number raw).getElem?_written
    rw [prepare_offset] at written
    constructor
    · intro column character there
      by_cases before : column < textColumn format
      · left
        have margin : column < (prepare format asCode number raw).offset := by
          rw [prepare_offset]
          exact before
        exact ⟨before, Line.eq_space_of_written margin there⟩
      · right
        obtain ⟨place, rfl⟩ := Nat.exists_eq_add_of_le (Nat.le_of_not_lt before)
        rw [written] at there
        exact (characters place character).mp (getElem?_of_trimEnd there)
    · intro column character survives there visible
      obtain ⟨place, rfl⟩ := Nat.exists_eq_add_of_le survives.area.1
      rw [written]
      exact trimEnd_getElem? ((characters place character).mpr ⟨survives, there⟩) visible
  · rw [Line.written_of_empty (prepare_content_of_silent speaks whole)]
    exact .nil speaks

/-! ### Lines that are joined -/

/-- The line has a visible character that survives. -/
def HasCode (format : Format) (asCode : Bool) (raw : List Char) : Prop :=
  ∃ (column : Nat) (character : Char), Survives format asCode raw column ∧
    raw[column]? = some character ∧ Text.isBlank character = false

/-- A continuation line is joined onto the line: it comes after it, and no line between them is one
that it could continue instead. -/
structure Continued (format : Format) (asCode : Bool) (raws : List (List Char)) (number : Nat) :
    Prop where
  code : ∃ raw, raws[number]? = some raw ∧ HasCode format asCode raw
  continuation : ∃ later, number < later ∧
    (∃ raw, raws[later]? = some raw ∧ indicatorOf format raw = .continuation) ∧
    ∀ between raw, number < between → between < later → raws[between]? = some raw →
      ¬HasCode format asCode raw

theorem prepare_indicator_of_speaks (speaks : Speaks asCode (indicatorOf format raw)) :
    (prepare format asCode number raw).indicator = .normal := by
  have stripped := stripComment_indicator (readLine format number raw)
  rw [readLine_indicator] at stripped
  unfold prepare Stage.settleDebugLine
  rw [stripped]
  rcases speaks with normal | ⟨debug, kept⟩
  · rw [if_neg (by rw [normal]; decide), stripped, normal]
  · rw [if_pos debug, if_pos kept]

theorem isCode_prepare :
    Stage.isCode (prepare format asCode number raw) = true ↔ HasCode format asCode raw := by
  have blank : Text.isBlankText (prepare format asCode number raw).content = false ↔
      ∃ character ∈ (prepare format asCode number raw).content,
        Text.isBlank character = false := by
    unfold Text.isBlankText
    simp only [List.all_eq_false, Bool.not_eq_true]
  unfold Stage.isCode
  simp only [Bool.and_eq_true, Bool.not_eq_true', Line.isBlank, blank]
  constructor
  · rintro ⟨⟨whole, _⟩, character, member, visible⟩
    have other : indicatorOf format raw ≠ .continuation := fun continues =>
      Bool.eq_false_iff.mp whole (prepare_isContinuation.mpr continues)
    by_cases speaks : Speaks asCode (indicatorOf format raw)
    · obtain ⟨place, there⟩ := List.mem_iff_getElem?.mp member
      obtain ⟨survives, stands⟩ := (prepare_getElem? speaks place character).mp there
      exact ⟨_, character, survives, stands, visible⟩
    · rw [prepare_content_of_silent speaks other] at member
      cases member
  · rintro ⟨column, character, survives, there, visible⟩
    have normal : (prepare format asCode number raw).indicator = .normal :=
      prepare_indicator_of_speaks survives.speaks
    refine ⟨⟨?_, ?_⟩, character, ?_, visible⟩
    · unfold Line.isContinuation
      rw [normal]
      rfl
    · unfold Line.isComment
      rw [normal]
      rfl
    · obtain ⟨place, rfl⟩ := Nat.exists_eq_add_of_le survives.area.1
      exact List.mem_of_getElem? ((prepare_getElem? survives.speaks place character).mpr
        ⟨survives, there⟩)

variable {raws : List (List Char)}

theorem prepareAll_getElem? (format : Format) (asCode : Bool) (raws : List (List Char))
    (number : Nat) :
    (prepareAll format asCode raws)[number]? =
      raws[number]?.map (prepare format asCode number) := List.getElem?_mapIdx

theorem continued_of_continuations (there : raws[number]? = some raw)
    (code : HasCode format asCode raw)
    (follow : Stage.continuations ((prepareAll format asCode raws).drop (number + 1)) ≠ []) :
    Continued format asCode raws number := by
  obtain ⟨later, ⟨line, present, continues⟩, free⟩ := Stage.exists_of_continuations follow
  rw [List.getElem?_drop, prepareAll_getElem?] at present
  obtain ⟨next, found, rfl⟩ := Option.map_eq_some_iff.mp present
  refine ⟨⟨raw, there, code⟩, number + 1 + later, by omega,
    ⟨next, found, prepare_isContinuation.mp continues⟩, ?_⟩
  intro between other after before stands hasCode
  obtain ⟨place, rfl⟩ := Nat.exists_eq_add_of_le after
  have idle := free place (prepare format asCode (number + 1 + place) other) (by omega) (by
    rw [List.getElem?_drop, prepareAll_getElem?, stands]
    rfl)
  rw [isCode_prepare.mpr hasCode] at idle
  cases idle

/-- Each line of the output holds what survives of the line at its place, and more only where a
continuation line is joined on. -/
theorem rendered_getElem? (there : raws[number]? = some raw) :
    ∃ own extra, (rendered format asCode raws)[number]? = some (own ++ extra) ∧
      OwnText format asCode raw own ∧ (extra ≠ [] → Continued format asCode raws number) ∧
      (¬Speaks asCode (indicatorOf format raw) → own ++ extra = []) := by
  unfold rendered
  rw [List.getElem?_map, Stage.getElem?_joinLines, prepareAll_getElem?, there]
  simp only [Option.map_some]
  by_cases continues : indicatorOf format raw = .continuation
  · rw [if_pos (prepare_isContinuation.mpr continues)]
    have silent : ¬Speaks asCode (indicatorOf format raw) := by
      rw [continues]
      rintro (none | ⟨none, _⟩) <;> cases none
    exact ⟨[], [], rfl, .nil silent, fun none => absurd rfl none, fun _ => rfl⟩
  · rw [if_neg fun found => continues (prepare_isContinuation.mp found)]
    have own : OwnText format asCode raw (prepare format asCode number raw).written :=
      written_prepare continues
    have nothing : ¬Speaks asCode (indicatorOf format raw) →
        (prepare format asCode number raw).written = [] := fun silent =>
      Line.written_of_empty (prepare_content_of_silent silent continues)
    split
    next code =>
      obtain ⟨extra, written, alone⟩ := Stage.written_joined code
        ((prepareAll format asCode raws).drop (number + 1))
      have hasCode := isCode_prepare.mp code
      refine ⟨_, extra, congrArg some written, own, fun more => ?_, fun silent => ?_⟩
      · exact continued_of_continuations there hasCode fun none => more (alone none)
      · obtain ⟨_, _, survives, _⟩ := hasCode
        exact absurd survives.speaks silent
    next =>
      refine ⟨_, [], congrArg some (List.append_nil _).symm, own, fun none => absurd rfl none, ?_⟩
      rwa [List.append_nil]

/-! ### Positions of lexemes -/

theorem OwnText.stands {own : List Char} (text : OwnText format asCode raw own) {lexeme : Lexeme}
    (stands : lexeme.StandsIn 0 own) :
    (raw.drop lexeme.column).take lexeme.text.length = lexeme.text := by
  obtain ⟨⟨before, after, rfl, column⟩, first, rest, shape, visible⟩ := stands
  rw [Nat.zero_add] at column
  have placed : ∀ index character, lexeme.text[index]? = some character →
      (before ++ lexeme.text ++ after)[lexeme.column + index]? = some character := by
    intro index character there
    obtain ⟨bound, _⟩ := List.getElem?_eq_some_iff.mp there
    rw [List.append_assoc, column, List.getElem?_append_right (Nat.le_add_right _ _),
      Nat.add_sub_cancel_left, List.getElem?_append_left bound]
    exact there
  have inside : textColumn format ≤ lexeme.column := by
    rcases text.faithful _ first (placed 0 first (by rw [shape]; rfl)) with ⟨_, rfl⟩ | ⟨survives, _⟩
    · exact absurd visible (by decide)
    · exact survives.area.1
  refine List.ext_getElem? fun index => ?_
  rw [List.getElem?_take, List.getElem?_drop]
  cases there : lexeme.text[index]? with
  | none =>
      rw [if_neg (Nat.not_lt_of_le (List.getElem?_eq_none_iff.mp there))]
  | some character =>
      obtain ⟨bound, _⟩ := List.getElem?_eq_some_iff.mp there
      rw [if_pos bound]
      rcases text.faithful _ character (placed index character there) with
        ⟨outside, _⟩ | ⟨_, same⟩
      · omega
      · exact same

/-! ### Whole texts -/

/-- What a text keeps of the lines it comes from. -/
structure KeepsPositions (format : Format) (asCode : Bool) (raws : List (List Char))
    (output : List Char) : Prop where
  empty : raws = [] → output.splitOn '\n' = [[]]
  segments : raws ≠ [] → (output.splitOn '\n').length = raws.length
  text : ∀ (number : Nat) (raw : List Char), raws[number]? = some raw →
    ∃ own extra, (output.splitOn '\n')[number]? = some (own ++ extra) ∧
      OwnText format asCode raw own ∧ (extra ≠ [] → Continued format asCode raws number)
  /-- Comment lines, continuation lines, and debug lines that are no code. -/
  silent : ∀ (number : Nat) (raw : List Char), raws[number]? = some raw →
    ¬Speaks asCode (indicatorOf format raw) → (output.splitOn '\n')[number]? = some []
  lexemes : ∀ lexeme ∈ Lexeme.scan output, ∃ raw, raws[lexeme.line]? = some raw ∧
    (¬Continued format asCode raws lexeme.line →
      (raw.drop lexeme.column).take lexeme.text.length = lexeme.text)

theorem unlines_keepsPositions (format : Format) (asCode : Bool)
    (oneLine : ∀ raw ∈ raws, '\n' ∉ raw) :
    KeepsPositions format asCode raws (Text.unlines (rendered format asCode raws)) := by
  have tidy := rendered_tidy format asCode oneLine
  have split : raws ≠ [] → (Text.unlines (rendered format asCode raws)).splitOn '\n' =
      rendered format asCode raws := by
    intro present
    refine Text.splitOn_unlines (fun line member => (tidy line member).oneLine) fun none => ?_
    have count := length_rendered format asCode raws
    rw [none] at count
    exact present (List.eq_nil_of_length_eq_zero count.symm)
  have nonempty : ∀ {number : Nat} {raw : List Char}, raws[number]? = some raw → raws ≠ [] := by
    rintro number raw there rfl
    cases there
  constructor
  · rintro rfl
    rfl
  · intro present
    rw [split present, length_rendered]
  · intro number raw there
    obtain ⟨own, extra, written, text, more, _⟩ := rendered_getElem? there
    rw [split (nonempty there)]
    exact ⟨own, extra, written, text, more⟩
  · intro number raw there silent
    obtain ⟨own, extra, written, _, _, nothing⟩ := rendered_getElem? there
    rw [split (nonempty there), written, nothing silent]
  · intro lexeme member
    rw [Lexeme.scan_unlines tidy] at member
    obtain ⟨index, line, present, number, stands⟩ := Lexeme.mem_scanLines member
    rw [Nat.zero_add] at number
    subst number
    obtain ⟨bound, _⟩ := List.getElem?_eq_some_iff.mp present
    rw [length_rendered] at bound
    obtain ⟨raw, there⟩ : ∃ raw, raws[lexeme.line]? = some raw :=
      ⟨_, List.getElem?_eq_getElem bound⟩
    refine ⟨raw, there, fun alone => ?_⟩
    obtain ⟨own, extra, written, text, more, _⟩ := rendered_getElem? there
    have none : extra = [] := by
      by_cases joined : extra = []
      · exact joined
      · exact absurd (more joined) alone
    rw [written, none, List.append_nil] at present
    rw [← Option.some.inj present] at stands
    exact text.stands stands

/-- Preprocessing by the standard stages refuses a text at its first line with a NUL character, and
keeps the positions of any other. -/
theorem positions_kept (asCode : Bool) (uri : String) (format : Format) (text : List Char) :
    match preprocess (.pipeline (Stage.standard asCode)) uri format text with
    | .error failure => ∃ number, FirstBinary (Text.lines text) number ∧
        failure = .binaryContent (number + 1)
    | .ok output => (∀ raw ∈ Text.lines text, '\x00' ∉ raw) ∧
        KeepsPositions format asCode (Text.lines text) output.value := by
  rcases preprocess_standard asCode uri format text with
    ⟨number, first, refused⟩ | ⟨clean, diagnostics, written⟩
  · rw [refused]
    exact ⟨number, first, rfl⟩
  · rw [written]
    exact ⟨clean, unlines_keepsPositions format asCode fun raw =>
      Text.newline_not_mem_of_mem_lines⟩

end CobolAnalysis.Source
