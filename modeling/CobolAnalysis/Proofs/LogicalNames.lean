/-
The normal form of copybook names.

A name that is read has no blanks and no small letters. What is written around it is taken
away in three passes: blanks, then quotes, then the blanks inside those quotes. Quotes that
come to light in the last pass stay, so a name begins or ends with a quote exactly if the
written text has quotes, blanks and quotes again at that end. All other names are read as
themselves, and are the same for all spellings that differ in letter case and in the blanks
and quotes around them.
-/

import CobolAnalysis.LogicalName
import CobolAnalysis.Proofs.Text.LetterCase
import CobolAnalysis.Proofs.Text.Stripping

namespace CobolAnalysis.LogicalName

/-- The name is in capitals, as every name that is read. -/
def Normal (name : LogicalName) : Prop := Text.upper name.text = name.text

/-! ### Capitals -/

theorem isQuote_toUpper (character : Char) : isQuote character.toUpper = isQuote character := by
  simp (disch := decide) only [isQuote, Text.Caseless.toUpper_beq]

theorem any_isBlank_upper (text : List Char) :
    (Text.upper text).any Text.isBlank = text.any Text.isBlank := by
  unfold Text.upper
  rw [List.any_map]
  exact congrArg text.any (funext Text.isBlank_toUpper)

/-! ### What is read -/

/-- What stands around names. -/
def isMargin (character : Char) : Bool := Text.isBlank character || isQuote character

theorem parse_eq_ok_iff {written : List Char} {name : LogicalName} :
    parse written = .ok name ↔
      bare written ≠ [] ∧ (bare written).any Text.isBlank = false ∧
        name = ⟨Text.upper (bare written)⟩ := by
  unfold parse
  simp only [List.isEmpty_iff]
  split
  next nothing => exact iff_of_false (fun none => nomatch none) fun all => all.1 nothing
  next present =>
    split
    next blank =>
      refine iff_of_false (fun none => nomatch none) fun all => ?_
      exact Bool.eq_false_iff.mp all.2.1 blank
    next noBlank =>
      rw [Except.ok.injEq, eq_comm]
      exact ⟨fun same => ⟨present, Bool.eq_false_iff.mpr noBlank, same⟩, fun all => all.2.2⟩

theorem normal_of_parse {written : List Char} {name : LogicalName}
    (parsed : parse written = .ok name) : name.Normal := by
  obtain ⟨_, _, rfl⟩ := parse_eq_ok_iff.mp parsed
  exact Text.upper_upper _

theorem bare_eq_strip (written : List Char) :
    bare written =
      Text.strip Text.isBlank (Text.strip isQuote (Text.strip Text.isBlank written)) := by
  unfold bare
  rw [Text.trim_eq_strip, Text.trim_eq_strip]
  rfl

theorem bare_upper (written : List Char) :
    bare (Text.upper written) = Text.upper (bare written) := by
  unfold Text.upper
  rw [bare_eq_strip, bare_eq_strip, Text.strip_map Text.isBlank_toUpper,
    Text.strip_map isQuote_toUpper, Text.strip_map Text.isBlank_toUpper]

theorem bare_reverse (written : List Char) : bare written.reverse = (bare written).reverse := by
  rw [bare_eq_strip, bare_eq_strip, Text.strip_reverse, Text.strip_reverse, Text.strip_reverse]

theorem isMargin_of_isBlank (character : Char) (blank : Text.isBlank character = true) :
    isMargin character = true :=
  Bool.or_eq_true_iff.mpr (.inl blank)

theorem isMargin_of_isQuote (character : Char) (quote : isQuote character = true) :
    isMargin character = true :=
  Bool.or_eq_true_iff.mpr (.inr quote)

theorem strip_bare (written : List Char) :
    Text.strip isMargin (bare written) = Text.strip isMargin written := by
  rw [bare_eq_strip, Text.strip_strip isMargin_of_isBlank, Text.strip_strip isMargin_of_isQuote,
    Text.strip_strip isMargin_of_isBlank]

theorem bare_of_stripped {text : List Char} (stripped : Text.Stripped isMargin text) :
    bare text = text := by
  have blanks := (stripped.imp isMargin_of_isBlank).strip
  rw [bare_eq_strip, blanks, (stripped.imp isMargin_of_isQuote).strip, blanks]

/-! ### Quotes that stay -/

def BeginsWithQuote (text : List Char) : Prop :=
  ∃ quote rest, text = quote :: rest ∧ isQuote quote = true

def EndsWithQuote (text : List Char) : Prop :=
  ∃ before quote, text = before ++ [quote] ∧ isQuote quote = true

/-- After quotes and the blanks inside them, the text opens with a quote again. -/
def Reopens (written : List Char) : Prop :=
  ∃ outer quotes inner quote rest, written = outer ++ (quotes ++ (inner ++ quote :: rest)) ∧
    outer.all Text.isBlank = true ∧ quotes ≠ [] ∧ quotes.all isQuote = true ∧
      inner ≠ [] ∧ inner.all Text.isBlank = true ∧ isQuote quote = true

/-- The same, read from the end. -/
def Recloses (written : List Char) : Prop := Reopens written.reverse

theorem endsWithQuote_iff (text : List Char) :
    EndsWithQuote text ↔ BeginsWithQuote text.reverse := by
  constructor
  · rintro ⟨before, quote, rfl, isQuote⟩
    exact ⟨quote, before.reverse, List.reverse_concat, isQuote⟩
  · rintro ⟨quote, rest, shape, isQuote⟩
    refine ⟨rest.reverse, quote, ?_, isQuote⟩
    rw [← List.reverse_cons, ← shape, List.reverse_reverse]

theorem not_isQuote_of_isBlank {character : Char} (blank : Text.isBlank character = true) :
    isQuote character = false := by
  apply Bool.eq_false_iff.mpr
  intro quote
  unfold isQuote at quote
  rw [Bool.or_eq_true, beq_iff_eq, beq_iff_eq] at quote
  rcases quote with rfl | rfl
  · exact absurd blank (by decide)
  · exact absurd blank (by decide)

theorem not_isBlank_of_isQuote {character : Char} (quote : isQuote character = true) :
    Text.isBlank character = false := by
  apply Bool.eq_false_iff.mpr
  intro blank
  rw [not_isQuote_of_isBlank blank] at quote
  cases quote

theorem reopens_of_begins {written : List Char} (begins : BeginsWithQuote (bare written)) :
    Reopens written := by
  rw [bare_eq_strip] at begins
  obtain ⟨outer, last, cut, outerBlank, _, trimmed⟩ := Text.exists_strip Text.isBlank written
  obtain ⟨quotes, closing, quoted, areQuotes, _, stripped⟩ :=
    Text.exists_strip isQuote (Text.strip Text.isBlank written)
  obtain ⟨inner, behind, inside, innerBlank, _, _⟩ :=
    Text.exists_strip Text.isBlank (Text.strip isQuote (Text.strip Text.isBlank written))
  obtain ⟨quote, rest, shape, isQuote⟩ := begins
  rw [shape] at inside
  -- Without blanks before it, the quote would have been taken away with the quotes before it.
  have innerPresent : inner ≠ [] := by
    rintro rfl
    rw [inside] at stripped
    exact Bool.eq_false_iff.mp (stripped.first quote rfl) isQuote
  have quotesPresent : quotes ≠ [] := by
    rintro rfl
    obtain ⟨blank, others, rfl⟩ := List.exists_cons_of_ne_nil innerPresent
    rw [quoted, inside] at trimmed
    have visible := trimmed.first blank rfl
    rw [List.all_eq_true.mp innerBlank blank List.mem_cons_self] at visible
    cases visible
  refine ⟨outer, quotes, inner, quote, rest ++ behind ++ closing ++ last, ?_, outerBlank,
    quotesPresent, areQuotes, innerPresent, innerBlank, isQuote⟩
  rw [inside] at quoted
  rw [quoted] at cut
  rw [cut]
  simp only [List.append_assoc, List.cons_append]

theorem BeginsWithQuote.trimEnd {text : List Char} (begins : BeginsWithQuote text) :
    BeginsWithQuote (Text.trimEnd text) := by
  obtain ⟨quote, rest, rfl, isQuote⟩ := begins
  have visible := not_isBlank_of_isQuote isQuote
  rw [Text.trimEnd]
  split
  next =>
    rw [visible]
    exact ⟨quote, [], rfl, isQuote⟩
  next next others _ => exact ⟨quote, next :: others, rfl, isQuote⟩

theorem BeginsWithQuote.trim {text : List Char} (begins : BeginsWithQuote text) :
    BeginsWithQuote (Text.trim text) := by
  have started : Text.trimStart text = text := by
    obtain ⟨quote, rest, rfl, isQuote⟩ := begins
    exact List.dropWhile_cons_of_neg (Bool.eq_false_iff.mp (not_isBlank_of_isQuote isQuote))
  unfold Text.trim
  rw [started]
  exact begins.trimEnd

theorem Reopens.begins {written : List Char} (reopens : Reopens written) :
    bare written = [] ∨ BeginsWithQuote (bare written) := by
  obtain ⟨outer, quotes, inner, quote, rest, rfl, outerBlank, quotesPresent, areQuotes,
    innerPresent, innerBlank, isQuote⟩ := reopens
  obtain ⟨blanks, cut, blank⟩ := Text.exists_blanks (quote :: rest)
  have begins : BeginsWithQuote (Text.trimEnd (quote :: rest)) :=
    BeginsWithQuote.trimEnd ⟨quote, rest, rfl, isQuote⟩
  have last : ∀ character ∈ (Text.trimEnd (quote :: rest)).getLast?,
      Text.isBlank character = false := fun _ => (Text.trimmed_trimEnd (quote :: rest)).getLast
  generalize Text.trimEnd (quote :: rest) = kept at cut begins last
  have trimmed : Text.strip Text.isBlank (outer ++ (quotes ++ (inner ++ quote :: rest))) =
      quotes ++ (inner ++ kept) := by
    rw [cut]
    have regrouped : outer ++ (quotes ++ (inner ++ (kept ++ blanks))) =
        outer ++ ((quotes ++ (inner ++ kept)) ++ blanks) := by
      simp only [List.append_assoc]
    rw [regrouped]
    refine Text.strip_wrapped outerBlank (.prepend quotesPresent ?_ ?_) blank
    · exact fun character member =>
        not_isBlank_of_isQuote (List.all_eq_true.mp areQuotes character member)
    · intro character ends
      obtain ⟨first, others, rfl, _⟩ := begins
      rw [List.getLast?_append_of_ne_nil inner (List.cons_ne_nil first others)] at ends
      exact last character ends
  obtain ⟨closing, split, areClosing, ends⟩ :=
    Text.exists_rdropWhile LogicalName.isQuote kept
  have stripped : Text.strip LogicalName.isQuote (quotes ++ (inner ++ kept)) =
      inner ++ kept.rdropWhile LogicalName.isQuote := by
    conv_lhs => rw [split, ← List.append_assoc inner]
    refine Text.strip_wrapped areQuotes (.prepend innerPresent ?_ ends) areClosing
    exact fun character member =>
      not_isQuote_of_isBlank (List.all_eq_true.mp innerBlank character member)
  have whole : bare (outer ++ (quotes ++ (inner ++ quote :: rest))) =
      Text.trim (kept.rdropWhile LogicalName.isQuote) := by
    have nothing : ([] : List Char).all Text.isBlank = true := List.all_nil
    have blanksGone := Text.strip_append innerBlank nothing (kept.rdropWhile LogicalName.isQuote)
    rw [List.append_nil] at blanksGone
    rw [bare_eq_strip, trimmed, stripped, blanksGone, Text.trim_eq_strip]
  rw [whole]
  cases left : kept.rdropWhile LogicalName.isQuote with
  | nil => exact Or.inl rfl
  | cons first others =>
      right
      obtain ⟨same, more, rfl, isQuote⟩ := begins
      rw [left] at split
      obtain ⟨rfl, _⟩ := List.cons.inj split
      exact BeginsWithQuote.trim ⟨same, others, rfl, isQuote⟩

/-! ### The normal form -/

theorem stripped_bare {written : List Char} (plain : ¬BeginsWithQuote (bare written))
    (closed : ¬EndsWithQuote (bare written)) : Text.Stripped isMargin (bare written) := by
  have trimmed : Text.Stripped Text.isBlank (bare written) := by
    rw [bare_eq_strip]
    exact Text.stripped_strip _ _
  refine ⟨fun character begins => ?_, fun character ends => ?_⟩
  · obtain ⟨rest, shape⟩ := List.head?_eq_some_iff.mp begins
    refine Bool.or_eq_false_iff.mpr ⟨trimmed.first character begins, ?_⟩
    exact Bool.eq_false_iff.mpr fun quote => plain ⟨character, rest, shape, quote⟩
  · obtain ⟨before, shape⟩ := List.getLast?_eq_some_iff.mp ends
    refine Bool.or_eq_false_iff.mpr ⟨trimmed.last character ends, ?_⟩
    exact Bool.eq_false_iff.mpr fun quote => closed ⟨before, character, shape, quote⟩

/-- Without quotes that come to light late, all blanks and quotes at the ends are taken away. -/
theorem bare_of_plain {written : List Char} (plain : ¬Reopens written)
    (closed : ¬Recloses written) : bare written = Text.strip isMargin written := by
  have stripped : Text.Stripped isMargin (bare written) := by
    refine stripped_bare (fun begins => plain (reopens_of_begins begins)) fun ends => closed ?_
    rw [endsWithQuote_iff, ← bare_reverse] at ends
    exact reopens_of_begins ends
  rw [← strip_bare, stripped.strip]

theorem beginsWithQuote_upper (text : List Char) :
    BeginsWithQuote (Text.upper text) ↔ BeginsWithQuote text := by
  constructor
  · rintro ⟨quote, rest, shape, isQuote⟩
    obtain ⟨first, others, rfl, rfl, _⟩ := List.map_eq_cons_iff.mp shape
    exact ⟨first, others, rfl, (isQuote_toUpper first).symm.trans isQuote⟩
  · rintro ⟨quote, rest, rfl, isQuote⟩
    exact ⟨quote.toUpper, Text.upper rest, rfl, (isQuote_toUpper quote).trans isQuote⟩

variable {written other : List Char} {name : LogicalName}

theorem begins_iff_reopens (parsed : parse written = .ok name) :
    BeginsWithQuote name.text ↔ Reopens written := by
  obtain ⟨present, _, rfl⟩ := parse_eq_ok_iff.mp parsed
  rw [beginsWithQuote_upper]
  exact ⟨reopens_of_begins, fun reopens => reopens.begins.resolve_left present⟩

theorem parse_reverse (parsed : parse written = .ok name) :
    parse written.reverse = .ok ⟨name.text.reverse⟩ := by
  obtain ⟨present, noBlank, rfl⟩ := parse_eq_ok_iff.mp parsed
  refine parse_eq_ok_iff.mpr ⟨?_, ?_, ?_⟩
  · rw [bare_reverse]
    exact fun none => present (List.reverse_eq_nil_iff.mp none)
  · rw [bare_reverse, List.any_reverse, noBlank]
  · rw [bare_reverse]
    exact congrArg mk List.map_reverse.symm

theorem ends_iff_recloses (parsed : parse written = .ok name) :
    EndsWithQuote name.text ↔ Recloses written := by
  rw [endsWithQuote_iff]
  exact begins_iff_reopens (parse_reverse parsed)

theorem not_reopens {text : List Char} (noBlank : text.any Text.isBlank = false) :
    ¬Reopens text := by
  rintro ⟨outer, quotes, inner, quote, rest, rfl, _, _, _, present, blank, _⟩
  obtain ⟨first, others, rfl⟩ := List.exists_cons_of_ne_nil present
  rw [List.any_eq_false] at noBlank
  refine noBlank first ?_ (List.all_eq_true.mp blank first List.mem_cons_self)
  simp only [List.mem_append, List.mem_cons, true_or, or_true]

theorem parse_text_iff (parsed : parse written = .ok name) :
    parse name.text = .ok name ↔ ¬BeginsWithQuote name.text ∧ ¬EndsWithQuote name.text := by
  obtain ⟨present, noBlank, rfl⟩ := parse_eq_ok_iff.mp parsed
  constructor
  · intro again
    have visible := (any_isBlank_upper (bare written)).trans noBlank
    rw [begins_iff_reopens again, ends_iff_recloses again]
    refine ⟨not_reopens visible, not_reopens ?_⟩
    rw [List.any_reverse]
    exact visible
  · rintro ⟨plain, closed⟩
    rw [beginsWithQuote_upper] at plain
    have stripped : Text.Stripped isMargin (bare written) := by
      refine stripped_bare plain fun ends => closed ?_
      rw [endsWithQuote_iff] at ends ⊢
      rw [Text.upper, ← List.map_reverse]
      exact (beginsWithQuote_upper _).mpr ends
    refine parse_eq_ok_iff.mpr ?_
    change bare (Text.upper (bare written)) ≠ [] ∧ _
    rw [bare_upper, bare_of_stripped stripped, any_isBlank_upper, Text.upper_upper]
    exact ⟨fun none => present (List.map_eq_nil_iff.mp none), noBlank, rfl⟩

/-- The text, with nothing but blanks and quotes before and after it. -/
def Encloses (written text : List Char) : Prop :=
  ∃ before after, written = before ++ (text ++ after) ∧ before.all isMargin = true ∧
    after.all isMargin = true

/-- Written alike, but for letter case and the blanks and quotes around. -/
def SameSpelling (written other : List Char) : Prop :=
  ∃ text again, Encloses written text ∧ Encloses other again ∧
    Text.upper text = Text.upper again

theorem Encloses.strip {text : List Char} (encloses : Encloses written text) :
    Text.strip isMargin written = Text.strip isMargin text := by
  obtain ⟨before, after, rfl, opening, closing⟩ := encloses
  exact Text.strip_append opening closing text

theorem isMargin_toUpper (character : Char) :
    isMargin character.toUpper = isMargin character := by
  unfold isMargin
  rw [Text.isBlank_toUpper, isQuote_toUpper]

theorem SameSpelling.strip (same : SameSpelling written other) :
    Text.upper (Text.strip isMargin written) = Text.upper (Text.strip isMargin other) := by
  obtain ⟨text, again, encloses, others, equal⟩ := same
  unfold Text.upper at equal ⊢
  rw [encloses.strip, others.strip, ← Text.strip_map isMargin_toUpper,
    ← Text.strip_map isMargin_toUpper, equal]

theorem SameSpelling.parse (same : SameSpelling written other) (plain : ¬Reopens written)
    (closed : ¬Recloses written) (otherPlain : ¬Reopens other) (otherClosed : ¬Recloses other)
    (parsed : LogicalName.parse written = .ok name) : LogicalName.parse other = .ok name := by
  obtain ⟨present, noBlank, rfl⟩ := parse_eq_ok_iff.mp parsed
  have equal := same.strip
  rw [← bare_of_plain plain closed, ← bare_of_plain otherPlain otherClosed] at equal
  refine parse_eq_ok_iff.mpr ⟨?_, ?_, congrArg mk equal⟩
  · intro none
    rw [none] at equal
    exact present (List.map_eq_nil_iff.mp equal)
  · rw [← any_isBlank_upper, ← equal, any_isBlank_upper, noBlank]

/-- A name that is read is not empty and has neither blanks nor small letters. It begins or ends
with a quote exactly if the written text has quotes, blanks inside them and quotes again at that
end. Exactly the names without quotes at their ends are read as themselves, and all spellings
that differ in letter case and in the blanks and quotes around give the same name, as long as no
quotes stand inside the blanks inside the quotes. -/
theorem names_normal (parsed : parse written = .ok name) :
    name.text ≠ [] ∧
      (∀ character ∈ name.text, Text.isBlank character = false ∧ character.isLower = false) ∧
      (BeginsWithQuote name.text ↔ Reopens written) ∧
      (EndsWithQuote name.text ↔ Recloses written) ∧
      (parse name.text = .ok name ↔ ¬BeginsWithQuote name.text ∧ ¬EndsWithQuote name.text) ∧
      (¬Reopens written → ¬Recloses written → ∀ other, SameSpelling written other →
        ¬Reopens other → ¬Recloses other → parse other = .ok name) := by
  refine ⟨?_, ?_, begins_iff_reopens parsed, ends_iff_recloses parsed, parse_text_iff parsed,
    fun plain closed other same otherPlain otherClosed =>
      same.parse plain closed otherPlain otherClosed parsed⟩
  · obtain ⟨present, _, rfl⟩ := parse_eq_ok_iff.mp parsed
    exact fun none => present (List.map_eq_nil_iff.mp none)
  · obtain ⟨_, noBlank, rfl⟩ := parse_eq_ok_iff.mp parsed
    intro character member
    obtain ⟨original, there, rfl⟩ := List.mem_map.mp member
    refine ⟨?_, Text.isLower_toUpper original⟩
    rw [Text.isBlank_toUpper]
    exact Bool.eq_false_iff.mpr (List.any_eq_false.mp noBlank original there)

section Sample

/-- In other letters, with other quotes and blanks around. -/
theorem sample_names_normal :
    parse " 'custrec' ".toList = .ok ⟨"CUSTREC".toList⟩ ∧
      ¬Reopens " 'custrec' ".toList ∧ ¬Recloses " 'custrec' ".toList ∧
      SameSpelling " 'custrec' ".toList "\"CustRec\"".toList ∧
      ¬Reopens "\"CustRec\"".toList ∧ ¬Recloses "\"CustRec\"".toList ∧
      parse "CUSTREC".toList = .ok ⟨"CUSTREC".toList⟩ ∧
      parse "\"CustRec\"".toList = .ok ⟨"CUSTREC".toList⟩ := by
  have parsed : parse " 'custrec' ".toList = .ok ⟨"CUSTREC".toList⟩ := by decide +kernel
  obtain ⟨_, _, begins, ends, itself, spellings⟩ := names_normal parsed
  have plain : ¬BeginsWithQuote "CUSTREC".toList := by
    rintro ⟨first, rest, shape, quote⟩
    cases shape
    exact absurd quote (by decide)
  have closed : ¬EndsWithQuote "CUSTREC".toList := by
    rw [endsWithQuote_iff]
    rintro ⟨last, rest, shape, quote⟩
    cases shape
    exact absurd quote (by decide)
  have same : SameSpelling " 'custrec' ".toList "\"CustRec\"".toList :=
    ⟨"custrec".toList, "CustRec".toList, ⟨" '".toList, "' ".toList, by decide +kernel⟩,
      ⟨"\"".toList, "\"".toList, by decide +kernel⟩, by decide +kernel⟩
  have otherPlain : ¬Reopens "\"CustRec\"".toList := not_reopens (by decide +kernel)
  have otherClosed : ¬Recloses "\"CustRec\"".toList := not_reopens (by decide +kernel)
  exact ⟨parsed, begins.not.mp plain, ends.not.mp closed, same, otherPlain, otherClosed,
    itself.mpr ⟨plain, closed⟩,
    spellings (begins.not.mp plain) (ends.not.mp closed) _ same otherPlain otherClosed⟩

/-- The quotes inside the blanks stay, so what is read is not in the form in which it is read
itself, and not the name that the text without those quotes gives. -/
theorem inner_quotes_stay :
    parse "\" 'ADDR' \"".toList = .ok ⟨"'ADDR'".toList⟩ ∧
      BeginsWithQuote "'ADDR'".toList ∧ EndsWithQuote "'ADDR'".toList ∧
      parse "'ADDR'".toList = .ok ⟨"ADDR".toList⟩ ∧
      SameSpelling "\" 'ADDR' \"".toList "ADDR".toList ∧
      parse "ADDR".toList = .ok ⟨"ADDR".toList⟩ ∧
      (⟨"ADDR".toList⟩ : LogicalName) ≠ ⟨"'ADDR'".toList⟩ := by
  refine ⟨by decide +kernel, ⟨_, _, rfl, by decide⟩,
    ⟨"'ADDR".toList, '\'', by decide +kernel, by decide⟩, by decide +kernel, ?_,
    by decide +kernel, by decide +kernel⟩
  exact ⟨"ADDR".toList, "ADDR".toList, ⟨"\" '".toList, "' \"".toList, by decide +kernel⟩,
    ⟨[], [], by decide +kernel⟩, rfl⟩

end Sample

end CobolAnalysis.LogicalName
