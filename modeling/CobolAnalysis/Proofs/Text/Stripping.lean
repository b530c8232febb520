/-
Text without the characters of one kind at its ends.

What is left of a text is known from any way to cut it: characters of the kind, a middle
that neither begins nor ends with one, and characters of the kind again. So it does not
matter from which end one begins, nor whether fewer kinds are taken away first.
-/

import CobolAnalysis.Proofs.Text.Lines
import Mathlib.Data.List.DropRight

namespace CobolAnalysis.Text

def strip (outer : Char → Bool) (text : List Char) : List Char :=
  (text.dropWhile outer).rdropWhile outer

/-- There is none of the characters at either end. -/
structure Stripped (outer : Char → Bool) (text : List Char) : Prop where
  first : ∀ character ∈ text.head?, outer character = false
  last : ∀ character ∈ text.getLast?, outer character = false

variable {outer more : Char → Bool} {before text after : List Char}

theorem Stripped.reverse (stripped : Stripped outer text) : Stripped outer text.reverse := by
  refine ⟨fun character begins => ?_, fun character ends => ?_⟩
  · rw [List.head?_reverse] at begins
    exact stripped.last character begins
  · rw [List.getLast?_reverse] at ends
    exact stripped.first character ends

theorem Stripped.imp (stripped : Stripped more text)
    (among : ∀ character, outer character = true → more character = true) :
    Stripped outer text := by
  have fewer : ∀ character, more character = false → outer character = false := by
    intro character free
    refine Bool.eq_false_iff.mpr fun is => ?_
    rw [among character is] at free
    cases free
  exact ⟨fun character begins => fewer character (stripped.first character begins),
    fun character ends => fewer character (stripped.last character ends)⟩

theorem Stripped.prepend (present : before ≠ [])
    (free : ∀ character ∈ before, outer character = false)
    (last : ∀ character ∈ text.getLast?, outer character = false) :
    Stripped outer (before ++ text) := by
  refine ⟨fun character begins => ?_, fun character ends => ?_⟩
  · rw [List.head?_append_of_ne_nil before present] at begins
    exact free character (List.mem_of_head? begins)
  · rw [List.getLast?_append, Option.mem_def, Option.or_eq_some_iff] at ends
    rcases ends with here | ⟨_, there⟩
    · exact last character here
    · exact free character (List.mem_of_getLast? there)

theorem first_of_starts {whole : List Char} (starts : text <+: whole.dropWhile outer) :
    ∀ character ∈ text.head?, outer character = false := by
  intro character begins
  obtain ⟨others, kept⟩ := starts
  have first : (whole.dropWhile outer).head? = some character := by
    rw [← kept, List.head?_append, begins]
    rfl
  have left := List.head?_dropWhile_not outer whole
  rwa [first] at left

theorem dropWhile_wrapped (opening : before.all outer = true) (stripped : Stripped outer text)
    (closing : after.all outer = true) :
    (before ++ (text ++ after)).dropWhile outer = if text = [] then [] else text ++ after := by
  rw [List.dropWhile_append_of_pos (List.all_eq_true.mp opening)]
  cases text with
  | nil =>
      rw [if_pos rfl, List.nil_append]
      exact List.dropWhile_eq_nil_iff.mpr (List.all_eq_true.mp closing)
  | cons first rest =>
      rw [if_neg (List.cons_ne_nil first rest)]
      exact List.dropWhile_cons_of_neg (Bool.eq_false_iff.mp (stripped.first first rfl))

theorem strip_wrapped (opening : before.all outer = true) (stripped : Stripped outer text)
    (closing : after.all outer = true) : strip outer (before ++ (text ++ after)) = text := by
  unfold strip
  rw [dropWhile_wrapped opening stripped closing]
  split
  next nothing => rw [nothing, List.rdropWhile_nil]
  next present =>
    have nothing : ([] : List Char).all outer = true := List.all_nil
    have reversed := dropWhile_wrapped (List.all_reverse.trans closing) stripped.reverse nothing
    rw [List.append_nil, ← List.reverse_append,
      if_neg (fun none => present (List.reverse_eq_nil_iff.mp none))] at reversed
    rw [List.rdropWhile, reversed, List.reverse_reverse]

theorem exists_rdropWhile (outer : Char → Bool) (text : List Char) :
    ∃ after, text = text.rdropWhile outer ++ after ∧ after.all outer = true ∧
      ∀ character ∈ (text.rdropWhile outer).getLast?, outer character = false := by
  refine ⟨text.rtakeWhile outer, List.rdropWhile_append_rtakeWhile.symm,
    List.all_eq_true.mpr fun character taken => List.mem_rtakeWhile_imp taken, ?_⟩
  intro character ends
  have present : text.rdropWhile outer ≠ [] := by
    intro none
    rw [none] at ends
    cases ends
  have last := List.rdropWhile_last_not outer text present
  rw [List.getLast?_eq_some_getLast present] at ends
  exact Option.some.inj ends ▸ Bool.eq_false_iff.mpr last

theorem exists_strip (outer : Char → Bool) (text : List Char) :
    ∃ before after, text = before ++ (strip outer text ++ after) ∧ before.all outer = true ∧
      after.all outer = true ∧ Stripped outer (strip outer text) := by
  obtain ⟨after, cut, closing, last⟩ := exists_rdropWhile outer (text.dropWhile outer)
  refine ⟨text.takeWhile outer, after, ?_, ?_, closing, ?_, last⟩
  · unfold strip
    rw [← cut, List.takeWhile_append_dropWhile]
  · exact List.all_eq_true.mpr fun character taken => List.mem_takeWhile_imp taken
  · exact first_of_starts (List.rdropWhile_prefix outer (text.dropWhile outer))

theorem stripped_strip (outer : Char → Bool) (text : List Char) :
    Stripped outer (strip outer text) := by
  obtain ⟨_, _, _, _, _, stripped⟩ := exists_strip outer text
  exact stripped

theorem Stripped.strip (stripped : Stripped outer text) : strip outer text = text := by
  have nothing : ([] : List Char).all outer = true := List.all_nil
  have whole := strip_wrapped nothing stripped nothing
  rwa [List.nil_append, List.append_nil] at whole

theorem strip_append (opening : before.all outer = true) (closing : after.all outer = true)
    (text : List Char) : strip outer (before ++ (text ++ after)) = strip outer text := by
  obtain ⟨first, last, cut, firstOuter, lastOuter, stripped⟩ := exists_strip outer text
  have regrouped : before ++ (text ++ after) =
      (before ++ first) ++ (strip outer text ++ (last ++ after)) := by
    conv_lhs => rw [cut]
    simp only [List.append_assoc]
  rw [regrouped]
  apply strip_wrapped _ stripped
  · rw [List.all_append, lastOuter, closing]
    rfl
  · rw [List.all_append, opening, firstOuter]
    rfl

theorem strip_reverse (outer : Char → Bool) (text : List Char) :
    strip outer text.reverse = (strip outer text).reverse := by
  obtain ⟨before, after, cut, opening, closing, stripped⟩ := exists_strip outer text
  have reversed : text.reverse =
      after.reverse ++ ((strip outer text).reverse ++ before.reverse) := by
    conv_lhs => rw [cut]
    simp only [List.reverse_append, List.append_assoc]
  rw [reversed]
  exact strip_wrapped (List.all_reverse.trans closing) stripped.reverse
    (List.all_reverse.trans opening)

theorem strip_map {change : Char → Char}
    (same : ∀ character, outer (change character) = outer character) (text : List Char) :
    strip outer (text.map change) = (strip outer text).map change := by
  have kind : outer ∘ change = outer := funext same
  unfold strip List.rdropWhile
  rw [List.dropWhile_map, kind, ← List.map_reverse, List.dropWhile_map, kind, ← List.map_reverse]

/-- If the characters of one kind are taken away with those of another, nothing changes when they
are taken away first. -/
theorem strip_strip (among : ∀ character, outer character = true → more character = true)
    (text : List Char) : strip more (strip outer text) = strip more text := by
  obtain ⟨before, after, cut, opening, closing, _⟩ := exists_strip outer text
  have wider : ∀ part : List Char, part.all outer = true → part.all more = true := by
    intro part all
    rw [List.all_eq_true] at all ⊢
    exact fun character member => among character (all character member)
  have whole := strip_append (wider before opening) (wider after closing) (strip outer text)
  rw [← cut] at whole
  exact whole.symm

theorem trim_eq_strip (text : List Char) : trim text = strip isBlank text := by
  obtain ⟨blanks, split, blank⟩ := exists_blanks (trimStart text)
  have stripped : Stripped isBlank (trim text) :=
    ⟨first_of_starts (trimEnd_starts (trimStart text)), fun _ => (trimmed_trim text).getLast⟩
  have cut : text = text.takeWhile isBlank ++ (trim text ++ blanks) := by
    change text = text.takeWhile isBlank ++ (trimEnd (trimStart text) ++ blanks)
    rw [← split]
    exact List.takeWhile_append_dropWhile.symm
  have blanksBefore : (text.takeWhile isBlank).all isBlank = true :=
    List.all_eq_true.mpr fun character taken => List.mem_takeWhile_imp taken
  have whole := strip_wrapped blanksBefore stripped blank
  rw [← cut] at whole
  exact whole.symm

end CobolAnalysis.Text
