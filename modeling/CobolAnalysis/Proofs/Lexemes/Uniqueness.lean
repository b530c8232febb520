/-
A text is divided into lexemes in one way only.

Which lexeme begins at a place follows from the characters from there on. So if two divisions agree
up to a place on a line, they agree on the lexeme that begins there: a character that does not stand
between lexemes belongs to one in both, and to none that began before. What follows a lexeme counts
only where a period ends a sentence.
-/

import CobolAnalysis.Proofs.Lexemes.LongestMatch
import Mathlib.Data.List.Sort
import Mathlib.Tactic.ByContra

namespace CobolAnalysis.Lexeme

/-! ### One lexeme at a place -/

theorem Spells.first {kind : LexemeKind} {first : Char} {rest : List Char}
    (spells : Spells kind (first :: rest)) :
    isNameStart first = true ∧ (kind = .word ∨ kind = .integer) ∨
      isNameStart first = false ∧ kind = (longest first [first]).1 := by
  cases spells with
  | integer digits =>
      left
      exact ⟨(Spells.name (.integer digits) (Or.inr rfl)).1, Or.inr rfl⟩
  | word starts goesOn =>
      left
      exact ⟨starts, Or.inl rfl⟩
  | literal quotes closed =>
      right
      constructor
      · exact Bool.eq_false_iff.mpr (not_isNameStart_of_isQuote quotes)
      · rw [longest_of_isQuote quotes, if_pos (List.contains_iff_mem.mpr List.mem_cons_self)]
  | period => exact Or.inr ⟨rfl, rfl⟩
  | leftParenthesis => exact Or.inr ⟨rfl, rfl⟩
  | rightParenthesis => exact Or.inr ⟨rfl, rfl⟩
  | operator operators =>
      have operator : isOperator first = true :=
        (List.forall_mem_cons.mp (List.all_eq_true.mp operators)).1
      right
      constructor
      · rcases operator_cases operator with rfl | rfl | rfl | rfl | rfl | rfl | rfl | rfl <;> rfl
      · rw [longest_of_isOperator operator]

theorem Spells.unique {kind other : LexemeKind} {text : List Char} (one : Spells kind text)
    (two : Spells other text) (preferred : kind = .word → ¬Spells .integer text)
    (otherPreferred : other = .word → ¬Spells .integer text) : kind = other := by
  cases text with
  | nil => cases one
  | cons first rest =>
      rcases one.first with ⟨starts, name⟩ | ⟨noName, same⟩
      · rcases two.first with ⟨_, otherName⟩ | ⟨noName, _⟩
        · rcases name with rfl | rfl
          · rcases otherName with rfl | rfl
            · rfl
            · exact absurd two (preferred rfl)
          · rcases otherName with rfl | rfl
            · exact absurd one (otherPreferred rfl)
            · rfl
        · rw [starts] at noName
          cases noName
      · rcases two.first with ⟨starts, _⟩ | ⟨_, otherSame⟩
        · rw [noName] at starts
          cases starts
        · exact same.trans otherSame.symm

theorem Begins.unknown_iff {kind other : LexemeKind} {taken otherTaken text : List Char}
    (one : Begins kind taken text) (two : Begins other otherTaken text) :
    kind = .unrecognized ↔ other = .unrecognized := by
  constructor
  · intro unknown
    by_contra recognized
    exact (one.longest other otherTaken (two.spelled recognized) two.front).1 unknown
  · intro unknown
    by_contra recognized
    exact (two.longest kind taken (one.spelled recognized) one.front).1 unknown

theorem Begins.unique {kind other : LexemeKind} {taken otherTaken text : List Char}
    (one : Begins kind taken text) (two : Begins other otherTaken text) :
    kind = other ∧ taken = otherTaken := by
  by_cases unknown : kind = .unrecognized
  · have otherUnknown := (one.unknown_iff two).mp unknown
    obtain ⟨first, rest, shape, takes⟩ := one.unknown unknown
    obtain ⟨next, after, same, otherTakes⟩ := two.unknown otherUnknown
    rw [shape] at same
    cases same
    exact ⟨unknown.trans otherUnknown.symm, takes.trans otherTakes.symm⟩
  · have spells := one.spelled unknown
    have otherSpells := two.spelled fun none => unknown ((one.unknown_iff two).mpr none)
    have shorter := (two.longest kind taken spells one.front).2
    have longer := (one.longest other otherTaken otherSpells two.front).2
    have same : taken = otherTaken :=
      (List.prefix_of_prefix_length_le one.front two.front shorter).eq_of_length_le longer
    refine ⟨?_, same⟩
    have preferred := one.preferred
    rw [same] at spells preferred
    exact spells.unique otherSpells preferred two.preferred

/-! ### Two divisions -/

/-- The lexeme, with what follows it only if that makes it a separator. -/
def settled (lexeme : Lexeme) : Lexeme := { lexeme with beforeBlank := lexeme.isSeparator }

def Before (lexeme later : Lexeme) : Prop :=
  lexeme.line < later.line ∨ lexeme.line = later.line ∧ lexeme.column < later.column

instance : Std.Irrefl Before where
  irrefl := by
    intro lexeme before
    unfold Before at before
    omega

instance : Std.Antisymm Before where
  antisymm := by
    intro lexeme later before after
    unfold Before at before after
    omega

namespace Divides

variable {lexemes others : List Lexeme} {text : List Char}

theorem starts (divides : Divides lexemes text) {lexeme : Lexeme} (member : lexeme ∈ lexemes)
    {raw : List Char} (there : (Text.lines text)[lexeme.line]? = some raw) :
    ∃ first, raw[lexeme.column]? = some first ∧ isSkipped first = false := by
  have begins := divides.longest lexeme member raw there
  obtain ⟨present, _⟩ := divides.slices lexeme member
  obtain ⟨first, rest, shape⟩ := List.exists_cons_of_ne_nil present
  have stands : raw[lexeme.column]? = some first := by
    have front := begins.front
    rw [shape] at front
    obtain ⟨after, split⟩ := front
    have head := congrArg List.head? split
    rw [List.head?_drop] at head
    exact head.symm
  refine ⟨first, stands, ?_⟩
  by_cases quotes : Source.isQuote first = true
  · exact isSkipped_of_starts (Or.inr (Or.inl quotes))
  · apply divides.tight lexeme member
    · intro literal
      have spells := begins.spelled (by rw [literal]; decide)
      rw [literal, shape] at spells
      cases spells with
      | literal opens closed => exact quotes opens
    · intro quote opens
      have same := opens.starts
      rw [shape] at same
      cases same
      exact quotes opens.quotes
    · rw [shape]
      exact List.mem_cons_self

theorem settled_eq (one : Divides lexemes text) (two : Divides others text)
    {lexeme other : Lexeme} (member : lexeme ∈ lexemes) (otherMember : other ∈ others)
    (line : lexeme.line = other.line) (column : lexeme.column = other.column) :
    lexeme.settled = other.settled := by
  obtain ⟨_, raw, there, _⟩ := one.slices lexeme member
  have alsoThere : (Text.lines text)[other.line]? = some raw := by
    rw [← line]
    exact there
  have begins := one.longest lexeme member raw there
  have otherBegins := two.longest other otherMember raw alsoThere
  rw [column] at begins
  obtain ⟨kind, taken⟩ := begins.unique otherBegins
  have separator : lexeme.isSeparator = other.isSeparator := by
    by_cases period : lexeme.kind = .period
    · apply Bool.eq_iff_iff.mpr
      rw [one.separators lexeme member period raw there,
        two.separators other otherMember (kind ▸ period) raw alsoThere, column]
    · unfold isSeparator
      rw [← kind, beq_eq_false_iff_ne.mpr period]
      rfl
  unfold settled
  rw [kind, taken, line, column, separator]

theorem not_overlapping (divides : Divides lexemes text) {lexeme earlier : Lexeme}
    (member : lexeme ∈ lexemes) (earlierMember : earlier ∈ lexemes)
    (line : earlier.line = lexeme.line) (before : earlier.column < lexeme.column) :
    earlier.column + earlier.text.length ≤ lexeme.column := by
  obtain ⟨first, here⟩ := List.mem_iff_getElem?.mp earlierMember
  obtain ⟨second, there⟩ := List.mem_iff_getElem?.mp member
  have apart : first ≠ second := by
    intro same
    rw [same, there] at here
    cases here
    omega
  rcases precedes_of_getElem? divides.disjoint here there apart with precedes | follows
  · unfold Precedes at precedes
    omega
  · unfold Precedes at follows
    omega

/-- Where a lexeme of one division begins, one of the other begins. The two divisions change places
from one lexeme to the one before it. -/
theorem exists_same_place (column : Nat) : ∀ {lexemes others : List Lexeme},
    Divides lexemes text → Divides others text → ∀ lexeme ∈ lexemes, lexeme.column = column →
      ∃ other ∈ others, other.line = lexeme.line ∧ other.column = lexeme.column := by
  induction column using Nat.strongRecOn with
  | ind column ih =>
      intro lexemes others one two lexeme member place
      obtain ⟨_, raw, there, _⟩ := one.slices lexeme member
      obtain ⟨first, stands, visible⟩ := one.starts member there
      have covered : ∃ other ∈ others, other.Occupies lexeme.line lexeme.column := by
        by_contra none
        have skipped : isSkipped first = true := by
          apply two.complete lexeme.line raw lexeme.column first there stands
          exact fun other otherMember occupies => none ⟨other, otherMember, occupies⟩
        rw [visible] at skipped
        cases skipped
      obtain ⟨other, otherMember, line, right, left⟩ := covered
      rcases Nat.lt_or_eq_of_le right with before | same
      · rw [place] at before
        obtain ⟨again, againMember, sameLine, sameColumn⟩ :=
          ih other.column before two one other otherMember rfl
        have alike := one.settled_eq two againMember otherMember sameLine sameColumn
        have length := congrArg (fun lexeme => lexeme.text.length) alike
        change again.text.length = other.text.length at length
        have ends := one.not_overlapping member againMember (sameLine.trans line) (by omega)
        omega
      · exact ⟨other, otherMember, line, same⟩

theorem subset (one : Divides lexemes text) (two : Divides others text) :
    lexemes.map settled ⊆ others.map settled := by
  intro shown member
  obtain ⟨lexeme, present, rfl⟩ := List.mem_map.mp member
  obtain ⟨other, otherPresent, line, column⟩ :=
    exists_same_place lexeme.column one two lexeme present rfl
  apply List.mem_map.mpr
  exact ⟨other, otherPresent, two.settled_eq one otherPresent present line column⟩

theorem unique (one : Divides lexemes text) (two : Divides others text) :
    lexemes.map settled = others.map settled := by
  have ordered : (lexemes.map settled).Pairwise Before := List.pairwise_map.mpr one.ordered
  have otherOrdered : (others.map settled).Pairwise Before := List.pairwise_map.mpr two.ordered
  exact List.Subset.antisymm_of_pairwise ordered otherOrdered (one.subset two) (two.subset one)

end Divides

end CobolAnalysis.Lexeme
