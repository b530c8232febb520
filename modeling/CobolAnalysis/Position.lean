/-
Places in a document: positions, spans, and spans within a named document.

Lines and columns count from zero, columns in characters. A span includes both
its ends. Locations are ordered by document and then by span, so that a set of
locations is traversed in source order.
-/

import CobolAnalysis.OrderedSet

namespace CobolAnalysis

structure Position where
  line : Nat
  column : Nat
  deriving DecidableEq, Inhabited

namespace Position

/-- Reading order: by line, then by column. -/
def Before (left right : Position) : Prop :=
  left.line < right.line ∨ (left.line = right.line ∧ left.column < right.column)

instance : LT Position := ⟨Before⟩

instance : DecidableLT Position := fun left right =>
  inferInstanceAs (Decidable (left.line < right.line ∨
    (left.line = right.line ∧ left.column < right.column)))

instance : StrictOrder Position where
  irreflexive := by
    intro value impossible
    rcases impossible with below | ⟨_, below⟩ <;> exact Nat.lt_irrefl _ below
  transitive := by
    intro first second third lower upper
    simp only [LT.lt, Before] at *
    simp only [Nat.lt_eq] at *
    omega
  connected := by
    intro left right notBelow notAbove
    obtain ⟨leftLine, leftColumn⟩ := left
    obtain ⟨rightLine, rightColumn⟩ := right
    simp only [LT.lt, Before] at notBelow notAbove
    simp only [Nat.lt_eq] at notBelow notAbove
    have sameLine : leftLine = rightLine := by omega
    have sameColumn : leftColumn = rightColumn := by omega
    rw [sameLine, sameColumn]

end Position

structure Span where
  start : Position
  stop : Position
  deriving DecidableEq, Inhabited

namespace Span

def onLine (line column length : Nat) : Span := ⟨⟨line, column⟩, ⟨line, column + length⟩⟩

/-- Both ends count as covered. -/
def covers (span : Span) (position : Position) : Bool :=
  !(position < span.start : Bool) && !(span.stop < position : Bool)

def Before (left right : Span) : Prop :=
  left.start < right.start ∨ (left.start = right.start ∧ left.stop < right.stop)

instance : LT Span := ⟨Before⟩

instance : DecidableLT Span := fun left right =>
  inferInstanceAs (Decidable (left.start < right.start ∨
    (left.start = right.start ∧ left.stop < right.stop)))

instance : StrictOrder Span where
  irreflexive := by
    intro value impossible
    rcases impossible with below | ⟨_, below⟩ <;> exact StrictOrder.irreflexive _ below
  transitive := by
    intro first second third lower upper
    rcases lower with lower | ⟨sameLow, lower⟩ <;> rcases upper with upper | ⟨sameHigh, upper⟩
    · exact Or.inl (StrictOrder.transitive lower upper)
    · exact Or.inl (sameHigh ▸ lower)
    · exact Or.inl (sameLow ▸ upper)
    · exact Or.inr ⟨sameLow.trans sameHigh, StrictOrder.transitive lower upper⟩
  connected := by
    intro left right notBelow notAbove
    obtain ⟨leftStart, leftStop⟩ := left
    obtain ⟨rightStart, rightStop⟩ := right
    have sameStart : leftStart = rightStart :=
      StrictOrder.connected (fun below => notBelow (Or.inl below))
        (fun above => notAbove (Or.inl above))
    subst sameStart
    have sameStop : leftStop = rightStop :=
      StrictOrder.connected (fun below => notBelow (Or.inr ⟨rfl, below⟩))
        (fun above => notAbove (Or.inr ⟨rfl, above⟩))
    rw [sameStop]

end Span

structure Location where
  uri : String
  span : Span
  deriving DecidableEq, Inhabited

namespace Location

/-- The place before the first character of a document. -/
def documentStart (uri : String) : Location := ⟨uri, ⟨⟨0, 0⟩, ⟨0, 0⟩⟩⟩

/-- For readers, lines and columns count from one. -/
def display (location : Location) : String :=
  location.uri ++ ":" ++ toString (location.span.start.line + 1) ++ ":" ++
    toString (location.span.start.column + 1)

def covers (location : Location) (uri : String) (position : Position) : Bool :=
  location.uri == uri && location.span.covers position

def Before (left right : Location) : Prop :=
  left.uri < right.uri ∨ (left.uri = right.uri ∧ left.span < right.span)

instance : LT Location := ⟨Before⟩

instance : DecidableLT Location := fun left right =>
  inferInstanceAs (Decidable (left.uri < right.uri ∨
    (left.uri = right.uri ∧ left.span < right.span)))

instance : StrictOrder Location where
  irreflexive := by
    intro value impossible
    rcases impossible with below | ⟨_, below⟩
    · exact String.lt_irrefl _ below
    · exact StrictOrder.irreflexive _ below
  transitive := by
    intro first second third lower upper
    rcases lower with lower | ⟨sameLow, lower⟩ <;> rcases upper with upper | ⟨sameHigh, upper⟩
    · exact Or.inl (String.lt_trans lower upper)
    · exact Or.inl (sameHigh ▸ lower)
    · exact Or.inl (sameLow ▸ upper)
    · exact Or.inr ⟨sameLow.trans sameHigh, StrictOrder.transitive lower upper⟩
  connected := by
    intro left right notBelow notAbove
    obtain ⟨leftUri, leftSpan⟩ := left
    obtain ⟨rightUri, rightSpan⟩ := right
    have sameUri : leftUri = rightUri :=
      String.le_antisymm (fun above => notAbove (Or.inl above))
        (fun below => notBelow (Or.inl below))
    subst sameUri
    have sameSpan : leftSpan = rightSpan :=
      StrictOrder.connected (fun below => notBelow (Or.inr ⟨rfl, below⟩))
        (fun above => notAbove (Or.inr ⟨rfl, above⟩))
    rw [sameSpan]

/-- The location before the first that is not smaller. -/
def place (location : Location) : List Location → List Location
  | [] => [location]
  | head :: tail =>
      if head < location then head :: place location tail else location :: head :: tail

def inOrder (locations : List Location) : List Location := locations.foldr place []

end Location

end CobolAnalysis
