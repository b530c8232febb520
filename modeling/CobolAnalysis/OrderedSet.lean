/-
Finite sets held as strictly increasing lists, and sorting.

The increasing list of a set is unique, so two sets with the same members are
equal, and a traversal meets the members in order. Inserting decides between
"smaller", "larger" and "already there" with the strict order alone. Sorting
keeps repetitions, so only a list without any becomes strictly increasing.
-/

namespace CobolAnalysis

/-- A strict order under which two different values always compare. -/
class StrictOrder (α : Type) [LT α] : Prop where
  irreflexive : ∀ value : α, ¬ value < value
  transitive : ∀ {first second third : α}, first < second → second < third → first < third
  connected : ∀ {left right : α}, ¬ left < right → ¬ right < left → left = right

structure OrderedSet (α : Type) [LT α] where
  toList : List α
  ordered : toList.Pairwise (· < ·)
  deriving DecidableEq

namespace OrderedSet

variable {α : Type} [LT α]

def empty : OrderedSet α := ⟨[], List.Pairwise.nil⟩

instance : Inhabited (OrderedSet α) := ⟨empty⟩

instance : Membership α (OrderedSet α) := ⟨fun set value => value ∈ set.toList⟩

def isEmpty (set : OrderedSet α) : Bool := set.toList.isEmpty

def size (set : OrderedSet α) : Nat := set.toList.length

section Insert

variable [DecidableLT α]

/-- The list with the value at its place, unchanged if the value is there. -/
def place (value : α) : List α → List α
  | [] => [value]
  | head :: tail =>
      if value < head then value :: head :: tail
      else if head < value then head :: place value tail
      else head :: tail

variable [StrictOrder α]

theorem mem_place (value item : α) (items : List α) :
    item ∈ place value items ↔ item = value ∨ item ∈ items := by
  induction items with
  | nil => exact List.mem_singleton.trans (or_iff_left List.not_mem_nil).symm
  | cons head tail ih =>
      unfold place
      split
      · exact List.mem_cons
      · rename_i notBelow
        split
        · rw [List.mem_cons, ih, List.mem_cons]
          exact or_left_comm
        · rename_i notAbove
          have same : value = head := StrictOrder.connected notBelow notAbove
          rw [same]
          exact ⟨Or.inr, fun choice => choice.elim (fun atHead => atHead ▸ List.mem_cons_self) id⟩

theorem place_ordered (value : α) (items : List α) (ordered : items.Pairwise (· < ·)) :
    (place value items).Pairwise (· < ·) := by
  induction items with
  | nil => exact List.pairwise_singleton _ _
  | cons head tail ih =>
      have headTail := List.pairwise_cons.mp ordered
      unfold place
      split
      · rename_i below
        refine List.pairwise_cons.mpr ⟨fun item member => ?_, ordered⟩
        rcases List.mem_cons.mp member with atHead | inTail
        · exact atHead ▸ below
        · exact StrictOrder.transitive below (headTail.1 item inTail)
      · split
        · rename_i above
          refine List.pairwise_cons.mpr ⟨fun item member => ?_, ih headTail.2⟩
          rcases (mem_place value item tail).mp member with isValue | inTail
          · exact isValue ▸ above
          · exact headTail.1 item inTail
        · exact ordered

def insert (set : OrderedSet α) (value : α) : OrderedSet α :=
  ⟨place value set.toList, place_ordered value set.toList set.ordered⟩

def ofList (values : List α) : OrderedSet α := values.foldl insert empty

def union (left right : OrderedSet α) : OrderedSet α := right.toList.foldl insert left

@[simp] theorem mem_insert (set : OrderedSet α) (value item : α) :
    item ∈ set.insert value ↔ item = value ∨ item ∈ set :=
  mem_place value item set.toList

theorem mem_insert_self (set : OrderedSet α) (value : α) : value ∈ set.insert value :=
  (mem_insert set value value).mpr (Or.inl rfl)

theorem mem_insert_empty (value item : α) : item ∈ empty.insert value ↔ item = value :=
  (mem_insert empty value item).trans (or_iff_left List.not_mem_nil)

theorem mem_foldl_insert (values : List α) (set : OrderedSet α) (item : α) :
    item ∈ values.foldl insert set ↔ item ∈ set ∨ item ∈ values := by
  induction values generalizing set with
  | nil => exact (or_iff_left List.not_mem_nil).symm
  | cons value rest ih =>
      rw [List.foldl_cons, ih, mem_insert, List.mem_cons, or_comm (a := item = value), or_assoc]

@[simp] theorem mem_ofList (values : List α) (item : α) : item ∈ ofList values ↔ item ∈ values :=
  (mem_foldl_insert values empty item).trans (or_iff_right List.not_mem_nil)

@[simp] theorem mem_union (left right : OrderedSet α) (item : α) :
    item ∈ left.union right ↔ item ∈ left ∨ item ∈ right :=
  mem_foldl_insert right.toList left item

end Insert

section Extensionality

variable [StrictOrder α]

/-- Two increasing lists with the same members are the same list. -/
theorem eq_of_same_members (left right : List α) (leftOrdered : left.Pairwise (· < ·))
    (rightOrdered : right.Pairwise (· < ·)) (same : ∀ item, item ∈ left ↔ item ∈ right) :
    left = right := by
  induction left generalizing right with
  | nil => exact (List.eq_nil_iff_forall_not_mem.mpr fun item member =>
      List.not_mem_nil ((same item).mpr member)).symm
  | cons head tail ih =>
      cases right with
      | nil => exact absurd ((same head).mp List.mem_cons_self) List.not_mem_nil
      | cons other rest =>
          have leftParts := List.pairwise_cons.mp leftOrdered
          have rightParts := List.pairwise_cons.mp rightOrdered
          have sameHead : head = other := by
            rcases List.mem_cons.mp ((same head).mp List.mem_cons_self) with equal | inRest
            · exact equal
            · rcases List.mem_cons.mp ((same other).mpr List.mem_cons_self) with equal | inTail
              · exact equal.symm
              · exact absurd
                  (StrictOrder.transitive (leftParts.1 other inTail) (rightParts.1 head inRest))
                  (StrictOrder.irreflexive head)
          subst sameHead
          have sameTail : tail = rest := by
            refine ih rest leftParts.2 rightParts.2 fun item => ?_
            have inBoth := same item
            rw [List.mem_cons, List.mem_cons] at inBoth
            constructor
            · intro inTail
              refine (inBoth.mp (Or.inr inTail)).resolve_left fun equal => ?_
              exact StrictOrder.irreflexive head (equal ▸ leftParts.1 item inTail)
            · intro inRest
              refine (inBoth.mpr (Or.inr inRest)).resolve_left fun equal => ?_
              exact StrictOrder.irreflexive head (equal ▸ rightParts.1 item inRest)
          rw [sameTail]

/-- A set is determined by its members. -/
theorem eq_of_mem_iff (left right : OrderedSet α) (same : ∀ item, item ∈ left ↔ item ∈ right) :
    left = right := by
  obtain ⟨leftItems, leftOrdered⟩ := left
  obtain ⟨rightItems, rightOrdered⟩ := right
  have equal : leftItems = rightItems :=
    eq_of_same_members leftItems rightItems leftOrdered rightOrdered same
  subst equal
  rfl

end Extensionality

end OrderedSet

/-! ### Sorting -/

namespace Sorting

variable {α : Type} [LT α] [DecidableLT α]

/-- The value behind all that are smaller. -/
def place (value : α) : List α → List α
  | [] => [value]
  | head :: tail => if head < value then head :: place value tail else value :: head :: tail

def sort (values : List α) : List α := values.foldr place []

theorem perm_place (value : α) (items : List α) : (place value items).Perm (value :: items) := by
  induction items with
  | nil => exact List.Perm.refl _
  | cons head tail ih =>
      unfold place
      split
      · exact (ih.cons head).trans (List.Perm.swap value head tail)
      · exact List.Perm.refl _

theorem perm_sort (values : List α) : (sort values).Perm values := by
  induction values with
  | nil => exact List.Perm.refl _
  | cons value rest ih => exact (perm_place value (sort rest)).trans (ih.cons value)

variable [StrictOrder α]

theorem not_below_trans {first second third : α} (lower : ¬second < first)
    (upper : ¬third < second) : ¬third < first := by
  intro below
  by_cases between : first < second
  · exact upper (StrictOrder.transitive below between)
  · rw [StrictOrder.connected between lower] at below
    exact upper below

theorem place_sorted (value : α) {items : List α}
    (ordered : items.Pairwise fun left right => ¬right < left) :
    (place value items).Pairwise fun left right => ¬right < left := by
  induction items with
  | nil => exact List.pairwise_singleton _ _
  | cons head tail ih =>
      have headTail := List.pairwise_cons.mp ordered
      unfold place
      split
      · rename_i below
        refine List.pairwise_cons.mpr ⟨fun item member => ?_, ih headTail.2⟩
        rcases List.mem_cons.mp ((perm_place value tail).subset member) with isValue | inTail
        · rw [isValue]
          exact fun above => StrictOrder.irreflexive head (StrictOrder.transitive below above)
        · exact headTail.1 item inTail
      · rename_i notBelow
        refine List.pairwise_cons.mpr ⟨fun item member => ?_, ordered⟩
        rcases List.mem_cons.mp member with atHead | inTail
        · rw [atHead]
          exact notBelow
        · exact not_below_trans notBelow (headTail.1 item inTail)

theorem sort_sorted (values : List α) :
    (sort values).Pairwise fun left right => ¬right < left := by
  induction values with
  | nil => exact List.Pairwise.nil
  | cons value rest ih => exact place_sorted value ih

/-- Sorting a list without repetitions leaves it strictly increasing. -/
theorem sort_increasing {values : List α} (distinct : values.Nodup) :
    (sort values).Pairwise (· < ·) := by
  have apart : (sort values).Nodup := (perm_sort values).nodup_iff.mpr distinct
  refine ((sort_sorted values).and apart).imp fun both => ?_
  exact Decidable.byContradiction fun notBelow =>
    both.2 (StrictOrder.connected notBelow both.1)

end Sorting

end CobolAnalysis
