/-
A named place inside a larger state, readable and replaceable on its own.

The laws say that a part holds what was last put there, that putting back what
it holds changes nothing, and that an overwritten value leaves no trace.
-/

namespace CobolAnalysis

structure Part (whole part : Type) where
  get : whole → part
  set : part → whole → whole
  get_set : ∀ (value : part) (state : whole), get (set value state) = value
  set_get : ∀ state : whole, set (get state) state = state
  set_set : ∀ (first second : part) (state : whole), set second (set first state) = set second state

namespace Part

variable {outer middle inner : Type}

def modify (part : Part outer inner) (change : inner → inner) (state : outer) : outer :=
  part.set (change (part.get state)) state

/-- A part of a part. -/
def within (part : Part middle inner) (enclosing : Part outer middle) : Part outer inner where
  get := fun state => part.get (enclosing.get state)
  set := fun value => enclosing.modify (part.set value)
  get_set := by
    intro value state
    simp only [modify, enclosing.get_set, part.get_set]
  set_get := by
    intro state
    simp only [modify, part.set_get, enclosing.set_get]
  set_set := by
    intro first second state
    simp only [modify, enclosing.get_set, enclosing.set_set, part.set_set]

/-- The value of a function at one argument. -/
def atPoint {ι value : Type} [DecidableEq ι] (point : ι) : Part (ι → value) value where
  get := fun shelf => shelf point
  set := fun item shelf other => if other = point then item else shelf other
  get_set := fun _ _ => if_pos rfl
  set_get := by
    intro shelf
    funext other
    by_cases same : other = point
    · simp only [same, if_true]
    · simp only [same, if_false]
  set_set := by
    intro first second shelf
    funext other
    by_cases same : other = point
    · simp only [same, if_true]
    · simp only [same, if_false]

end Part

end CobolAnalysis
