/-!
# How often a field may occur
-/

namespace EntryForm

/-- What the cardinality bounds of a node mean for its field. -/
structure Cardinality where
  min : Option Nat
  max : Option Nat
  /-- The field must be filled in. -/
  required : Bool
  /-- The annotation shown to people. -/
  label : Option String
  /-- Submitted values form a list. -/
  arrayLike : Bool
  /-- At least one bound is declared. -/
  constrained : Bool
  /-- More instances can be added. -/
  repeatable : Bool
  deriving DecidableEq, Repr, Inhabited

namespace Cardinality

/-- The annotation of a pair of bounds. -/
def annotation : Option Nat → Option Nat → Option String
  | some min, some max =>
    if min = max then
      match min with
      | 0 => none
      | 1 => some "required"
      | n => some (toString n ++ " required")
    else some ("from " ++ toString min ++ " to " ++ toString max ++ " required")
  | some 0, none => some "optional"
  | some min, none => some (toString min ++ "+ required")
  | none, some 1 => some "optional"
  | none, some max => some ("< " ++ toString (max + 1) ++ " items")
  | none, none => none

/-- Whether a pair of bounds asks for a value. -/
def isRequired : Option Nat → Option Nat → Bool
  | some min, some max => min != max || min != 0
  | some min, none => min != 0
  | none, _ => false

/-- Whether a pair of bounds makes the submitted values a list. A lower bound of zero without
upper bound stays a single slot. -/
def isArrayLike : Option Nat → Option Nat → Bool
  | _, some max => decide (1 < max)
  | some min, none => decide (0 < min)
  | none, none => false

/-- Whether a pair of bounds leaves room for more instances than the first. -/
def hasRoom : Option Nat → Option Nat → Bool
  | _, none => true
  | none, some max => decide (1 < max)
  | some min, some max => decide (1 < max) && decide (min < max)

/-- Classifies a pair of bounds. A pick-list offers no way to add instances, since it holds
several choices itself. -/
def ofBounds (min max : Option Nat) (categorical : Bool) : Cardinality :=
  let constrained := min.isSome || max.isSome
  { min, max, constrained
    required := isRequired min max
    label := annotation min max
    arrayLike := isArrayLike min max
    repeatable := constrained && !categorical && hasRoom min max }

/-- Bounded, but not required. -/
def isOptional (c : Cardinality) : Bool := c.constrained && !c.required

/-- How many instances are shown from the start, when the bounds fix more than one. -/
def fixedSlots (c : Cardinality) : Option Nat :=
  match c.min, c.max with
  | some min, some max => if min = max ∧ 1 < min then some min else none
  | _, _ => none

end Cardinality

end EntryForm
