import EntryForm.Datatype
import EntryForm.Json.Printer

/-!
# Ranges of number fields

A bound is a JSON number. Integers compare exactly, and an integer compares with a floating
point number after rounding to one.
-/

namespace EntryForm

namespace Number

/-- The floating-point number of a bound. -/
def toReal : Number → Binary64
  | .int i => Binary64.ofInt i
  | .real x => x

/-- Integers are compared as such, everything else as floating-point numbers. -/
def order : Number → Number → Ordering
  | .int a, .int b => compare a b
  | a, b => Binary64.order a.toReal b.toReal

/-- Whether two numbers are of one variant and equal in value. -/
def same : Number → Number → Bool
  | .int a, .int b => a == b
  | .real a, .real b => a.same b
  | _, _ => false

/-- Whether one bound is below another. -/
def less (a b : Number) : Bool := a.order b == .lt

/-- The number as shown to people. -/
def text (n : Number) : String := String.ofList n.display

end Number

/-- The inclusive bounds of a number field, where it has them. -/
structure Range where
  min : Option Number
  max : Option Number
  deriving DecidableEq, Repr

namespace Range

/-- The range of a datatype. -/
def ofKind (kind : NumberKind) : Range :=
  ⟨kind.range.1.map .int, kind.range.2.map .int⟩

/-- The inner bound where it is tighter than the outer one, or where it is the only one. -/
def tighten (tighter : Number → Number → Bool) : Option Number → Option Number → Option Number
  | some outer, some inner => some (if tighter inner outer then inner else outer)
  | none, inner => inner
  | outer, none => outer

/-- The range of the values that lie in both ranges. -/
def narrow (outer inner : Range) : Range :=
  ⟨tighten (fun inner outer => outer.less inner) outer.min inner.min,
    tighten (fun inner outer => inner.less outer) outer.max inner.max⟩

/-- The two bounds of a range that holds no value. -/
def crossed? (r : Range) : Option (Number × Number) :=
  match r.min, r.max with
  | some lo, some hi => if hi.less lo then some (lo, hi) else none
  | _, _ => none

end Range

end EntryForm
