import EntryForm.Entity.Basic

/-!
# Choosing the unit of a quantity
-/

namespace EntryForm

/-- A unit, with the text that is shown. -/
structure UnitOption where
  id : String
  label : String
  deriving DecidableEq, Repr, Inhabited

/-- How the units of a field are shown. -/
inductive UnitSelector
  | none
  /-- The only unit. -/
  | fixed (unit : UnitOption)
  /-- Several units, the first of which is the default. -/
  | choice (id : String) (options : List UnitOption)
  deriving DecidableEq, Repr, Inhabited

namespace UnitSelector

/-- What is appended to the id of a field to name its unit control. -/
def idSuffix : String := "-IAO:0000039"

/-- The unit that a node describes. -/
def ofFacts (e : Facts) : UnitOption := ⟨e.id, e.unitLabel⟩

/-- Moves the first unit with an id to the front. -/
def promote (preferred : Option String) (options : List UnitOption) : List UnitOption :=
  match preferred with
  | Option.none => options
  | some id =>
    match options.find? (·.id == id) with
    | Option.none => options
    | some unit => unit :: options.eraseP (·.id == id)

/-- The units of an entity whose field has an id. -/
def ofEntity (e : Entity) (field : String) : UnitSelector :=
  match e.units with
  | [] => .none
  | [unit] => .fixed (ofFacts unit.toFacts)
  | units =>
    .choice (field ++ idSuffix)
      (promote (e.featureText? "preferred_unit") (units.map fun u => ofFacts u.toFacts))

end UnitSelector

end EntryForm
