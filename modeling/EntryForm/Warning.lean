import EntryForm.Range
import EntryForm.Text.Visible

/-!
# Warnings

What is wrong with a specification without stopping the work on it.
-/

namespace EntryForm

/-- What is wrong with a document though a form is made of it. -/
inductive Warning
  | invertedCardinality (entity : String) (min max : Option Nat)
  | unrecognizedDatatype (entity tag : String)
  | emptyDisjunction (entity : String)
  | emptyRange (entity : String) (lo hi : Number)
  | unlabelledOption (option parent : String)
  | uncategoricalOption (option parent : String) (other : Kind)
  | missingSegment (focus segment : String)
  | missingRoot (focus : String)
  | misfit (path : String)
  | problem (focus text : String)
  deriving DecidableEq, Repr

/-- A name with its first letter in upper case. -/
def capitalized (name : String) : String :=
  match name.toList with
  | [] => ""
  | c :: cs => String.ofList (c.toUpper :: cs)

/-- A kind as named in messages. -/
def Kind.describe : Kind → String
  | .unspecified => "Unspecified"
  | .text k => "Text(" ++ capitalized k.name ++ ")"
  | .number k => "Number(" ++ capitalized k.name ++ ")"
  | .boolean => "Boolean"
  | .dateTime k => "DateTime(" ++ capitalized k.name ++ ")"
  | .categorical => "Categorical"
  | .disjunction => "Disjunction"
  | .grouping => "Grouping"
  | .unrecognized tag => "Unrecognized(" ++ Text.quoted tag ++ ")"

namespace Warning

/-- A bound that may be absent, as named in messages. -/
def describeBound : Option Nat → String
  | some n => "Some(" ++ toString n ++ ")"
  | none => "None"

/-- What a warning is reported as. -/
def message : Warning → String
  | .invertedCardinality _ _ _ => "minCardinality exceeds maxCardinality"
  | .unrecognizedDatatype _ _ => "unrecognized datatype"
  | .emptyDisjunction _ => "disjunction has no branches"
  | .emptyRange _ _ _ => "numeric bounds are empty"
  | .unlabelledOption _ _ => "picklist item has no label"
  | .uncategoricalOption _ _ _ => "choice is not a categorical option"
  | .missingSegment _ _ => "focus path segment not found"
  | .missingRoot _ => "no specification root with this id"
  | .misfit _ => "field path does not fit the submission"
  | .problem _ text => text

/-- What a warning is about, by name. -/
def details : Warning → List (String × String)
  | .invertedCardinality entity min max =>
    [("entity", entity), ("min", describeBound min), ("max", describeBound max)]
  | .unrecognizedDatatype entity tag => [("entity", entity), ("tag", tag)]
  | .emptyDisjunction entity => [("entity", entity)]
  | .emptyRange entity lo hi => [("entity", entity), ("lo", lo.text), ("hi", hi.text)]
  | .unlabelledOption option parent => [("option", option), ("parent", parent)]
  | .uncategoricalOption option parent other =>
    [("option", option), ("parent", parent), ("other", other.describe)]
  | .missingSegment focus segment => [("focus", focus), ("segment", segment)]
  | .missingRoot focus => [("focus", focus)]
  | .misfit path => [("path", path)]
  | .problem focus _ => [("focus", focus)]

/-- The warning in JSON, with what it is about. -/
def toJson (w : Warning) : Json :=
  .obj (("message", .str w.message) :: w.details.map fun d => (d.1, .str d.2))

end Warning

end EntryForm
