import EntryForm.Form
import EntryForm.Template

/-!
# Submissions

A submission holds the values of all fields of a form under their dotted paths. Fields that may
occur several times contribute to lists. A value that does not fit is marked under its full path
and destroys nothing.
-/

namespace EntryForm

/-- The value of one field on its way into a submission. -/
structure Entry where
  path : String
  value : Json
  /-- The value joins a list. -/
  listed : Bool
  deriving Repr, Inhabited

namespace Fragment

/-- Whether the values of a field and of the fields inside it form lists. A pick-list holds
several choices itself. -/
def makesList (field : Field) (widget : Widget Fragment) : Bool :=
  field.cardinality.arrayLike && !widget.isSelect

mutual
/-- The values of a fragment and of those inside it. -/
def entries (listed : Bool) : Fragment → List Entry
  | ⟨field, widget, instances⟩ =>
    (if widget.isInput then
      [⟨field.path, field.value.getD .null, listed || makesList field widget⟩]
    else []) ++
    (entriesOfWidget (listed || makesList field widget) widget ++
      entriesOfInstances (listed || makesList field widget) instances)
/-- The entries of what is inside a widget. -/
def entriesOfWidget (listed : Bool) : Widget Fragment → List Entry
  | .group children => entriesOf listed children
  | .tabs tabs => entriesOfTabs listed tabs
  | _ => []
def entriesOf (listed : Bool) : List Fragment → List Entry
  | [] => []
  | f :: rest => entries listed f ++ entriesOf listed rest
/-- The entries of a row of tabs, whether shown or not. -/
def entriesOfTabs (listed : Bool) : List (Tab Fragment) → List Entry
  | [] => []
  | ⟨_, _, _, _, fragments⟩ :: rest => entriesOf listed fragments ++ entriesOfTabs listed rest
def entriesOfInstances (listed : Bool) : List (Instance Fragment) → List Entry
  | [] => []
  | ⟨_, _, _, fragments⟩ :: rest => entriesOf listed fragments ++ entriesOfInstances listed rest
end

end Fragment

namespace Submission

/-- Puts a value where a path ends: in a free place, at the end of a list, or in place of
another single value. -/
def put? (key : String) (value : Json) (listed : Bool) (fields : Fields Json) :
    Option (Fields Json) :=
  match fields.get? key, listed with
  | none, true => some (fields.insert key (.arr [value]))
  | none, false => some (fields.insert key value)
  | some (.arr items), true => some (fields.insert key (.arr (items ++ [value])))
  | some (.obj _), _ => none
  | some _, true => none
  | some _, false => some (fields.insert key value)

/-- Puts a value at a path, making the objects on the way, if it fits. -/
def place? (value : Json) (listed : Bool) : List String → Fields Json → Option (Fields Json)
  | [], _ => none
  | [key], fields => put? key value listed fields
  | key :: path, fields =>
    match fields.get? key with
    | none => (place? value listed path []).map fun inner => fields.insert key (.obj inner)
    | some (.obj inner) =>
      (place? value listed path inner).map fun inner => fields.insert key (.obj inner)
    | some _ => none

/-- The steps of a dotted path. -/
def steps (path : String) : List String :=
  (Text.split '.' path.toList).map String.ofList

/-- Puts a value at its path. If it does not fit, the full path is marked, unless something is
there already. -/
def insert (e : Entry) (fields : Fields Json) : Fields Json × List Warning :=
  let placed :=
    if (steps e.path).any (·.isEmpty) then none else place? e.value e.listed (steps e.path) fields
  match placed with
  | some fields => (fields, [])
  | none =>
    (if Fields.contains e.path fields then fields
      else Fields.insert e.path (.str (unmatchedReference e.path)) fields,
      [.misfit e.path])

/-- Puts values at their paths, one after the other. -/
def insertAll : List Entry → Fields Json → Fields Json × List Warning
  | [], fields => (fields, [])
  | e :: rest, fields =>
    let (fields, warnings) := insert e fields
    let (fields, more) := insertAll rest fields
    (fields, warnings ++ more)

/-- The submission of a form, and the fields that do not fit into it. -/
def ofForm (form : Form) : Json × List Warning :=
  let (fields, warnings) := insertAll (Fragment.entriesOf false form.fragments) []
  (.obj fields, warnings)

end Submission

namespace Form

/-- The values of all fields. -/
def submission (form : Form) : Json := (Submission.ofForm form).1

/-- Fills a markup text from the values of all fields. -/
def fillTemplate (markup : String) (form : Form) : String :=
  Template.fill markup form.submission

end Form

end EntryForm
