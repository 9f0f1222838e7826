import EntryForm.Form

/-!
# Adding and removing instances

Instances are compiled from the entity that the repeated field stands for. Removing one
renumbers the others.
-/

namespace EntryForm

/-- Why an event does not apply to a form. -/
inductive ControlError
  | noForm
  | unknownFragment (id : String)
  | notRepeatable (id : String)
  | unknownInstance (wrapper id : String)
  | unknownEntity (path : List String)
  deriving DecidableEq, Repr

namespace ControlError

/-- What a refused operation is reported as. -/
def message : ControlError → String
  | .noForm => "no form is rendered"
  | .unknownFragment id => "unknown fragment: " ++ id
  | .notRepeatable id => "fragment " ++ id ++ " is not repeatable"
  | .unknownInstance wrapper id => "fragment " ++ wrapper ++ " has no removable instance " ++ id
  | .unknownEntity path =>
    "entity path " ++ String.ofList (Text.join ['/'] (path.map String.toList)) ++
      " not found in the specification"

end ControlError

namespace Document

/-- The entity at a path of ids. -/
def entityAt? (path : List String) (d : Document) : Option Entity :=
  match path with
  | [] => none
  | root :: rest => (d.root? root).bind (Entity.descendant? rest)

end Document

namespace Form

/-- Appends an instance to a repeated field and counts it. -/
def appendInstance (i : Instance Fragment) (f : Fragment) : Fragment :=
  { f with
    repetition := f.repetition.map fun r => r.add?.getD r
    instances := f.instances ++ [i] }

/-- Adds an instance to a repeated field, and tells its id. Nothing is added to a pick-list or
where adding is disabled. -/
def addInstance (s : Settings) (d : Document) (wrapper : String) (form : Form) :
    Except ControlError (Option (String × Form)) :=
  match form.find? wrapper with
  | none => .error (.unknownFragment wrapper)
  | some f =>
    if f.widget.isSelect then .ok none
    else
      match f.repetition with
      | none => .error (.notRepeatable wrapper)
      | some r =>
        if !r.addEnabled then .ok none
        else
          match d.entityAt? f.entityPath with
          | none => .error (.unknownEntity f.entityPath)
          | some e =>
            let (i, pass) := (e.compileRecord s (r.count + 1) true).run { counter := form.counter }
            let form := form.update wrapper (appendInstance i)
            .ok (some (i.id, { form with counter := pass.counter }))

/-- Numbers instances by their places, after the first one. -/
def renumber (number : Nat) : List (Instance Fragment) → List (Instance Fragment)
  | [] => []
  | i :: rest => { i with header := recordHeader number } :: renumber (number + 1) rest

/-- Whether an instance has an id and can be removed. -/
def isRemovable (id : String) (i : Instance Fragment) : Bool := i.id == id && i.removable

/-- Takes an instance out of a repeated field. -/
def dropInstance (id : String) (f : Fragment) : Fragment :=
  { f with
    repetition := f.repetition.map fun r => r.remove?.getD r
    instances := renumber 2 (f.instances.eraseP (isRemovable id)) }

/-- Removes an instance from a repeated field. -/
def removeInstance (wrapper id : String) (form : Form) : Except ControlError Form :=
  match form.find? wrapper with
  | none => .error (.unknownFragment wrapper)
  | some f =>
    if f.repetition.isNone then .error (.notRepeatable wrapper)
    else if f.instances.any (isRemovable id) then .ok (form.update wrapper (dropInstance id))
    else .error (.unknownInstance wrapper id)

end Form

end EntryForm
