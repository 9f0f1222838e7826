import EntryForm.Proofs.Steps

/-!
# What a session answers

An event is answered: whether it has been accepted, which id a new instance has, which fields have
opened. The trace of a row of events tells the answers one after the other, each with the session
after it.
-/

namespace EntryForm

namespace Event

/-- Whether an event is about what a form holds, and not about how it is shown. -/
def isContent : Event → Bool
  | select _ => true
  | add _ => true
  | remove _ _ => true
  | set _ _ => true
  | _ => false

end Event

namespace Form

/-- What is found out before an instance is added to a field: which number it gets, and of which
entity it is. -/
def newRecord? (d : Document) (wrapper : String) (form : Form) :
    Except ControlError (Option (Nat × Entity)) :=
  match form.find? wrapper with
  | none => .error (.unknownFragment wrapper)
  | some f =>
    if f.widget.isSelect then .ok none
    else
      match f.repetition with
      | none => .error (.notRepeatable wrapper)
      | some r =>
        if !r.addEnabled then .ok none
        else
          match d.entityAt? f.entityPath with
          | none => .error (.unknownEntity f.entityPath)
          | some e => .ok (some (r.count + 1, e))

/-- Adds an instance of an entity to a field, and tells its id. -/
def addRecord (s : Settings) (wrapper : String) (record : Nat × Entity) (form : Form) :
    String × Form :=
  let (i, pass) := (record.2.compileRecord s record.1 true).run { counter := form.counter }
  (i.id, { form.update wrapper (appendInstance i) with counter := pass.counter })

/-- Adding an instance changes nothing until all is found out. -/
theorem addInstance_checked (s : Settings) (d : Document) (wrapper : String) (form : Form) :
    form.addInstance s d wrapper =
      (form.newRecord? d wrapper).map
        (Option.map fun record => form.addRecord s wrapper record) := by
  rw [addInstance, newRecord?]
  cases form.find? wrapper with
  | none => rfl
  | some f =>
      simp only
      split
      · rfl
      · cases f.repetition with
        | none => rfl
        | some r =>
            simp only
            split
            · rfl
            · cases d.entityAt? f.entityPath <;> rfl

end Form

/-- What is told about an event to who has caused it. -/
inductive Answer
  | nothing
  | accepted (yes : Bool)
  /-- The id of the new instance, or none where adding is disabled. -/
  | added (result : Except ControlError (Option String))
  | removed (result : Except ControlError Unit)
  /-- The fields that have opened. -/
  | opened (ids : List String)

namespace Answer

/-- Whether an event has been refused. -/
def isRefusal : Answer → Bool
  | accepted yes => !yes
  | added (.error _) => true
  | added (.ok none) => true
  | removed (.error _) => true
  | _ => false

end Answer

/-- An event of a run with its answer and the session after it. -/
structure Turn where
  event : Event
  answer : Answer
  after : Session

namespace Session

/-- What a session answers to an event. -/
def answer (s : Session) : Event → Answer
  | .select _ => .nothing
  | .add wrapper => .added ((s.addInstance wrapper).map fun added => added.map Prod.fst)
  | .remove wrapper id => .removed ((s.removeInstance wrapper id).map fun _ => ())
  | .set id value => .accepted (s.setValue? id value).isSome
  | .activate id => .accepted (s.activateTab? id).isSome
  | .enter id now => .accepted (s.enter? id now).isSome
  | .leave _ => .nothing
  | .advance now => .opened (s.advance now).2

/-- What happens in a row of events. -/
def trace (s : Session) : List Event → List Turn
  | [] => []
  | e :: rest => ⟨e, s.answer e, s.step e⟩ :: (s.step e).trace rest

end Session

end EntryForm
