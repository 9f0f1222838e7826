import EntryForm.Disclosure
import EntryForm.Instances
import EntryForm.Submission

/-!
# Sessions

A session shows one form of a document at a time. Selecting an entity replaces the form and
forgets all openings that lie ahead.
-/

namespace EntryForm

/-- A document, the form that is shown of it, and what is about to open there. -/
structure Session where
  document : Document
  settings : Settings
  generation : Nat
  form : Option Form
  disclosure : Disclosure
  deriving Repr, Inhabited

namespace Session

/-- A session without form. -/
def start (document : Document) (settings : Settings) : Session :=
  ⟨document, settings, 0, none, { delay := settings.disclosureDelay }⟩

/-- Replaces the form by the one of the entity at a focus. -/
def select (focus : String) (s : Session) : Session :=
  let generation := s.generation + 1
  { s with
    generation
    form := some (Form.compile s.settings s.document focus generation).1
    disclosure := s.disclosure.reset generation }

/-- Applies a change of the form that may be refused. -/
def change? (change : Form → Option Form) (s : Session) : Option Session :=
  (s.form.bind change).map fun form => { s with form := some form }

/-- Sets the value of a field, if there is an input of the id. -/
def setValue? (id : String) (value : Json) (s : Session) : Option Session :=
  s.change? (Form.setValue? id value)

/-- Shows a tab, if there is one of the id. -/
def activateTab? (id : String) (s : Session) : Option Session :=
  s.change? (Form.activateTab? id)

/-- Adds an instance to a repeated field and tells its id, unless adding is disabled. -/
def addInstance (wrapper : String) (s : Session) :
    Except ControlError (Option (String × Session)) :=
  match s.form with
  | none => .error .noForm
  | some form =>
    match form.addInstance s.settings s.document wrapper with
    | .error e => .error e
    | .ok none => .ok none
    | .ok (some (id, form)) => .ok (some (id, { s with form := some form }))

/-- Removes a record, or says why not. -/
def removeInstance (wrapper id : String) (s : Session) : Except ControlError Session :=
  match s.form with
  | none => .error .noForm
  | some form =>
    match form.removeInstance wrapper id with
    | .error e => .error e
    | .ok form => .ok { s with form := some form }

/-- The pointer comes to a field. Only minimal forms have fields that open. -/
def enter? (id : String) (now : Nat) (s : Session) : Option Session :=
  match s.form with
  | some form =>
    if s.settings.minimalForm then
      (s.disclosure.enter? form id now).map fun disclosure => { s with disclosure }
    else none
  | none => none

/-- The pointer leaves a field. -/
def leave (id : String) (s : Session) : Session :=
  match s.form with
  | some form =>
    let (disclosure, form) := s.disclosure.leave form id
    { s with disclosure, form := some form }
  | none => s

/-- Opens all fields whose time has come, and tells which have opened. -/
def advance (now : Nat) (s : Session) : Session × List String :=
  match s.form with
  | some form =>
    let (disclosure, form, ids) := s.disclosure.advance form now
    ({ s with disclosure, form := some form }, ids)
  | none => (s, [])

/-- How many openings lie ahead. -/
def pendingOpens (s : Session) : Nat := s.disclosure.pending.length

/-- The values of all fields, null before the first form. -/
def submission (s : Session) : Json :=
  match s.form with
  | some form => form.submission
  | none => .null

end Session

end EntryForm
