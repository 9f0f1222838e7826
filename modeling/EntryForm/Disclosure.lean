import EntryForm.Form

/-!
# Opening closed fields

A closed field opens when the pointer has rested on it for a while, and closes again when the
pointer leaves it empty. What was scheduled for a form never happens to a later one.
-/

namespace EntryForm

/-- An opening that lies ahead. -/
structure PendingOpen where
  due : Nat
  generation : Nat
  deriving DecidableEq, Repr, Inhabited

/-- Which fields are about to open, and which are open. Times are in milliseconds. -/
structure Disclosure where
  delay : Nat
  generation : Nat := 0
  pending : Fields PendingOpen := []
  opened : List String := []
  deriving DecidableEq, Repr, Inhabited

namespace Disclosure

/-- Forgets everything and follows the form of a generation. -/
def reset (generation : Nat) (d : Disclosure) : Disclosure :=
  { d with generation, pending := [], opened := [] }

/-- Whether a field has been opened since the form was made. -/
def isOpen (id : String) (d : Disclosure) : Bool := d.opened.contains id

/-- Whether the pointer on a field schedules its opening. -/
def mayOpen (form : Form) (id : String) (d : Disclosure) : Bool :=
  form.generation == d.generation && !d.isOpen id && !Fields.contains id d.pending &&
    ((form.find? id).map (·.collapsible)).getD false

/-- The pointer comes to a field. -/
def enter? (form : Form) (id : String) (now : Nat) (d : Disclosure) : Option Disclosure :=
  if d.mayOpen form id then
    some { d with pending := d.pending.insert id ⟨now + d.delay, d.generation⟩ }
  else none

/-- Closes a field without content. -/
def close (f : Fragment) : Fragment :=
  if f.hasContent then f else { f with collapsed := true }

/-- The pointer leaves a field. -/
def leave (form : Form) (id : String) (d : Disclosure) : Disclosure × Form :=
  if Fields.contains id d.pending then ({ d with pending := Fields.erase id d.pending }, form)
  else if d.isOpen id then
    ({ d with opened := d.opened.filter (· != id) },
      if form.generation = d.generation then form.update id close else form)
  else (d, form)

/-- Opens a field whose time has come, if it is still there. -/
def fire (id : String) (task : PendingOpen) (d : Disclosure) (form : Form) :
    Disclosure × Form × Bool :=
  let d := { d with pending := Fields.erase id d.pending }
  if task.generation = form.generation && (form.find? id).isSome then
    ({ d with opened := if d.isOpen id then d.opened else d.opened ++ [id] },
      form.update id fun f => { f with collapsed := false }, true)
  else (d, form, false)

/-- Opens fields one after the other, and tells which have opened. -/
def fireAll : List (String × PendingOpen) → Disclosure → Form → Disclosure × Form × List String
  | [], d, form => (d, form, [])
  | (id, task) :: rest, d, form =>
    let (d, form, fired) := fire id task d form
    let (d, form, ids) := fireAll rest d form
    (d, form, if fired then id :: ids else ids)

/-- The openings whose time has come, by id. -/
def due (now : Nat) (d : Disclosure) : List (String × PendingOpen) :=
  d.pending.filter fun task => decide (task.2.due ≤ now)

/-- Opens all fields whose time has come, and tells which have opened. -/
def advance (form : Form) (now : Nat) (d : Disclosure) : Disclosure × Form × List String :=
  fireAll (d.due now) d form

end Disclosure

end EntryForm
