import EntryForm.Proofs.Answers
import EntryForm.Proofs.Openings

/-!
# Selecting an entity anew

A session counts its selections, and what it keeps for a form carries the count. The count is only
ever compared, so a session in which all counts are higher by the same number goes on in the same
way. A selection leaves nothing but the count from before it.
-/

namespace EntryForm

/-- A form as it would be after more selections. -/
def Form.later (k : Nat) (form : Form) : Form :=
  { form with generation := form.generation + k }

/-- An opening in a form that is some generations later. -/
def PendingOpen.later (k : Nat) (task : PendingOpen) : PendingOpen :=
  { task with generation := task.generation + k }

/-- What is open and about to open, some generations later. -/
def Disclosure.later (k : Nat) (d : Disclosure) : Disclosure :=
  { d with
    generation := d.generation + k
    pending := d.pending.map fun entry => (entry.1, entry.2.later k) }

/-- A session as it would be after more selections. -/
def Session.later (k : Nat) (s : Session) : Session :=
  { s with
    generation := s.generation + k
    form := s.form.map (Form.later k)
    disclosure := s.disclosure.later k }

namespace Form
variable {k : Nat} {form : Form}

/-- A form that is compiled for a later generation is the same form, but later. -/
theorem later_compile (c : Settings) (d : Document) (focus : String) (generation : Nat) :
    (compile c d focus (generation + k)).1 = (compile c d focus generation).1.later k := rfl

theorem later_updateFirst? (test : Fragment → Bool) (change : Fragment → Fragment) :
    (form.later k).updateFirst? test change = (form.updateFirst? test change).map (later k) := by
  rw [updateFirst?, updateFirst?, Option.map_map]
  rfl

theorem later_update (id : String) (change : Fragment → Fragment) :
    (form.later k).update id change = (form.update id change).later k := by
  rw [update, update, later_updateFirst?]
  cases form.updateFirst? (·.id == id) change <;> rfl

theorem later_setValue? (id : String) (value : Json) :
    (form.later k).setValue? id value = (form.setValue? id value).map (later k) := by
  have hfind : (form.later k).find? id = form.find? id := rfl
  rw [setValue?, setValue?, hfind, later_update]
  cases form.find? id with
  | none => rfl
  | some f =>
      simp only
      split <;> rfl

theorem later_activateTab? (id : String) :
    (form.later k).activateTab? id = (form.activateTab? id).map (later k) :=
  later_updateFirst? _ _

/-- Adding a record to a form does not look at its generation. -/
theorem later_addInstance (c : Settings) (d : Document) (wrapper : String) :
    (form.later k).addInstance c d wrapper =
      (form.addInstance c d wrapper).map
        (Option.map fun added => (added.1, added.2.later k)) := by
  have hsame : (form.later k).newRecord? d wrapper = form.newRecord? d wrapper := rfl
  have hadded (record : Nat × Entity) : (form.later k).addRecord c wrapper record =
      ((form.addRecord c wrapper record).1, (form.addRecord c wrapper record).2.later k) := by
    simp only [addRecord, later_update]
    rfl
  rw [addInstance_checked, addInstance_checked, hsame]
  cases form.newRecord? d wrapper with
  | error e => rfl
  | ok found =>
      cases found with
      | none => rfl
      | some record => simp only [Except.map, Option.map_some, hadded]

theorem later_removeInstance (wrapper id : String) :
    (form.later k).removeInstance wrapper id = (form.removeInstance wrapper id).map (later k) := by
  have hfind : (form.later k).find? wrapper = form.find? wrapper := rfl
  rw [removeInstance, removeInstance, hfind, later_update]
  cases form.find? wrapper with
  | none => rfl
  | some f =>
      simp only
      split
      · rfl
      · split <;> rfl

end Form

namespace Disclosure
variable {k : Nat} {form : Form} {d : Disclosure}

theorem later_contains (id : String) :
    Fields.contains id (d.later k).pending = Fields.contains id d.pending :=
  Fields.contains_map (PendingOpen.later k) id d.pending

/-- Whether a field may open depends only on how the generations compare. -/
theorem later_mayOpen (id : String) :
    (d.later k).mayOpen (form.later k) id = d.mayOpen form id := by
  have hfind : (form.later k).find? id = form.find? id := rfl
  have hgeneration : ((form.later k).generation == (d.later k).generation) =
      (form.generation == d.generation) := by
    rw [Bool.eq_iff_iff, beq_iff_eq, beq_iff_eq]
    exact Nat.add_right_cancel_iff
  rw [mayOpen, mayOpen, hgeneration, hfind, later_contains]
  rfl

/-- A field entered in a later form opens as in the form itself. -/
theorem later_enter? (id : String) (now : Nat) :
    (d.later k).enter? (form.later k) id now = (d.enter? form id now).map (later k) := by
  rw [enter?, enter?, later_mayOpen]
  split
  · simp only [Option.map_some, later, Fields.map_insert]
    rfl
  · rfl

theorem later_leave (id : String) :
    (d.later k).leave (form.later k) id =
      ((d.leave form id).1.later k, (d.leave form id).2.later k) := by
  have hopen : (d.later k).isOpen id = d.isOpen id := rfl
  have hsame : (form.later k).generation = (d.later k).generation ↔
      form.generation = d.generation := Nat.add_right_cancel_iff
  simp only [leave, later_contains, hopen, hsame, Form.later_update]
  split
  · simp only [later, Fields.erase_map]
  · split
    · split <;> rfl
    · rfl

theorem later_fire (id : String) (task : PendingOpen) :
    fire id (task.later k) (d.later k) (form.later k) =
      let fired := fire id task d form
      (fired.1.later k, fired.2.1.later k, fired.2.2) := by
  have hfind : (form.later k).find? id = form.find? id := rfl
  have hsame : (task.later k).generation = (form.later k).generation ↔
      task.generation = form.generation := Nat.add_right_cancel_iff
  simp only [fire, hfind, hsame, Form.later_update]
  split
  · simp only [later, Fields.erase_map]
    rfl
  · simp only [later, Fields.erase_map]

theorem later_fireAll (tasks : List (String × PendingOpen)) (d : Disclosure) (form : Form) :
    fireAll (tasks.map fun entry => (entry.1, entry.2.later k)) (d.later k) (form.later k) =
      let fired := fireAll tasks d form
      (fired.1.later k, fired.2.1.later k, fired.2.2) := by
  induction tasks generalizing d form with
  | nil => rfl
  | cons task rest ih =>
      simp only [List.map_cons, fireAll, later_fire]
      rw [ih]

/-- Time goes on in a later form as in the form itself. -/
theorem later_advance (now : Nat) :
    (d.later k).advance (form.later k) now =
      let fired := d.advance form now
      (fired.1.later k, fired.2.1.later k, fired.2.2) := by
  have hdue : (d.later k).due now = (d.due now).map fun entry => (entry.1, entry.2.later k) := by
    rw [due, due, later, List.filter_map]
    rfl
  rw [advance, advance, hdue, later_fireAll]

end Disclosure

namespace Session
variable {k : Nat} {s t : Session}

theorem later_select (focus : String) : (s.later k).select focus = (s.select focus).later k := by
  have hcount : s.generation + k + 1 = s.generation + 1 + k := Nat.add_right_comm _ _ _
  simp only [select, later, hcount, Form.later_compile]
  rfl

/-- A change that does not look at the generation can be made in a later session. -/
theorem later_change? {change : Form → Option Form}
    (h : ∀ form, change (form.later k) = (change form).map (Form.later k)) :
    (s.later k).change? change = (s.change? change).map (later k) := by
  rw [change?, change?, later]
  cases s.form with
  | none => rfl
  | some form =>
      simp only [Option.map_some, Option.bind_some, h]
      cases change form <;> rfl

theorem later_addInstance (wrapper : String) :
    (s.later k).addInstance wrapper =
      (s.addInstance wrapper).map (Option.map fun added => (added.1, added.2.later k)) := by
  rw [addInstance, addInstance, later]
  cases s.form with
  | none => rfl
  | some form =>
      simp only [Option.map_some, Form.later_addInstance]
      cases form.addInstance s.settings s.document wrapper with
      | error e => rfl
      | ok added => cases added <;> rfl

theorem later_removeInstance (wrapper id : String) :
    (s.later k).removeInstance wrapper id = (s.removeInstance wrapper id).map (later k) := by
  rw [removeInstance, removeInstance, later]
  cases s.form with
  | none => rfl
  | some form =>
      simp only [Option.map_some, Form.later_removeInstance]
      cases form.removeInstance wrapper id <;> rfl

theorem later_enter? (id : String) (now : Nat) :
    (s.later k).enter? id now = (s.enter? id now).map (later k) := by
  rw [enter?, enter?, later]
  cases s.form with
  | none => rfl
  | some form =>
      simp only [Option.map_some, Disclosure.later_enter?]
      split
      · cases s.disclosure.enter? form id now <;> rfl
      · rfl

theorem later_leave (id : String) : (s.later k).leave id = (s.leave id).later k := by
  obtain ⟨d, c, n, form, disclosure⟩ := s
  cases form with
  | none => rfl
  | some form => simp only [leave, later, Option.map_some, Disclosure.later_leave]

theorem later_advance (now : Nat) :
    (s.later k).advance now = ((s.advance now).1.later k, (s.advance now).2) := by
  obtain ⟨d, c, n, form, disclosure⟩ := s
  cases form with
  | none => rfl
  | some form => simp only [advance, later, Option.map_some, Disclosure.later_advance]

/-- After more selections an event does the same. -/
theorem later_step (s : Session) (e : Event) : (s.later k).step e = (s.step e).later k := by
  cases e with
  | select focus => exact later_select focus
  | add wrapper =>
      rw [step, step, later_addInstance]
      cases s.addInstance wrapper with
      | error e => rfl
      | ok added => cases added <;> rfl
  | remove wrapper id =>
      rw [step, step, later_removeInstance]
      cases s.removeInstance wrapper id <;> rfl
  | set id value =>
      rw [step, step, setValue?, later_change? fun _ => Form.later_setValue? id value, setValue?]
      cases s.change? (Form.setValue? id value) <;> rfl
  | activate id =>
      rw [step, step, activateTab?, later_change? fun _ => Form.later_activateTab? id, activateTab?]
      cases s.change? (Form.activateTab? id) <;> rfl
  | enter id now =>
      rw [step, step, later_enter?]
      cases s.enter? id now <;> rfl
  | leave id => exact later_leave id
  | advance now => exact congrArg Prod.fst (later_advance now)

/-- After more selections an event is answered in the same way. -/
theorem later_answer (s : Session) (e : Event) : (s.later k).answer e = s.answer e := by
  cases e with
  | select focus => rfl
  | add wrapper =>
      rw [answer, answer, later_addInstance]
      cases s.addInstance wrapper with
      | error e => rfl
      | ok added => cases added <;> rfl
  | remove wrapper id =>
      rw [answer, answer, later_removeInstance]
      cases s.removeInstance wrapper id <;> rfl
  | set id value =>
      rw [answer, answer, setValue?, later_change? fun _ => Form.later_setValue? id value,
        Option.isSome_map, setValue?]
  | activate id =>
      rw [answer, answer, activateTab?, later_change? fun _ => Form.later_activateTab? id,
        Option.isSome_map, activateTab?]
  | enter id now => rw [answer, answer, later_enter?, Option.isSome_map]
  | leave id => rfl
  | advance now => rw [answer, answer, later_advance]

/-- A later session answers alike and shows the same, only later. -/
theorem later_trace (s : Session) (events : List Event) :
    (s.later k).trace events =
      (s.trace events).map fun turn => { turn with after := turn.after.later k } := by
  induction events generalizing s with
  | nil => rfl
  | cons e rest ih =>
      rw [trace, trace, later_step, later_answer, ih]
      rfl

/-- Of two sessions with the same document and settings, the one with more selections behind it is
after the next selection where the other one is, only later. -/
theorem select_later (hdocument : t.document = s.document) (hsettings : t.settings = s.settings)
    (hdelay : t.disclosure.delay = s.disclosure.delay) (hle : s.generation ≤ t.generation)
    (focus : String) :
    t.select focus = (s.select focus).later (t.generation - s.generation) := by
  have hcount : s.generation + 1 + (t.generation - s.generation) = t.generation + 1 := by omega
  simp only [select, later, hdocument, hsettings, hcount, Option.map_some, ← Form.later_compile,
    Disclosure.reset, Disclosure.later, hdelay, List.map_nil]

end Session

/-- What a turn shows: its answer, the form but for the count of the selections, and how many
openings lie ahead. -/
def Turn.shown (turn : Turn) : Answer × Option Form × Nat :=
  (turn.answer, turn.after.form.map fun form => { form with generation := 0 },
    turn.after.pendingOpens)

namespace Session
variable {k : Nat} {s t : Session}

theorem later_shown (turn : Turn) :
    ({ turn with after := turn.after.later k } : Turn).shown = turn.shown := by
  simp only [Turn.shown, later, pendingOpens, Disclosure.later, Option.map_map, List.length_map]
  rfl

/-- A selection after more selections shows the same, and so do the events that follow. -/
theorem shown_of_le (hdocument : t.document = s.document) (hsettings : t.settings = s.settings)
    (hdelay : t.disclosure.delay = s.disclosure.delay) (hle : s.generation ≤ t.generation)
    (focus : String) (events : List Event) :
    (t.trace (.select focus :: events)).map Turn.shown =
      (s.trace (.select focus :: events)).map Turn.shown := by
  have hselect := select_later hdocument hsettings hdelay hle focus
  let first : Turn := ⟨.select focus, .nothing, s.select focus⟩
  calc (t.trace (.select focus :: events)).map Turn.shown
      _ = (⟨.select focus, .nothing, t.select focus⟩ :: (t.select focus).trace events).map
            Turn.shown := rfl
      _ = ((first :: (s.select focus).trace events).map fun turn =>
            { turn with after := turn.after.later (t.generation - s.generation) }).map
              Turn.shown := by
          rw [hselect, later_trace]
          rfl
      _ = (first :: (s.select focus).trace events).map Turn.shown := by
          rw [List.map_map]
          exact List.map_congr_left fun turn _ => later_shown turn
      _ = (s.trace (.select focus :: events)).map Turn.shown := rfl

/-- Whatever has happened before a selection, from there on the events are answered in the same way
and the forms are the same but for the count of the selections. -/
theorem reselected_form_starts_anew (d : Document) (c : Settings) (before before' : List Event)
    (focus : String) (events : List Event) :
    (((start d c).run before).trace (.select focus :: events)).map Turn.shown =
      (((start d c).run before').trace (.select focus :: events)).map Turn.shown := by
  have h := reached_run d c before
  have h' := reached_run d c before'
  have hdocument := h.document.trans h'.document.symm
  have hsettings := h.settings.trans h'.settings.symm
  have hdelay : ((start d c).run before).disclosure.delay =
      ((start d c).run before').disclosure.delay := by
    rw [(tracked_run d c before).delay, (tracked_run d c before').delay, hsettings]
  rcases Nat.le_total ((start d c).run before).generation
    ((start d c).run before').generation with hle | hle
  · exact (shown_of_le hdocument.symm hsettings.symm hdelay.symm hle focus events).symm
  · exact shown_of_le hdocument hsettings hdelay hle focus events

end Session

end EntryForm
