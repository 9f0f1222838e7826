import EntryForm.Proofs.Run

/-!
# What an event does

Without a form nothing happens but a selection. An event that is not about the pointer leaves the
openings alone and alters the form, unless it is refused; an event about the pointer changes
nothing of a form but what is open in it.
-/

namespace EntryForm

namespace Event

/-- Whether an event is about the pointer, or the time that it has rested. -/
def isHover : Event → Bool
  | enter _ _ => true
  | leave _ => true
  | advance _ => true
  | _ => false

end Event

/-- What becomes of a form by an event that is neither a selection nor about the pointer. -/
inductive Form.Alters (s : Settings) (d : Document) (a : Form) : Form → Prop
  | set {b : Form} {id : String} {value : Json} :
      a.setValue? id value = some b → Alters s d a b
  | activate {b : Form} {id : String} : a.activateTab? id = some b → Alters s d a b
  | add {b : Form} {wrapper id : String} :
      a.addInstance s d wrapper = .ok (some (id, b)) → Alters s d a b
  | remove {b : Form} {wrapper id : String} : a.removeInstance wrapper id = .ok b → Alters s d a b

/-- A change of a fragment that opens or closes it, and changes nothing else. -/
def Fragment.Folds (change : Fragment → Fragment) : Prop :=
  ∀ f, ∃ collapsed, change f = { f with collapsed }

namespace Fragment

theorem folds_open : Folds fun f => { f with collapsed := false } := fun _ => ⟨false, rfl⟩

theorem folds_close : Folds Disclosure.close := by
  intro f
  obtain ⟨field, widget, instances⟩ := f
  rw [Disclosure.close]
  split
  · exact ⟨field.collapsed, rfl⟩
  · exact ⟨true, rfl⟩

theorem Folds.edit {change : Fragment → Fragment} (h : Folds change) : Edit change := by
  constructor
  · intro f
    obtain ⟨collapsed, hchange⟩ := h f
    rw [hchange]
    rfl
  · intro f
    obtain ⟨collapsed, hchange⟩ := h f
    rw [hchange]
    rfl

end Fragment

namespace Form
variable {change : Fragment → Fragment}

theorem update_of_find?_eq_none (hid : ∀ f, (change f).id = f.id) {id : String} {a : Form}
    (h : a.find? id = none) : a.update id change = a := by
  have hnone : a.updateFirst? (·.id == id) change = none := by
    rw [updateFirst?, (Fragment.updateRow?_eq_none_iff hid a.fragments).mpr h]
    rfl
  rw [update, hnone]
  rfl

/-- Editing the fragment with an id keeps the shapes of all nodes. -/
theorem update_shapes (hedit : Fragment.Edit change) (id : String) (a : Form) :
    (a.update id change).nodes.map Node.shape = a.nodes.map Node.shape := by
  cases hfind : a.find? id with
  | none => rw [update_of_find?_eq_none hedit.id hfind]
  | some g => exact hedit.shapes (update_replaces change hedit.id hfind)

end Form

namespace Session

variable {s : Session} {a : Form}

/-- Before the first selection there is nothing that an event could change. -/
theorem step_of_no_form (hform : s.form = none) {e : Event} (he : e.isSelect = false) :
    s.step e = s := by
  cases e with
  | select focus => cases he
  | add wrapper => simp only [step, addInstance, hform]
  | remove wrapper id => simp only [step, removeInstance, hform]
  | set id value => simp only [step, setValue?, change?, hform, Option.bind_none, Option.map_none,
      Option.getD_none]
  | activate id => simp only [step, activateTab?, change?, hform, Option.bind_none,
      Option.map_none, Option.getD_none]
  | enter id now => simp only [step, enter?, hform, Option.getD_none]
  | leave id => simp only [step, leave, hform]
  | advance now => simp only [step, advance, hform]

/-- A change makes a new form or leaves the session as it is. -/
theorem step_change {change : Form → Option Form} (hform : s.form = some a) :
    (s.change? change).getD s = s ∨
      ∃ b, change a = some b ∧ (s.change? change).getD s = { s with form := some b } := by
  cases hb : change a with
  | none => exact Or.inl (by simp [change?, hform, hb])
  | some b => exact Or.inr ⟨b, rfl, by simp [change?, hform, hb]⟩

/-- What adding a record makes of a session. -/
theorem step_add (hform : s.form = some a) (wrapper : String) :
    s.step (.add wrapper) = s ∨
      ∃ id b, a.addInstance s.settings s.document wrapper = .ok (some (id, b)) ∧
        s.step (.add wrapper) = { s with form := some b } := by
  simp only [step, addInstance, hform]
  cases hadd : a.addInstance s.settings s.document wrapper with
  | error e => exact Or.inl rfl
  | ok added =>
      cases added with
      | none => exact Or.inl rfl
      | some added => exact Or.inr ⟨added.1, added.2, rfl, rfl⟩

/-- An event that is neither a selection nor about the pointer is refused or alters the form. -/
theorem step_alters (hform : s.form = some a) {e : Event} (hselect : e.isSelect = false)
    (hhover : e.isHover = false) :
    s.step e = s ∨
      ∃ b, a.Alters s.settings s.document b ∧ s.step e = { s with form := some b } := by
  cases e with
  | select focus => cases hselect
  | enter id now => cases hhover
  | leave id => cases hhover
  | advance now => cases hhover
  | set id value =>
      rcases step_change hform with hsame | ⟨b, hb, hstep⟩
      · exact Or.inl hsame
      · exact Or.inr ⟨b, .set hb, hstep⟩
  | activate id =>
      rcases step_change hform with hsame | ⟨b, hb, hstep⟩
      · exact Or.inl hsame
      · exact Or.inr ⟨b, .activate hb, hstep⟩
  | add wrapper =>
      rcases step_add hform wrapper with hsame | ⟨_, b, hadd, hstep⟩
      · exact Or.inl hsame
      · exact Or.inr ⟨b, .add hadd, hstep⟩
  | remove wrapper id =>
      simp only [step, removeInstance, hform]
      cases hremove : a.removeInstance wrapper id with
      | error e => exact Or.inl rfl
      | ok b => exact Or.inr ⟨b, .remove hremove, rfl⟩

/-- Leaving a field may close it and drops its opening. -/
theorem step_leave (hform : s.form = some a) (id : String) :
    s.step (.leave id) =
      { s with
        disclosure := (s.disclosure.leave a id).1
        form := some (s.disclosure.leave a id).2 } := by
  simp only [step, leave, hform]

theorem step_advance (hform : s.form = some a) (now : Nat) :
    s.step (.advance now) =
      { s with
        disclosure := (s.disclosure.advance a now).1
        form := some (s.disclosure.advance a now).2.1 } := by
  simp only [step, advance, hform]

theorem enter?_some {id : String} {now : Nat} {s' : Session} (h : s.enter? id now = some s') :
    ∃ a k, s.form = some a ∧ s.disclosure.enter? a id now = some k ∧
      s' = { s with disclosure := k } := by
  rw [enter?] at h
  split at h
  case _ a hform =>
    split at h
    · obtain ⟨k, hk, rfl⟩ := Option.map_eq_some_iff.mp h
      exact ⟨a, k, hform, hk, rfl⟩
    · cases h
  case _ => cases h

/-- What an event makes of a session. -/
inductive Stepped (s : Session) : Event → Session → Prop
  | select (focus : String) : Stepped s (.select focus) (s.select focus)
  | idle {e : Event} : e.isSelect = false → Stepped s e s
  | alter {e : Event} {a b : Form} : e.isSelect = false → e.isHover = false → s.form = some a →
      a.Alters s.settings s.document b → Stepped s e { s with form := some b }
  | enter {id : String} {now : Nat} {a : Form} {k : Disclosure} : s.form = some a →
      s.disclosure.enter? a id now = some k →
        Stepped s (.enter id now) { s with disclosure := k }
  | leave {a : Form} (id : String) : s.form = some a →
      Stepped s (.leave id)
        { s with
          disclosure := (s.disclosure.leave a id).1
          form := some (s.disclosure.leave a id).2 }
  | advance {a : Form} (now : Nat) : s.form = some a →
      Stepped s (.advance now)
        { s with
          disclosure := (s.disclosure.advance a now).1
          form := some (s.disclosure.advance a now).2.1 }

/-- Every event is one of the ways in which a session steps. -/
theorem stepped_step (s : Session) (e : Event) : Stepped s e (s.step e) := by
  cases hselect : e.isSelect with
  | true =>
      cases e with
      | select focus => exact .select focus
      | _ => cases hselect
  | false =>
      cases hform : s.form with
      | none =>
          rw [step_of_no_form hform hselect]
          exact .idle hselect
      | some a =>
          cases hhover : e.isHover with
          | false =>
              rcases step_alters hform hselect hhover with hsame | ⟨b, halters, hstep⟩
              · rw [hsame]
                exact .idle hselect
              · rw [hstep]
                exact .alter hselect hhover hform halters
          | true =>
              cases e with
              | enter id now =>
                  rw [step]
                  cases henter : s.enter? id now with
                  | none => exact .idle rfl
                  | some s' =>
                      obtain ⟨a', k, ha', hk, rfl⟩ := enter?_some henter
                      exact .enter ha' hk
              | leave id =>
                  rw [step_leave hform]
                  exact .leave id hform
              | advance now =>
                  rw [step_advance hform]
                  exact .advance now hform
              | _ => cases hhover

/-- What holds at the start and is kept by every event holds after every run. -/
theorem run_invariant {Holds : Session → Prop} {s : Session} (hstart : Holds s)
    (hstep : ∀ s e s', Stepped s e s' → Holds s → Holds s') (events : List Event) :
    Holds (s.run events) := by
  induction events generalizing s with
  | nil => exact hstart
  | cons e rest ih => exact ih (hstep s e (s.step e) (stepped_step s e) hstart)

end Session

namespace Disclosure

/-- A field that the pointer leaves is closed, or nothing happens to the form. -/
theorem leave_form (a : Form) (id : String) (k : Disclosure) :
    (k.leave a id).2 = a ∨ (k.leave a id).2 = a.update id close := by
  simp only [leave]
  split
  · exact Or.inl rfl
  · split
    · split
      · exact Or.inr rfl
      · exact Or.inl rfl
    · exact Or.inl rfl

/-- A field whose time has come is opened, or nothing happens to the form. -/
theorem fire_form (id : String) (task : PendingOpen) (k : Disclosure) (a : Form) :
    (fire id task k a).2.1 = a ∨
      (fire id task k a).2.1 = a.update id fun f => { f with collapsed := false } := by
  simp only [fire]
  split
  · exact Or.inr rfl
  · exact Or.inl rfl

/-- What opening and closing fields keeps holds of a form after an event about the pointer. -/
theorem fireAll_invariant {Holds : Form → Prop}
    (hfold : ∀ a id change, Fragment.Folds change → Holds a → Holds (a.update id change))
    (tasks : List (String × PendingOpen)) (k : Disclosure) {a : Form} (h : Holds a) :
    Holds (fireAll tasks k a).2.1 := by
  induction tasks generalizing k a with
  | nil => exact h
  | cons task rest ih =>
      have hfirst : Holds (fire task.1 task.2 k a).2.1 := by
        rcases fire_form task.1 task.2 k a with hsame | hopen
        · rw [hsame]
          exact h
        · rw [hopen]
          exact hfold a task.1 _ Fragment.folds_open h
      exact ih _ hfirst

end Disclosure

namespace Session
variable {c : Settings} {d : Document}

/-- What compiled forms have and every change of a form keeps, all forms of a session have. What
alters a form reads the document and the settings, so these are part of the invariant. -/
theorem form_invariant {Holds : Form → Prop}
    (hcompile : ∀ focus generation, Holds (Form.compile c d focus generation).1)
    (halters : ∀ a b, a.Alters c d b → Holds a → Holds b)
    (hfold : ∀ a id change, Fragment.Folds change → Holds a → Holds (a.update id change))
    {history : List Event} {form : Form} (h : ((start d c).run history).form = some form) :
    Holds form := by
  let Good (s : Session) : Prop :=
    s.document = d ∧ s.settings = c ∧ ∀ a, s.form = some a → Holds a
  have hstart : Good (start d c) := ⟨rfl, rfl, nofun⟩
  have hstep : ∀ s e s', Stepped s e s' → Good s → Good s' := by
    rintro s e s' hstepped ⟨hd, hc, hs⟩
    cases hstepped with
    | select focus =>
        refine ⟨hd, hc, ?_⟩
        rintro _ ⟨⟩
        rw [hd, hc]
        exact hcompile focus _
    | idle _ => exact ⟨hd, hc, hs⟩
    | alter _ _ hform halter =>
        rw [hd, hc] at halter
        refine ⟨hd, hc, ?_⟩
        rintro _ ⟨⟩
        exact halters _ _ halter (hs _ hform)
    | enter _ _ => exact ⟨hd, hc, hs⟩
    | @leave a id hform =>
        refine ⟨hd, hc, ?_⟩
        rintro _ ⟨⟩
        rcases Disclosure.leave_form a id s.disclosure with hsame | hclose
        · rw [hsame]
          exact hs a hform
        · rw [hclose]
          exact hfold a id _ Fragment.folds_close (hs a hform)
    | @advance a now hform =>
        refine ⟨hd, hc, ?_⟩
        rintro _ ⟨⟩
        exact Disclosure.fireAll_invariant hfold _ _ (hs a hform)
  have hgood : Good ((start d c).run history) := run_invariant hstart hstep history
  exact hgood.2.2 form h

end Session

end EntryForm
