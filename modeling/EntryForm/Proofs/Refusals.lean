import EntryForm.Proofs.Answers
import EntryForm.Proofs.Freshness

/-!
# Events that are refused

The events of a session as they work on it in place, one effect after the other: what has been
changed before an event fails stays changed. They do what `Session.step` does and answer what
`Session.answer` tells, and an event that is refused has changed nothing.
-/

namespace EntryForm

namespace Fragment

mutual
/-- Looks for the first fragment that passes a test and changes it on the spot. Tells whether there
is one, and what has become of the fragment that was looked through. -/
def seek (test : Fragment → Bool) (change : Fragment → Fragment) : Fragment → Bool × Fragment
  | ⟨field, widget, instances⟩ =>
    if test ⟨field, widget, instances⟩ then (true, change ⟨field, widget, instances⟩)
    else
      let (found, widget) := seekWidget test change widget
      if found then (true, ⟨field, widget, instances⟩)
      else
        let (found, instances) := seekInstances test change instances
        (found, ⟨field, widget, instances⟩)
/-- The search inside a widget, which is changed in place. -/
def seekWidget (test : Fragment → Bool) (change : Fragment → Fragment) :
    Widget Fragment → Bool × Widget Fragment
  | .group children =>
    let (found, children) := seekRow test change children
    (found, .group children)
  | .tabs tabs =>
    let (found, tabs) := seekTabs test change tabs
    (found, .tabs tabs)
  | w => (false, w)
/-- The search in a row of fragments, which are changed in place. -/
def seekRow (test : Fragment → Bool) (change : Fragment → Fragment) :
    List Fragment → Bool × List Fragment
  | [] => (false, [])
  | f :: rest =>
    let (found, f) := seek test change f
    if found then (true, f :: rest)
    else
      let (found, rest) := seekRow test change rest
      (found, f :: rest)
/-- The search in a row of tabs, whose fragments are changed in place. -/
def seekTabs (test : Fragment → Bool) (change : Fragment → Fragment) :
    List (Tab Fragment) → Bool × List (Tab Fragment)
  | [] => (false, [])
  | ⟨id, entityId, label, active, fragments⟩ :: rest =>
    let (found, fragments) := seekRow test change fragments
    if found then (true, ⟨id, entityId, label, active, fragments⟩ :: rest)
    else
      let (found, rest) := seekTabs test change rest
      (found, ⟨id, entityId, label, active, fragments⟩ :: rest)
/-- The search in a row of records, whose fragments are changed in place. -/
def seekInstances (test : Fragment → Bool) (change : Fragment → Fragment) :
    List (Instance Fragment) → Bool × List (Instance Fragment)
  | [] => (false, [])
  | ⟨id, header, removable, fragments⟩ :: rest =>
    let (found, fragments) := seekRow test change fragments
    if found then (true, ⟨id, header, removable, fragments⟩ :: rest)
    else
      let (found, rest) := seekInstances test change rest
      (found, ⟨id, header, removable, fragments⟩ :: rest)
end

variable {test : Fragment → Bool} {change : Fragment → Fragment}

/-- What a search in place tells and leaves, given what the change yields if there is one. -/
def sought {α : Type} (before : α) : Option α → Bool × α
  | some after => (true, after)
  | none => (false, before)

mutual
/-- A search that finds nothing has gone through everything and left it as it was. -/
theorem seek_eq : ∀ f : Fragment,
    seek test change f = sought f (updateFirst? test change f)
  | ⟨field, widget, instances⟩ => by
      rw [seek, updateFirst?, seekWidget_eq widget, seekInstances_eq instances]
      split
      · rfl
      · cases updateWidget? test change widget with
        | some w => rfl
        | none => cases updateInstances? test change instances <;> rfl
theorem seekWidget_eq : ∀ w : Widget Fragment,
    seekWidget test change w = sought w (updateWidget? test change w)
  | .group children => by
      rw [seekWidget, updateWidget?, seekRow_eq children]
      cases updateRow? test change children <;> rfl
  | .tabs tabs => by
      rw [seekWidget, updateWidget?, seekTabs_eq tabs]
      cases updateTabs? test change tabs <;> rfl
  | .placeholder _ => rfl
  | .diagnostic _ => rfl
  | .text _ => rfl
  | .number _ => rfl
  | .moment _ => rfl
  | .boolean _ => rfl
  | .select _ => rfl
/-- Searching a row in place leaves the changed row if there is one, else the same. -/
theorem seekRow_eq : ∀ fragments : List Fragment,
    seekRow test change fragments = sought fragments (updateRow? test change fragments)
  | [] => rfl
  | f :: rest => by
      rw [seekRow, updateRow?, seek_eq f, seekRow_eq rest]
      cases updateFirst? test change f with
      | some g => rfl
      | none => cases updateRow? test change rest <;> rfl
theorem seekTabs_eq : ∀ tabs : List (Tab Fragment),
    seekTabs test change tabs = sought tabs (updateTabs? test change tabs)
  | [] => rfl
  | ⟨_, _, _, _, fragments⟩ :: rest => by
      rw [seekTabs, updateTabs?, seekRow_eq fragments, seekTabs_eq rest]
      cases updateRow? test change fragments with
      | some changed => rfl
      | none => cases updateTabs? test change rest <;> rfl
theorem seekInstances_eq : ∀ instances : List (Instance Fragment),
    seekInstances test change instances = sought instances (updateInstances? test change instances)
  | [] => rfl
  | ⟨_, _, _, fragments⟩ :: rest => by
      rw [seekInstances, updateInstances?, seekRow_eq fragments, seekInstances_eq rest]
      cases updateRow? test change fragments with
      | some changed => rfl
      | none => cases updateInstances? test change rest <;> rfl
end

end Fragment

namespace Form
variable {change : Fragment → Fragment}

/-- Changing a fragment does not look at the counter. -/
theorem update_recount (id : String) (form : Form) (counter : Nat) :
    ({ form with counter } : Form).update id change =
      { form.update id change with counter } := by
  have hrow : ({ form with counter } : Form).fragments = form.fragments := rfl
  rw [update, update, updateFirst?, updateFirst?, hrow]
  cases Fragment.updateRow? (·.id == id) change form.fragments <;> rfl

end Form

/-- A step that works on a form in place, and can fail. -/
abbrev FormM := ExceptT ControlError (StateM Form)

namespace FormM

/-- Changes the first fragment that passes a test, and tells whether there is one. -/
def seek (test : Fragment → Bool) (change : Fragment → Fragment) : FormM Bool := do
  let form ← get
  match form.state with
  | .noFieldSpecification => pure false
  | .fields fragments =>
    let (found, fragments) := Fragment.seekRow test change fragments
    set { form with state := .fields fragments }
    pure found

/-- Changes the fragment with an id, which must be there. -/
def touch (id : String) (change : Fragment → Fragment) : FormM Unit := do
  let found ← seek (·.id == id) change
  if found then pure () else throw (.unknownFragment id)

/-- Does a step of a pass with ids from the counter of the form. -/
def issue {α : Type} (step : PassM α) : FormM α := do
  let form ← get
  let (a, pass) := step.run { counter := form.counter }
  set { form with counter := pass.counter }
  pure a

/-- Sets the value of a field, if it is an input. -/
def set? (id : String) (value : Json) : FormM Bool := do
  let form ← get
  match form.find? id with
  | some f =>
    if f.widget.isInput then seek (·.id == id) fun f => { f with value := some value }
    else pure false
  | none => pure false

/-- Shows a tab, if there is one of the id. -/
def activate? (id : String) : FormM Bool :=
  seek (fun f => f.widget.ownsTab id) fun f => { f with widget := f.widget.showTab id }

/-- The instance is compiled, which uses up ids, before the repeated field is looked for again. -/
def add (s : Settings) (d : Document) (wrapper : String) : FormM (Option String) := do
  let form ← get
  match form.find? wrapper with
  | none => throw (.unknownFragment wrapper)
  | some f =>
    if f.widget.isSelect then pure none
    else
      match f.repetition with
      | none => throw (.notRepeatable wrapper)
      | some r =>
        if !r.addEnabled then pure none
        else
          match d.entityAt? f.entityPath with
          | none => throw (.unknownEntity f.entityPath)
          | some e =>
            let i ← issue (e.compileRecord s (r.count + 1) true)
            touch wrapper (Form.appendInstance i)
            pure (some i.id)

/-- Removes a record, or says why not. -/
def remove (wrapper id : String) : FormM Unit := do
  let form ← get
  match form.find? wrapper with
  | none => throw (.unknownFragment wrapper)
  | some f =>
    if f.repetition.isNone then throw (.notRepeatable wrapper)
    else if f.instances.any (Form.isRemovable id) then touch wrapper (Form.dropInstance id)
    else throw (.unknownInstance wrapper id)

/-- What a step tells and leaves when it is done on a form. -/
def on {α : Type} (form : Form) (step : FormM α) : Except ControlError α × Form :=
  StateT.run (ExceptT.run step) form

variable {test : Fragment → Bool} {change : Fragment → Fragment} {form : Form}

/-- A step that succeeds goes on with what it leaves. -/
theorem on_bind {α β : Type} {step : FormM α} {next : α → FormM β} {a : α} {after : Form}
    (h : step.on form = (.ok a, after)) : (step >>= next).on form = (next a).on after := by
  change StateT.run (ExceptT.run (step >>= next)) form = _
  rw [ExceptT.run_bind, StateT.run_bind]
  change StateT.run (ExceptT.run step) form = _ at h
  rw [h]
  rfl

/-- Searching a form in place leaves the changed form if there is one, else the same. -/
theorem seek_on : (seek test change).on form =
    match form.updateFirst? test change with
    | some after => (.ok true, after)
    | none => (.ok false, form) := by
  have hget : (get : FormM Form).on form = (.ok form, form) := rfl
  rw [seek, on_bind hget, Form.updateFirst?, Form.fragments]
  cases hstate : form.state with
  | noFieldSpecification => rfl
  | fields row =>
      simp only [FormState.fragments, Fragment.seekRow_eq]
      cases Fragment.updateRow? test change row with
      | some after => rfl
      | none =>
          have hback : { form with state := .fields row } = form := by rw [← hstate]
          exact congrArg (Except.ok false, ·) hback

theorem issue_on {α : Type} (step : PassM α) :
    (issue step).on form =
      (.ok (step.run { counter := form.counter }).1,
        { form with counter := (step.run { counter := form.counter }).2.counter }) := rfl

/-- A fragment that is there is changed. -/
theorem touch_on (hid : ∀ f, (change f).id = f.id) {id : String} {f : Fragment}
    (h : form.find? id = some f) :
    (touch id change).on form = (.ok (), form.update id change) := by
  have hseek : (seek (·.id == id) change).on form = (.ok true, form.update id change) := by
    rw [seek_on, Form.updateFirst?_of_find? hid h]
  rw [touch, on_bind hseek]
  rfl

/-- Setting in place leaves the form with the value if it is set, else the same. -/
theorem set?_on (id : String) (value : Json) :
    (set? id value).on form =
      (.ok (form.setValue? id value).isSome, (form.setValue? id value).getD form) := by
  have hget : (get : FormM Form).on form = (.ok form, form) := rfl
  rw [set?, on_bind hget, Form.setValue?]
  cases hfind : form.find? id with
  | none => rfl
  | some f =>
      cases hinput : f.widget.isInput with
      | false => simp only [hinput]; rfl
      | true =>
          simp only [hinput, if_true]
          rw [seek_on, Form.updateFirst?_of_find? (Fragment.edit_value value).id hfind]
          rfl

theorem activate?_on (id : String) :
    (activate? id).on form =
      (.ok (form.activateTab? id).isSome, (form.activateTab? id).getD form) := by
  rw [activate?, seek_on, Form.activateTab?]
  cases form.updateFirst? _ _ <;> rfl

/-- The repeated field is still there when the instance has been compiled, for the search does not
look at the counter, which the record has moved on. -/
theorem add_on (s : Settings) (d : Document) (wrapper : String) :
    (add s d wrapper).on form =
      match form.addInstance s d wrapper with
      | .error e => (.error e, form)
      | .ok none => (.ok none, form)
      | .ok (some (id, after)) => (.ok (some id), after) := by
  have hget : (get : FormM Form).on form = (.ok form, form) := rfl
  rw [add, on_bind hget, Form.addInstance]
  cases hfind : form.find? wrapper with
  | none => rfl
  | some f =>
      simp only
      split
      · rfl
      · cases f.repetition with
        | none => rfl
        | some r =>
            simp only
            split
            · rfl
            · cases d.entityAt? f.entityPath with
              | none => rfl
              | some e =>
                  simp only
                  have hissue := @issue_on form _ (e.compileRecord s (r.count + 1) true)
                  generalize (e.compileRecord s (r.count + 1) true).run
                    { counter := form.counter } = compiled at hissue ⊢
                  obtain ⟨i, pass⟩ := compiled
                  have htouch := @touch_on (Form.appendInstance i)
                    { form with counter := pass.counter } (fun _ => rfl) wrapper f hfind
                  rw [on_bind hissue, on_bind htouch, Form.update_recount]
                  rfl

theorem remove_on (wrapper id : String) :
    (remove wrapper id).on form =
      match form.removeInstance wrapper id with
      | .error e => (.error e, form)
      | .ok after => (.ok (), after) := by
  have hget : (get : FormM Form).on form = (.ok form, form) := rfl
  rw [remove, on_bind hget, Form.removeInstance]
  cases hfind : form.find? wrapper with
  | none => rfl
  | some f =>
      simp only
      split
      · rfl
      · split
        · rw [@touch_on (Form.dropInstance id) form (fun _ => rfl) wrapper f hfind]
        · rfl

end FormM

namespace Disclosure

/-- The pointer comes to a field, and an opening is scheduled unless one of the checks fails. -/
def enterInPlace (form : Form) (id : String) (now : Nat) : StateM Disclosure Bool := do
  let d ← get
  if form.generation != d.generation || d.isOpen id || Fields.contains id d.pending then pure false
  else if !(form.find? id).any (·.collapsible) then pure false
  else
    set { d with pending := Fields.insert id ⟨now + d.delay, d.generation⟩ d.pending }
    pure true

/-- The pointer in place leaves the opening scheduled if it is accepted, else nothing new. -/
theorem run_enterInPlace (form : Form) (id : String) (now : Nat) (d : Disclosure) :
    (enterInPlace form id now).run d =
      ((d.enter? form id now).isSome, (d.enter? form id now).getD d) := by
  have hrun : (enterInPlace form id now).run d =
      if form.generation != d.generation || d.isOpen id || Fields.contains id d.pending then
        (false, d)
      else if !(form.find? id).any (·.collapsible) then (false, d)
      else (true, { d with pending := d.pending.insert id ⟨now + d.delay, d.generation⟩ }) := by
    change StateT.run (if _ then _ else _) d = _
    split
    · rfl
    · split <;> rfl
  have hmay : d.mayOpen form id =
      (!(form.generation != d.generation || d.isOpen id || Fields.contains id d.pending) &&
        (form.find? id).any (·.collapsible)) := by
    rw [mayOpen]
    cases form.find? id <;> simp [bne]
  rw [hrun, enter?, hmay]
  split
  · simp [*]
  · split <;> simp_all

end Disclosure

namespace Session

/-- Does a step on the form that is shown, if there is one. -/
def onForm {α : Type} (step : FormM α) : StateM Session (Except ControlError α) :=
  modifyGet fun s =>
    match s.form with
    | none => (.error .noForm, s)
    | some form =>
      let (result, form) := step.on form
      (result, { s with form := some form })

/-- The pointer comes to a field. Only minimal forms have fields that open. -/
def enterInPlace (id : String) (now : Nat) : StateM Session Bool :=
  modifyGet fun s =>
    match s.form with
    | none => (false, s)
    | some form =>
      if s.settings.minimalForm then
        let (yes, disclosure) := (Disclosure.enterInPlace form id now).run s.disclosure
        (yes, { s with disclosure })
      else (false, s)

/-- Works on a session as an event does, and tells the answer. -/
def perform : Event → StateM Session Answer
  | .select focus => modifyGet fun s => (.nothing, s.select focus)
  | .add wrapper => do
    let s ← get
    .added <$> onForm (FormM.add s.settings s.document wrapper)
  | .remove wrapper id => .removed <$> onForm (FormM.remove wrapper id)
  | .set id value => (fun r => .accepted (r.toOption.getD false)) <$> onForm (FormM.set? id value)
  | .activate id => (fun r => .accepted (r.toOption.getD false)) <$> onForm (FormM.activate? id)
  | .enter id now => .accepted <$> enterInPlace id now
  | .leave id => modifyGet fun s => (.nothing, s.leave id)
  | .advance now => modifyGet fun s => (.opened (s.advance now).2, (s.advance now).1)

variable {s : Session} {form : Form}

theorem onForm_none {α : Type} (step : FormM α) (h : s.form = none) :
    (onForm step).run s = (.error .noForm, s) := by
  change (match s.form with | none => _ | some form => _) = _
  rw [h]

/-- A step on forms leaves the session with the form that the step leaves. -/
theorem onForm_some {α : Type} (step : FormM α) (h : s.form = some form) :
    (onForm step).run s = ((step.on form).1, { s with form := some (step.on form).2 }) := by
  change (match s.form with | none => _ | some form => _) = _
  rw [h]

/-- Putting the form back that is shown changes nothing. -/
theorem with_form (h : s.form = some form) : { s with form := some form } = s := by
  rw [← h]

/-- A change that may be refused, in place. -/
theorem onForm_change {step : FormM Bool} {change : Form → Option Form}
    (h : ∀ form, step.on form = (.ok (change form).isSome, (change form).getD form)) (s : Session) :
    ((onForm step).run s).1.toOption.getD false = (s.change? change).isSome ∧
      ((onForm step).run s).2 = (s.change? change).getD s := by
  cases hform : s.form with
  | none =>
      rw [onForm_none step hform, change?, hform]
      exact ⟨rfl, rfl⟩
  | some form =>
      rw [onForm_some step hform, h, change?, hform, Option.bind_some]
      cases change form with
      | none => exact ⟨rfl, with_form hform⟩
      | some after => exact ⟨rfl, rfl⟩

/-- Adding a record in place answers and leaves what the event does. -/
theorem run_add (s : Session) (wrapper : String) :
    (perform (.add wrapper)).run s = (s.answer (.add wrapper), s.step (.add wrapper)) := by
  change (Answer.added ((onForm (FormM.add s.settings s.document wrapper)).run s).1,
    ((onForm (FormM.add s.settings s.document wrapper)).run s).2) = _
  rw [answer, step, addInstance]
  cases hform : s.form with
  | none =>
      rw [onForm_none _ hform]
      rfl
  | some form =>
      rw [onForm_some _ hform, FormM.add_on]
      simp only
      cases form.addInstance s.settings s.document wrapper with
      | error e => exact congrArg _ (with_form hform)
      | ok added =>
          cases added with
          | none => exact congrArg _ (with_form hform)
          | some added => rfl

theorem run_remove (s : Session) (wrapper id : String) :
    (perform (.remove wrapper id)).run s =
      (s.answer (.remove wrapper id), s.step (.remove wrapper id)) := by
  change (Answer.removed ((onForm (FormM.remove wrapper id)).run s).1,
    ((onForm (FormM.remove wrapper id)).run s).2) = _
  rw [answer, step, removeInstance]
  cases hform : s.form with
  | none =>
      rw [onForm_none _ hform]
      rfl
  | some form =>
      rw [onForm_some _ hform, FormM.remove_on]
      simp only
      cases form.removeInstance wrapper id with
      | error e => exact congrArg _ (with_form hform)
      | ok after => rfl

theorem run_enter (s : Session) (id : String) (now : Nat) :
    (perform (.enter id now)).run s = (s.answer (.enter id now), s.step (.enter id now)) := by
  change (Answer.accepted ((enterInPlace id now).run s).1, ((enterInPlace id now).run s).2) = _
  rw [answer, step, enter?]
  have hrun : (enterInPlace id now).run s =
      match s.form with
      | none => (false, s)
      | some form =>
        if s.settings.minimalForm then
          let (yes, disclosure) := (Disclosure.enterInPlace form id now).run s.disclosure
          (yes, { s with disclosure })
        else (false, s) := rfl
  rw [hrun]
  cases hform : s.form with
  | none => rfl
  | some form =>
      simp only
      split
      · rw [Disclosure.run_enterInPlace]
        cases s.disclosure.enter? form id now with
        | none => exact congrArg _ (with_form hform)
        | some disclosure => rfl
      · rfl

/-- Working in place comes to what an event does and answers. -/
theorem run_perform (s : Session) (e : Event) : (perform e).run s = (s.answer e, s.step e) := by
  cases e with
  | select focus => rfl
  | leave id => rfl
  | advance now => rfl
  | add wrapper => exact run_add s wrapper
  | remove wrapper id => exact run_remove s wrapper id
  | set id value =>
      obtain ⟨hanswer, hafter⟩ := @onForm_change (FormM.set? id value) (Form.setValue? id value)
        (fun _ => FormM.set?_on id value) s
      exact Prod.ext (congrArg Answer.accepted hanswer) hafter
  | activate id =>
      obtain ⟨hanswer, hafter⟩ := @onForm_change (FormM.activate? id) (Form.activateTab? id)
        (fun _ => FormM.activate?_on id) s
      exact Prod.ext (congrArg Answer.accepted hanswer) hafter
  | enter id now => exact run_enter s id now

/-- An event that is refused changes nothing. -/
theorem step_of_refusal {e : Event} (h : (s.answer e).isRefusal = true) : s.step e = s := by
  cases e with
  | select focus => cases h
  | leave id => cases h
  | advance now => cases h
  | add wrapper =>
      rw [step]
      rw [answer] at h
      cases hadd : s.addInstance wrapper with
      | error e => rfl
      | ok added =>
          cases added with
          | none => rfl
          | some added =>
              rw [hadd] at h
              cases h
  | remove wrapper id =>
      rw [step]
      rw [answer] at h
      cases hremove : s.removeInstance wrapper id with
      | error e => rfl
      | ok after =>
          rw [hremove] at h
          cases h
  | set id value =>
      have hnone : s.setValue? id value = none := by simpa [answer, Answer.isRefusal] using h
      rw [step, hnone, Option.getD_none]
  | activate id =>
      have hnone : s.activateTab? id = none := by simpa [answer, Answer.isRefusal] using h
      rw [step, hnone, Option.getD_none]
  | enter id now =>
      have hnone : s.enter? id now = none := by simpa [answer, Answer.isRefusal] using h
      rw [step, hnone, Option.getD_none]

/-- Events that work in place do what the functions of a session tell, and an event that is refused
leaves the whole session as it was: form, counter of the ids, openings and generation. -/
theorem refused_changes_nothing (s : Session) (e : Event) :
    let r := (perform e).run s
    r = (s.answer e, s.step e) ∧ (r.1.isRefusal = true → r.2 = s) := by
  have hrun := run_perform s e
  refine ⟨hrun, ?_⟩
  rw [hrun]
  exact step_of_refusal

/-- Adding to a field that holds as many records as it may leaves the session as it was. -/
theorem fourth_record_is_refused :
    let s := (start note {}).run [.select "note", .add "note_0", .add "note_0"]
    let r := (perform (.add "note_0")).run s
    r.1.isRefusal = true ∧ r.2 = s := by
  intro s r
  obtain ⟨_, hkept⟩ := refused_changes_nothing s (.add "note_0")
  have hrefused : r.1.isRefusal = true := by decide +kernel
  exact ⟨hrefused, hkept hrefused⟩

end Session

end EntryForm
