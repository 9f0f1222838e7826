import EntryForm.Session
import EntryForm.Proofs.Derivation
import EntryForm.Proofs.Nodes

/-!
# Runs of a session

A session takes events one after the other. Between two selections its form evolves: fields are
edited, and instances are added to repeated fields and removed from them.
-/

namespace EntryForm

/-- What can happen to a session. -/
inductive Event
  | select (focus : String)
  | add (wrapper : String)
  | remove (wrapper id : String)
  | set (id : String) (value : Json)
  | activate (id : String)
  | enter (id : String) (now : Nat)
  | leave (id : String)
  | advance (now : Nat)

namespace Event

def isSelect : Event → Bool
  | select _ => true
  | _ => false

def isAdd : Event → Bool
  | add _ => true
  | _ => false

end Event

namespace Session

/-- What a session becomes by an event. An event that is refused changes nothing. -/
def step (s : Session) : Event → Session
  | .select focus => s.select focus
  | .add wrapper =>
    match s.addInstance wrapper with
    | .ok (some (_, after)) => after
    | _ => s
  | .remove wrapper id =>
    match s.removeInstance wrapper id with
    | .ok after => after
    | .error _ => s
  | .set id value => (s.setValue? id value).getD s
  | .activate id => (s.activateTab? id).getD s
  | .enter id now => (s.enter? id now).getD s
  | .leave id => s.leave id
  | .advance now => (s.advance now).1

/-- What a session becomes by a row of events. -/
def run (s : Session) (events : List Event) : Session := events.foldl step s

@[simp] theorem run_cons (s : Session) (e : Event) (events : List Event) :
    s.run (e :: events) = (s.step e).run events := rfl

theorem run_append (s : Session) (before after : List Event) :
    s.run (before ++ after) = (s.run before).run after :=
  List.foldl_append

end Session

/-- A change of a fragment that keeps its shape and what is inside. -/
structure Fragment.Edit (change : Fragment → Fragment) : Prop where
  shape : ∀ f, (change f).node.shape = f.node.shape
  children : ∀ f, (change f).children = f.children

namespace Fragment

theorem Edit.id {change : Fragment → Fragment} (h : Edit change) (f : Fragment) :
    (change f).id = f.id :=
  congrArg (·.id) (h.shape f)

theorem edit_value (value : Json) : Edit fun f => { f with value := some value } :=
  ⟨fun _ => rfl, fun _ => rfl⟩

theorem edit_open : Edit fun f => { f with collapsed := false } :=
  ⟨fun _ => rfl, fun _ => rfl⟩

theorem edit_showTab (id : String) : Edit fun f => { f with widget := f.widget.showTab id } := by
  constructor
  · intro f
    obtain ⟨field, widget, instances⟩ := f
    cases widget <;> simp [node, Node.shape, Widget.showTab, Widget.map, Widget.hideTabs, Tab.map]
  · intro f
    obtain ⟨field, widget, instances⟩ := f
    cases widget <;> simp [children, Widget.showTab, Widget.children, List.flatMap_map]

theorem edit_close : Edit Disclosure.close := by
  constructor
  · intro f
    rw [Disclosure.close]
    split <;> rfl
  · intro f
    rw [Disclosure.close]
    split <;> rfl

/-- An edit keeps the shapes of all nodes. -/
theorem Edit.shapes {change : Fragment → Fragment} (h : Edit change) {g : Fragment}
    {before after : List Node} (hreplaces : Replaces g (change g) before after) :
    after.map Node.shape = before.map Node.shape := by
  obtain ⟨left, right, rfl, rfl⟩ := hreplaces
  simp [nodesOf_singleton, h.shape, h.children]

end Fragment

namespace Form

/-- What adding an instance does: it is compiled, and appended to the repeated field. -/
theorem addInstance_ok {s : Settings} {d : Document} {wrapper id : String} {a b : Form}
    (h : a.addInstance s d wrapper = .ok (some (id, b))) :
    ∃ f r e body, a.find? wrapper = some f ∧ f.widget.isSelect = false ∧ f.repetition = some r ∧
      r.addEnabled = true ∧ d.entityAt? f.entityPath = some e ∧
      id = idAt (e.id ++ "_record") a.counter ∧
      Derives s (.node e false) false (a.counter + 1) body b.counter ∧
      Fragment.Replaces f (appendInstance ⟨id, recordHeader (r.count + 1), true, body⟩ f)
        a.nodes b.nodes := by
  rw [addInstance] at h
  split at h
  · cases h
  case _ f hfind =>
    split at h
    · cases h
    case isFalse hselect =>
      split at h
      · cases h
      case _ r hrepetition =>
        split at h
        · cases h
        case isFalse henabled =>
          split at h
          · cases h
          case _ e hentity =>
            obtain ⟨_, hderives⟩ := Entity.compileBody_derives s e
              { counter := a.counter + 1 } false rfl
            cases h
            refine ⟨f, r, e, _, hfind, by simpa using hselect, hrepetition, by simpa using henabled,
              hentity, rfl, hderives, ?_⟩
            exact update_replaces (appendInstance _) (fun _ => rfl) hfind

/-- What removing an instance does: the first one with the id goes. -/
theorem removeInstance_ok {wrapper id : String} {a b : Form}
    (h : a.removeInstance wrapper id = .ok b) :
    ∃ f r, a.find? wrapper = some f ∧ f.repetition = some r ∧
      f.instances.any (isRemovable id) = true ∧ b.counter = a.counter ∧
      Fragment.Replaces f (dropInstance id f) a.nodes b.nodes := by
  rw [removeInstance] at h
  split at h
  · cases h
  case _ f hfind =>
    split at h
    · cases h
    case isFalse hrepetition =>
      split at h
      case isTrue hany =>
        cases h
        obtain ⟨r, hr⟩ := Option.ne_none_iff_exists'.mp (by simpa using hrepetition)
        exact ⟨f, r, hfind, hr, hany, update_counter _ _ a,
          update_replaces (dropInstance id) (fun _ => rfl) hfind⟩
      · cases h

/-- How a form comes out of another one by edits, additions and removals, and how many of these
were additions. -/
inductive Evolves (s : Settings) (d : Document) (a : Form) : Nat → Form → Prop
  | refl : Evolves s d a 0 a
  | edit {n : Nat} {b c : Form} {test : Fragment → Bool} {change : Fragment → Fragment} :
      Evolves s d a n b → Fragment.Edit change → b.updateFirst? test change = some c →
        Evolves s d a n c
  | add {n : Nat} {b c : Form} {wrapper id : String} :
      Evolves s d a n b → b.addInstance s d wrapper = .ok (some (id, c)) → Evolves s d a (n + 1) c
  | remove {n : Nat} {b c : Form} {wrapper id : String} :
      Evolves s d a n b → b.removeInstance wrapper id = .ok c → Evolves s d a n c

variable {s : Settings} {d : Document} {a b c : Form}

theorem Evolves.trans {n m : Nat} (h : Evolves s d a n b) (h' : Evolves s d b m c) :
    Evolves s d a (n + m) c := by
  induction h' with
  | refl => exact h
  | edit _ hedit hchange ih => exact ih.edit hedit hchange
  | add _ hadd ih => exact ih.add hadd
  | remove _ hremove ih => exact ih.remove hremove

/-- A form evolves when a fragment is edited. -/
theorem evolves_update {change : Fragment → Fragment} (h : Fragment.Edit change) (id : String)
    (a : Form) : Evolves s d a 0 (a.update id change) := by
  cases hchange : a.updateFirst? (·.id == id) change with
  | none =>
      rw [update, hchange]
      exact .refl
  | some b =>
      rw [update, hchange]
      exact .edit .refl h hchange

/-- A value that is set is set in the fragment of the id. -/
theorem setValue?_some {id : String} {value : Json} (h : a.setValue? id value = some b) :
    ∃ f, a.find? id = some f ∧ b = a.update id fun f => { f with value := some value } := by
  simp only [setValue?] at h
  split at h
  case _ f hfind =>
    split at h
    · exact ⟨f, hfind, (Option.some.inj h).symm⟩
    · cases h
  case _ => cases h

theorem evolves_setValue {id : String} {value : Json} (h : a.setValue? id value = some b) :
    Evolves s d a 0 b := by
  obtain ⟨_, _, rfl⟩ := setValue?_some h
  exact evolves_update (Fragment.edit_value value) id a

end Form

namespace Disclosure
variable {s : Settings} {d : Document}

theorem evolves_leave (form : Form) (id : String) (c : Disclosure) :
    Form.Evolves s d form 0 (c.leave form id).2 := by
  simp only [leave]
  split
  · exact .refl
  · split
    · split
      · exact Form.evolves_update Fragment.edit_close id form
      · exact .refl
    · exact .refl

theorem evolves_fire (id : String) (task : PendingOpen) (c : Disclosure) (form : Form) :
    Form.Evolves s d form 0 (fire id task c form).2.1 := by
  simp only [fire]
  split
  · exact Form.evolves_update Fragment.edit_open id form
  · exact .refl

theorem evolves_fireAll (tasks : List (String × PendingOpen)) (c : Disclosure) (form : Form) :
    Form.Evolves s d form 0 (fireAll tasks c form).2.1 := by
  induction tasks generalizing c form with
  | nil => exact .refl
  | cons task rest ih =>
      have hfirst : Form.Evolves s d form 0 (fire task.1 task.2 c form).2.1 :=
        evolves_fire task.1 task.2 c form
      exact hfirst.trans (ih _ _)

end Disclosure

namespace Session

/-- What an event other than a selection does: the document stays, and the form evolves. -/
structure Continues (s after : Session) (adds : Nat) : Prop where
  document : after.document = s.document
  settings : after.settings = s.settings
  none : s.form = none → after.form = none
  some : ∀ a, s.form = some a → ∃ b n, after.form = some b ∧ n ≤ adds ∧
    Form.Evolves s.settings s.document a n b

theorem continues_refl (s : Session) (adds : Nat) : Continues s s adds :=
  ⟨rfl, rfl, id, fun a h => ⟨a, 0, h, Nat.zero_le _, .refl⟩⟩

/-- A session goes on if its form evolves. -/
theorem continues_of_form {s after : Session} {a b : Form} {n adds : Nat}
    (hdocument : after.document = s.document) (hsettings : after.settings = s.settings)
    (ha : s.form = Option.some a) (hb : after.form = Option.some b) (hn : n ≤ adds)
    (h : Form.Evolves s.settings s.document a n b) : Continues s after adds := by
  refine ⟨hdocument, hsettings, ?_, ?_⟩
  · intro hnone
    exact absurd (ha.symm.trans hnone) nofun
  · intro a' ha'
    cases ha.symm.trans ha'
    exact ⟨b, n, hb, hn, h⟩

theorem Continues.trans {s₁ s₂ s₃ : Session} {n m : Nat} (h : Continues s₁ s₂ n)
    (h' : Continues s₂ s₃ m) : Continues s₁ s₃ (n + m) := by
  refine ⟨h'.document.trans h.document, h'.settings.trans h.settings,
    fun hnone => h'.none (h.none hnone), ?_⟩
  intro a ha
  obtain ⟨b, i, hb, hi, hab⟩ := h.some a ha
  obtain ⟨c, j, hc, hj, hbc⟩ := h'.some b hb
  rw [h.settings, h.document] at hbc
  exact ⟨c, i + j, hc, by omega, hab.trans hbc⟩

/-- A session goes on when its form is changed without new ids. -/
theorem continues_change {change : Form → Option Form} {s : Session}
    (h : ∀ a b, change a = Option.some b → Form.Evolves s.settings s.document a 0 b) :
    Continues s ((s.change? change).getD s) 0 := by
  cases hform : s.form with
  | none =>
      have hsame : s.change? change = Option.none := by simp [change?, hform]
      rw [hsame]
      exact continues_refl s 0
  | some a =>
      cases hb : change a with
      | none =>
          have hsame : s.change? change = Option.none := by simp [change?, hform, hb]
          rw [hsame]
          exact continues_refl s 0
      | some b =>
          have hchanged : s.change? change = Option.some { s with form := Option.some b } := by
            simp [change?, hform, hb]
          rw [hchanged]
          exact continues_of_form rfl rfl hform rfl (Nat.le_refl 0) (h a b hb)

theorem continues_add (s : Session) (wrapper : String) : Continues s (s.step (.add wrapper)) 1 := by
  simp only [step]
  split
  case _ id after hadd =>
    simp only [addInstance] at hadd
    split at hadd
    · cases hadd
    case _ a hform =>
      split at hadd
      · cases hadd
      · cases hadd
      case _ b hb =>
        cases hadd
        exact continues_of_form rfl rfl hform rfl (Nat.le_refl 1) (.add .refl hb)
  · exact continues_refl s 1

theorem continues_remove (s : Session) (wrapper id : String) :
    Continues s (s.step (.remove wrapper id)) 0 := by
  simp only [step]
  split
  case _ after hremove =>
    simp only [removeInstance] at hremove
    split at hremove
    · cases hremove
    case _ a hform =>
      split at hremove
      · cases hremove
      case _ b hb =>
        cases hremove
        exact continues_of_form rfl rfl hform rfl (Nat.le_refl 0) (.remove .refl hb)
  · exact continues_refl s 0

theorem continues_enter (s : Session) (id : String) (now : Nat) :
    Continues s (s.step (.enter id now)) 0 := by
  cases hform : s.form with
  | none =>
      have hsame : s.enter? id now = Option.none := by simp [enter?, hform]
      simp only [step, hsame]
      exact continues_refl s 0
  | some a =>
      simp only [step, enter?, hform]
      split
      · cases hd : s.disclosure.enter? a id now with
        | none => exact continues_refl s 0
        | some disclosure =>
            exact continues_of_form rfl rfl hform rfl (Nat.le_refl 0) .refl
      · exact continues_refl s 0

theorem continues_leave (s : Session) (id : String) : Continues s (s.step (.leave id)) 0 := by
  cases hform : s.form with
  | none =>
      simp only [step, leave, hform]
      exact continues_refl s 0
  | some a =>
      simp only [step, leave, hform]
      exact continues_of_form rfl rfl hform rfl (Nat.le_refl 0) (Disclosure.evolves_leave a id _)

theorem continues_advance (s : Session) (now : Nat) :
    Continues s (s.step (.advance now)) 0 := by
  cases hform : s.form with
  | none =>
      simp only [step, advance, hform]
      exact continues_refl s 0
  | some a =>
      simp only [step, advance, hform]
      exact continues_of_form rfl rfl hform rfl (Nat.le_refl 0) (Disclosure.evolves_fireAll _ _ a)

/-- How many instances an event can add. -/
def cost (e : Event) : Nat := if e.isAdd then 1 else 0

/-- A session goes on with every event but a selection. -/
theorem continues_step {s : Session} {e : Event} (h : e.isSelect = false) :
    Continues s (s.step e) (cost e) := by
  cases e with
  | select focus => cases h
  | add wrapper => exact continues_add s wrapper
  | remove wrapper id => exact continues_remove s wrapper id
  | set id value =>
      apply continues_change
      intro a b hb
      exact Form.evolves_setValue hb
  | activate id =>
      apply continues_change
      intro a b hb
      exact .edit .refl (Fragment.edit_showTab id) hb
  | enter id now => exact continues_enter s id now
  | leave id => exact continues_leave s id
  | advance now => exact continues_advance s now

/-- How many instances a row of events can add. -/
def adds (events : List Event) : Nat := events.countP Event.isAdd

theorem adds_cons (e : Event) (events : List Event) :
    adds (e :: events) = cost e + adds events := by
  simp only [adds, cost, List.countP_cons]
  omega

/-- A session goes on until the next selection. -/
theorem continues_run {events : List Event} (h : ∀ e ∈ events, e.isSelect = false) (s : Session) :
    Continues s (s.run events) (adds events) := by
  induction events generalizing s with
  | nil => exact continues_refl s 0
  | cons e rest ih =>
      have hfirst : Continues s (s.step e) (cost e) := continues_step (h e List.mem_cons_self)
      have hrest := ih (fun other hother => h other (List.mem_cons_of_mem _ hother)) (s.step e)
      rw [adds_cons, run_cons]
      exact hfirst.trans hrest

/-- The form of a session has evolved from a compiled one, by at most some number of additions. -/
structure Reached (d : Document) (c : Settings) (adds : Nat) (s : Session) : Prop where
  document : s.document = d
  settings : s.settings = c
  form : ∀ form, s.form = Option.some form → ∃ focus generation n, n ≤ adds ∧
    Form.Evolves c d (Form.compile c d focus generation).1 n form

/-- What is reached by an event more is reached. -/
theorem Reached.step {d : Document} {settings : Settings} {n : Nat} {s : Session}
    (h : Reached d settings n s) (e : Event) : Reached d settings (n + cost e) (s.step e) := by
  cases hselect : e.isSelect with
  | true =>
      cases e with
      | select focus =>
          refine ⟨h.document, h.settings, ?_⟩
          rintro form ⟨⟩
          rw [h.document, h.settings]
          exact ⟨focus, s.generation + 1, 0, Nat.zero_le _, .refl⟩
      | _ => cases hselect
  | false =>
      have hcontinues := continues_step (s := s) hselect
      refine ⟨hcontinues.document.trans h.document, hcontinues.settings.trans h.settings, ?_⟩
      intro form hform
      cases hbefore : s.form with
      | none => exact absurd (hform.symm.trans (hcontinues.none hbefore)) nofun
      | some a =>
          obtain ⟨focus, generation, i, hi, hreach⟩ := h.form a hbefore
          obtain ⟨b, j, hb, hj, hevolves⟩ := hcontinues.some a hbefore
          cases hform.symm.trans hb
          rw [h.document, h.settings] at hevolves
          exact ⟨focus, generation, i + j, by omega, hreach.trans hevolves⟩

theorem Reached.run {d : Document} {settings : Settings} {n : Nat} {s : Session}
    (h : Reached d settings n s) (events : List Event) :
    Reached d settings (n + adds events) (s.run events) := by
  induction events generalizing n s with
  | nil => exact h
  | cons e rest ih =>
      have hadds : n + adds (e :: rest) = n + cost e + adds rest := by
        rw [adds_cons]
        omega
      rw [hadds]
      exact ih (h.step e)

/-- Every session is reached from the start by its history. -/
theorem reached_run (d : Document) (settings : Settings) (events : List Event) :
    Reached d settings (adds events) ((start d settings).run events) := by
  have hstart : Reached d settings 0 (start d settings) := ⟨rfl, rfl, nofun⟩
  have hrun := hstart.run events
  rwa [Nat.zero_add] at hrun

end Session

end EntryForm
