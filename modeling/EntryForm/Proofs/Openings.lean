import EntryForm.Proofs.HiddenFields

/-!
# Openings that lie ahead

An opening is scheduled when the pointer comes to a closed field. It lies ahead until another entity
is selected, the pointer leaves the field or its time has come. So which fields open at a time can
be told from the events alone.
-/

namespace EntryForm

namespace Form
variable {s : Settings} {d : Document} {a b : Form}

theorem update_generation (id : String) (change : Fragment → Fragment) (a : Form) :
    (a.update id change).generation = a.generation := by
  rw [update_eq]

theorem Alters.generation (h : a.Alters s d b) : b.generation = a.generation := by
  cases h with
  | set hset =>
      obtain ⟨_, _, rfl⟩ := setValue?_some hset
      exact update_generation _ _ a
  | activate hactivate =>
      obtain ⟨_, _, rfl⟩ := Option.map_eq_some_iff.mp hactivate
      rfl
  | add hadd =>
      obtain ⟨_, _, _, _, _, _, rfl⟩ := addInstance_some hadd
      exact update_generation _ _ a
  | remove hremove =>
      obtain rfl := removeInstance_some hremove
      exact update_generation _ _ a

/-- A search by id succeeds exactly if a fragment has the id. -/
theorem find?_isSome_iff {id : String} : (a.find? id).isSome ↔ ∃ f ∈ a.all, f.id = id := by
  simp [find?, List.find?_isSome]

/-- Opening or closing a field keeps which ids lead to a field. -/
theorem find?_update_isSome {change : Fragment → Fragment} (hedit : Fragment.Edit change)
    (id other : String) (a : Form) :
    ((a.update id change).find? other).isSome = (a.find? other).isSome := by
  have hids : (a.update id change).all.map (·.id) = a.all.map (·.id) := by
    have hshapes := congrArg (List.map fun n => n.id) (update_shapes hedit id a)
    simp only [nodes, Fragment.nodesOf, List.map_map] at hshapes
    exact hshapes
  have hmem (form : Form) : (form.find? other).isSome ↔ other ∈ form.all.map (·.id) := by
    rw [find?_isSome_iff, List.mem_map]
  rw [Bool.eq_iff_iff, hmem, hmem, hids]

end Form

namespace Disclosure
variable {k : Disclosure} {a : Form}

/-- Whether an opening happens when its time has come. -/
def happens (form : Form) (entry : String × PendingOpen) : Bool :=
  decide (entry.2.generation = form.generation) && (form.find? entry.1).isSome

/-- An opening that comes due is no longer ahead. -/
theorem fire_pending (id : String) (task : PendingOpen) (k : Disclosure) (a : Form) :
    (fire id task k a).1.pending = Fields.erase id k.pending := by
  simp only [fire]
  split <;> rfl

theorem fire_delay (id : String) (task : PendingOpen) (k : Disclosure) (a : Form) :
    (fire id task k a).1.delay = k.delay := by
  simp only [fire]
  split <;> rfl

/-- Opening one field changes nothing for the others. -/
theorem fire_happens (id : String) (task : PendingOpen) (k : Disclosure) (a : Form) :
    happens (fire id task k a).2.1 = happens a := by
  ext entry
  rcases fire_form id task k a with hsame | hopen
  · rw [hsame]
  · rw [hopen, happens, happens, Form.update_generation,
      Form.find?_update_isSome Fragment.folds_open.edit]

theorem fire_fired (id : String) (task : PendingOpen) (k : Disclosure) (a : Form) :
    (fire id task k a).2.2 = happens a (id, task) := by
  simp only [fire, happens]
  split <;> simp_all

/-- What opening fields one after the other leaves ahead. -/
theorem fireAll_pending (tasks : List (String × PendingOpen)) (k : Disclosure) (a : Form) :
    (fireAll tasks k a).1.pending =
      k.pending.filter fun entry => decide (entry.1 ∉ tasks.map Prod.fst) := by
  induction tasks generalizing k a with
  | nil => simp [fireAll]
  | cons task rest ih =>
      simp only [fireAll]
      rw [ih, fire_pending, Fields.erase, List.filter_filter]
      apply List.filter_congr
      intro entry _
      rw [Bool.eq_iff_iff, Bool.and_eq_true, decide_eq_true_iff, decide_eq_true_iff, bne_iff_ne,
        List.map_cons, List.mem_cons, not_or, and_comm]

theorem fireAll_delay (tasks : List (String × PendingOpen)) (k : Disclosure) (a : Form) :
    (fireAll tasks k a).1.delay = k.delay := by
  induction tasks generalizing k a with
  | nil => rfl
  | cons task rest ih =>
      simp only [fireAll]
      rw [ih, fire_delay]

/-- Which fields open, one after the other. -/
theorem fireAll_fired (tasks : List (String × PendingOpen)) (k : Disclosure) (a : Form) :
    (fireAll tasks k a).2.2 = (tasks.filter (happens a)).map Prod.fst := by
  induction tasks generalizing k a with
  | nil => rfl
  | cons task rest ih =>
      simp only [fireAll]
      rw [ih, fire_happens, fire_fired, List.filter_cons]
      split <;> rfl

/-- Advancing the time keeps the openings whose time has not come. No field is there twice, so none
of them goes with another one. -/
theorem advance_pending (hsorted : Fields.Sorted k.pending) (a : Form) (now : Nat) :
    (k.advance a now).1.pending = k.pending.filter fun entry => decide (now < entry.2.due) := by
  rw [advance, fireAll_pending]
  apply List.filter_congr
  intro entry hentry
  rw [decide_eq_decide, ← Nat.not_le, not_iff_not, due]
  constructor
  · intro hmem
    obtain ⟨other, hother, hkey⟩ := List.mem_map.mp hmem
    obtain ⟨hpending, hdue⟩ := List.mem_filter.mp hother
    have hsame : other = entry :=
      List.inj_on_of_nodup_map hsorted.nodup hpending hentry hkey
    exact hsame ▸ of_decide_eq_true hdue
  · intro hdue
    exact List.mem_map_of_mem (List.mem_filter.mpr ⟨hentry, decide_eq_true hdue⟩)

theorem advance_delay (k : Disclosure) (a : Form) (now : Nat) :
    (k.advance a now).1.delay = k.delay :=
  fireAll_delay (k.due now) k a

theorem advance_generation (k : Disclosure) (a : Form) (now : Nat) :
    (k.advance a now).2.1.generation = a.generation := by
  have hkeep : ∀ (b : Form) id change, Fragment.Folds change → b.generation = a.generation →
      (b.update id change).generation = a.generation := by
    intro b id change _ hb
    rw [Form.update_generation, hb]
  exact fireAll_invariant hkeep (k.due now) k rfl

/-- An opening is scheduled for the form that is shown, and only if none lies ahead. -/
theorem enter?_some {id : String} {now : Nat} {k' : Disclosure}
    (h : k.enter? a id now = some k') :
    Fields.contains id k.pending = false ∧ k.generation = a.generation ∧
      k' = { k with pending := k.pending.insert id ⟨now + k.delay, k.generation⟩ } := by
  rw [enter?] at h
  split at h
  case isTrue hmay =>
    cases h
    simp only [mayOpen, Bool.and_eq_true, Bool.not_eq_true', beq_iff_eq] at hmay
    exact ⟨hmay.1.2, hmay.1.1.1.symm, rfl⟩
  case isFalse => cases h

/-- Leaving a field drops its opening. -/
theorem leave_pending (id : String) (k : Disclosure) (a : Form) :
    (k.leave a id).1.pending = Fields.erase id k.pending := by
  simp only [leave]
  split
  · rfl
  case isFalse hnone =>
    have hkeep : Fields.erase id k.pending = k.pending := by
      rw [Fields.erase, List.filter_eq_self]
      intro entry hentry
      rw [bne_iff_ne]
      rintro rfl
      exact hnone (Fields.contains_of_mem hentry)
    rw [hkeep]
    split <;> rfl

theorem leave_delay (id : String) (k : Disclosure) (a : Form) :
    (k.leave a id).1.delay = k.delay := by
  simp only [leave]
  split
  · rfl
  · split <;> rfl

theorem leave_generation (id : String) (k : Disclosure) (a : Form) :
    (k.leave a id).2.generation = a.generation := by
  rcases leave_form a id k with hsame | hclose
  · rw [hsame]
  · rw [hclose, Form.update_generation]

end Disclosure

namespace Session

/-- When the opening of a field that lies ahead is due. -/
def due? (id : String) (s : Session) : Option Nat :=
  (Fields.get? id s.disclosure.pending).map (·.due)

/-- What a session knows of the openings that lie ahead: none without a form, and otherwise no field
twice and only for the form that is shown. -/
structure Tracked (s : Session) : Prop where
  sorted : Fields.Sorted s.disclosure.pending
  idle : s.form = none → s.disclosure.pending = []
  delay : s.disclosure.delay = s.settings.disclosureDelay
  current : ∀ a, s.form = some a →
    ∀ entry ∈ s.disclosure.pending, entry.2.generation = a.generation

variable {s : Session} {a b : Form}

/-- What keeps the generation of the form and schedules no opening keeps the others tracked. -/
theorem Tracked.of_sublist (h : s.Tracked) (hform : s.form = some a)
    (hb : b.generation = a.generation) {k : Disclosure} (hdelay : k.delay = s.disclosure.delay)
    (hpending : k.pending.Sublist s.disclosure.pending) :
    Tracked { s with disclosure := k, form := some b } := by
  refine ⟨h.sorted.sublist hpending, nofun, hdelay.trans h.delay, ?_⟩
  rintro _ ⟨⟩ entry hentry
  rw [hb]
  exact h.current a hform entry (hpending.subset hentry)

/-- Openings stay tracked whatever happens. -/
theorem Tracked.stepped {e : Event} {s' : Session} (h : s.Tracked) (hstepped : Stepped s e s') :
    s'.Tracked := by
  cases hstepped with
  | select focus => exact ⟨List.Pairwise.nil, fun _ => rfl, h.delay, fun _ _ _ => nofun⟩
  | idle _ => exact h
  | alter _ _ hform halters =>
      exact h.of_sublist hform halters.generation rfl (List.Sublist.refl _)
  | @enter id now a k hform henter =>
      obtain ⟨_, hgeneration, rfl⟩ := Disclosure.enter?_some henter
      refine ⟨h.sorted.insert _ _, ?_, h.delay, ?_⟩
      · intro hnone
        cases hform.symm.trans hnone
      · intro a' ha' entry hentry
        cases hform.symm.trans ha'
        rcases Fields.mem_insert hentry with rfl | hold
        · exact hgeneration
        · exact h.current a hform entry hold
  | @leave a id hform =>
      apply h.of_sublist hform (Disclosure.leave_generation id _ a)
        (Disclosure.leave_delay id _ a)
      rw [Disclosure.leave_pending]
      exact List.filter_sublist
  | @advance a now hform =>
      apply h.of_sublist hform (Disclosure.advance_generation _ a now)
        (Disclosure.advance_delay _ a now)
      rw [Disclosure.advance_pending h.sorted]
      exact List.filter_sublist

end Session

/-- Whether an event ends an opening of a field: another form is shown, the pointer leaves the
field, or its time has come. -/
def Event.ends (id : String) (due : Nat) : Event → Bool
  | .select _ => true
  | .leave other => other == id
  | .advance now => decide (due ≤ now)
  | _ => false

namespace Session
variable {s : Session} {a : Form}

/-- The pointer schedules one opening and leaves the others. -/
theorem due?_enter {id other : String} {now : Nat} {s' : Session}
    (h : s.enter? id now = some s') :
    s.due? id = none ∧
      s'.due? other = if id = other then some (now + s.disclosure.delay) else s.due? other := by
  obtain ⟨a, k, hform, hk, rfl⟩ := enter?_some h
  obtain ⟨hfree, _, rfl⟩ := Disclosure.enter?_some hk
  constructor
  · have hnone : Fields.get? id s.disclosure.pending = none := by
      simpa [Fields.contains] using hfree
    rw [due?, hnone]
    rfl
  · simp only [due?, Fields.get?_insert]
    split <;> rfl

theorem Tracked.due?_of_no_form (h : s.Tracked) (hform : s.form = none) (id : String) :
    s.due? id = none := by
  rw [due?, h.idle hform]
  rfl

/-- Nothing is scheduled or ended by an event that is not about the pointer. -/
theorem due?_kept (s : Session) {e : Event} (hselect : e.isSelect = false)
    (hhover : e.isHover = false) (id : String) : (s.step e).due? id = s.due? id := by
  cases hform : s.form with
  | none => rw [step_of_no_form hform hselect]
  | some a =>
      rcases step_alters hform hselect hhover with hsame | ⟨b, _, hstep⟩
      · rw [hsame]
      · rw [hstep]
        rfl

theorem due?_leave (h : s.Tracked) (id other : String) :
    (s.step (.leave id)).due? other = if other = id then none else s.due? other := by
  cases hform : s.form with
  | none =>
      rw [step_of_no_form hform rfl, h.due?_of_no_form hform]
      split <;> rfl
  | some a =>
      rw [step_leave hform, due?, Disclosure.leave_pending, Fields.get?_erase]
      split <;> rfl

/-- Time drops the openings that have come due. -/
theorem due?_advance (h : s.Tracked) (now : Nat) (id : String) :
    (s.step (.advance now)).due? id = (s.due? id).filter fun due => decide (now < due) := by
  cases hform : s.form with
  | none =>
      rw [step_of_no_form hform rfl, h.due?_of_no_form hform]
      rfl
  | some a =>
      rw [step_advance hform, due?, Disclosure.advance_pending h.sorted,
        Fields.get?_filter h.sorted.nodup, due?, Option.filter_map]
      rfl

/-- What lies ahead after an event: what has been scheduled by it, and what it does not end. -/
theorem due?_step (h : s.Tracked) (e : Event) {id : String} {due : Nat} :
    (s.step e).due? id = some due ↔
      (∃ now, e = .enter id now ∧ (s.enter? id now).isSome ∧
        due = now + s.settings.disclosureDelay) ∨
      (s.due? id = some due ∧ e.ends id due = false) := by
  cases e with
  | select focus => simp [Session.step, select, due?, Disclosure.reset, Fields.get?, Event.ends]
  | enter other now =>
      rw [Session.step]
      cases henter : s.enter? other now with
      | none =>
          constructor
          · exact fun hdue => Or.inr ⟨hdue, rfl⟩
          · rintro (⟨_, ⟨⟩, haccepted, _⟩ | ⟨hdue, _⟩)
            · rw [henter] at haccepted
              cases haccepted
            · exact hdue
      | some s' =>
          obtain ⟨hfree, hafter⟩ := due?_enter henter
          rw [Option.getD_some, hafter, h.delay]
          by_cases hsame : other = id
          · subst hsame
            rw [if_pos rfl]
            constructor
            · rintro ⟨⟩
              exact Or.inl ⟨now, rfl, by rw [henter]; rfl, rfl⟩
            · rintro (⟨_, ⟨⟩, _, rfl⟩ | ⟨hdue, _⟩)
              · rfl
              · cases hfree.symm.trans hdue
          · simp [hsame, Event.ends]
  | leave other =>
      rw [due?_leave h]
      by_cases hsame : id = other
      · simp [hsame, Event.ends]
      · simp [hsame, Ne.symm hsame, Event.ends]
  | advance now =>
      rw [due?_advance h, Option.filter_eq_some_iff]
      simp [Event.ends]
  | add wrapper =>
      rw [due?_kept s rfl rfl]
      simp [Event.ends]
  | remove wrapper id =>
      rw [due?_kept s rfl rfl]
      simp [Event.ends]
  | set id value =>
      rw [due?_kept s rfl rfl]
      simp [Event.ends]
  | activate id =>
      rw [due?_kept s rfl rfl]
      simp [Event.ends]

theorem step_settings (s : Session) (e : Event) : (s.step e).settings = s.settings := by
  cases hselect : e.isSelect with
  | true =>
      cases e with
      | select focus => rfl
      | _ => cases hselect
  | false => exact (continues_step hselect).settings

/-- What lies ahead after a row of events: what has been scheduled by one of them and not been ended
since, and what none of them ends. Of the first event this is what it schedules or what was there
before, and the others come later. -/
theorem due?_run (h : s.Tracked) (events : List Event) {id : String} {due : Nat} :
    (s.run events).due? id = some due ↔
      (∃ before now after, events = before ++ .enter id now :: after ∧
        ((s.run before).enter? id now).isSome ∧ due = now + s.settings.disclosureDelay ∧
        ∀ e ∈ after, e.ends id due = false) ∨
      (s.due? id = some due ∧ ∀ e ∈ events, e.ends id due = false) := by
  induction events generalizing s with
  | nil => simp [run]
  | cons e rest ih =>
      rw [run_cons, ih (h.stepped (stepped_step s e)), step_settings]
      constructor
      · rintro (⟨before, now, after, rfl, haccepted, hdue, hafter⟩ | ⟨hahead, hrest⟩)
        · exact Or.inl ⟨e :: before, now, after, rfl, haccepted, hdue, hafter⟩
        · rcases (due?_step h e).mp hahead with ⟨now, rfl, haccepted, hdue⟩ | ⟨hahead, hkept⟩
          · exact Or.inl ⟨[], now, rest, rfl, haccepted, hdue, hrest⟩
          · exact Or.inr ⟨hahead, List.forall_mem_cons.mpr ⟨hkept, hrest⟩⟩
      · rintro (⟨before, now, after, hevents, haccepted, hdue, hafter⟩ | ⟨hahead, hall⟩)
        · cases before with
          | nil =>
              cases hevents
              exact Or.inr ⟨(due?_step h _).mpr (Or.inl ⟨now, rfl, haccepted, hdue⟩), hafter⟩
          | cons first before =>
              cases hevents
              exact Or.inl ⟨before, now, after, rfl, haccepted, hdue, hafter⟩
        · obtain ⟨hkept, hrest⟩ := List.forall_mem_cons.mp hall
          exact Or.inr ⟨(due?_step h e).mpr (Or.inr ⟨hahead, hkept⟩), hrest⟩

theorem tracked_run (d : Document) (c : Settings) (history : List Event) :
    ((start d c).run history).Tracked :=
  run_invariant ⟨List.Pairwise.nil, fun _ => rfl, rfl, nofun⟩
    (fun _ _ _ hstepped h => h.stepped hstepped) history

/-- The fields that open at a time are those whose opening is due and that are still there. -/
theorem Tracked.mem_advance (h : s.Tracked) {now : Nat} {id : String} :
    id ∈ (s.advance now).2 ↔
      (∃ due, s.due? id = some due ∧ due ≤ now) ∧
        ∃ form, s.form = some form ∧ ∃ f ∈ form.all, f.id = id := by
  cases hform : s.form with
  | none => simp [advance, hform]
  | some a =>
      have hfired : (s.advance now).2 =
          ((s.disclosure.due now).filter (Disclosure.happens a)).map Prod.fst := by
        simp only [advance, hform, Disclosure.advance, Disclosure.fireAll_fired]
      rw [hfired, List.mem_map]
      constructor
      · rintro ⟨entry, hentry, rfl⟩
        obtain ⟨hdue, hhappens⟩ := List.mem_filter.mp hentry
        obtain ⟨hpending, hdue⟩ := List.mem_filter.mp hdue
        rw [Disclosure.happens, Bool.and_eq_true] at hhappens
        refine ⟨⟨entry.2.due, ?_, of_decide_eq_true hdue⟩, a, rfl,
          Form.find?_isSome_iff.mp hhappens.2⟩
        rw [due?, Fields.get?_of_mem h.sorted.nodup hpending]
        rfl
      · rintro ⟨⟨due, hahead, hdue⟩, form, ⟨⟩, hf⟩
        obtain ⟨task, htask, rfl⟩ := Option.map_eq_some_iff.mp hahead
        have hpending := Fields.mem_of_get? htask
        refine ⟨(id, task), List.mem_filter.mpr ⟨?_, ?_⟩, rfl⟩
        · exact List.mem_filter.mpr ⟨hpending, decide_eq_true hdue⟩
        · rw [Disclosure.happens, Bool.and_eq_true]
          exact ⟨decide_eq_true (h.current a hform _ hpending), Form.find?_isSome_iff.mpr hf⟩

/-- No field opens twice at a time. -/
theorem Tracked.nodup_advance (h : s.Tracked) (now : Nat) : (s.advance now).2.Nodup := by
  cases hform : s.form with
  | none => simp [advance, hform]
  | some a =>
      simp only [advance, hform, Disclosure.advance, Disclosure.fireAll_fired]
      apply List.Nodup.sublist _ h.sorted.nodup
      exact (List.filter_sublist.trans List.filter_sublist).map Prod.fst

/-- An event after which no opening of a field lies ahead: another form is shown, or the field
opens. -/
def settles (s : Session) (id : String) : Event → Prop
  | .select _ => True
  | .advance now => id ∈ (s.advance now).2
  | _ => False

theorem Tracked.due?_of_settles (h : s.Tracked) {e : Event} {id : String} (he : s.settles id e) :
    (s.step e).due? id = none := by
  cases e with
  | select focus => rfl
  | advance now =>
      obtain ⟨⟨due, hahead, hdue⟩, _⟩ := h.mem_advance.mp he
      rw [due?_advance h, hahead]
      simpa [Option.filter] using hdue
  | _ => exact he.elim

/-- The fields that open at a time are those that the pointer has come to long enough before, and
that are still there, if nothing has ended the opening since. No field opens twice, and none opens
after it has opened or another form has been shown, unless the pointer comes to it again. -/
theorem hovered_fields_open (d : Document) (c : Settings) (history : List Event) (now : Nat)
    (id : String) :
    let s := (start d c).run history
    (id ∈ (s.advance now).2 ↔
      (∃ before t after, history = before ++ .enter id t :: after ∧
        (((start d c).run before).enter? id t).isSome ∧ t + c.disclosureDelay ≤ now ∧
        ∀ e ∈ after, e.ends id (t + c.disclosureDelay) = false) ∧
      ∃ form, s.form = some form ∧ ∃ f ∈ form.all, f.id = id) ∧
    (s.advance now).2.Nodup ∧
    ∀ before last after, history = before ++ last :: after →
      ((start d c).run before).settles id last → id ∈ (s.advance now).2 →
        ∃ between t rest, after = between ++ .enter id t :: rest ∧
          (((start d c).run (before ++ last :: between)).enter? id t).isSome := by
  intro s
  have htracked : s.Tracked := tracked_run d c history
  have hstart : (start d c).Tracked := tracked_run d c []
  refine ⟨?_, htracked.nodup_advance now, ?_⟩
  · rw [htracked.mem_advance]
    apply and_congr_left
    intro _
    constructor
    · rintro ⟨due, hahead, hdue⟩
      rcases (due?_run hstart history).mp hahead with
        ⟨before, t, after, hhistory, haccepted, rfl, hafter⟩ | ⟨hnone, _⟩
      · exact ⟨before, t, after, hhistory, haccepted, hdue, hafter⟩
      · cases hnone
    · rintro ⟨before, t, after, hhistory, haccepted, hdue, hafter⟩
      refine ⟨t + c.disclosureDelay, ?_, hdue⟩
      exact (due?_run hstart history).mpr
        (Or.inl ⟨before, t, after, hhistory, haccepted, rfl, hafter⟩)
  · rintro before last after rfl hsettles hfired
    have hbefore : ((start d c).run before).Tracked := tracked_run d c before
    obtain ⟨⟨due, hahead, _⟩, _⟩ := htracked.mem_advance.mp hfired
    have hsplit : s = (((start d c).run before).step last).run after := run_append _ _ _
    rw [hsplit] at hahead
    rcases (due?_run (hbefore.stepped (stepped_step _ last)) after).mp hahead with
      ⟨between, t, rest, hrest, haccepted, _, _⟩ | ⟨hkept, _⟩
    · refine ⟨between, t, rest, hrest, ?_⟩
      rw [run_append]
      exact haccepted
    · rw [hbefore.due?_of_settles hsettles] at hkept
      cases hkept

/-- A hidden field opens when the pointer has rested on it for half a second. -/
theorem title_opens_in_time :
    let s := (start memo { minimalForm := true }).run [.select "memo", .enter "title_0" 0]
    "title_0" ∈ (s.advance 500).2 := by
  intro s
  obtain ⟨hopens, _⟩ := hovered_fields_open memo { minimalForm := true }
    [.select "memo", .enter "title_0" 0] 500 "title_0"
  have hsome : s.form.any (fun form => decide (∃ f ∈ form.all, f.id = "title_0")) = true := by
    decide +kernel
  obtain ⟨form, hform, hfound⟩ := (Option.any_eq_true _ _).mp hsome
  apply hopens.mpr
  refine ⟨⟨[.select "memo"], 0, [], rfl, ?_, ?_, nofun⟩, form, hform, of_decide_eq_true hfound⟩
  · decide +kernel
  · decide

end Session

end EntryForm
