import EntryForm.Proofs.Content
import EntryForm.Proofs.HiddenFields

/-!
# Display and submission

The pointer opens fields and a click shows another tab. Neither these events nor the settings reach
the content of a form, on which its submission and the answers to all changes depend.
-/

namespace EntryForm

/-- Two results that come to the same are both failures for one reason, or both there. -/
theorem results_of_map_eq {ε α β : Type} {f : α → β} {x y : Except ε α} (h : x.map f = y.map f) :
    (∃ e, x = .error e ∧ y = .error e) ∨ ∃ a b, x = .ok a ∧ y = .ok b ∧ f a = f b := by
  cases x <;> cases y <;> simp_all [Except.map]

namespace Session
open View

/-- Two sessions on a document whose forms have the same content. -/
structure SameContent (s t : Session) : Prop where
  document : t.document = s.document
  generation : t.generation = s.generation
  form : t.form.map (Form.view content) = s.form.map (Form.view content)

variable {s t : Session}

theorem sameContent_refl (s : Session) : SameContent s s := ⟨rfl, rfl, rfl⟩

/-- Two sessions of the same content show two forms of the same content or none. -/
theorem SameContent.cases (h : SameContent s t) :
    (s.form = none ∧ t.form = none) ∨
      ∃ a b, s.form = some a ∧ t.form = some b ∧ b.view content = a.view content := by
  have hform := h.form
  cases hs : s.form with
  | none =>
      rw [hs] at hform
      exact Or.inl ⟨rfl, Option.map_eq_none_iff.mp hform⟩
  | some a =>
      rw [hs] at hform
      obtain ⟨b, hb, hsame⟩ := Option.map_eq_some_iff.mp hform
      exact Or.inr ⟨a, b, rfl, hb, hsame⟩

theorem SameContent.submission (h : SameContent s t) : t.submission = s.submission := by
  rcases h.cases with ⟨hs, ht⟩ | ⟨a, b, hs, ht, hsame⟩
  · rw [Session.submission, Session.submission, hs, ht]
  · rw [Session.submission, Session.submission, hs, ht]
    exact (Form.content_submission b).symm.trans
      ((congrArg Form.submission hsame).trans (Form.content_submission a))

theorem SameContent.of_form (h : SameContent s t) {a b : Form} (hs : s.form = some a)
    {disclosure : Disclosure} (hb : b.view content = a.view content) :
    SameContent s { t with disclosure, form := some b } := by
  refine ⟨h.document, h.generation, ?_⟩
  rw [hs, Option.map_some, Option.map_some, hb]

/-- Events about the display do not reach the content. -/
theorem SameContent.display (h : SameContent s t) {e : Event} (he : e.isContent = false) :
    SameContent s (t.step e) := by
  rcases h.cases with ⟨_, ht⟩ | ⟨a, b, hs, ht, hsame⟩
  · have hselect : e.isSelect = false := by cases e <;> first | rfl | cases he
    rw [step_of_no_form ht hselect]
    exact h
  · cases e with
    | select focus => cases he
    | add wrapper => cases he
    | remove wrapper id => cases he
    | set id value => cases he
    | activate id =>
        rcases step_change ht with hrefused | ⟨after, hafter, hstep⟩
        · exact (congrArg (SameContent s) hrefused).mpr h
        · rw [step, activateTab?, hstep]
          exact h.of_form hs ((Form.content_activateTab? hafter).trans hsame)
    | enter id now =>
        rw [step]
        cases henter : t.enter? id now with
        | none => exact h
        | some after =>
            obtain ⟨_, k, _, _, rfl⟩ := enter?_some henter
            exact ⟨h.document, h.generation, h.form⟩
    | leave id =>
        rw [step_leave ht]
        rcases Disclosure.leave_form b id t.disclosure with hkept | hclosed
        · exact h.of_form hs (by rw [hkept, hsame])
        · exact h.of_form hs (by rw [hclosed, Form.content_fold Fragment.folds_close, hsame])
    | advance now =>
        rw [step_advance ht]
        have hfold (form : Form) (id : String) (change : Fragment → Fragment)
            (hfolds : Fragment.Folds change) (hform : form.view content = a.view content) :
            (form.update id change).view content = a.view content :=
          (Form.content_fold hfolds id form).trans hform
        exact h.of_form hs (Disclosure.fireAll_invariant hfold _ _ hsame)

/-- A change that is a matter of content succeeds in both sessions or in none. -/
theorem SameContent.change (h : SameContent s t) {change : Form → Option Form}
    (hchange : ∀ a, change (a.view content) = (change a).map (Form.view content)) :
    (t.change? change).isSome = (s.change? change).isSome ∧
      SameContent ((s.change? change).getD s) ((t.change? change).getD t) := by
  rcases h.cases with ⟨hs, ht⟩ | ⟨a, b, hs, ht, hsame⟩
  · rw [change?, change?, hs, ht]
    exact ⟨rfl, h⟩
  · have hboth : (change b).map (Form.view content) = (change a).map (Form.view content) := by
      rw [← hchange, hsame, hchange]
    rw [change?, change?, hs, ht, Option.bind_some, Option.bind_some]
    cases ha : change a with
    | none =>
        rw [ha] at hboth
        rw [Option.map_eq_none_iff.mp hboth]
        exact ⟨rfl, h⟩
    | some a' =>
        rw [ha] at hboth
        obtain ⟨b', hb, hsame'⟩ := Option.map_eq_some_iff.mp hboth
        rw [hb]
        exact ⟨rfl, h.document, h.generation, congrArg some hsame'⟩

/-- Both sessions answer alike when a record is added, and keep the same content. -/
theorem SameContent.add (h : SameContent s t) (wrapper : String) :
    t.answer (.add wrapper) = s.answer (.add wrapper) ∧
      SameContent (s.step (.add wrapper)) (t.step (.add wrapper)) := by
  rcases h.cases with ⟨hs, ht⟩ | ⟨a, b, hs, ht, hsame⟩
  · rw [answer, answer, Session.step, Session.step, addInstance, addInstance, hs, ht]
    exact ⟨rfl, h⟩
  · have hboth := Form.content_addInstance hsame t.settings s.settings s.document wrapper
    rw [answer, answer, Session.step, Session.step, addInstance, addInstance, hs, ht, h.document]
    rcases results_of_map_eq hboth with ⟨e, hb, ha⟩ | ⟨added, added', hb, ha, hadded⟩
    · simp only [ha, hb]
      exact ⟨trivial, h⟩
    · cases added with
      | none =>
          rw [Option.map_eq_none_iff.mp hadded.symm] at ha
          simp only [ha, hb]
          exact ⟨trivial, h⟩
      | some added =>
          obtain ⟨added', rfl, hsome⟩ := Option.map_eq_some_iff.mp hadded.symm
          obtain ⟨hid, hform⟩ := Prod.mk.inj hsome
          simp only [ha, hb, Except.map, Option.map_some, hid]
          exact ⟨trivial, rfl, h.generation, congrArg some hform.symm⟩

/-- Both sessions answer alike when a record is removed, and keep the same content. -/
theorem SameContent.remove (h : SameContent s t) (wrapper id : String) :
    t.answer (.remove wrapper id) = s.answer (.remove wrapper id) ∧
      SameContent (s.step (.remove wrapper id)) (t.step (.remove wrapper id)) := by
  rcases h.cases with ⟨hs, ht⟩ | ⟨a, b, hs, ht, hsame⟩
  · rw [answer, answer, Session.step, Session.step, removeInstance, removeInstance, hs, ht]
    exact ⟨rfl, h⟩
  · have hboth : (b.removeInstance wrapper id).map (Form.view content) =
        (a.removeInstance wrapper id).map (Form.view content) := by
      rw [← Form.content_removeInstance, hsame, Form.content_removeInstance]
    rw [answer, answer, Session.step, Session.step, removeInstance, removeInstance, hs, ht]
    rcases results_of_map_eq hboth with ⟨e, hb, ha⟩ | ⟨b', a', hb, ha, hsame'⟩
    · simp only [ha, hb]
      exact ⟨trivial, h⟩
    · simp only [ha, hb]
      exact ⟨rfl, h.document, h.generation, congrArg some hsame'⟩

/-- An event about the content does the same to the same content, and has the same answer. -/
theorem SameContent.step (h : SameContent s t) {e : Event} (he : e.isContent = true) :
    t.answer e = s.answer e ∧ SameContent (s.step e) (t.step e) := by
  cases e with
  | select focus =>
      refine ⟨rfl, h.document, congrArg (· + 1) h.generation, ?_⟩
      have hcompile := Form.content_compile t.settings s.settings s.document focus
        (s.generation + 1)
      rw [Session.step, Session.step, select, select, h.document, h.generation]
      exact congrArg some hcompile
  | set id value =>
      obtain ⟨hanswer, hstep⟩ := h.change (Form.content_setValue? id value)
      exact ⟨congrArg Answer.accepted hanswer, hstep⟩
  | add wrapper => exact h.add wrapper
  | remove wrapper id => exact h.remove wrapper id
  | activate id => cases he
  | enter id now => cases he
  | leave id => cases he
  | advance now => cases he

end Session

namespace Turn

/-- What is answered to events about the content, and submitted after each. -/
def contents (turns : List Turn) : List (Event × Answer × Json) :=
  (turns.filter (·.event.isContent)).map fun turn =>
    (turn.event, turn.answer, turn.after.submission)

theorem contents_cons (turn : Turn) (rest : List Turn) :
    contents (turn :: rest) =
      if turn.event.isContent then
        (turn.event, turn.answer, turn.after.submission) :: contents rest
      else contents rest := by
  rw [contents, List.filter_cons]
  split <;> rfl

end Turn

namespace Session
open Turn

variable {s t : Session}

/-- Leaving out the events about the display changes nothing of what is told and submitted. Such an
event moves only one of the sessions, so the induction is for any two of the same content. -/
theorem SameContent.contents_eq (h : SameContent s t) (events : List Event) :
    contents (t.trace events) = contents (s.trace (events.filter Event.isContent)) := by
  induction events generalizing s t with
  | nil => rfl
  | cons e rest ih =>
      rw [List.filter_cons, trace, contents_cons]
      cases he : e.isContent with
      | false => exact ih (h.display he)
      | true =>
          obtain ⟨hanswer, hstep⟩ := h.step he
          simp only [if_true]
          rw [trace, contents_cons, he, if_pos rfl, hanswer, hstep.submission, ih hstep]

/-- What is submitted, and the answers to all events about the content, depend on these events
alone: neither on the settings nor on the events about the display that lie between them. -/
theorem display_never_reaches_content {xs ys : List Event}
    (h : xs.filter Event.isContent = ys.filter Event.isContent) (d : Document)
    (c c' : Settings) :
    contents ((start d c).trace xs) = contents ((start d c').trace ys) := by
  have hstart : SameContent (start d c) (start d c') := ⟨rfl, rfl, rfl⟩
  rw [hstart.contents_eq ys, (sameContent_refl (start d c)).contents_eq xs, h]

/-- A minimal form, where the pointer has to open a field before it is filled in, and one with all
details submit the same. -/
theorem memo_is_submitted_alike :
    let opening := [Event.select "memo", .enter "title_0" 0, .advance 500,
      .set "title_0" (.str "Minutes"), .leave "title_0", .add "text_1"]
    let filling := [Event.select "memo", .set "title_0" (.str "Minutes"), .activate "title_0",
      .add "text_1"]
    opening.filter Event.isContent = filling.filter Event.isContent ∧
      contents ((start memo { minimalForm := true }).trace opening) =
        contents ((start memo { ontologyDetails := true }).trace filling) := by
  intro opening filling
  have hcontent : opening.filter Event.isContent = filling.filter Event.isContent := rfl
  exact ⟨hcontent, display_never_reaches_content hcontent memo _ _⟩

end Session

end EntryForm
