import EntryForm.Proofs.Answers
import EntryForm.Proofs.CleanFields
import EntryForm.Proofs.OwnRecords

/-!
# Clean reports and clean forms

If a specification has no problems, then no form of a focus in it tells a fault, from the selection
on and whatever is added, removed or set, and nothing is warned of on the way that is a problem of a
specification. An added record is compiled anew; it is of a node that the form shows, which lies
below the focus and has no problems either.
-/

namespace EntryForm
open Entity Fragment Pass

namespace Entity

theorem problems_child {e child : Entity} {key : String} (h : e.problems = [])
    (hchild : e.child? key = some child) : child.problems = [] := by
  obtain ⟨_, _, _, _, hcomponents, hchoices⟩ := problems_eq_nil_iff.mp h
  rw [child?, Option.or_eq_some_iff] at hchild
  rcases hchild with hcomponent | ⟨_, hchoice⟩
  · exact hcomponents _ (OrderedMap.mem_of_find? hcomponent)
  · exact hchoices _ (OrderedMap.mem_of_find? hchoice)

/-- A node that is reached from one without problems has none. -/
theorem Reaches.problems {e x : Entity} {way : List Entity} (h : e.Reaches way x)
    (he : e.problems = []) : x.problems = [] := by
  induction h with
  | self => exact he
  | @inside e child x key way hmem _ ih =>
      apply ih
      rcases e.nested_eq with hnested | hnested
      · rw [hnested] at hmem
        exact (problems_eq_nil_iff.mp he).components _ hmem
      · rw [hnested] at hmem
        cases hmem

end Entity

namespace Document
variable {d : Document}

theorem problems_walk {e : Entity} (h : e.problems = []) (steps : List String) :
    (walk e steps).1.problems = [] := by
  induction steps generalizing e with
  | nil => exact h
  | cons key rest ih =>
      rw [walk]
      split
      case _ child hchild => exact ih (problems_child h hchild)
      case _ => exact h

/-- Wherever a focus leads below a root without problems, there are none. -/
theorem problems_focus {focus : String} {root e : Entity} {unresolved : Option String}
    (hroot : d.root? (rootOf focus) = some root) (h : root.problems = [])
    (hfocus : d.focus focus = .found e unresolved) : e.problems = [] := by
  rw [Document.focus, hroot] at hfocus
  cases hfocus
  exact problems_walk h _

end Document

namespace Form
variable {s : Settings} {d : Document} {e : Entity} {a b : Form}

/-- What is warned of while an instance is added to a field. -/
def recordWarnings (s : Settings) (d : Document) (wrapper : String) (form : Form) :
    List Warning :=
  match form.newRecord? d wrapper with
  | .ok (some (number, e)) =>
    ((e.compileRecord s number true).run { counter := form.counter }).2.warnings
  | _ => []

/-- A form that shows a node and tells no fault. -/
structure Clears (e : Entity) (form : Form) : Prop where
  issued : Issued 0 form.counter form.ids
  shown : Shows (.node e true) form.fragments
  clean : Clean form.fragments

/-- A new record is of the field that is found and of the node at the path of the field. -/
theorem newRecord?_some {wrapper : String} {record : Nat × Entity}
    (h : a.newRecord? d wrapper = .ok (some record)) :
    ∃ f, a.find? wrapper = some f ∧ d.entityAt? f.entityPath = some record.2 := by
  rw [newRecord?] at h
  split at h
  · cases h
  case _ f hfind =>
    refine ⟨f, hfind, ?_⟩
    split at h
    · cases h
    split at h
    · cases h
    split at h
    · cases h
    split at h
    · cases h
    case _ x hentity =>
      cases h
      exact hentity

/-- A record that can be added is of a node that the form shows, so it has no problems. -/
theorem Clears.newRecord (h : a.Clears e) (hfinds : d.Finds e) (he : e.problems = [])
    {wrapper : String} {record : Nat × Entity}
    (hrecord : a.newRecord? d wrapper = .ok (some record)) : record.2.problems = [] := by
  obtain ⟨f, hfind, hentity⟩ := newRecord?_some hrecord
  obtain ⟨way, x, own, ⟨rest, hreaches, _⟩, hfield, _⟩ :=
    h.shown.mem (List.mem_of_find?_eq_some hfind)
  have hx : d.entityAt? f.entityPath = some x := by
    rw [hfield.fits.entityPath]
    exact (hfinds.reaches hreaches).found
  cases hentity.symm.trans hx
  exact hreaches.problems he

/-- Nothing that is warned of while a record is added is a problem. -/
theorem Clears.recordWarnings (h : a.Clears e) (hfinds : d.Finds e) (he : e.problems = [])
    (wrapper : String) : Faultless (a.recordWarnings s d wrapper) := by
  rw [Form.recordWarnings]
  split
  case _ number x hrecord =>
    have hx : x.problems = [] := h.newRecord hfinds he hrecord
    have hrecords := yields_compileRecord (s := s) hx number true
    exact (hrecords { counter := a.counter } (List.forall_mem_nil _)).2
  case _ => exact List.forall_mem_nil _

/-- Adding an instance adds the record that has been looked up for it. -/
theorem addInstance_record {wrapper id : String}
    (h : a.addInstance s d wrapper = .ok (some (id, b))) :
    ∃ record, a.newRecord? d wrapper = .ok (some record) ∧
      (a.addRecord s wrapper record).2 = b := by
  rw [addInstance_checked] at h
  cases hrecord : a.newRecord? d wrapper with
  | error error =>
      rw [hrecord] at h
      cases h
  | ok found =>
      cases found with
      | none =>
          rw [hrecord] at h
          cases h
      | some record =>
          rw [hrecord] at h
          refine ⟨record, rfl, ?_⟩
          have hadded : a.addRecord s wrapper record = (id, b) := by
            simpa [Except.map] using h
          rw [hadded]

/-- A form stays clean when a record of a node without problems is added. -/
theorem Clears.addRecord (h : a.Clears e) (hfinds : d.Finds e) (he : e.problems = [])
    {wrapper : String} {record : Nat × Entity}
    (hrecord : a.newRecord? d wrapper = .ok (some record)) :
    Clean (a.addRecord s wrapper record).2.fragments := by
  obtain ⟨f, hfind, _⟩ := newRecord?_some hrecord
  have hx : record.2.problems = [] := h.newRecord hfinds he hrecord
  have hrecords := yields_compileRecord (s := s) hx record.1 true
  obtain ⟨hbody, _⟩ := hrecords { counter := a.counter } (List.forall_mem_nil _)
  have hf : f.widget.isClean = true := h.clean.mem (List.mem_of_find?_eq_some hfind)
  intro n hn
  rcases nodes_of_appendInstance (update_replaces (appendInstance _) (fun _ => rfl) hfind) hn with
    hold | rfl | hnew
  · exact h.clean n hold
  · exact (Widget.isClean_map _ _).trans hf
  · exact hbody n hnew

/-- A clean form that is edited stays clean. -/
theorem clean_edit {test : Fragment → Bool} {change : Fragment → Fragment}
    (h : Clean a.fragments) (hedit : Fragment.Edit change)
    (hchange : a.updateFirst? test change = some b) : Clean b.fragments := by
  intro n' hn'
  obtain ⟨n, hn, hshape⟩ := edit_shape hedit hchange hn'
  have hwidget : n.widget.hideTabs = n'.widget.hideTabs := congrArg Node.widget hshape
  rw [← Widget.isClean_hideTabs, ← hwidget, Widget.isClean_hideTabs]
  exact h n hn

theorem clean_removeInstance {wrapper id : String} (h : Clean a.fragments)
    (hremove : a.removeInstance wrapper id = .ok b) : Clean b.fragments := by
  obtain ⟨f, _, _, _, hf, hnodes⟩ := removeInstance_nodes hremove
  intro n hn
  rcases hnodes n hn with hold | rfl
  · exact h n hold
  · exact h f.node hf

/-- A form that has evolved shows the same node as before. -/
theorem Evolves.clears_of_clean {n : Nat} (h : Evolves s d a n b) (ha : a.Clears e)
    (hfinds : d.Finds e) (hclean : Clean b.fragments) : b.Clears e := by
  have hplace : (Focus.found e none).Shown a.fragments := ha.shown
  have hplaced : (Focus.found e none).Finds d := hfinds
  constructor
  · exact (h.advances ha.issued).issued
  · exact (h.shown ha.issued hplaced hplace).2
  · exact hclean

/-- However a form evolves that shows a node without problems, it tells no fault. -/
theorem Evolves.clears {n : Nat} (h : Evolves s d a n b) (ha : a.Clears e) (hfinds : d.Finds e)
    (he : e.problems = []) : b.Clears e := by
  induction h with
  | refl => exact ha
  | edit hbefore hedit hchange ih =>
      apply (hbefore.edit hedit hchange).clears_of_clean ha hfinds
      exact clean_edit ih.clean hedit hchange
  | add hbefore hadd ih =>
      apply (hbefore.add hadd).clears_of_clean ha hfinds
      obtain ⟨record, hrecord, rfl⟩ := addInstance_record hadd
      exact ih.addRecord hfinds he hrecord
  | remove hbefore hremove ih =>
      apply (hbefore.remove hremove).clears_of_clean ha hfinds
      exact clean_removeInstance ih.clean hremove

/-- The form of a node without problems tells no fault, and nothing is warned of that is one. -/
theorem clears_compile {focus : String} (hfocus : d.focus focus = .found e none)
    (he : e.problems = []) (generation : Nat) :
    (compile s d focus generation).1.Clears e ∧ Faultless (compile s d focus generation).2 := by
  have hpass : Yields Clean (compileFocus s d focus) := by
    rw [compileFocus, hfocus]
    exact yields_compile e he
  obtain ⟨hclean, hwarnings⟩ := hpass {} (List.forall_mem_nil _)
  have hshown := (compile_derives s d focus generation).shown
  rw [hfocus] at hshown
  rw [← fragments_compile s d focus generation] at hclean
  exact ⟨⟨compile_issued s d focus generation, hshown, hclean⟩, hwarnings⟩

end Form

namespace Session

/-- What is warned of while an event is dealt with. -/
def warnings (s : Session) : Event → List Warning
  | .select focus => (Form.compile s.settings s.document focus (s.generation + 1)).2
  | .add wrapper =>
    match s.form with
    | some form => form.recordWarnings s.settings s.document wrapper
    | none => []
  | _ => []

/-- What is warned of in a row of events. -/
def warningsOf (s : Session) : List Event → List Warning
  | [] => []
  | e :: rest => s.warnings e ++ (s.step e).warningsOf rest

variable {s : Session} {e : Entity} {a : Form}

/-- No event but a selection warns of a fault in a clean form. -/
theorem faultless_warnings (hform : s.form = some a) (ha : a.Clears e)
    (hfinds : s.document.Finds e) (he : e.problems = []) {event : Event}
    (hevent : event.isSelect = false) : Faultless (s.warnings event) := by
  cases event with
  | select focus => cases hevent
  | add wrapper =>
      simp only [warnings, hform]
      exact ha.recordWarnings hfinds he wrapper
  | _ => exact List.forall_mem_nil _

/-- An event other than a selection keeps a form that tells no fault. -/
theorem clears_step (hform : s.form = some a) (ha : a.Clears e) (hfinds : s.document.Finds e)
    (he : e.problems = []) {event : Event} (hevent : event.isSelect = false) :
    ∃ b, (s.step event).form = some b ∧ b.Clears e := by
  obtain ⟨b, n, hb, _, hevolves⟩ := (continues_step hevent).some a hform
  exact ⟨b, hb, hevolves.clears ha hfinds he⟩

/-- Until the next selection a form stays clean and nothing faulty is warned of. -/
theorem clears_run {events : List Event} (hevents : ∀ event ∈ events, event.isSelect = false)
    (hform : s.form = some a) (ha : a.Clears e) (hfinds : s.document.Finds e)
    (he : e.problems = []) :
    (∃ b, (s.run events).form = some b ∧ b.Clears e) ∧ Faultless (s.warningsOf events) := by
  induction events generalizing s a with
  | nil => exact ⟨⟨a, hform, ha⟩, List.forall_mem_nil _⟩
  | cons event rest ih =>
      obtain ⟨hevent, hrest⟩ := List.forall_mem_cons.mp hevents
      have hwarnings := faultless_warnings hform ha hfinds he hevent
      have hdocument : (s.step event).document = s.document := (continues_step hevent).document
      obtain ⟨b, hb, hclears⟩ := clears_step hform ha hfinds he hevent
      obtain ⟨hrun, hlater⟩ := ih hrest hb hclears (hdocument ▸ hfinds)
      exact ⟨hrun, faultless_append.mpr ⟨hwarnings, hlater⟩⟩

/-- If a root has no problems, then after the selection of any focus below it that leads to a node,
and whatever is added, removed and set from then on, no fragment is a notice of a fault, no option
of a pick-list has one, and nothing has been warned of that is a problem. -/
theorem form_of_clean_report_is_clean {text : String} {d : Document} {c : Settings}
    {history events : List Event} {focus : String} {root e : Entity}
    (hd : Document.ofText text = .ok d) (hkeys : d.namedByIds = true)
    (hroot : d.root? (Document.rootOf focus) = some root) (hreport : root.problems = [])
    (hfocus : d.focus focus = .found e none)
    (hevents : ∀ event ∈ events, event.isSelect = false) :
    (∃ form, ((start d c).run (history ++ .select focus :: events)).form = some form ∧
      ∀ f ∈ form.all, (∀ message, f.widget ≠ .diagnostic message) ∧
        ∀ input, f.widget = .select input → ∀ option ∈ input.options, option.diagnostic = none) ∧
      ∀ w ∈ ((start d c).run history).warningsOf (.select focus :: events), w.isFault = false := by
  have hfinds : d.Finds e := Document.finds_focus hd hkeys hfocus
  have he : e.problems = [] := Document.problems_focus hroot hreport hfocus
  have hreached := reached_run d c history
  rw [run_append, run_cons]
  generalize (start d c).run history = s at hreached ⊢
  obtain ⟨hselected, hfirst⟩ := Form.clears_compile (s := c) hfocus he (s.generation + 1)
  rw [← hreached.settings, ← hreached.document] at hselected hfirst
  have hstep : (s.step (.select focus)).document.Finds e := by
    change s.document.Finds e
    rw [hreached.document]
    exact hfinds
  obtain ⟨⟨form, hform, hclears⟩, hrest⟩ := clears_run hevents rfl hselected hstep he
  refine ⟨⟨form, hform, ?_⟩, faultless_append.mpr ⟨hfirst, hrest⟩⟩
  intro f hf
  exact Widget.isClean_iff.mp (hclears.clean.mem hf)

/-- The text of a document with a tab set around a repeated number and a pick-list. -/
def surveyText : String :=
  "\x7b\"specifications\":\x7b\"d\":\x7b\"id\":\"d\",\"datatype\":\"disjunction\"," ++
    "\"components\":\x7b\"n\":\x7b\"id\":\"n\",\"datatype\":\"xsd:int\"," ++
    "\"maxCardinality\":3\x7d,\"p\":\x7b\"id\":\"p\",\"datatype\":\"xsd:QName\",\"choices\":" ++
    "\x7b\"a\":\x7b\"id\":\"a\",\"datatype\":\"xsd:QName\"\x7d\x7d\x7d\x7d\x7d\x7d\x7d"

/-- Two records come to the number, its first value is set, and the first record goes again. -/
def surveyEvents : List Event :=
  [.add "n_2", .add "n_2", .set "n_2" (.str "7"), .remove "n_2" "n_record_5"]

theorem survey_is_clean :
    ∃ d root form, Document.ofText surveyText = .ok d ∧ d.root? "d" = some root ∧
      root.problems = [] ∧
      ((start d {}).run (.select "d" :: surveyEvents)).form = some form ∧
      form.all.map (·.id) = ["d_0", "n_2", "n_8", "p_4"] ∧
      (∀ f ∈ form.all, ∀ message, f.widget ≠ .diagnostic message) ∧
      ∀ w ∈ (start d {}).warningsOf (.select "d" :: surveyEvents), w.isFault = false := by
  have hchecks : checks surveyText (.select "d" :: surveyEvents) (fun d form _ =>
      d.namedByIds && decide (form.focus = "d") &&
        (d.root? "d").any (fun root => decide (root.problems = [])) &&
        decide (form.all.map (·.id) = ["d_0", "n_2", "n_8", "p_4"])) = true := by
    decide +kernel
  obtain ⟨d, form, e, hd, hform, hfocus, htest⟩ := exists_of_checks hchecks
  simp only [Bool.and_eq_true, decide_eq_true_eq, Option.any_eq_true] at htest
  obtain ⟨⟨⟨hkeys, hfocused⟩, root, hroot, hreport⟩, hids⟩ := htest
  rw [hfocused] at hfocus
  have hevents : ∀ event ∈ surveyEvents, event.isSelect = false := by decide
  have hplace : d.root? (Document.rootOf "d") = some root := hroot
  obtain ⟨⟨after, hafter, hclean⟩, hwarnings⟩ := @form_of_clean_report_is_clean surveyText d {} []
    surveyEvents "d" root e hd hkeys hplace hreport hfocus hevents
  cases hform.symm.trans hafter
  exact ⟨d, root, form, hd, hroot, hreport, hform, hids, fun f hf => (hclean f hf).1, hwarnings⟩

end Session

end EntryForm
