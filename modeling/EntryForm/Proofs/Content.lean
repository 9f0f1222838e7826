import EntryForm.Proofs.Answers
import EntryForm.Proofs.Derivation
import EntryForm.Proofs.Extraction
import EntryForm.Proofs.Views
import Mathlib.Data.Option.Basic

/-!
# The content of a form

The settings say how a form is displayed: what stands in the labels, which fields are closed, which
options a pick-list offers. The content of a form is all else. It is compiled in the same way
whatever the settings, and what changes it does so without looking at the display.
-/

namespace EntryForm

/-- What a form holds, and not how it is displayed. -/
def View.content : View where
  field f := { f with label := none, collapsible := false, collapsed := false }
  title _ := default
  active _ := false
  select input := { input with options := [] }

namespace Pass
variable {α β γ δ : Type}

/-- Steps that use up the same ids where they start with the same one, and then yield what looks the
same, wherever they are taken and whatever has been warned about. -/
def Alike (look : α → β) (m m' : PassM α) : Prop :=
  ∀ p p' : Pass, p.counter = p'.counter →
    look (m.run p).1 = look (m'.run p').1 ∧ (m.run p).2.counter = (m'.run p').2.counter

namespace Alike
variable {look : α → β} {look' : γ → δ} {m m' : PassM α}

theorem pure {a a' : α} (h : look a = look a') : Alike look (Pure.pure a) (Pure.pure a') :=
  fun _ _ hcounter => ⟨h, hcounter⟩

/-- Alike steps go on alike if what they go on with depends on the content only. -/
theorem bind {k k' : α → PassM γ} (hm : Alike look m m')
    (hk : ∀ a a', look a = look a' → Alike look' (k a) (k' a')) :
    Alike look' (m >>= k) (m' >>= k') := by
  intro p p' hcounter
  obtain ⟨hlook, hcounter⟩ := hm p p' hcounter
  rw [StateT.run_bind, StateT.run_bind]
  exact hk _ _ hlook _ _ hcounter

/-- Steps that yield the same. -/
theorem bind_eq {k k' : α → PassM γ} (hm : Alike (fun a => a) m m')
    (hk : ∀ a, Alike look' (k a) (k' a)) : Alike look' (m >>= k) (m' >>= k') :=
  hm.bind fun a a' (h : a = a') => h ▸ hk a

/-- Two steps that only warn are alike if their results look alike. -/
theorem of_silent {a a' : α} (h : Silent m a) (h' : Silent m' a') (hlook : look a = look a') :
    Alike look m m' := by
  intro p p' hcounter
  obtain ⟨_, hrun⟩ := h p
  obtain ⟨_, hrun'⟩ := h' p'
  rw [hrun, hrun']
  exact ⟨hlook, hcounter⟩

theorem warn (w : Warning) (h : Alike look m m') :
    Alike look (do Pass.warn w; m) (do Pass.warn w; m') :=
  fun p p' hcounter =>
    h { p with warnings := p.warnings ++ [w] } { p' with warnings := p'.warnings ++ [w] } hcounter

theorem warnIf {c : Prop} [Decidable c] (w : Warning) {k k' : Unit → PassM α}
    (h : Alike look (k ()) (k' ())) :
    Alike look (if c then do let r ← Pass.warn w; k r else k ())
      (if c then do let r ← Pass.warn w; k' r else k' ()) := by
  split
  · exact h.warn w
  · exact h

theorem withinTab (h : Alike look m m') : Alike look (Pass.withinTab m) (Pass.withinTab m') := by
  intro p p' hcounter
  have hinside := h { p with tabDepth := p.tabDepth + 1 } { p' with tabDepth := p'.tabDepth + 1 }
    hcounter
  rw [run_withinTab (Prod.eta _).symm, run_withinTab (Prod.eta _).symm]
  exact hinside

/-- A row of steps that are alike is alike. -/
theorem mapM {k k' : γ → PassM α} (h : ∀ c, Alike look (k c) (k' c)) (cs : List γ) :
    Alike (List.map look) (cs.mapM k) (cs.mapM k') := by
  induction cs with
  | nil => exact .pure rfl
  | cons c rest ih =>
      rw [List.mapM_cons, List.mapM_cons]
      refine (h c).bind fun a a' ha => ih.bind fun as as' has => .pure ?_
      rw [List.map_cons, List.map_cons, ha, has]

end Alike

theorem alike_nextId (entity : String) : Alike (fun i => i) (nextId entity) (nextId entity) := by
  intro p p' hcounter
  rw [run_nextId, run_nextId, hcounter]
  exact ⟨rfl, rfl⟩

theorem alike_nextPanelId (parent branch : String) :
    Alike (fun i => i) (nextPanelId parent branch) (nextPanelId parent branch) := by
  intro p p' hcounter
  rw [run_nextPanelId, run_nextPanelId, hcounter]
  exact ⟨rfl, rfl⟩

theorem alike_inTab : Alike (fun _ => ()) inTab inTab := fun _ _ hcounter => ⟨rfl, hcounter⟩

end Pass

namespace Entity
open Fragment Pass View

variable {s s' : Settings}

theorem alike_recordOf {e : Facts} {body body' : PassM (List Fragment)}
    (hbody : Alike (viewRow content) body body') (removable : Bool) (number : Nat) :
    Alike (Instance.view content) (recordOf e body removable number)
      (recordOf e body' removable number) := by
  refine (alike_nextId _).bind_eq fun id => hbody.bind fun fs gs hrow => .pure ?_
  simp only [Instance.view, hrow]

/-- The content of a field depends neither on the settings nor on what is around it. -/
theorem content_field {widget widget' : Widget Fragment}
    (h : widget.isSelect = widget'.isSelect) (s s' : Settings) (e : Facts) (wrapped t t' : Bool)
    (id : String) :
    content.field (field s e wrapped t id widget) =
      content.field (field s' e wrapped t' id widget') := by
  simp only [field, h]
  rfl

/-- What the settings say about a fragment is how it is displayed. Only a wrapped fragment has a
body, which all its records are made of. -/
theorem alike_fragment {e : Facts} {body body' : Option (PassM (List Fragment))}
    {make make' : String → PassM (Widget Fragment)}
    (hbody : Option.Rel (Alike (viewRow content)) body body')
    (hmake : ∀ id, Alike (viewWidget content) (make id) (make' id)) :
    Alike (view content) (fragment s e body make) (fragment s' e body' make') := by
  refine (alike_nextId e.id).bind_eq fun id => ?_
  refine (hmake id).bind fun w w' hw => alike_inTab.bind fun t t' _ => ?_
  have hinput : w.isInput = w'.isInput := by
    rw [← viewWidget_isInput (v := content) w, hw, viewWidget_isInput]
  have hselect : w.isSelect = w'.isSelect := by
    rw [← viewWidget_isSelect (v := content) w, hw, viewWidget_isSelect]
  have hgroup : w.isGroup = w'.isGroup := by
    rw [← viewWidget_isGroup (v := content) w, hw, viewWidget_isGroup]
  have hfillable : isFillable w = isFillable w' := by
    rw [isFillable, isFillable, hinput, hselect, hgroup]
  have hfield (wrapped : Bool) := content_field hselect s s' e wrapped t t' id
  have hslots (wrapped : Bool) : (field s e wrapped t id w).cardinality.fixedSlots =
      (field s' e wrapped t' id w').cardinality.fixedSlots :=
    congrArg (·.cardinality.fixedSlots) (hfield wrapped)
  have hwhole (wrapped : Bool) {instances instances' : List (Instance Fragment)}
      (h : instances.map (Instance.view content) = instances'.map (Instance.view content)) :
      view content ⟨field s e wrapped t id w, w, instances⟩ =
        view content ⟨field s' e wrapped t' id w', w', instances'⟩ := by
    rw [view, view, hfield, hw, viewInstances_eq, viewInstances_eq, h]
  cases hbody with
  | none => exact .pure (hwhole false rfl)
  | @some body body' hbody =>
      have hrecords (numbers : List Nat) := Alike.mapM (alike_recordOf (e := e) hbody false) numbers
      simp only [Option.isSome_some, hfillable, hslots]
      cases isFillable w' with
      | false => exact .pure (hwhole true rfl)
      | true =>
          cases (field s' e true t' id w').cardinality.fixedSlots with
          | none => exact .pure (hwhole true rfl)
          | some slots => exact (hrecords _).bind fun is js h => .pure (hwhole true h)

theorem alike_diagnostic (e : Facts) (message : String) :
    Alike (view content) (diagnostic s e message) (diagnostic s' e message) :=
  alike_fragment (.some (.pure rfl)) fun _ => .pure rfl

theorem alike_tabSet {e : Facts} {tabs tabs' : String → PassM (List (Tab Fragment))}
    (htabs : ∀ id, Alike (viewTabs content) (tabs id) (tabs' id)) :
    Alike (view content) (tabSet s e tabs) (tabSet s' e tabs') := by
  refine (alike_fragment (.some (.pure rfl)) fun _ => .pure rfl).bind fun frame frame' hframe => ?_
  obtain ⟨field, widget, instances⟩ := frame
  obtain ⟨field', widget', instances'⟩ := frame'
  have hfield : content.field field = content.field field' := congrArg (·.toField) hframe
  have hid : field.id = field'.id := congrArg (·.id) hfield
  have hrow : Alike (viewTabs content) (tabs field.id) (tabs' field'.id) := hid ▸ htabs field'.id
  refine hrow.bind fun row row' hrow => .pure ?_
  have hfixed := congrArg (fun f : Field => { f with repetition := none }) hfield
  simp only [view, viewWidget, hrow]
  exact congrArg (fun f => Fragment.mk f _ _) hfixed

theorem alike_disjunction {e : Entity} {tabs tabs' : String → PassM (List (Tab Fragment))}
    (htabs : ∀ id, Alike (viewTabs content) (tabs id) (tabs' id)) :
    Alike (view content) (disjunction s e tabs) (disjunction s' e tabs') := by
  rw [disjunction, disjunction]
  split
  · exact (alike_diagnostic _ _).warn _
  · exact alike_tabSet htabs

theorem alike_selectInput (e : Entity) :
    Alike content.select (selectInput s e) (selectInput s' e) :=
  .of_silent (silent_selectInput s e) (silent_selectInput s' e) rfl

theorem alike_singleton {m m' : PassM Fragment} (h : Alike (view content) m m') :
    Alike (viewRow content) (do pure [← m]) (do pure [← m']) :=
  h.bind fun f g hview => .pure (by rw [viewRow, hview]; rfl)

section
variable {e : Entity} {components components' : PassM (List Fragment)}
  {tabs tabs' : String → PassM (List (Tab Fragment))}

/-- Nodes are compiled alike if what they are put together of is. -/
theorem alike_node {body body' : Option (PassM (List Fragment))}
    (hcomponents : Alike (viewRow content) components components')
    (htabs : ∀ id, Alike (viewTabs content) (tabs id) (tabs' id))
    (hbody : Option.Rel (Alike (viewRow content)) body body') :
    Alike (viewRow content) (node s e components tabs body)
      (node s' e components' tabs' body') := by
  have hsingle {make make' : String → PassM (Widget Fragment)}
      (hmake : ∀ id, Alike (viewWidget content) (make id) (make' id)) :
      Alike (viewRow content) (do pure [← fragment s e.toFacts body make])
        (do pure [← fragment s' e.toFacts body' make']) :=
    alike_singleton (alike_fragment hbody hmake)
  have hnone : body.isNone = body'.isNone := by cases hbody <;> rfl
  rw [node, node]
  apply Alike.warnIf
  generalize e.kind = kind
  cases kind with
  | disjunction => exact alike_singleton (alike_disjunction htabs)
  | grouping =>
      refine hcomponents.bind fun fs gs hrow => ?_
      have hempty : fs.isEmpty = gs.isEmpty := by
        rw [← List.isEmpty_map (f := view content) (l := fs), ← viewRow_eq, hrow, viewRow_eq,
          List.isEmpty_map]
      simp only [hempty, hnone]
      split
      · exact .pure hrow
      · exact hsingle fun _ => .pure (congrArg Widget.group hrow)
  | unspecified => exact hsingle fun _ => .pure rfl
  | unrecognized tag => exact (alike_singleton (alike_diagnostic _ _)).warn _
  | text type => exact hsingle fun _ => .pure rfl
  | number kind =>
      exact hsingle fun id =>
        .of_silent (silent_numberWidget e kind id) (silent_numberWidget e kind id) rfl
  | dateTime kind => exact hsingle fun _ => .pure rfl
  | boolean => exact hsingle fun _ => .pure rfl
  | categorical =>
      exact hsingle fun _ => (alike_selectInput e).bind fun input input' hinput =>
        .pure (congrArg Widget.select hinput)

theorem alike_wrappedNode (hcomponents : Alike (viewRow content) components components')
    (htabs : ∀ id, Alike (viewTabs content) (tabs id) (tabs' id)) :
    Alike (viewRow content) (wrappedNode s e components tabs)
      (wrappedNode s' e components' tabs') :=
  alike_node hcomponents htabs (.some (alike_node hcomponents htabs .none))

end

mutual
/-- Two settings compile an entity alike. -/
theorem alike_compile : ∀ e : Entity, Alike (viewRow content) (compile s e) (compile s' e)
  | ⟨facts, ⟨components⟩, choices, units⟩ => by
      rw [compile, compile]
      exact alike_wrappedNode (alike_compileAll components)
        (alike_compileTabs components true)
theorem alike_compileAll : ∀ components : List (String × Entity),
    Alike (viewRow content) (compileAll s components) (compileAll s' components)
  | [] => .pure rfl
  | (key, e) :: rest => by
      rw [compileAll, compileAll]
      refine (alike_compile e).bind fun fs gs hfirst =>
        (alike_compileAll rest).bind fun fs' gs' hrest => .pure ?_
      rw [viewRow_append, viewRow_append, hfirst, hrest]
theorem alike_compileTabs : ∀ (branches : List (String × Entity)) (first : Bool) (id : String),
    Alike (viewTabs content) (compileTabs s branches first id) (compileTabs s' branches first id)
  | [], _, _ => .pure rfl
  | (key, branch) :: rest, first, parent => by
      rw [compileTabs, compileTabs]
      refine (alike_nextPanelId parent key).bind_eq fun id =>
        (alike_compile branch).withinTab.bind fun fs gs hfragments =>
          (alike_compileTabs rest false parent).bind fun row row' hrest => .pure ?_
      rw [viewTabs, viewTabs, hfragments, hrest]
      rfl
end

theorem alike_compileRecord (s s' : Settings) (e : Entity) (number : Nat) (removable : Bool) :
    Alike (Instance.view content) (compileRecord s e number removable)
      (compileRecord s' e number removable) :=
  alike_recordOf (alike_node (alike_compileAll _) (alike_compileTabs _ true) .none) removable number

end Entity

namespace Fragment
open View

variable {f : Fragment}

theorem content_widget (f : Fragment) : (f.view content).widget = viewWidget content f.widget := by
  obtain ⟨field, widget, instances⟩ := f
  rfl

theorem content_toField (f : Fragment) : (f.view content).toField = content.field f.toField := by
  obtain ⟨field, widget, instances⟩ := f
  rfl

theorem content_repetition (f : Fragment) : (f.view content).repetition = f.repetition := by
  rw [content_toField]
  rfl

theorem content_entityPath (f : Fragment) : (f.view content).entityPath = f.entityPath := by
  rw [content_toField]
  rfl

/-- The submitted values are content. -/
theorem entries_content (f : Fragment) (listed : Bool) :
    (f.view content).entries listed = f.entries listed := by
  induction f using children_induction generalizing listed with
  | step f ih =>
      have hlists : makesList (f.view content).toField (f.view content).widget =
          makesList f.toField f.widget := by
        rw [makesList, makesList, content_widget, viewWidget_isSelect, content_toField]
        rfl
      rw [entries_eq, entries_eq, view_children, viewRow_eq, List.flatMap_map, hlists,
        List.flatMap_congr fun g hg => ih g hg _, content_widget, viewWidget_isInput,
        content_toField]
      rfl

theorem content_setValue (value : Json) (f : Fragment) :
    ({ f.view content with value := some value } : Fragment) =
      ({ f with value := some value } : Fragment).view content := by
  obtain ⟨field, widget, instances⟩ := f
  rfl

theorem content_appendInstance {i j : Instance Fragment}
    (h : i.view content = j) (f : Fragment) :
    Form.appendInstance j (f.view content) = (Form.appendInstance i f).view content := by
  obtain ⟨field, widget, instances⟩ := f
  simp only [Form.appendInstance, view, viewInstances_eq, List.map_append, List.map_cons,
    List.map_nil, h]
  rfl

theorem content_renumber (number : Nat) (instances : List (Instance Fragment)) :
    Form.renumber number (instances.map (Instance.view content)) =
      (Form.renumber number instances).map (Instance.view content) := by
  induction instances generalizing number with
  | nil => rfl
  | cons i rest ih =>
      rw [List.map_cons, Form.renumber, Form.renumber, ih]
      rfl

theorem content_dropInstance (id : String) (f : Fragment) :
    Form.dropInstance id (f.view content) = (Form.dropInstance id f).view content := by
  have hremovable : Form.isRemovable id ∘ Instance.view content = Form.isRemovable id := rfl
  obtain ⟨field, widget, instances⟩ := f
  simp only [Form.dropInstance, view, viewInstances_eq, List.eraseP_map, hremovable,
    content_renumber]
  rfl

/-- Which tab is active is not content. -/
theorem content_showTab (id : String) (f : Fragment) :
    ({ f with widget := f.widget.showTab id } : Fragment).view content = f.view content := by
  obtain ⟨field, widget, instances⟩ := f
  cases widget with
  | tabs row =>
      simp only [view, Widget.showTab, viewWidget, viewTabs_eq, List.map_map]
      rfl
  | _ => rfl

theorem content_ownsTab (id : String) (f : Fragment) :
    (f.view content).widget.ownsTab id = f.widget.ownsTab id := by
  obtain ⟨field, widget, instances⟩ := f
  cases widget with
  | tabs row =>
      simp only [view, viewWidget, Widget.ownsTab, viewTabs_eq, List.any_map]
      rfl
  | _ => rfl

/-- Whether a field is open is not content. -/
theorem Folds.content {change : Fragment → Fragment} (h : Folds change) (f : Fragment) :
    (change f).view content = f.view content := by
  obtain ⟨collapsed, hchange⟩ := h f
  obtain ⟨field, widget, instances⟩ := f
  rw [hchange]
  rfl

end Fragment

namespace Form
open View Fragment

variable {a b : Form}

/-- A change of a field that keeps to the content can be made in the content alone. -/
theorem content_update {change change' : Fragment → Fragment}
    (h : ∀ f, change' (f.view content) = (change f).view content) (id : String) (a : Form) :
    (a.view content).update id change' = (a.update id change).view content := by
  have htest (f : Fragment) : ((f.view content).id == id) = (f.id == id) := by
    rw [content_toField]
    rfl
  rw [update, update, updateFirst?_view htest h]
  cases a.updateFirst? (·.id == id) change <;> rfl

/-- A change that does not reach the content of a fragment does not reach that of a form. -/
theorem content_of_updateFirst? {test : Fragment → Bool} {change : Fragment → Fragment}
    (htest : ∀ f, test (f.view content) = test f)
    (hchange : ∀ f, (change f).view content = f.view content)
    (h : a.updateFirst? test change = some b) : b.view content = a.view content := by
  have hview := @updateFirst?_view content test test change (fun f => f) htest
    (fun f => (hchange f).symm) a
  rw [h, updateFirst?] at hview
  obtain ⟨fragments, hsame, hform⟩ := Option.map_eq_some_iff.mp hview
  rw [← hform, updateRow?_same hsame, ← state_of_updateRow? hsame]

theorem content_activateTab? {id : String} (h : a.activateTab? id = some b) :
    b.view content = a.view content :=
  content_of_updateFirst? (content_ownsTab id) (content_showTab id) h

/-- Closing and opening is no matter of content. -/
theorem content_fold {change : Fragment → Fragment} (h : Folds change) (id : String) (a : Form) :
    (a.update id change).view content = a.view content := by
  rw [update]
  cases hchanged : a.updateFirst? (·.id == id) change with
  | none => rfl
  | some b =>
      exact content_of_updateFirst? (fun f => by rw [content_toField]; rfl) h.content hchanged

/-- What is submitted is a matter of content. -/
theorem content_submission (a : Form) : (a.view content).submission = a.submission := by
  have hentries : entriesOf false (a.view content).fragments = entriesOf false a.fragments := by
    rw [fragments_view, viewRow_eq, entriesOf_eq_flatMap, entriesOf_eq_flatMap, List.flatMap_map]
    exact List.flatMap_congr fun f _ => entries_content f false
  rw [submission, submission, Submission.ofForm, hentries, Submission.ofForm]

/-- The content of a compiled form does not depend on the settings. -/
theorem content_compile (s s' : Settings) (d : Document) (focus : String) (generation : Nat) :
    (compile s d focus generation).1.view content =
      (compile s' d focus generation).1.view content := by
  have hfocus :
      Pass.Alike (viewRow content) (compileFocus s d focus) (compileFocus s' d focus) := by
    rw [compileFocus, compileFocus]
    split
    · exact .warn _ (.pure rfl)
    · exact Entity.alike_compile _
    · refine .warn _ ((Entity.alike_diagnostic _ _).bind fun f g hfirst =>
        (Entity.alike_compile _).bind fun fs gs hrest => .pure ?_)
      rw [viewRow, viewRow, hfirst, hrest]
  obtain ⟨hrow, hcounter⟩ := hfocus {} {} rfl
  have hview (s : Settings) : (compile s d focus generation).1.view content =
      ⟨focus, generation, .ofFragments (viewRow content ((compileFocus s d focus).run {}).1),
        ((compileFocus s d focus).run {}).2.counter⟩ := by
    rw [← FormState.view_ofFragments]
    rfl
  rw [hview, hview, hrow, hcounter]

theorem content_setValue? (id : String) (value : Json) (a : Form) :
    (a.view content).setValue? id value = (a.setValue? id value).map (view content) := by
  rw [setValue?, setValue?, find?_view fun _ => rfl,
    content_update (content_setValue value)]
  cases a.find? id with
  | none => rfl
  | some f =>
      simp only [Option.map_some, content_widget, viewWidget_isInput]
      split <;> rfl

theorem content_removeInstance (wrapper id : String) (a : Form) :
    (a.view content).removeInstance wrapper id =
      (a.removeInstance wrapper id).map (view content) := by
  have hremovable (f : Fragment) : (f.view content).instances.any (isRemovable id) =
      f.instances.any (isRemovable id) := by
    obtain ⟨field, widget, instances⟩ := f
    rw [Fragment.view, viewInstances_eq, List.any_map]
    rfl
  rw [removeInstance, removeInstance, find?_view fun _ => rfl,
    content_update (content_dropInstance id)]
  cases a.find? wrapper with
  | none => rfl
  | some f =>
      simp only [Option.map_some, content_repetition, hremovable]
      split
      · rfl
      · split <;> rfl

/-- Whether an instance can be added, and which one, is told by the content. -/
theorem content_newRecord? (d : Document) (wrapper : String) (a : Form) :
    (a.view content).newRecord? d wrapper = a.newRecord? d wrapper := by
  rw [newRecord?, newRecord?, find?_view fun _ => rfl]
  cases a.find? wrapper with
  | none => rfl
  | some f =>
      simp only [Option.map_some, content_widget, viewWidget_isSelect, content_repetition,
        content_entityPath]

/-- Adding a record to forms of the same content keeps them so, whatever the settings. -/
theorem content_addRecord (h : a.view content = b.view content) (s s' : Settings)
    (wrapper : String) (record : Nat × Entity) :
    (a.addRecord s wrapper record).1 = (b.addRecord s' wrapper record).1 ∧
      (a.addRecord s wrapper record).2.view content =
        (b.addRecord s' wrapper record).2.view content := by
  have hcounter : a.counter = b.counter := congrArg (·.counter) h
  obtain ⟨hinstance, hnext⟩ := Entity.alike_compileRecord s s' record.2 record.1 true
    { counter := a.counter } { counter := b.counter } hcounter
  rw [addRecord, addRecord]
  generalize (record.2.compileRecord s record.1 true).run { counter := a.counter } = compiled
    at hinstance hnext ⊢
  generalize (record.2.compileRecord s' record.1 true).run { counter := b.counter } = compiled'
    at hinstance hnext ⊢
  obtain ⟨i, pass⟩ := compiled
  obtain ⟨j, pass'⟩ := compiled'
  have hform : (a.update wrapper (appendInstance i)).view content =
      (b.update wrapper (appendInstance j)).view content := by
    rw [← content_update (content_appendInstance hinstance), h,
      content_update (content_appendInstance rfl)]
  have hcounted := congrArg (fun form : Form => { form with counter := pass'.counter }) hform
  refine ⟨congrArg (·.id) hinstance, ?_⟩
  simp only at hnext ⊢
  rw [hnext]
  exact hcounted

/-- Adding to forms of the same content has the same result, whatever the settings. -/
theorem content_addInstance (h : a.view content = b.view content) (s s' : Settings)
    (d : Document) (wrapper : String) :
    (a.addInstance s d wrapper).map (Option.map fun added => (added.1, added.2.view content)) =
      (b.addInstance s' d wrapper).map
        (Option.map fun added => (added.1, added.2.view content)) := by
  have hfound : a.newRecord? d wrapper = b.newRecord? d wrapper := by
    rw [← content_newRecord?, h, content_newRecord?]
  rw [addInstance_checked, addInstance_checked, hfound]
  cases b.newRecord? d wrapper with
  | error e => rfl
  | ok found =>
      cases found with
      | none => rfl
      | some record =>
          obtain ⟨hid, hform⟩ := content_addRecord h s s' wrapper record
          simp only [Except.map, Option.map_some, hid, hform]

end Form

end EntryForm
