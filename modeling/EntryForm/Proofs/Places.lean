import EntryForm.Proofs.ShownRun
import EntryForm.Proofs.Steps
import Mathlib.Data.List.Flatten

/-!
# What holds of every node by its place

A node is compiled inside a tab or not, and a record that is added later is compiled as if no tab
lay around it. What holds of every node by this flag when it is compiled, and is kept by every
change of the node itself, holds of all nodes of every form of a session.
-/

namespace EntryForm

namespace Widget
variable {φ : Type}

/-- Whether a widget is a tab set. -/
def isTabs : Widget φ → Bool
  | .tabs _ => true
  | _ => false

theorem isTabs_map {ψ : Type} (f : φ → ψ) (w : Widget φ) : (w.map f).isTabs = w.isTabs := by
  cases w <;> rfl

theorem isTabs_hideTabs (w : Widget φ) : w.hideTabs.isTabs = w.isTabs := by
  cases w <;> rfl

end Widget

/-- A property of nodes by whether a tab lies around them, for a fragment and all fragments inside
it. -/
inductive Fragment.Placed (P : Bool → Node → Prop) : Bool → Fragment → Prop
  | intro {t : Bool} {f : Fragment} : P t f.node →
      (∀ g ∈ f.widget.children, Placed P (t || f.widget.isTabs) g) →
      (∀ i ∈ f.instances, ∀ g ∈ i.fragments, Placed P (t && !i.removable) g) → Placed P t f

namespace Fragment
variable {P : Bool → Node → Prop} {t : Bool} {f : Fragment}

/-- The property for all fragments inside a fragment. -/
structure Filled (P : Bool → Node → Prop) (t : Bool) (f : Fragment) : Prop where
  widget : ∀ g ∈ f.widget.children, Placed P (t || f.widget.isTabs) g
  instances : ∀ i ∈ f.instances, ∀ g ∈ i.fragments, Placed P (t && !i.removable) g

theorem Filled.placed (h : f.Filled P t) (hnode : P t f.node) : Placed P t f :=
  .intro hnode h.widget h.instances

theorem Placed.node (h : Placed P t f) : P t f.node := by
  cases h with
  | intro hnode _ _ => exact hnode

theorem Placed.filled (h : Placed P t f) : Filled P t f := by
  cases h with
  | intro _ hwidget hinstances => exact ⟨hwidget, hinstances⟩

/-- What is inside a fragment has the property too, at a place of its own. -/
theorem Placed.mem (h : Placed P t f) {g : Fragment} (hg : g ∈ allOf [f]) :
    ∃ t', Placed P t' g := by
  induction h with
  | @intro t f hnode hwidget hinstances ih ihinstances =>
      rcases mem_allOf_singleton.mp hg with rfl | hg
      · exact ⟨t, .intro hnode hwidget hinstances⟩
      rcases mem_allOf_children.mp hg with hg | ⟨i, hi, hg⟩
      · obtain ⟨x, hx, hg⟩ := mem_allOf.mp hg
        exact ih x hx hg
      · obtain ⟨x, hx, hg⟩ := mem_allOf.mp hg
        exact ihinstances i hi x hx hg

end Fragment

open Fragment in
/-- Every node of placed fragments is at a place of one sort or the other. -/
theorem nodes_of_placed {P : Bool → Node → Prop} {t : Bool} {fragments : List Fragment}
    (h : ∀ f ∈ fragments, f.Placed P t) : ∀ n ∈ nodesOf fragments, ∃ t', P t' n := by
  intro n hn
  obtain ⟨g, hg, rfl⟩ := List.mem_map.mp hn
  obtain ⟨f, hf, hg⟩ := mem_allOf.mp hg
  obtain ⟨t', hplaced⟩ := (h f hf).mem hg
  exact ⟨t', hplaced.node⟩

/-- What compiling does for a property of nodes by their place: it holds of a fragment with nothing
inside but what its widget holds, it does not look at the records, and it holds of a tab set of
which one tab is active. -/
structure Compiled (s : Settings) (P : Bool → Node → Prop) : Prop where
  frame : ∀ (e : Facts) (wrapped t : Bool) (id : String) (widget : Widget Fragment),
    widget.isTabs = false → P t (Entity.frame s e wrapped t id widget).node
  record : ∀ (t : Bool) (f : Fragment) (instances : List (Instance Fragment)),
    P t f.node → P t { f with instances }.node
  tabs : ∀ (e : Facts) (t : Bool) (id : String) (row : List (Tab Fragment)),
    (row.map (·.id)).Nodup → row.countP (·.active) = 1 →
      P t { Entity.tabFrame s e t id with widget := .tabs row }.node

/-- The widget of an entity without fields and branches inside is no tab set. -/
theorem Entity.leaf_isTabs {s : Settings} {e : Entity} {id : String} {widget : Widget Fragment}
    (h : e.leaf? s id = some widget) : widget.isTabs = false := by
  rw [leaf?] at h
  split at h <;> cases h <;> rfl

/-- What is known of a fragment that a source yields. A tab set may still lack tabs. -/
def Source.Yields (P : Bool → Node → Prop) (t : Bool) : Source → Fragment → Prop
  | .branching _ _, f => f.Filled P t
  | _, f => f.Placed P t

open Entity in
/-- A tab set that is being compiled: the tabs so far, of which the first is active. -/
theorem Derives.branching {s : Settings} {e : Entity} {branches : List (String × Entity)} {t : Bool}
    {n m : Nat} {fragments : List Fragment}
    (h : Derives s (.branching e branches) t n fragments m) :
    ∃ row : List (Tab Fragment),
      fragments = [{ tabFrame s e.toFacts t (idAt e.id n) with widget := .tabs row }] ∧
        row.length + branches.length = e.components.entries.length ∧
          row.countP (·.active) = min 1 row.length := by
  generalize hsource : Source.branching e branches = source at h
  induction h generalizing branches with
  | tabSet =>
      cases hsource
      exact ⟨[], rfl, by simp, rfl⟩
  | @tab e branch key branches field row fs t n m k _ _ ih _ =>
      cases hsource
      obtain ⟨row, hfs, hlength, hactive⟩ := ih rfl
      cases hfs
      refine ⟨_, rfl, ?_, ?_⟩
      · rw [← hlength]
        simp only [List.length_append, List.length_cons, List.length_nil]
        omega
      · rw [List.countP_append, hactive]
        cases row with
        | nil => rfl
        | cons first rest => simp [tabOf]
  | _ => cases hsource

open Fragment in
/-- The tabs of a set have ids of their own. -/
theorem tabs_nodup {field : Field} {row : List (Tab Fragment)} {n m : Nat}
    (h : Issued n m (idsOf [⟨field, .tabs row, []⟩])) : (row.map (·.id)).Nodup := by
  have hids := (idsOf_tabSet field row).nodup_iff.mp h.ids_nodup
  have hsublist : (row.map (·.id)).Sublist (row.flatMap idsOfTab) := by
    rw [List.map_eq_flatMap]
    apply List.Sublist.flatMap_right
    exact fun _ _ => List.singleton_sublist.mpr List.mem_cons_self
  exact (List.nodup_cons.mp hids).2.sublist hsublist

open Fragment Entity in
/-- What is compiled has a property by its place. -/
theorem Derives.placed {s : Settings} {P : Bool → Node → Prop} (hP : Compiled s P)
    {source : Source} {t : Bool} {n m : Nat} {fragments : List Fragment}
    (h : Derives s source t n fragments m) : ∀ f ∈ fragments, source.Yields P t f := by
  have hframe {e : Facts} {wrapped t : Bool} {id : String} {widget : Widget Fragment}
      (htabs : widget.isTabs = false) (hchildren : ∀ g ∈ widget.children, Placed P t g) :
      Placed P t (frame s e wrapped t id widget) := by
    refine .intro (hP.frame e wrapped t id widget htabs) ?_ (List.forall_mem_nil _)
    intro g hg
    have hflag : (t || widget.isTabs) = t := by rw [htabs, Bool.or_false]
    have hplaced := hchildren g hg
    rw [← hflag] at hplaced
    exact hplaced
  have hleaf {widget : Widget Fragment} (hchildren : widget.children = []) {t : Bool} :
      ∀ g ∈ widget.children, Placed P t g := by
    rw [hchildren]
    exact List.forall_mem_nil _
  induction h with
  | missing => exact List.forall_mem_nil _
  | found _ ih => exact ih
  | unresolved _ ih => exact List.forall_mem_cons.mpr ⟨hframe rfl (hleaf rfl), ih⟩
  | none => exact List.forall_mem_nil _
  | more _ _ ih ih' => exact List.forall_mem_append.mpr ⟨ih, ih'⟩
  | fault _ => exact List.forall_mem_singleton.mpr (hframe rfl (hleaf rfl))
  | bare _ _ _ ih => exact ih
  | leaf hwidget =>
      have hchildren := (leaf_ids hwidget).1
      exact List.forall_mem_singleton.mpr (hframe (leaf_isTabs hwidget) (hleaf hchildren))
  | @group e t n m children _ _ _ _ ih =>
      have hchildren : ∀ g ∈ (Widget.group children).children, Placed P t g := ih
      exact List.forall_mem_singleton.mpr (hframe rfl hchildren)
  | @record e field widget instances body number numbers wrapped t n m k _ _ ih ihbody =>
      have hfield : Placed P t ⟨field, widget, instances⟩ := List.forall_mem_singleton.mp ih
      refine List.forall_mem_singleton.mpr (.intro ?_ hfield.filled.widget ?_)
      · exact hP.record t ⟨field, widget, instances⟩ _ hfield.node
      · refine List.forall_mem_append.mpr
          ⟨hfield.filled.instances, List.forall_mem_singleton.mpr ?_⟩
        rw [Bool.not_false, Bool.and_true]
        exact ihbody
  | filled _ ih => exact ih
  | tabSet => exact List.forall_mem_singleton.mpr ⟨List.forall_mem_nil _, List.forall_mem_nil _⟩
  | @tab e branch key branches field row fs t n m k _ _ ih ihbranch =>
      have hrow : Filled P t ⟨field, .tabs row, []⟩ := List.forall_mem_singleton.mp ih
      have hbefore := hrow.widget
      refine List.forall_mem_singleton.mpr ⟨?_, List.forall_mem_nil _⟩
      simp only [Widget.isTabs, Bool.or_true] at hbefore ⊢
      simp only [Widget.children, List.flatMap_append, List.flatMap_singleton]
      exact List.forall_mem_append.mpr ⟨hbefore, ihbranch⟩
  | @tabbed e wrapped t n m fs _ hbranches htabs ih =>
      obtain ⟨row, rfl, hlength, hactive⟩ := htabs.branching
      have hrow : Filled P t { tabFrame s e.toFacts t (idAt e.id n) with widget := .tabs row } :=
        List.forall_mem_singleton.mp ih
      have hnonempty : 0 < e.components.entries.length := by
        rw [List.length_pos_iff]
        simpa [OrderedMap.isEmpty] using hbranches
      have hone : row.countP (·.active) = 1 := by
        rw [hactive]
        simp only [List.length_nil] at hlength
        omega
      exact List.forall_mem_singleton.mpr
        (hrow.placed (hP.tabs e.toFacts t _ row (tabs_nodup htabs.issued) hone))

namespace Fragment

section update
variable {test : Fragment → Bool} {change : Fragment → Fragment}

/-- A change in a row changes one fragment of it. -/
theorem updateRow?_split {fs fs' : List Fragment} (h : updateRow? test change fs = some fs') :
    ∃ left f f' right, fs = left ++ f :: right ∧ updateRow? test change [f] = some [f'] ∧
      fs' = left ++ f' :: right := by
  induction fs generalizing fs' with
  | nil => cases h
  | cons f rest ih =>
      rw [updateRow?] at h
      split at h
      case _ f' hf =>
        cases h
        exact ⟨[], f, f', rest, rfl, by rw [updateRow?, hf], rfl⟩
      case _ =>
        obtain ⟨rest', hrest, rfl⟩ := Option.map_eq_some_iff.mp h
        obtain ⟨left, g, g', right, rfl, hg, rfl⟩ := ih hrest
        exact ⟨f :: left, g, g', right, rfl, hg, rfl⟩

variable {P : Bool → Node → Prop}

/-- What holds of a row holds of the changed row if it holds of the changed fragment. -/
theorem forall_updateRow? {Q : Fragment → Prop} {fs fs' : List Fragment} (h : ∀ f ∈ fs, Q f)
    (hupdate : updateRow? test change fs = some fs')
    (hone : ∀ f ∈ fs, ∀ f', updateRow? test change [f] = some [f'] → Q f') : ∀ f ∈ fs', Q f := by
  obtain ⟨left, f, f', right, rfl, hf, rfl⟩ := updateRow?_split hupdate
  simp only [List.forall_mem_append, List.forall_mem_cons] at h hone ⊢
  exact ⟨h.1, hone.2.1 f' hf, h.2.2⟩

/-- Changing the first fragment that passes a test keeps what holds by the place, if it does for
the fragments that pass it. -/
theorem Placed.update (hid : ∀ f, (change f).id = f.id)
    (hchange : ∀ t f, test f = true → Placed P t f → Placed P t (change f)) {t : Bool}
    {f f' : Fragment} (h : Placed P t f) (hupdate : updateRow? test change [f] = some [f']) :
    Placed P t f' := by
  induction h generalizing f' with
  | @intro t f hnode hwidget hinstances ih ihinstances =>
      rcases updateRow?_singleton hupdate with ⟨htest, hf⟩ | ⟨widget, hw, hf⟩ | ⟨instances, hi, hf⟩
      · cases hf
        exact hchange t f htest (.intro hnode hwidget hinstances)
      · cases hf
        have hshape : widget.map (·.id) = f.widget.map (·.id) :=
          ((updates_widget fun g _ => updates_first hid g).done widget hw).1
        have hsame : widget.isTabs = f.widget.isTabs := by
          rw [← Widget.isTabs_map (·.id) widget, hshape, Widget.isTabs_map]
        refine .intro ?_ ?_ hinstances
        · have hkept : ({ f with widget } : Fragment).node = f.node := by
            simp only [Fragment.node, hshape]
          rwa [hkept]
        · simp only [hsame]
          exact forall_updateRow? hwidget (updateWidget?_some hw).1 fun g hg g' hg' => ih g hg hg'
      · cases hf
        have hshape : instances.map (Instance.map (·.id)) = f.instances.map (Instance.map (·.id)) :=
          ((updates_instances fun g _ => updates_first hid g).done instances hi).1
        obtain ⟨left, i, right, fragments, hsplit, hrow, rfl⟩ := updateInstances?_some hi
        refine .intro ?_ hwidget ?_
        · have hkept : ({ f with
              instances := left ++ { i with fragments } :: right } : Fragment).node = f.node := by
            simp only [Fragment.node, hshape]
          rwa [hkept]
        · have hbody : ∀ g ∈ fragments, Placed P (t && !i.removable) g := by
            have hmem : i ∈ f.instances := by simp [hsplit]
            exact forall_updateRow? (hinstances i hmem) hrow
              fun g hg g' hg' => ihinstances i hmem g hg hg'
          rw [hsplit] at hinstances
          simp only [List.forall_mem_append, List.forall_mem_cons] at hinstances ⊢
          exact ⟨hinstances.1, hbody, hinstances.2.2⟩

end update

/-- An edit keeps the records of a fragment, but for what is shown of them. -/
theorem Edit.instances {change : Fragment → Fragment} (h : Edit change) (f : Fragment) :
    (change f).instances.map (fun i => (i.removable, i.fragments)) =
      f.instances.map fun i => (i.removable, i.fragments) := by
  have hshapes : (change f).instances.map (Instance.map (·.id)) =
      f.instances.map (Instance.map (·.id)) := congrArg Node.instances (h.shape f)
  have hremovable : (change f).instances.map (·.removable) = f.instances.map (·.removable) := by
    have hmap := congrArg (List.map fun i => i.removable) hshapes
    simpa [Instance.map, Function.comp_def] using hmap
  have hzip := congrArg₂ List.zip hremovable (h.inside f).2
  simpa [List.zip_map'] using hzip

variable {P : Bool → Node → Prop} {t : Bool} {f : Fragment}

/-- An edit keeps what holds by the place, if it does for the fragment itself. -/
theorem Placed.edit (h : Placed P t f) {change : Fragment → Fragment} (hedit : Edit change)
    (hnode : P t (change f).node) : Placed P t (change f) := by
  have hsame : (change f).widget.isTabs = f.widget.isTabs := by
    have hwidget : ((change f).widget.map (·.id)).hideTabs = (f.widget.map (·.id)).hideTabs :=
      congrArg Node.widget (hedit.shape f)
    have htabs := congrArg Widget.isTabs hwidget
    simpa only [Widget.isTabs_hideTabs, Widget.isTabs_map] using htabs
  refine .intro hnode ?_ ?_
  · rw [hsame, (hedit.inside f).1]
    exact h.filled.widget
  · intro i hi
    have hmem : (i.removable, i.fragments) ∈ f.instances.map fun i => (i.removable, i.fragments) :=
      hedit.instances f ▸ List.mem_map_of_mem hi
    obtain ⟨j, hj, hpair⟩ := List.mem_map.mp hmem
    obtain ⟨hremovable, hfragments⟩ := Prod.mk.inj hpair
    rw [← hremovable, ← hfragments]
    exact h.filled.instances j hj

/-- A record may be added to a placed field if its fragments are placed outside tabs. -/
theorem Placed.appendInstance (h : Placed P t f) {i : Instance Fragment}
    (hnode : P t (Form.appendInstance i f).node) (hremovable : i.removable = true)
    (hbody : ∀ g ∈ i.fragments, Placed P false g) : Placed P t (Form.appendInstance i f) := by
  refine .intro hnode h.filled.widget ?_
  refine List.forall_mem_append.mpr ⟨h.filled.instances, List.forall_mem_singleton.mpr ?_⟩
  rw [hremovable, Bool.not_true, Bool.and_false]
  exact hbody

/-- A renumbered record is one of the old ones but for its header. -/
theorem mem_renumber {number : Nat} {instances : List (Instance Fragment)} {i : Instance Fragment}
    (h : i ∈ Form.renumber number instances) :
    ∃ j ∈ instances, j.removable = i.removable ∧ j.fragments = i.fragments := by
  induction instances generalizing number with
  | nil => cases h
  | cons first rest ih =>
      rcases List.mem_cons.mp h with rfl | h
      · exact ⟨first, List.mem_cons_self, rfl, rfl⟩
      · obtain ⟨j, hj, hsame⟩ := ih h
        exact ⟨j, List.mem_cons_of_mem _ hj, hsame⟩

theorem Placed.dropInstance (h : Placed P t f) {id : String}
    (hnode : P t (Form.dropInstance id f).node) : Placed P t (Form.dropInstance id f) := by
  refine .intro hnode h.filled.widget ?_
  intro i hi
  obtain ⟨j, hj, hremovable, hfragments⟩ := mem_renumber hi
  rw [← hremovable, ← hfragments]
  exact h.filled.instances j (List.mem_of_mem_eraseP hj)

end Fragment

/-- Nodes that differ at most in what comes and goes: the value, the records, whether it is open. -/
structure Node.Like (n n' : Node) : Prop where
  fixed : n'.toField.fixed = n.toField.fixed
  widget : n'.widget = n.widget

/-- A property of nodes by their place that holds when they are compiled and is kept afterwards. -/
structure Steady (s : Settings) (P : Bool → Node → Prop) : Prop extends Compiled s P where
  like : ∀ (t : Bool) (n n' : Node), n.Like n' → P t n → P t n'
  activate : ∀ (t : Bool) (n : Node) (id : String), n.widget.ownsTab id = true → P t n →
    P t { n with widget := n.widget.showTab id }

namespace Form
variable {s : Settings} {d : Document} {P : Bool → Node → Prop} {a b : Form}

/-- A property of nodes by their place, for a form. -/
def Placed (P : Bool → Node → Prop) (form : Form) : Prop :=
  ∀ f ∈ form.fragments, f.Placed P false

theorem Placed.updateFirst? (h : a.Placed P) {test : Fragment → Bool}
    {change : Fragment → Fragment} (hid : ∀ f, (change f).id = f.id)
    (hchange : ∀ t f, test f = true → f.Placed P t → (change f).Placed P t)
    (hupdate : a.updateFirst? test change = some b) : b.Placed P := by
  obtain ⟨fragments, hrow, rfl⟩ := Option.map_eq_some_iff.mp hupdate
  exact Fragment.forall_updateRow? h hrow fun f hf f' hf' => (h f hf).update hid hchange hf'

/-- A change that keeps a field placed keeps the form placed. -/
theorem Placed.update (h : a.Placed P) (id : String) {change : Fragment → Fragment}
    (hid : ∀ f, (change f).id = f.id)
    (hchange : ∀ t f, f.id = id → f.Placed P t → (change f).Placed P t) :
    (a.update id change).Placed P := by
  rw [Form.update]
  cases hupdate : a.updateFirst? (·.id == id) change with
  | none => exact h
  | some b => exact h.updateFirst? hid (fun t f htest => hchange t f (by simpa using htest)) hupdate

/-- Opening and closing a field keeps a steady property. -/
theorem Placed.fold (hP : Steady s P) (h : a.Placed P) (id : String)
    {change : Fragment → Fragment} (hfolds : Fragment.Folds change) :
    (a.update id change).Placed P := by
  refine h.update id hfolds.edit.id fun t f _ hf => hf.edit hfolds.edit ?_
  refine hP.like t f.node _ ?_ hf.node
  obtain ⟨collapsed, hchange⟩ := hfolds f
  rw [hchange]
  exact ⟨rfl, rfl⟩

theorem Placed.setValue (hP : Steady s P) (h : a.Placed P) {id : String} {value : Json}
    (hset : a.setValue? id value = some b) : b.Placed P := by
  obtain ⟨_, _, rfl⟩ := setValue?_some hset
  refine h.update id (fun _ => rfl) fun t f _ hf => hf.edit (Fragment.edit_value value) ?_
  exact hP.like t f.node _ ⟨rfl, rfl⟩ hf.node

theorem node_showTab (id : String) (f : Fragment) :
    ({ f with widget := f.widget.showTab id } : Fragment).node =
      { f.node with widget := f.node.widget.showTab id } := by
  obtain ⟨field, widget, instances⟩ := f
  cases widget <;> simp [Fragment.node, Widget.showTab, Widget.map, Tab.map]

theorem ownsTab_node (id : String) (f : Fragment) :
    f.node.widget.ownsTab id = f.widget.ownsTab id := by
  obtain ⟨field, widget, instances⟩ := f
  cases widget <;> simp [Fragment.node, Widget.ownsTab, Widget.map, Tab.map, Function.comp_def]

theorem Placed.activateTab (hP : Steady s P) (h : a.Placed P) {id : String}
    (hactivate : a.activateTab? id = some b) : b.Placed P := by
  have hedit := Fragment.edit_showTab id
  refine h.updateFirst? hedit.id (fun t f htest hf => hf.edit hedit ?_) hactivate
  rw [node_showTab]
  exact hP.activate t f.node id ((ownsTab_node id f).trans htest) hf.node

theorem Placed.addInstance (hP : Steady s P) (h : a.Placed P) {wrapper id : String}
    (hadd : a.addInstance s d wrapper = .ok (some (id, b))) : b.Placed P := by
  obtain ⟨_, _, e, _, _, _, rfl⟩ := addInstance_some hadd
  have hbody := (Entity.compileBody_derives s e { counter := a.counter + 1 } false rfl).2.placed
    hP.toCompiled
  refine h.update wrapper (fun _ => rfl) fun t g _ hg => hg.appendInstance ?_ rfl hbody
  exact hP.like t g.node _ ⟨rfl, rfl⟩ hg.node

theorem Placed.removeInstance (hP : Steady s P) (h : a.Placed P) {wrapper id : String}
    (hremove : a.removeInstance wrapper id = .ok b) : b.Placed P := by
  obtain rfl := removeInstance_some hremove
  refine h.update wrapper (fun _ => rfl) fun t g _ hg => hg.dropInstance ?_
  exact hP.like t g.node _ ⟨rfl, rfl⟩ hg.node

/-- Whatever alters a form keeps it placed. -/
theorem Placed.alters (hP : Steady s P) (h : a.Placed P) (halters : a.Alters s d b) :
    b.Placed P := by
  cases halters with
  | set hset => exact h.setValue hP hset
  | activate hactivate => exact h.activateTab hP hactivate
  | add hadd => exact h.addInstance hP hadd
  | remove hremove => exact h.removeInstance hP hremove

end Form

namespace Session

/-- A steady property holds of every node of every form of a session. -/
theorem placed_run {d : Document} {c : Settings} {P : Bool → Node → Prop} (hP : Steady c P)
    {history : List Event} {form : Form} (h : ((start d c).run history).form = some form) :
    form.Placed P := by
  refine form_invariant ?_ (fun a b halters ha => ha.alters hP halters)
    (fun a id change hfolds ha => ha.fold hP id hfolds) h
  intro focus generation
  exact (Form.compile_derives c d focus generation).placed hP.toCompiled

end Session

end EntryForm
