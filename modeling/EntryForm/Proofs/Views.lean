import EntryForm.Proofs.Nodes
import Mathlib.Data.List.Basic

/-!
# Views of forms

A view shows some things of a form and hides others, but keeps how it is put together. What works on
a form alone, and does the same to what a view shows, can be told from the view.
-/

namespace EntryForm

/-- What a view shows in place of the parts of a form that hold no fragments. Parts that are not
named are shown as they are. -/
structure View where
  field : Field → Field := id
  /-- The names of tabs and instances: ids, and the headers of instances. -/
  name : String → String := id
  title : Label → Label := id
  active : Bool → Bool := id
  message : String → String := id
  text : TextInput → TextInput := id
  number : NumberInput → NumberInput := id
  moment : MomentInput → MomentInput := id
  select : SelectInput → SelectInput := id

namespace Fragment

mutual
/-- The view of a fragment and of all that is inside it. -/
def view (v : View) : Fragment → Fragment
  | ⟨field, widget, instances⟩ =>
    ⟨v.field field, viewWidget v widget, viewInstances v instances⟩
def viewWidget (v : View) : Widget Fragment → Widget Fragment
  | .placeholder message => .placeholder (v.message message)
  | .diagnostic message => .diagnostic (v.message message)
  | .group children => .group (viewRow v children)
  | .tabs tabs => .tabs (viewTabs v tabs)
  | .text input => .text (v.text input)
  | .number input => .number (v.number input)
  | .moment input => .moment (v.moment input)
  | .boolean checked => .boolean checked
  | .select input => .select (v.select input)
def viewRow (v : View) : List Fragment → List Fragment
  | [] => []
  | f :: rest => view v f :: viewRow v rest
def viewTabs (v : View) : List (Tab Fragment) → List (Tab Fragment)
  | [] => []
  | ⟨id, entityId, label, active, fragments⟩ :: rest =>
    ⟨v.name id, v.name entityId, v.title label, v.active active, viewRow v fragments⟩ ::
      viewTabs v rest
def viewInstances (v : View) : List (Instance Fragment) → List (Instance Fragment)
  | [] => []
  | ⟨id, header, removable, fragments⟩ :: rest =>
    ⟨v.name id, v.name header, removable, viewRow v fragments⟩ :: viewInstances v rest
end

end Fragment

/-- The view of a tab. -/
def Tab.view (v : View) (tab : Tab Fragment) : Tab Fragment :=
  ⟨v.name tab.id, v.name tab.entityId, v.title tab.label, v.active tab.active,
    Fragment.viewRow v tab.fragments⟩

/-- The view of a record. -/
def Instance.view (v : View) (i : Instance Fragment) : Instance Fragment :=
  ⟨v.name i.id, v.name i.header, i.removable, Fragment.viewRow v i.fragments⟩

namespace Fragment
variable {v : View}

theorem viewRow_eq (fragments : List Fragment) : viewRow v fragments = fragments.map (view v) := by
  induction fragments with
  | nil => rfl
  | cons f rest ih => rw [viewRow, ih, List.map_cons]

theorem viewTabs_eq (tabs : List (Tab Fragment)) : viewTabs v tabs = tabs.map (Tab.view v) := by
  induction tabs with
  | nil => rfl
  | cons tab rest ih => rw [viewTabs, ih, List.map_cons, Tab.view]

theorem viewInstances_eq (instances : List (Instance Fragment)) :
    viewInstances v instances = instances.map (Instance.view v) := by
  induction instances with
  | nil => rfl
  | cons i rest ih => rw [viewInstances, ih, List.map_cons, Instance.view]

theorem viewRow_append (xs ys : List Fragment) :
    viewRow v (xs ++ ys) = viewRow v xs ++ viewRow v ys := by
  rw [viewRow_eq, viewRow_eq, viewRow_eq, List.map_append]

/-- A view shows whether a widget holds a value, and which kind it is of. -/
theorem viewWidget_isInput (w : Widget Fragment) : (viewWidget v w).isInput = w.isInput := by
  cases w <;> rfl

theorem viewWidget_isSelect (w : Widget Fragment) : (viewWidget v w).isSelect = w.isSelect := by
  cases w <;> rfl

theorem viewWidget_isGroup (w : Widget Fragment) : (viewWidget v w).isGroup = w.isGroup := by
  cases w <;> rfl

theorem view_children (f : Fragment) : (f.view v).children = viewRow v f.children := by
  have htabs (tabs : List (Tab Fragment)) :
      (viewTabs v tabs).flatMap Tab.fragments = viewRow v (tabs.flatMap Tab.fragments) := by
    simp only [viewTabs_eq, viewRow_eq, List.flatMap_map, List.map_flatMap, Tab.view]
  have hinstances (instances : List (Instance Fragment)) :
      (viewInstances v instances).flatMap Instance.fragments =
        viewRow v (instances.flatMap Instance.fragments) := by
    simp only [viewInstances_eq, viewRow_eq, List.flatMap_map, List.map_flatMap, Instance.view]
  obtain ⟨field, widget, instances⟩ := f
  rw [view, children, children, viewRow_append, hinstances]
  cases widget with
  | tabs tabs => rw [viewWidget, Widget.children, htabs, Widget.children]
  | _ => rfl

/-- A view shows each fragment in its place. -/
theorem all_view (f : Fragment) : (f.view v).all = f.all.map (view v) := by
  induction f using children_induction with
  | step f ih =>
      rw [all_eq, all_eq, view_children, viewRow_eq, List.map_cons, allOf_eq_flatMap,
        allOf_eq_flatMap, List.flatMap_map, List.map_flatMap, List.flatMap_congr ih]

/-- All fragments in a viewed row are viewed. -/
theorem allOf_view (fragments : List Fragment) :
    allOf (viewRow v fragments) = (allOf fragments).map (view v) := by
  rw [viewRow_eq, allOf_eq_flatMap, allOf_eq_flatMap, List.flatMap_map, List.map_flatMap]
  exact List.flatMap_congr fun f _ => all_view f

/-- What is shown of a fragment is the same if what is shown of the pick-lists in it is. -/
theorem view_select {select : SelectInput → SelectInput} {f : Fragment}
    (h : ∀ g ∈ f.all, ∀ w, g.widget = .select w → select w = v.select w) :
    f.view { v with select } = f.view v := by
  induction f using children_induction with
  | step f ih =>
      rw [all_eq, List.forall_mem_cons] at h
      obtain ⟨hself, hinside⟩ := h
      have hrow {row : List Fragment} (hsub : ∀ g ∈ row, g ∈ f.children) :
          viewRow { v with select } row = viewRow v row := by
        rw [viewRow_eq, viewRow_eq]
        refine List.map_congr_left fun g hg => ih g (hsub g hg) fun x hx => hinside x ?_
        rw [allOf_eq_flatMap]
        exact List.mem_flatMap.mpr ⟨g, hsub g hg, hx⟩
      obtain ⟨field, widget, instances⟩ := f
      have hwidget : viewWidget { v with select } widget = viewWidget v widget := by
        cases widget with
        | select w => exact congrArg Widget.select (hself w rfl)
        | group children => exact congrArg Widget.group (hrow fun g hg => List.mem_append_left _ hg)
        | tabs tabs =>
            rw [viewWidget, viewWidget, viewTabs_eq, viewTabs_eq]
            refine congrArg Widget.tabs (List.map_congr_left fun tab htab => ?_)
            rw [Tab.view, Tab.view, hrow]
            intro g hg
            exact List.mem_append_left _ (List.mem_flatMap.mpr ⟨tab, htab, hg⟩)
        | _ => rfl
      have hinstances : viewInstances { v with select } instances = viewInstances v instances := by
        rw [viewInstances_eq, viewInstances_eq]
        refine List.map_congr_left fun i hi => ?_
        rw [Instance.view, Instance.view, hrow]
        intro g hg
        exact List.mem_append_right _ (List.mem_flatMap.mpr ⟨i, hi, hg⟩)
      rw [view, view, hwidget, hinstances]

section update
variable {test test' : Fragment → Bool} {change change' : Fragment → Fragment}

mutual
/-- Changing the first fragment that passes a test can be told from a view that shows which one
passes it and what the change makes of it. -/
theorem updateFirst?_view (htest : ∀ f, test' (view v f) = test f)
    (hchange : ∀ f, change' (view v f) = view v (change f)) : ∀ f : Fragment,
    updateFirst? test' change' (view v f) = (updateFirst? test change f).map (view v)
  | ⟨field, widget, instances⟩ => by
      have hpasses := htest ⟨field, widget, instances⟩
      have hchanged := hchange ⟨field, widget, instances⟩
      rw [view] at hpasses hchanged
      rw [view, updateFirst?, updateFirst?, hpasses, hchanged,
        updateWidget?_view htest hchange widget, updateInstances?_view htest hchange instances]
      split
      · rfl
      · cases updateWidget? test change widget with
        | some w => rfl
        | none => cases updateInstances? test change instances <;> rfl
theorem updateWidget?_view (htest : ∀ f, test' (view v f) = test f)
    (hchange : ∀ f, change' (view v f) = view v (change f)) : ∀ w : Widget Fragment,
    updateWidget? test' change' (viewWidget v w) = (updateWidget? test change w).map (viewWidget v)
  | .group children => by
      rw [viewWidget, updateWidget?, updateWidget?, updateRow?_view htest hchange children]
      cases updateRow? test change children <;> rfl
  | .tabs tabs => by
      rw [viewWidget, updateWidget?, updateWidget?, updateTabs?_view htest hchange tabs]
      cases updateTabs? test change tabs <;> rfl
  | .placeholder _ => rfl
  | .diagnostic _ => rfl
  | .text _ => rfl
  | .number _ => rfl
  | .moment _ => rfl
  | .boolean _ => rfl
  | .select _ => rfl
/-- A change that goes with a view can be made in a viewed row. -/
theorem updateRow?_view (htest : ∀ f, test' (view v f) = test f)
    (hchange : ∀ f, change' (view v f) = view v (change f)) : ∀ fragments : List Fragment,
    updateRow? test' change' (viewRow v fragments) =
      (updateRow? test change fragments).map (viewRow v)
  | [] => rfl
  | f :: rest => by
      rw [viewRow, updateRow?, updateRow?, updateFirst?_view htest hchange f,
        updateRow?_view htest hchange rest]
      cases updateFirst? test change f with
      | some g => rfl
      | none => cases updateRow? test change rest <;> rfl
theorem updateTabs?_view (htest : ∀ f, test' (view v f) = test f)
    (hchange : ∀ f, change' (view v f) = view v (change f)) : ∀ tabs : List (Tab Fragment),
    updateTabs? test' change' (viewTabs v tabs) = (updateTabs? test change tabs).map (viewTabs v)
  | [] => rfl
  | ⟨_, _, _, _, fragments⟩ :: rest => by
      rw [viewTabs, updateTabs?, updateTabs?, updateRow?_view htest hchange fragments,
        updateTabs?_view htest hchange rest]
      cases updateRow? test change fragments with
      | some changed => rfl
      | none => cases updateTabs? test change rest <;> rfl
theorem updateInstances?_view (htest : ∀ f, test' (view v f) = test f)
    (hchange : ∀ f, change' (view v f) = view v (change f)) :
    ∀ instances : List (Instance Fragment),
    updateInstances? test' change' (viewInstances v instances) =
      (updateInstances? test change instances).map (viewInstances v)
  | [] => rfl
  | ⟨_, _, _, fragments⟩ :: rest => by
      rw [viewInstances, updateInstances?, updateInstances?,
        updateRow?_view htest hchange fragments, updateInstances?_view htest hchange rest]
      cases updateRow? test change fragments with
      | some changed => rfl
      | none => cases updateInstances? test change rest <;> rfl
end

end update

/-- Changing a fragment into itself changes nothing. -/
theorem updateRow?_same {test : Fragment → Bool} {fragments after : List Fragment}
    (h : updateRow? test (fun f => f) fragments = some after) : after = fragments := by
  obtain ⟨g, _, left, right, hbefore, hafter⟩ := updateRow?_eq_some (fun _ => rfl) h
  exact nodesOf_injective (hafter.trans hbefore.symm)

end Fragment

/-- What a view shows of what there is to show. -/
def FormState.view (v : View) : FormState → FormState
  | .noFieldSpecification => .noFieldSpecification
  | .fields fragments => .fields (Fragment.viewRow v fragments)

theorem FormState.view_ofFragments (v : View) (row : List Fragment) :
    (ofFragments row).view v = ofFragments (Fragment.viewRow v row) := by
  cases row <;> rfl

namespace Form
variable {v : View}

/-- What a view shows of a form. -/
def view (v : View) (form : Form) : Form := { form with state := form.state.view v }

theorem fragments_view (form : Form) :
    (form.view v).fragments = Fragment.viewRow v form.fragments := by
  rw [fragments, fragments, view]
  cases form.state <;> rfl

/-- Views that agree on the pick-lists of a form give the same form. -/
theorem state_view_select {select : SelectInput → SelectInput} {form : Form}
    (h : ∀ g ∈ form.all, ∀ w, g.widget = .select w → select w = v.select w) :
    form.state.view { v with select } = form.state.view v := by
  rw [all, fragments] at h
  cases hstate : form.state with
  | noFieldSpecification => rfl
  | fields row =>
      rw [hstate] at h
      rw [FormState.view, FormState.view, Fragment.viewRow_eq, Fragment.viewRow_eq]
      refine congrArg FormState.fields (List.map_congr_left fun f hf => ?_)
      refine Fragment.view_select fun g hg => h g ?_
      rw [FormState.fragments, Fragment.allOf_eq_flatMap]
      exact List.mem_flatMap.mpr ⟨f, hf, hg⟩

/-- A view that shows the ids finds what is there. -/
theorem find?_view (hid : ∀ field, (v.field field).id = field.id) (id : String) (form : Form) :
    (form.view v).find? id = (form.find? id).map (Fragment.view v) := by
  have htest : ((fun f : Fragment => f.id == id) ∘ Fragment.view v) = fun f => f.id == id := by
    funext f
    obtain ⟨field, widget, instances⟩ := f
    rw [Function.comp_apply, Fragment.view, hid]
  rw [find?, all, fragments_view, Fragment.allOf_view, List.find?_map, htest]
  rfl

/-- A change that goes with a view can be made in a viewed form. -/
theorem updateFirst?_view {test test' : Fragment → Bool} {change change' : Fragment → Fragment}
    (htest : ∀ f, test' (f.view v) = test f) (hchange : ∀ f, change' (f.view v) = (change f).view v)
    (form : Form) :
    (form.view v).updateFirst? test' change' = (form.updateFirst? test change).map (view v) := by
  rw [updateFirst?, updateFirst?, fragments_view, Fragment.updateRow?_view htest hchange]
  cases Fragment.updateRow? test change form.fragments <;> rfl

end Form

end EntryForm
