import EntryForm.Form
import EntryForm.Proofs.Induction

/-!
# The nodes of a form

A node is a fragment without the fragments inside it, which are named by their ids. A form is
looked at through the row of its nodes, in the order of `Fragment.all`, from which it could be put
together again. Changing a fragment replaces one stretch of that row and leaves everything around it
as it is.
-/

namespace EntryForm

namespace Tab
variable {α β : Type}

/-- The tab with something else in place of each fragment. -/
def map (f : α → β) (t : Tab α) : Tab β :=
  { t with fragments := t.fragments.map f }

end Tab

namespace Instance
variable {α β : Type}

/-- The record with something else in place of each fragment. -/
def map (f : α → β) (i : Instance α) : Instance β :=
  { i with fragments := i.fragments.map f }

end Instance

namespace Widget
variable {α β : Type}

/-- The widget with something else in place of each fragment. -/
def map (f : α → β) : Widget α → Widget β
  | .placeholder message => .placeholder message
  | .diagnostic message => .diagnostic message
  | .group children => .group (children.map f)
  | .tabs row => .tabs (row.map (Tab.map f))
  | .text input => .text input
  | .number input => .number input
  | .moment input => .moment input
  | .boolean checked => .boolean checked
  | .select input => .select input

/-- Shows no tab. -/
def hideTabs : Widget α → Widget α
  | .tabs row => .tabs (row.map fun tab => { tab with active := false })
  | w => w

end Widget

/-- A fragment without the fragments inside it, which are named by their ids. -/
structure Node extends Field where
  widget : Widget String
  instances : List (Instance String)

namespace Node

/-- What stays of a node when its field is filled in, opened or closed, or another of its tabs is
shown. -/
def shape (n : Node) : Node :=
  { n with value := none, collapsed := false, widget := n.widget.hideTabs }

end Node

namespace Fragment

/-- The fragment itself, with only the ids of what is right inside it. -/
def node (f : Fragment) : Node :=
  ⟨f.toField, f.widget.map (·.id), f.instances.map (Instance.map (·.id))⟩

theorem allOf_eq_flatMap (fragments : List Fragment) :
    allOf fragments = fragments.flatMap all := by
  induction fragments with
  | nil => rfl
  | cons f rest ih => simp [allOf, ih]

theorem allOf_append (xs ys : List Fragment) : allOf (xs ++ ys) = allOf xs ++ allOf ys := by
  simp [allOf_eq_flatMap]

theorem allOfTabs_eq (row : List (Tab Fragment)) :
    allOfTabs row = allOf (row.flatMap Tab.fragments) := by
  induction row with
  | nil => rfl
  | cons tab rest ih => simp [allOfTabs, allOf_append, ih]

theorem allOfInstances_eq (instances : List (Instance Fragment)) :
    allOfInstances instances = allOf (instances.flatMap Instance.fragments) := by
  induction instances with
  | nil => rfl
  | cons i rest ih => simp [allOfInstances, allOf_append, ih]

theorem allOfWidget_eq (widget : Widget Fragment) :
    allOfWidget widget = allOf widget.children := by
  cases widget with
  | tabs row => exact allOfTabs_eq row
  | _ => rfl

/-- A fragment comes first, then everything inside its children. -/
theorem all_eq (f : Fragment) : f.all = f :: allOf f.children := by
  obtain ⟨field, widget, instances⟩ := f
  rw [all, allOfWidget_eq, allOfInstances_eq, children, allOf_append]

theorem mem_allOf {f : Fragment} {fragments : List Fragment} :
    f ∈ allOf fragments ↔ ∃ g ∈ fragments, f ∈ allOf [g] := by
  rw [allOf_eq_flatMap, List.mem_flatMap]
  simp [allOf]

/-- A fragment in another one is that one or inside it. -/
theorem mem_allOf_singleton {f g : Fragment} : f ∈ allOf [g] ↔ f = g ∨ f ∈ allOf g.children := by
  rw [allOf, allOf, all_eq, List.append_nil, List.mem_cons]

/-- What is inside a fragment is inside its widget or inside one of its instances. -/
theorem mem_allOf_children {f g : Fragment} :
    f ∈ allOf g.children ↔
      f ∈ allOf g.widget.children ∨ ∃ i ∈ g.instances, f ∈ allOf i.fragments := by
  rw [children, allOf_append, List.mem_append, allOf_eq_flatMap (g.instances.flatMap _),
    List.flatMap_assoc, List.mem_flatMap]
  simp only [allOf_eq_flatMap]

/-- What is inside a fragment that is inside a row is inside the row. -/
theorem mem_allOf_trans {f g : Fragment} {fragments : List Fragment} (hf : f ∈ allOf [g])
    (hg : g ∈ allOf fragments) : f ∈ allOf fragments := by
  obtain ⟨x, hx, hgx⟩ := mem_allOf.mp hg
  refine mem_allOf.mpr ⟨x, hx, ?_⟩
  clear hx
  induction x using children_induction with
  | step x ih =>
      rcases mem_allOf_singleton.mp hgx with rfl | hgx
      · exact hf
      · obtain ⟨y, hy, hgy⟩ := mem_allOf.mp hgx
        exact mem_allOf_singleton.mpr (Or.inr (mem_allOf.mpr ⟨y, hy, ih y hy hgy⟩))

/-- The nodes of a row of fragments. -/
def nodesOf (fragments : List Fragment) : List Node := (allOf fragments).map node

@[simp] theorem nodesOf_nil : nodesOf [] = [] := rfl

theorem nodesOf_append (xs ys : List Fragment) : nodesOf (xs ++ ys) = nodesOf xs ++ nodesOf ys := by
  simp [nodesOf, allOf_append]

theorem nodesOf_singleton (f : Fragment) : nodesOf [f] = f.node :: nodesOf f.children := by
  simp [nodesOf, allOf, all_eq]

theorem nodesOf_cons (f : Fragment) (rest : List Fragment) :
    nodesOf (f :: rest) = nodesOf [f] ++ nodesOf rest :=
  nodesOf_append [f] rest

theorem nodesOf_subset {xs ys : List Fragment} (h : xs ⊆ ys) : nodesOf xs ⊆ nodesOf ys := by
  intro n hn
  rw [nodesOf, allOf_eq_flatMap] at hn ⊢
  obtain ⟨f, hf, rfl⟩ := List.mem_map.mp hn
  obtain ⟨x, hx, hfx⟩ := List.mem_flatMap.mp hf
  exact List.mem_map_of_mem (List.mem_flatMap.mpr ⟨x, h hx, hfx⟩)

/-- Replacing the fragment `g` by `g'` somewhere inside turns `before` into `after`. -/
def Replaces (g g' : Fragment) (before after : List Node) : Prop :=
  ∃ left right, before = left ++ nodesOf [g] ++ right ∧ after = left ++ nodesOf [g'] ++ right

theorem Replaces.append_left {g g' : Fragment} {before after : List Node}
    (h : Replaces g g' before after) (more : List Node) :
    Replaces g g' (more ++ before) (more ++ after) := by
  obtain ⟨left, right, rfl, rfl⟩ := h
  exact ⟨more ++ left, right, by simp, by simp⟩

theorem Replaces.append_right {g g' : Fragment} {before after : List Node}
    (h : Replaces g g' before after) (more : List Node) :
    Replaces g g' (before ++ more) (after ++ more) := by
  obtain ⟨left, right, rfl, rfl⟩ := h
  exact ⟨left, right ++ more, by simp, by simp⟩

theorem Replaces.cons {g g' : Fragment} {before after : List Node}
    (h : Replaces g g' before after) (n : Node) : Replaces g g' (n :: before) (n :: after) :=
  h.append_left [n]

theorem replaces_refl (g g' : Fragment) : Replaces g g' (nodesOf [g]) (nodesOf [g']) :=
  ⟨[], [], by simp, by simp⟩

/-- What is there afterwards was there before, or belongs to the new fragment. -/
theorem Replaces.mem {g g' : Fragment} {before after : List Node} (h : Replaces g g' before after)
    {n : Node} (hn : n ∈ after) : n ∈ before ∨ n ∈ nodesOf [g'] := by
  obtain ⟨left, right, rfl, rfl⟩ := h
  simp only [List.mem_append] at hn ⊢
  rcases hn with (hn | hn) | hn
  · exact Or.inl (Or.inl (Or.inl hn))
  · exact Or.inr hn
  · exact Or.inl (Or.inr hn)

theorem Replaces.mem_old {g g' : Fragment} {before after : List Node}
    (h : Replaces g g' before after) {n : Node} (hn : n ∈ nodesOf [g]) : n ∈ before := by
  obtain ⟨left, right, rfl, rfl⟩ := h
  exact List.mem_append_left _ (List.mem_append_right _ hn)

section update
variable {test : Fragment → Bool} {change : Fragment → Fragment}

/-- How a part of a form is looked at: the fragments inside, and what else there is to it. -/
structure Part (κ σ : Type) where
  inside : κ → List Fragment
  shape : κ → σ

/-- What `updateFirst?` does to a part of a form: nothing if no fragment inside passes the test,
else it changes the first that does. The shape of the part stays. -/
structure Updates {κ σ : Type} (part : Part κ σ) (test : Fragment → Bool)
    (change : Fragment → Fragment) (before : κ) (after : Option κ) : Prop where
  refused : after = none → (allOf (part.inside before)).find? test = none
  done : ∀ changed, after = some changed →
    part.shape changed = part.shape before ∧
      ∃ g, (allOf (part.inside before)).find? test = some g ∧
        Replaces g (change g) (nodesOf (part.inside before)) (nodesOf (part.inside changed))

/-- A part made of two parts is changed in the first one that can be. -/
theorem Updates.orElse {κ₁ κ₂ κ σ₁ σ₂ σ : Type} {part₁ : Part κ₁ σ₁} {part₂ : Part κ₂ σ₂}
    (part : Part κ σ) (combine : κ₁ → κ₂ → κ) {first : κ₁} {second : κ₂} {after₁ : Option κ₁}
    {after₂ : Option κ₂} (h₁ : Updates part₁ test change first after₁)
    (h₂ : Updates part₂ test change second after₂)
    (hinside : ∀ x y, part.inside (combine x y) = part₁.inside x ++ part₂.inside y)
    (hshape : ∀ x y x' y', part₁.shape x = part₁.shape x' → part₂.shape y = part₂.shape y' →
      part.shape (combine x y) = part.shape (combine x' y')) :
    Updates part test change (combine first second)
      ((after₁.map (combine · second)).or (after₂.map (combine first))) := by
  cases after₁ with
  | some x =>
      obtain ⟨hsame, g, hfind, hreplaces⟩ := h₁.done x rfl
      refine ⟨nofun, ?_⟩
      rintro changed ⟨⟩
      refine ⟨hshape _ _ _ _ hsame rfl, g, ?_, ?_⟩
      · rw [hinside, allOf_append, List.find?_append, hfind, Option.some_or]
      · rw [hinside, hinside, nodesOf_append, nodesOf_append]
        exact hreplaces.append_right _
  | none =>
      have hnone := h₁.refused rfl
      constructor
      · intro h
        rw [hinside, allOf_append, List.find?_append, hnone, Option.none_or]
        exact h₂.refused (Option.map_eq_none_iff.mp h)
      · intro changed h
        obtain ⟨y, hy, rfl⟩ := Option.map_eq_some_iff.mp h
        obtain ⟨hsame, g, hfind, hreplaces⟩ := h₂.done y hy
        refine ⟨hshape _ _ _ _ rfl hsame, g, ?_, ?_⟩
        · rw [hinside, allOf_append, List.find?_append, hnone, Option.none_or, hfind]
        · rw [hinside, hinside, nodesOf_append, nodesOf_append]
          exact hreplaces.append_left _

/-- A part with nothing inside is left as it is. -/
theorem updates_none {κ σ : Type} {part : Part κ σ} {before : κ} (h : part.inside before = []) :
    Updates part test change before none :=
  ⟨fun _ => by rw [h]; rfl, nofun⟩

/-- A part that is told by another one is changed as that one is. -/
theorem Updates.wrap {κ κ' σ σ' : Type} {part : Part κ σ} {before : κ} {after : Option κ}
    (h : Updates part test change before after) (part' : Part κ' σ') (make : κ → κ')
    (hinside : ∀ x, part'.inside (make x) = part.inside x)
    (hshape : ∀ x y, part.shape x = part.shape y → part'.shape (make x) = part'.shape (make y)) :
    Updates part' test change (make before) (after.map make) := by
  constructor
  · intro hnone
    rw [hinside]
    exact h.refused (Option.map_eq_none_iff.mp hnone)
  · intro changed hsome
    obtain ⟨x, hx, rfl⟩ := Option.map_eq_some_iff.mp hsome
    obtain ⟨hsame, g, hfind, hreplaces⟩ := h.done x hx
    rw [hinside, hinside]
    exact ⟨hshape _ _ hsame, g, hfind, hreplaces⟩

/-- One fragment, told by its id. -/
def single : Part Fragment String := ⟨fun f => [f], (·.id)⟩

/-- A row of fragments, told by their ids. -/
def row : Part (List Fragment) (List String) := ⟨id, List.map (·.id)⟩

/-- A row of tabs, told by what they are and the ids in them. -/
def tabs : Part (List (Tab Fragment)) (List (Tab String)) :=
  ⟨List.flatMap Tab.fragments, List.map (Tab.map (·.id))⟩

/-- A row of records, told by what they are and the ids in them. -/
def repeated : Part (List (Instance Fragment)) (List (Instance String)) :=
  ⟨List.flatMap Instance.fragments, List.map (Instance.map (·.id))⟩

/-- A widget, told by what it is and the ids in it. -/
def shown : Part (Widget Fragment) (Widget String) := ⟨Widget.children, Widget.map (·.id)⟩

/-- What is inside a fragment, seen from it. -/
def contents : Part Fragment Node := ⟨children, node⟩

/-- Changing in a row changes one of its fragments, if changing in each does so. -/
theorem updates_row {fragments : List Fragment}
    (h : ∀ f ∈ fragments, Updates single test change f (updateFirst? test change f)) :
    Updates row test change fragments (updateRow? test change fragments) := by
  induction fragments with
  | nil => exact updates_none rfl
  | cons f rest ih =>
      have hfirst := h f List.mem_cons_self
      have hrest := ih fun g hg => h g (List.mem_cons_of_mem _ hg)
      have hboth := hfirst.orElse row List.cons hrest (fun _ _ => rfl)
        (by simp +contextual [row, single])
      rw [updateRow?]
      cases hf : updateFirst? test change f <;> simpa [hf] using hboth

theorem updates_tabs {panels : List (Tab Fragment)}
    (h : ∀ f ∈ panels.flatMap Tab.fragments,
      Updates single test change f (updateFirst? test change f)) :
    Updates tabs test change panels (updateTabs? test change panels) := by
  induction panels with
  | nil => exact updates_none rfl
  | cons tab rest ih =>
      rw [List.flatMap_cons] at h
      have hfirst := updates_row fun f hf => h f (List.mem_append_left _ hf)
      have hrest := ih fun f hf => h f (List.mem_append_right _ hf)
      have hboth := hfirst.orElse tabs (fun fragments rest => { tab with fragments } :: rest)
        hrest (fun _ _ => rfl) (by simp +contextual [row, tabs, Tab.map])
      rw [updateTabs?]
      cases hf : updateRow? test change tab.fragments <;> simpa [hf] using hboth

theorem updates_instances {instances : List (Instance Fragment)}
    (h : ∀ f ∈ instances.flatMap Instance.fragments,
      Updates single test change f (updateFirst? test change f)) :
    Updates repeated test change instances (updateInstances? test change instances) := by
  induction instances with
  | nil => exact updates_none rfl
  | cons i rest ih =>
      rw [List.flatMap_cons] at h
      have hfirst := updates_row fun f hf => h f (List.mem_append_left _ hf)
      have hrest := ih fun f hf => h f (List.mem_append_right _ hf)
      have hboth := hfirst.orElse repeated (fun fragments rest => { i with fragments } :: rest)
        hrest (fun _ _ => rfl) (by simp +contextual [row, repeated, Instance.map])
      rw [updateInstances?]
      cases hf : updateRow? test change i.fragments <;> simpa [hf] using hboth

/-- Changing in a widget changes one of its fragments. -/
theorem updates_widget {widget : Widget Fragment}
    (h : ∀ f ∈ widget.children, Updates single test change f (updateFirst? test change f)) :
    Updates shown test change widget (updateWidget? test change widget) := by
  cases widget with
  | group fragments =>
      exact (updates_row h).wrap shown .group (fun _ => rfl)
        (by simp +contextual [row, shown, Widget.map])
  | tabs panels =>
      exact (updates_tabs h).wrap shown .tabs (fun _ => rfl)
        (by simp +contextual [tabs, shown, Widget.map])
  | _ => exact updates_none rfl

theorem updateFirst?_self {f : Fragment} (h : test f = true) :
    updateFirst? test change f = some (change f) := by
  obtain ⟨field, widget, instances⟩ := f
  rw [updateFirst?, if_pos h]

/-- Otherwise the change is in its widget, or else in its records. -/
theorem updateFirst?_below {f : Fragment} (h : test f = false) :
    updateFirst? test change f =
      ((updateWidget? test change f.widget).map (⟨f.toField, ·, f.instances⟩)).or
        ((updateInstances? test change f.instances).map (⟨f.toField, f.widget, ·⟩)) := by
  obtain ⟨field, widget, instances⟩ := f
  rw [updateFirst?, h, if_neg Bool.false_ne_true]
  cases updateWidget? test change widget <;> simp

/-- Changing the first fragment that passes a test replaces its nodes. The change must keep the
id, by which the fragment around it names it. -/
theorem updates_first (hid : ∀ f, (change f).id = f.id) (f : Fragment) :
    Updates single test change f (updateFirst? test change f) := by
  induction f using children_induction with
  | step f ih =>
      cases htest : test f with
      | true =>
          rw [updateFirst?_self htest]
          refine ⟨fun h => absurd h (Option.some_ne_none _), ?_⟩
          rintro changed ⟨⟩
          refine ⟨hid f, f, ?_, replaces_refl f (change f)⟩
          simp [single, allOf, all_eq, htest]
      | false =>
          have hwidget := updates_widget fun g hg => ih g (List.mem_append_left _ hg)
          have hinstances := updates_instances fun g hg => ih g (List.mem_append_right _ hg)
          have hcontents := hwidget.orElse contents
            (fun widget instances => ⟨f.toField, widget, instances⟩) hinstances (fun _ _ => rfl)
            (by simp +contextual [shown, repeated, contents, node])
          have hfind : (allOf [f]).find? test = (allOf f.children).find? test := by
            simp [allOf, all_eq, htest]
          rw [updateFirst?_below htest]
          constructor
          · intro h
            exact hfind.trans (hcontents.refused h)
          · intro changed h
            obtain ⟨hnode, g, hg, hreplaces⟩ := hcontents.done changed h
            have hsame : changed.node = f.node := hnode
            refine ⟨congrArg (·.id) hnode, g, hfind.trans hg, ?_⟩
            simp only [single, nodesOf_singleton, hsame]
            exact hreplaces.cons f.node

end update

/-- What changing the first fragment that passes a test does to the nodes of a row. -/
theorem updateRow?_eq_some {test : Fragment → Bool} {change : Fragment → Fragment}
    (hid : ∀ f, (change f).id = f.id) {fragments changed : List Fragment}
    (h : updateRow? test change fragments = some changed) :
    ∃ g, (allOf fragments).find? test = some g ∧
      Replaces g (change g) (nodesOf fragments) (nodesOf changed) :=
  ((updates_row fun f _ => updates_first hid f).done changed h).2

/-- Nothing is changed exactly if no fragment passes the test. -/
theorem updateRow?_eq_none_iff {test : Fragment → Bool} {change : Fragment → Fragment}
    (hid : ∀ f, (change f).id = f.id) (fragments : List Fragment) :
    updateRow? test change fragments = none ↔ (allOf fragments).find? test = none := by
  have hupdates : Updates row test change fragments (updateRow? test change fragments) :=
    updates_row fun f _ => updates_first hid f
  constructor
  · exact hupdates.refused
  · intro hnone
    cases hchanged : updateRow? test change fragments with
    | none => rfl
    | some changed =>
        obtain ⟨_, g, hg, _⟩ := hupdates.done changed hchanged
        exact absurd (hnone.symm.trans hg) nofun

end Fragment

/-- Records in a row are told by what is right inside them, if each is told by its own and by how
much that is. -/
theorem eq_of_flatMap_eq {ρ σ φ : Type} {inside : ρ → List φ} {outside : ρ → σ}
    (hlength : ∀ x y, outside x = outside y → (inside x).length = (inside y).length)
    (heq : ∀ x y, outside x = outside y → inside x = inside y → x = y) {xs ys : List ρ}
    (houtside : xs.map outside = ys.map outside)
    (hinside : xs.flatMap inside = ys.flatMap inside) : xs = ys := by
  induction xs generalizing ys with
  | nil => exact (List.map_eq_nil_iff.mp houtside.symm).symm
  | cons x xs ih =>
      cases ys with
      | nil => cases houtside
      | cons y ys =>
          obtain ⟨hfirst, hrest⟩ := List.cons.inj houtside
          obtain ⟨hsame, hmore⟩ := List.append_inj hinside (hlength x y hfirst)
          rw [heq x y hfirst hsame, ih hrest hmore]

namespace Widget
variable {α β : Type}

theorem children_map (f : α → β) (w : Widget α) : (w.map f).children = w.children.map f := by
  cases w with
  | tabs row => simp [map, children, Tab.map, List.map_flatMap, List.flatMap_map]
  | _ => rfl

/-- Widgets that are alike and have the same children are the same. -/
theorem eq_of_children {f : α → β} {w w' : Widget α} (hmap : w.map f = w'.map f)
    (hchildren : w.children = w'.children) : w = w' := by
  cases w <;> cases w' <;> simp only [map, reduceCtorEq] at hmap
  case tabs.tabs row row' =>
    have htabs : row.map (Tab.map f) = row'.map (Tab.map f) := Widget.tabs.inj hmap
    have hrow : row = row' := by
      apply eq_of_flatMap_eq _ _ htabs hchildren
      · intro t t' h
        simpa [Tab.map] using congrArg (fun t => t.fragments.length) h
      · intro t t' h hfragments
        obtain ⟨_, _, _, _, _⟩ := t
        obtain ⟨_, _, _, _, _⟩ := t'
        simp only [Tab.map, Tab.mk.injEq] at h hfragments ⊢
        exact ⟨h.1, h.2.1, h.2.2.1, h.2.2.2.1, hfragments⟩
    rw [hrow]
  case group.group => exact congrArg group hchildren
  all_goals cases hmap; rfl

end Widget

/-- Rows of records that are alike and have the same fragments are the same. -/
theorem Instance.eq_of_fragments {α β : Type} {f : α → β} {is js : List (Instance α)}
    (hmap : is.map (Instance.map f) = js.map (Instance.map f))
    (hfragments : is.flatMap Instance.fragments = js.flatMap Instance.fragments) : is = js := by
  apply eq_of_flatMap_eq _ _ hmap hfragments
  · intro i j h
    simpa [Instance.map] using congrArg (fun i => i.fragments.length) h
  · intro i j h hsame
    obtain ⟨_, _, _, _⟩ := i
    obtain ⟨_, _, _, _⟩ := j
    simp only [Instance.map, Instance.mk.injEq] at h hsame ⊢
    exact ⟨h.1, h.2.1, h.2.2.1, hsame⟩

namespace Fragment

/-- A node names what is right inside its fragment. -/
theorem children_ids (f : Fragment) :
    f.children.map (·.id) =
      f.node.widget.children ++ f.node.instances.flatMap Instance.fragments := by
  simp [children, node, Widget.children_map, Instance.map, List.map_flatMap, List.flatMap_map]

/-- A fragment is told by its node and what is right inside it. -/
theorem eq_of_node {f g : Fragment} (h : f.node = g.node) (hchildren : f.children = g.children) :
    f = g := by
  have hlength : f.widget.children.length = g.widget.children.length := by
    have hwidget := congrArg (fun n => n.widget.children.length) h
    simpa [node, Widget.children_map] using hwidget
  obtain ⟨hwidgets, hinstances⟩ := List.append_inj hchildren hlength
  obtain ⟨field, widget, instances⟩ := f
  obtain ⟨field', widget', instances'⟩ := g
  obtain ⟨hfield, hwidget, hmap⟩ := Node.mk.inj h
  rw [Fragment.mk.injEq]
  exact ⟨hfield, Widget.eq_of_children hwidget hwidgets,
    Instance.eq_of_fragments hmap hinstances⟩

/-- The nodes of a fragment tell the fragment and where they end: the first one tells how many of
the next are right inside it. -/
theorem eq_of_nodesOf_append (f : Fragment) : ∀ (g : Fragment) (ns ns' : List Node),
    nodesOf [f] ++ ns = nodesOf [g] ++ ns' → f = g ∧ ns = ns' := by
  induction f using children_induction with
  | step f ih =>
      intro g ns ns' h
      have hrow : ∀ fs : List Fragment, (∀ x ∈ fs, x ∈ f.children) → ∀ gs : List Fragment,
          fs.length = gs.length → nodesOf fs ++ ns = nodesOf gs ++ ns' → fs = gs ∧ ns = ns' := by
        intro fs
        induction fs with
        | nil =>
            intro _ gs hlength h
            obtain rfl := List.length_eq_zero_iff.mp hlength.symm
            exact ⟨rfl, h⟩
        | cons x xs ihrow =>
            intro hchildren gs hlength h
            cases gs with
            | nil => cases hlength
            | cons y ys =>
                rw [nodesOf_cons, nodesOf_cons y, List.append_assoc, List.append_assoc] at h
                obtain ⟨rfl, hrest⟩ := ih x (hchildren x List.mem_cons_self) y _ _ h
                obtain ⟨rfl, hns⟩ := ihrow (fun z hz => hchildren z (List.mem_cons_of_mem _ hz)) ys
                  (Nat.succ.inj hlength) hrest
                exact ⟨rfl, hns⟩
      rw [nodesOf_singleton, nodesOf_singleton, List.cons_append, List.cons_append] at h
      obtain ⟨hnode, hinside⟩ := List.cons.inj h
      have hlength : f.children.length = g.children.length := by
        rw [← List.length_map (fun x => x.id), children_ids, hnode, ← children_ids,
          List.length_map]
      obtain ⟨hchildren, hns⟩ := hrow f.children (fun _ hx => hx) g.children hlength hinside
      exact ⟨eq_of_node hnode hchildren, hns⟩

/-- Fragments are told by their nodes, so that nothing of a form is lost in the row of its nodes. -/
theorem nodesOf_injective {fs gs : List Fragment} (h : nodesOf fs = nodesOf gs) : fs = gs := by
  induction fs generalizing gs with
  | nil =>
      cases gs with
      | nil => rfl
      | cons g rest => rw [nodesOf_cons, nodesOf_singleton] at h; cases h
  | cons f rest ih =>
      cases gs with
      | nil => rw [nodesOf_cons, nodesOf_singleton] at h; cases h
      | cons g others =>
          rw [nodesOf_cons, nodesOf_cons g] at h
          obtain ⟨rfl, hrest⟩ := eq_of_nodesOf_append f g _ _ h
          rw [ih hrest]

end Fragment

namespace Form

/-- The nodes of a form, each before those inside it. -/
def nodes (form : Form) : List Node := Fragment.nodesOf form.fragments

theorem mem_nodes {form : Form} {f : Fragment} (h : f ∈ form.all) : f.node ∈ form.nodes :=
  List.mem_map_of_mem h

/-- Where there is a fragment, there are fields to show. -/
theorem state_of_fragments {form : Form} (h : form.fragments ≠ []) :
    form.state = .fields form.fragments := by
  rw [fragments] at h ⊢
  cases hstate : form.state with
  | noFieldSpecification =>
      rw [hstate] at h
      exact absurd rfl h
  | fields row => rfl

/-- A form in which something has been changed has fields. -/
theorem state_of_updateRow? {test : Fragment → Bool} {change : Fragment → Fragment} {form : Form}
    {row : List Fragment} (h : Fragment.updateRow? test change form.fragments = some row) :
    form.state = .fields form.fragments := by
  apply state_of_fragments
  intro hnil
  rw [hnil] at h
  cases h

/-- A form in which something is found has fields. -/
theorem state_of_find? {form : Form} {id : String} {f : Fragment} (h : form.find? id = some f) :
    form.state = .fields form.fragments := by
  apply state_of_fragments
  intro hnil
  rw [find?, all, hnil] at h
  cases h

/-- Changing the first fragment that passes a test replaces its nodes. -/
theorem updateFirst?_replaces {test : Fragment → Bool} {change : Fragment → Fragment}
    (hid : ∀ f, (change f).id = f.id) {form after : Form}
    (h : form.updateFirst? test change = some after) :
    after.counter = form.counter ∧
      ∃ g, form.all.find? test = some g ∧
        Fragment.Replaces g (change g) form.nodes after.nodes := by
  obtain ⟨fragments, hrow, rfl⟩ := Option.map_eq_some_iff.mp h
  exact ⟨rfl, Fragment.updateRow?_eq_some hid hrow⟩

/-- Nothing of a form but its fragments is changed with them. -/
theorem update_eq (id : String) (change : Fragment → Fragment) (form : Form) :
    form.update id change = { form with state := (form.update id change).state } := by
  rw [update, updateFirst?]
  cases Fragment.updateRow? (·.id == id) change form.fragments <;> rfl

theorem update_counter (id : String) (change : Fragment → Fragment) (form : Form) :
    (form.update id change).counter = form.counter := by
  rw [update_eq]

/-- A search by id finds what is there. -/
theorem updateFirst?_of_find? {change : Fragment → Fragment} (hid : ∀ f, (change f).id = f.id)
    {id : String} {form : Form} {f : Fragment} (h : form.find? id = some f) :
    form.updateFirst? (·.id == id) change = some (form.update id change) := by
  cases hchanged : form.updateFirst? (·.id == id) change with
  | none =>
      have hrow := Option.map_eq_none_iff.mp hchanged
      rw [Fragment.updateRow?_eq_none_iff hid] at hrow
      exact absurd (h.symm.trans hrow) nofun
  | some after => rw [update, hchanged, Option.getD_some]

/-- A fragment that is found is changed in the row of fields that are shown. -/
theorem update_fields {id : String} {change : Fragment → Fragment}
    (hid : ∀ f, (change f).id = f.id) {form : Form} {f : Fragment} (h : form.find? id = some f) :
    form.update id change = { form with state := .fields (form.update id change).fragments } := by
  obtain ⟨row, _, hform⟩ := Option.map_eq_some_iff.mp (updateFirst?_of_find? hid h)
  rw [← hform]
  rfl

/-- Changing the fragment with an id replaces its nodes. -/
theorem update_replaces {id : String} (change : Fragment → Fragment)
    (hid : ∀ f, (change f).id = f.id) {form : Form} {g : Fragment} (h : form.find? id = some g) :
    Fragment.Replaces g (change g) form.nodes (form.update id change).nodes := by
  obtain ⟨_, g', hg', hreplaces⟩ := updateFirst?_replaces hid (updateFirst?_of_find? hid h)
  cases h.symm.trans hg'
  exact hreplaces

end Form

end EntryForm
