import EntryForm.Proofs.Controls
import EntryForm.Proofs.Freshness
import EntryForm.Proofs.PageTags
import Mathlib.Data.List.Flatten

/-!
# The ids of the elements of a page

The page of a form writes every id that was handed out where it is needed to point at: at the
container of a field, at its control or tabs, at what belongs to a tab, at a record, at a control
for units. None of these ids is another one's, nor one that every page has. But a field that has
both a container and a control writes its id at both.
-/

namespace EntryForm

namespace Widget
variable {φ : Type}

/-- Whether a widget is written with the id of its field: as a control, or as a row of tabs. -/
def bearsId : Widget φ → Bool
  | .tabs _ => true
  | w => w.isInput

/-- Whether a widget bears an id does not depend on what is inside it. -/
theorem bearsId_map {ψ : Type} (f : φ → ψ) (w : Widget φ) : (w.map f).bearsId = w.bearsId := by
  cases w <;> rfl

end Widget

/-- Whether a node is written with its id twice: at its container and at its widget. -/
def Node.isDoubled (n : Node) : Bool := n.wrapped && n.widget.bearsId

/-- The ids that the elements of a node have: its own at the container and at the widget, if there
are any, and those of its tabs, units and instances. -/
def Node.elementIds (n : Node) : List String :=
  (if n.wrapped then [n.id] else []) ++ ((if n.widget.bearsId then [n.id] else []) ++
    (n.widget.ids ++ n.instances.map (·.id)))

namespace Markup

/-- The values of the ids among some attributes. -/
def idValues (attributes : List Attribute) : List String :=
  (attributes.filter (·.name == "id")).filterMap (·.value)

/-- The ids that a tag gives. -/
def idsOfTag : Tag → List String
  | .start _ attributes => idValues attributes
  | .stop _ => []

/-- The ids of all elements of a page, unless it is not made of tags. -/
def elementIds? (page : String) : Option (List String) := (tags? page).map (·.flatMap idsOfTag)

/-- The ids of all elements of markup. -/
def elementIdsOf (row : List Markup) : List String := (tagsOf row).flatMap idsOfTag

section attributes

@[simp] theorem idValues_nil : idValues [] = [] := rfl

@[simp] theorem idValues_append (xs ys : List Attribute) :
    idValues (xs ++ ys) = idValues xs ++ idValues ys := by
  rw [idValues, List.filter_append, List.filterMap_append]
  rfl

@[simp] theorem idValues_attr (name value : String) (rest : List Attribute) :
    idValues (attr name value :: rest) =
      if name = "id" then value :: idValues rest else idValues rest := by
  by_cases h : name = "id" <;> simp [idValues, attr, h]

@[simp] theorem idValues_mark (name : String) (rest : List Attribute) :
    idValues (⟨name, none⟩ :: rest) = idValues rest := by
  by_cases h : name = "id" <;> simp [idValues, h]

@[simp] theorem idValues_flag (condition : Bool) (name : String) :
    idValues (flag condition name) = [] := by
  cases condition <;> simp [flag]

@[simp] theorem idValues_attr? {α : Type} (name : String) (value : Option α) (write : α → String) :
    idValues (attr? name value write) = if name = "id" then (value.map write).toList else [] := by
  cases value with
  | none => simp [attr?]
  | some a => exact idValues_attr name (write a) []

end attributes

section writing

@[simp] theorem elementIdsOf_nil : elementIdsOf [] = [] := rfl

@[simp] theorem elementIdsOf_append (xs ys : List Markup) :
    elementIdsOf (xs ++ ys) = elementIdsOf xs ++ elementIdsOf ys := by
  rw [elementIdsOf, tagsOf_append, List.flatMap_append]
  rfl

@[simp] theorem elementIdsOf_newline (rest : List Markup) :
    elementIdsOf (newline :: rest) = elementIdsOf rest := rfl

@[simp] theorem elementIdsOf_text (content : String) (rest : List Markup) :
    elementIdsOf (.text content :: rest) = elementIdsOf rest := rfl

/-- A text without tags holds no ids, escaped or not. -/
theorem elementIdsOf_raw {content : String} (h : tags? content = some []) (rest : List Markup) :
    elementIdsOf (.raw content :: rest) = elementIdsOf rest := by
  rw [elementIdsOf, tagsOf, tags, h]
  rfl

/-- An element comes before those inside it. -/
@[simp] theorem elementIdsOf_element (name : String) (attributes : List Attribute)
    (children rest : List Markup) :
    elementIdsOf (.element name attributes children :: rest) =
      idValues attributes ++ (elementIdsOf children ++ elementIdsOf rest) := by
  simp [elementIdsOf, tagsOf, tags, idsOfTag]

@[simp] theorem elementIdsOf_void (name : String) (attributes : List Attribute)
    (rest : List Markup) :
    elementIdsOf (.void name attributes :: rest) = idValues attributes ++ elementIdsOf rest := by
  simp [elementIdsOf, tagsOf, tags, idsOfTag]

theorem elementIdsOf_flatMap {α : Type} (make : α → List Markup) (as : List α) :
    elementIdsOf (as.flatMap make) = as.flatMap fun a => elementIdsOf (make a) := by
  induction as with
  | nil => rfl
  | cons a rest ih => rw [List.flatMap_cons, List.flatMap_cons, elementIdsOf_append, ih]

/-- The list of units has the id that the selector gives it. -/
theorem elementIdsOf_units (u : UnitSelector) : elementIdsOf (units u) = u.ids := by
  cases u with
  | none => rfl
  | fixed unit => simp [units, UnitSelector.ids]
  | choice id options =>
      have hoptions : elementIdsOf (options.map fun u =>
          .element "option" [attr "value" u.id] [.text u.label]) = [] := by
        induction options with
        | nil => rfl
        | cons u rest ih => simp [ih]
      simp [units, UnitSelector.ids, hoptions]

theorem elementIdsOf_option (value : Option Json) {c : Choice} (h : c.Indented) :
    elementIdsOf (option value c) = [] := by
  simp [option, elementIdsOf_raw h.tags?]

/-- A pick-list has the id of its field, and its options have none, as long as their indents are
blanks. -/
theorem elementIdsOf_selectInput (f : Field) {w : SelectInput}
    (h : ∀ c ∈ w.options, c.Indented) : elementIdsOf (selectInput f w) = [f.id] := by
  have hoptions : elementIdsOf (w.options.flatMap (option f.value)) = [] := by
    rw [elementIdsOf_flatMap, List.flatMap_eq_nil_iff]
    exact fun c hc => elementIdsOf_option f.value (h c hc)
  cases hempty : w.allowEmpty <;> cases hlookup : w.lookup <;> cases hdeselect : w.allowDeselect <;>
    simp [selectInput, naming, hoptions, hempty, hlookup, hdeselect]

theorem elementIdsOf_label (f : Field) (l : Label) : elementIdsOf (label f l) = [] := by
  obtain ⟨text, definition, help, anchor, cardinality⟩ := l
  cases definition <;> cases help <;> cases anchor <;> cases cardinality <;>
    simp [label, labelText, labelLink]

theorem elementIdsOf_wrapperHead (f : Field) : elementIdsOf (wrapperHead f) = [] := by
  cases hrepetition : f.repetition <;> cases hlabel : f.label <;>
    simp [wrapperHead, hrepetition, hlabel, elementIdsOf_label]

theorem idValues_wrapperAttributes (f : Field) (w : Widget Fragment) :
    idValues (wrapperAttributes f w) = [f.id] := by
  cases harray : f.cardinality.arrayLike <;> simp [wrapperAttributes, harray]

theorem elementIdsOf_fragments (row : List Fragment) :
    elementIdsOf (fragments row) = row.flatMap fun f => elementIdsOf (fragment f) := by
  induction row with
  | nil => rfl
  | cons f rest ih => rw [fragments, elementIdsOf_append, ih, List.flatMap_cons]

theorem elementIdsOf_tabTitles (row : List (Tab Fragment)) :
    elementIdsOf (tabTitles row) = [] := by
  induction row with
  | nil => rfl
  | cons tab rest ih => cases hactive : tab.active <;> simp [tabTitles, tabTitle, hactive, ih]

open scoped List

/-- The panels have the ids of the tabs, and hold the ids of what is in them. -/
theorem elementIdsOf_tabPanels (row : List (Tab Fragment)) :
    elementIdsOf (tabPanels row) ~
      row.map (·.id) ++ elementIdsOf (fragments (row.flatMap Tab.fragments)) := by
  have hrow : elementIdsOf (tabPanels row) =
      row.flatMap fun tab => tab.id :: elementIdsOf (fragments tab.fragments) := by
    induction row with
    | nil => rfl
    | cons tab rest ih => simp [tabPanels, ih]
  rw [hrow, elementIdsOf_fragments, List.flatMap_assoc]
  simp only [← elementIdsOf_fragments]
  exact (List.map_append_flatMap_perm row _ _).symm

theorem elementIdsOf_instancesOf (instances : List (Instance Fragment)) :
    elementIdsOf (instancesOf instances) ~
      instances.map (·.id) ++
        elementIdsOf (fragments (instances.flatMap Instance.fragments)) := by
  have hrow : elementIdsOf (instancesOf instances) =
      instances.flatMap fun i => i.id :: elementIdsOf (fragments i.fragments) := by
    induction instances with
    | nil => rfl
    | cons i rest ih =>
        cases hremovable : i.removable <;> simp [instancesOf, instanceHeader, hremovable, ih]
  rw [hrow, elementIdsOf_fragments, List.flatMap_assoc]
  simp only [← elementIdsOf_fragments]
  exact (List.map_append_flatMap_perm instances _ _).symm

/-- The body of a field bears the id of the field if it is to be pointed at, and its own ids. -/
theorem elementIdsOf_body (f : Field) {w : Widget Fragment} (h : ∀ c ∈ w.options, c.Indented) :
    elementIdsOf (body f w) ~
      (if w.bearsId then [f.id] else []) ++ (w.ids ++ elementIdsOf (fragments w.children)) := by
  have hnone : elementIdsOf (fragments []) = [] := by rw [fragments, elementIdsOf_nil]
  cases w with
  | tabs row =>
      simp [body, Widget.bearsId, Widget.ids, Widget.children, elementIdsOf_tabTitles,
        elementIdsOf_tabPanels]
  | group children => simp [body, Widget.bearsId, Widget.isInput, Widget.ids, Widget.children]
  | text w =>
      simp [body, textInput, naming, elementIdsOf_units, Widget.bearsId, Widget.isInput,
        Widget.ids, Widget.children, hnone]
  | number w =>
      simp [body, numberInput, naming, elementIdsOf_units, Widget.bearsId, Widget.isInput,
        Widget.ids, Widget.children, hnone]
  | moment w =>
      simp [body, momentInput, naming, elementIdsOf_units, Widget.bearsId, Widget.isInput,
        Widget.ids, Widget.children, hnone]
  | boolean checked =>
      simp [body, checkbox, naming, Widget.bearsId, Widget.isInput, Widget.ids, Widget.children,
        hnone]
  | select w =>
      simp [body, elementIdsOf_selectInput f h, Widget.bearsId, Widget.isInput, Widget.ids,
        Widget.children, hnone]
  | placeholder message =>
      simp [body, Widget.bearsId, Widget.isInput, Widget.ids, Widget.children, hnone]
  | diagnostic message =>
      simp [body, Widget.bearsId, Widget.isInput, Widget.ids, Widget.children, hnone]

/-- A field has its ids and those of what is right inside it. Without a container its instances are
not written, but then there are none. -/
theorem elementIdsOf_fragment {f : Fragment} (h : f.node.Neat) :
    elementIdsOf (fragment f) ~ f.node.elementIds ++ elementIdsOf (fragments f.children) := by
  have hbody := elementIdsOf_body f.toField (f.indented_node.mp h.indented)
  have hinstances := elementIdsOf_instancesOf f.instances
  have hchildren : elementIdsOf (fragments f.children) =
      elementIdsOf (fragments f.widget.children) ++
        elementIdsOf (fragments (f.instances.flatMap Instance.fragments)) := by
    simp only [Fragment.children, elementIdsOf_fragments, List.flatMap_append]
  have hown : f.node.elementIds =
      (if f.wrapped then [f.id] else []) ++ ((if f.widget.bearsId then [f.id] else []) ++
        (f.widget.ids ++ f.instances.map (·.id))) := by
    simp only [Node.elementIds, Fragment.node, Widget.bearsId_map, Widget.ids_map, List.map_map]
    rfl
  obtain ⟨field, widget, instances⟩ := f
  rw [hown, hchildren, fragment]
  rw [List.perm_iff_count] at hbody hinstances ⊢
  intro id
  have hbody := hbody id
  have hinstances := hinstances id
  simp only [List.count_append] at hbody hinstances ⊢
  split
  case isTrue hwrapped =>
    have hself : elementIdsOf [.element "div" (wrapperAttributes field widget)
        (wrapperHead field ++ (body field widget ++ instancesOf instances)), newline] =
          [field.id] ++ (elementIdsOf (body field widget) ++
            elementIdsOf (instancesOf instances)) := by
      simp [idValues_wrapperAttributes, elementIdsOf_wrapperHead]
    rw [hself]
    rw [List.count_append, List.count_append]
    omega
  case isFalse hwrapped =>
    have hnot : field.wrapped = false := by simpa using hwrapped
    obtain ⟨_, hnone⟩ := h.contained hnot
    obtain rfl : instances = [] := by simpa [Fragment.node] using hnone
    simp only [List.map_nil, List.flatMap_nil, fragments, elementIdsOf_nil, List.count_nil]
    omega

theorem mem_allOf_of_mem_all {f g : Fragment} {row : List Fragment} (hg : g ∈ f.all)
    (hf : f ∈ row) : g ∈ Fragment.allOf row := by
  rw [Fragment.allOf_eq_flatMap]
  exact List.mem_flatMap.mpr ⟨f, hf, hg⟩

/-- The ids of the elements that show a row of fragments are those of the nodes in it, if each
fragment has those of its nodes. -/
theorem elementIdsOf_row {row : List Fragment} (h : ∀ f ∈ row,
    elementIdsOf (fragment f) ~ (Fragment.nodesOf [f]).flatMap Node.elementIds) :
    elementIdsOf (fragments row) ~ (Fragment.nodesOf row).flatMap Node.elementIds := by
  induction row with
  | nil => simp [fragments]
  | cons f rest ih =>
      obtain ⟨hfirst, hrest⟩ := List.forall_mem_cons.mp h
      rw [fragments, elementIdsOf_append, Fragment.nodesOf_cons, List.flatMap_append]
      exact hfirst.append (ih hrest)

/-- The ids of the elements that show a fragment are those of the nodes in it. -/
theorem elementIdsOf_all (f : Fragment) (h : ∀ g ∈ f.all, g.node.Neat) :
    elementIdsOf (fragment f) ~ (Fragment.nodesOf [f]).flatMap Node.elementIds := by
  induction f using Fragment.children_induction with
  | step f ih =>
      rw [Fragment.all_eq] at h
      obtain ⟨hself, hinside⟩ := List.forall_mem_cons.mp h
      have hchildren : elementIdsOf (fragments f.children) ~
          (Fragment.nodesOf f.children).flatMap Node.elementIds := by
        refine elementIdsOf_row fun child hchild => ih child hchild ?_
        intro g hg
        exact hinside g (mem_allOf_of_mem_all hg hchild)
      rw [Fragment.nodesOf_singleton, List.flatMap_cons]
      exact (elementIdsOf_fragment hself).trans (hchildren.append_left _)

/-- The ids that the markup of a form has, whatever fields it shows. -/
def formIds : FormState → List String
  | .noFieldSpecification => []
  | .fields _ => ["mainForm", "buttonFormSubmit"]

/-- The ids that a page of its own has, whatever fields it shows. -/
def fixedIds (f : Form) : List String := ["main-content", "formSubmission"] ++ formIds f.state

/-- The markup of a form has the ids of the form itself and those of its fragments. -/
theorem elementIdsOf_form (f : Form) :
    elementIdsOf (form f) ~ formIds f.state ++ elementIdsOf (fragments f.fragments) := by
  rw [form, Form.fragments]
  cases f.state with
  | noFieldSpecification => simp [formIds, FormState.fragments, fragments]
  | fields row =>
      have hids : elementIdsOf [.element "form"
          [attr "id" "mainForm", attr "data-focus" f.focus,
            attr "data-generation" (toString f.generation)]
          (newline :: (fragments row ++ [submitButton, newline])), newline] =
            "mainForm" :: (elementIdsOf (fragments row) ++ ["buttonFormSubmit"]) := by
        simp [submitButton]
      rw [hids]
      exact (List.perm_append_singleton _ _).cons _

/-- The ids of the elements of a page are its own and those of the nodes of the form. -/
theorem elementIds?_formPage {f : Form} (h : ∀ n ∈ f.nodes, n.Neat) (title base : String) :
    ∃ ids, elementIds? (formPage f title base) = some ids ∧
      ids ~ fixedIds f ++ f.nodes.flatMap Node.elementIds := by
  have hoptions := Form.indented_options fun n hn => (h n hn).indented
  have hproper : areProper (form f ++ submission f) = true := by
    rw [areProper_append, proper_form fun c hc => (hoptions c hc).isWellNested]
    simp +decide [submission, areProper, isProper]
  have hcontent := tags?_page (tags?_render hproper) title base
  have hrow : elementIdsOf (fragments f.fragments) ~ f.nodes.flatMap Node.elementIds := by
    refine elementIdsOf_row fun g hg => elementIdsOf_all g ?_
    intro x hx
    exact h x.node (Form.mem_nodes (mem_allOf_of_mem_all hx hg))
  have hhead : (pageHead base).flatMap idsOfTag = ["main-content"] := by
    simp [pageHead, idsOfTag]
  have hfoot : (pageFoot base).flatMap idsOfTag = [] := by simp [pageFoot, idsOfTag]
  have hsubmission : elementIdsOf (submission f) = ["formSubmission"] := by simp [submission]
  refine ⟨_, by rw [elementIds?, formPage, hcontent, Option.map_some], ?_⟩
  have hbetween : (tagsOf (form f ++ submission f)).flatMap idsOfTag =
      elementIdsOf (form f) ++ elementIdsOf (submission f) := elementIdsOf_append _ _
  rw [List.flatMap_append, List.flatMap_append, hhead, hfoot, hbetween, hsubmission, fixedIds]
  have hform := (elementIdsOf_form f).trans (hrow.append_left _)
  rw [List.perm_iff_count] at hform ⊢
  intro id
  have hform := hform id
  simp only [List.count_append, List.count_cons, List.count_nil] at hform ⊢
  omega

end writing

end Markup

section underscores
open Fragment Entity

/-- Whether all ids have an underscore, as every id has that is handed out. -/
def Underscored (ids : List String) : Prop := ∀ id ∈ ids, '_' ∈ id.toList

theorem underscored_nil : Underscored [] := by
  intro id hid
  cases hid

theorem underscored_append {xs ys : List String} :
    Underscored (xs ++ ys) ↔ Underscored xs ∧ Underscored ys :=
  List.forall_mem_append

theorem underscored_cons {id : String} {ids : List String} :
    Underscored (id :: ids) ↔ '_' ∈ id.toList ∧ Underscored ids :=
  List.forall_mem_cons

theorem Underscored.perm {xs ys : List String} (h : Underscored xs) (hperm : ys.Perm xs) :
    Underscored ys := by
  intro id hid
  exact h id (hperm.mem_iff.mp hid)

/-- A presentation id has an underscore in front of its number. -/
theorem underscore_idAt (entity : String) (n : Nat) : '_' ∈ (idAt entity n).toList := by
  rw [toList_idAt, stem]
  simp

theorem underscore_panelIdAt (parent branch : String) (n : Nat) :
    '_' ∈ (panelIdAt parent branch n).toList := by
  rw [panelIdAt, String.toList_append]
  exact List.mem_append_left _ (by decide +kernel)

variable {s : Settings}

/-- A frame has underscores in its id and in that of its units. -/
theorem underscored_frame (e : Facts) (wrapped t : Bool) (n : Nat) {widget : Widget Fragment}
    (hchildren : widget.children = [])
    (hids : widget.ids = [] ∨ widget.ids = [idAt e.id n ++ UnitSelector.idSuffix]) :
    Underscored (idsOf [frame s e wrapped t (idAt e.id n) widget]) := by
  rw [idsOf_frame e wrapped t _ hchildren, underscored_cons]
  refine ⟨underscore_idAt _ _, ?_⟩
  rcases hids with hids | hids
  · rw [hids]
    exact underscored_nil
  · rw [hids, underscored_cons, String.toList_append]
    exact ⟨List.mem_append_left _ (underscore_idAt _ _), underscored_nil⟩

/-- What is compiled has ids with underscores only. -/
theorem Derives.underscored {source : Source} {t : Bool} {n m : Nat} {fragments : List Fragment}
    (h : Derives s source t n fragments m) : Underscored (idsOf fragments) := by
  induction h with
  | missing => exact underscored_nil
  | found _ ih => exact ih
  | unresolved _ ih =>
      rw [← List.singleton_append, idsOf_append, underscored_append]
      exact ⟨underscored_frame _ _ _ _ rfl (Or.inl rfl), ih⟩
  | none => exact underscored_nil
  | more _ _ ih ih' =>
      rw [idsOf_append, underscored_append]
      exact ⟨ih, ih'⟩
  | fault _ => exact underscored_frame _ _ _ _ rfl (Or.inl rfl)
  | bare _ _ _ ih => exact ih
  | leaf hleaf => exact underscored_frame _ _ _ _ (leaf_ids hleaf).1 (leaf_ids hleaf).2
  | @group e t n m children _ _ _ _ ih =>
      rw [frame, idsOf_group, underscored_cons]
      exact ⟨underscore_idAt _ _, ih⟩
  | @record e field widget instances body number numbers wrapped t n m k _ _ ih ihbody =>
      refine (underscored_append.mpr ⟨ih, ?_⟩).perm (idsOf_addInstance
        (f := ⟨field, widget, instances⟩)
        (i := ⟨idAt (e.id ++ "_record") m, recordHeader number, false, body⟩) rfl rfl rfl)
      exact underscored_cons.mpr ⟨underscore_idAt _ _, ihbody⟩
  | filled _ ih => exact ih
  | tabSet =>
      apply underscored_cons.mpr
      exact ⟨underscore_idAt _ _, underscored_nil⟩
  | @tab e branch key branches field row fs t n m k _ _ ih ihbranch =>
      refine (underscored_append.mpr ⟨ih, ?_⟩).perm (idsOf_addTab field row _)
      exact underscored_cons.mpr ⟨underscore_panelIdAt _ _ _, ihbranch⟩
  | tabbed _ _ _ ih => exact ih

/-- All ids keep their underscores while a form evolves. -/
theorem Form.Evolves.underscored {d : Document} {a b : Form} {n : Nat}
    (ha : Underscored a.ids) (h : Form.Evolves s d a n b) : Underscored b.ids := by
  induction h with
  | refl => exact ha
  | edit _ hedit hchange ih =>
      obtain ⟨_, _, _, hreplaces⟩ := Form.updateFirst?_replaces hedit.id hchange
      rw [Form.ids_eq_of_shapes (hedit.shapes hreplaces)]
      exact ih
  | add _ hadd ih =>
      obtain ⟨f, r, e, body, _, _, _, _, _, rfl, hbody, hreplaces⟩ := Form.addInstance_ok hadd
      have hperm := hreplaces.ids_add (Fragment.idsOf_addInstance
        (i := ⟨_, recordHeader (r.count + 1), true, body⟩) rfl rfl rfl)
      refine (underscored_append.mpr ⟨ih, ?_⟩).perm hperm
      exact underscored_cons.mpr ⟨underscore_idAt _ _, hbody.underscored⟩
  | remove _ hremove ih =>
      obtain ⟨_, old, hperm⟩ := Form.removeInstance_ids hremove
      exact (underscored_append.mp (ih.perm hperm.symm)).1

end underscores

section counting
open scoped List

/-- If a row is made of two without repetition, the second inside the first, then what is in it
more than once is what the second holds. -/
theorem one_lt_count_iff {α : Type} [DecidableEq α] {row xs ys : List α} (hrow : row ~ xs ++ ys)
    (hxs : xs.Nodup) (hys : ys.Nodup) (hsub : ys ⊆ xs) (a : α) : 1 < row.count a ↔ a ∈ ys := by
  rw [hrow.count_eq, List.count_append, hxs.count, hys.count]
  by_cases hy : a ∈ ys
  · have hx : a ∈ xs := hsub hy
    simp [hx, hy]
  · simp only [hy, if_false, Nat.add_zero, iff_false]
    split <;> omega

/-- The ids of a node that there is an element for, each once. -/
def Node.pointedIds (n : Node) : List String :=
  (if n.wrapped || n.widget.bearsId then [n.id] else []) ++
    (n.widget.ids ++ n.instances.map (·.id))

/-- The ids that labels point to are among those of the node. -/
theorem Node.pointedIds_sublist (n : Node) : n.pointedIds.Sublist n.ids := by
  rw [pointedIds, ids]
  split
  · exact List.Sublist.refl _
  · exact List.sublist_cons_self _ _

/-- The id of a doubled node is one that its label points to. -/
theorem Node.id_mem_pointedIds {n : Node} (h : n.isDoubled = true) : n.id ∈ n.pointedIds := by
  obtain ⟨hwrapped, -⟩ := Bool.and_eq_true_iff.mp h
  simp [pointedIds, hwrapped]

/-- The elements of a node have its ids once, but its own twice if it is doubled. -/
theorem Node.elementIds_perm (n : Node) :
    n.elementIds ~ n.pointedIds ++ (if n.isDoubled then [n.id] else []) := by
  rw [List.perm_iff_count]
  intro id
  cases hwrapped : n.wrapped <;> cases hbears : n.widget.bearsId <;>
    simp [elementIds, pointedIds, isDoubled, hwrapped, hbears, List.count_cons]
  omega

/-- The elements of a row of nodes have their ids once, and those of the doubled ones once more. -/
theorem elementIds_row (row : List Node) :
    row.flatMap Node.elementIds ~
      row.flatMap Node.pointedIds ++ (row.filter Node.isDoubled).map (·.id) := by
  have hdoubled : (row.flatMap fun n => if n.isDoubled then [n.id] else []) =
      (row.filter Node.isDoubled).map (·.id) := by
    induction row with
    | nil => rfl
    | cons n rest ih =>
        rw [List.flatMap_cons, ih, List.filter_cons]
        split <;> simp
  rw [← hdoubled]
  calc row.flatMap Node.elementIds
      ~ row.flatMap fun n => n.pointedIds ++ (if n.isDoubled then [n.id] else []) :=
        List.Perm.flatMap_left row fun n _ => n.elementIds_perm
    _ ~ row.flatMap Node.pointedIds ++ row.flatMap fun n => if n.isDoubled then [n.id] else [] :=
        (List.flatMap_append_perm row _ _).symm

end counting

namespace Session
open Markup

/-- In every form of a session, all ids have underscores. -/
theorem underscored_run {d : Document} {c : Settings} {history : List Event} {form : Form}
    (h : ((start d c).run history).form = some form) : Underscored form.ids := by
  obtain ⟨focus, generation, n, _, hevolves⟩ := (reached_run d c history).form form h
  exact hevolves.underscored (Form.compile_derives c d focus generation).underscored

/-- On the page of a form an id stands twice exactly if it is that of a doubled node. An id that was
handed out has an underscore, those of the page itself have none. -/
theorem count_element_ids {d : Document} {c : Settings} {history : List Event} {form : Form}
    (h : ((start d c).run history).form = some form) (title base : String) :
    ∃ ids, elementIds? (formPage form title base) = some ids ∧
      ∀ id, 1 < ids.count id ↔ ∃ n ∈ form.nodes, n.isDoubled = true ∧ n.id = id := by
  obtain ⟨ids, hids, hperm⟩ := elementIds?_formPage (Form.neat_run h) title base
  have hnodup : (form.nodes.flatMap Node.ids).Nodup := (issued_run h).ids_nodup
  have hpointed : (form.nodes.flatMap Node.pointedIds).Sublist (form.nodes.flatMap Node.ids) :=
    List.Sublist.flatMap_right form.nodes fun n _ => n.pointedIds_sublist
  have hfixed : (fixedIds form ++ form.nodes.flatMap Node.pointedIds).Nodup := by
    refine List.nodup_append.mpr ⟨?_, hnodup.sublist hpointed, ?_⟩
    · rw [fixedIds, formIds.eq_def]
      split <;> decide
    · rintro id hid _ hother rfl
      have hnone : ∀ id ∈ fixedIds form, '_' ∉ id.toList := by
        rw [fixedIds, formIds.eq_def]
        split <;> decide
      exact hnone id hid (underscored_run h id (hpointed.subset hother))
  have hdoubled : ((form.nodes.filter Node.isDoubled).map (·.id)).Nodup := by
    have hall : form.nodes.map (·.id) = form.all.map (·.id) := List.map_map
    have hids : (form.nodes.map (·.id)).Nodup :=
      hall ▸ Form.fragment_ids_nodup (issued_run h).ids_nodup
    exact hids.sublist (List.filter_sublist.map _)
  have hsub : (form.nodes.filter Node.isDoubled).map (·.id) ⊆
      fixedIds form ++ form.nodes.flatMap Node.pointedIds := by
    intro id hid
    obtain ⟨n, hn, rfl⟩ := List.mem_map.mp hid
    obtain ⟨hn, htwice⟩ := List.mem_filter.mp hn
    apply List.mem_append_right
    exact List.mem_flatMap.mpr ⟨n, hn, Node.id_mem_pointedIds htwice⟩
  have hrow := hperm.trans ((elementIds_row form.nodes).append_left (fixedIds form))
  rw [← List.append_assoc] at hrow
  refine ⟨ids, hids, ?_⟩
  intro id
  rw [one_lt_count_iff hrow hfixed hdoubled hsub id]
  simp [List.mem_map, List.mem_filter, and_assoc]

/-- The ids of the elements of a page are distinct exactly if no field of the form has both a
container and a widget that bears its id. Where they are not, it is the ids of such fields that
stand twice, and no others. -/
theorem element_ids_nodup_iff {d : Document} {c : Settings} {history : List Event} {form : Form}
    (h : ((start d c).run history).form = some form) (title base : String) :
    ∃ ids, elementIds? (formPage form title base) = some ids ∧
      (ids.Nodup ↔ ∀ f ∈ form.all, f.wrapped = true → f.widget.bearsId = false) ∧
      ∀ id, 1 < ids.count id ↔
        ∃ f ∈ form.all, f.wrapped = true ∧ f.widget.bearsId = true ∧ f.id = id := by
  obtain ⟨ids, hids, hcount⟩ := count_element_ids h title base
  have hnode (f : Fragment) : f.node.isDoubled = true ↔
      f.wrapped = true ∧ f.widget.bearsId = true := by
    rw [Node.isDoubled, Bool.and_eq_true, Fragment.node, Widget.bearsId_map]
  have htwice (id : String) : 1 < ids.count id ↔
      ∃ f ∈ form.all, f.wrapped = true ∧ f.widget.bearsId = true ∧ f.id = id := by
    rw [hcount]
    constructor
    · rintro ⟨n, hn, hdoubled, rfl⟩
      obtain ⟨f, hf, rfl⟩ := List.mem_map.mp hn
      obtain ⟨hwrapped, hbears⟩ := (hnode f).mp hdoubled
      exact ⟨f, hf, hwrapped, hbears, rfl⟩
    · rintro ⟨f, hf, hwrapped, hbears, rfl⟩
      exact ⟨f.node, Form.mem_nodes hf, (hnode f).mpr ⟨hwrapped, hbears⟩, rfl⟩
  refine ⟨ids, hids, ?_, htwice⟩
  rw [List.nodup_iff_count_le_one]
  constructor
  · intro honce f hf hwrapped
    by_contra hbears
    have hcontrol : f.widget.bearsId = true := by simpa using hbears
    have hfield : 1 < ids.count f.id := (htwice f.id).mpr ⟨f, hf, hwrapped, hcontrol, rfl⟩
    have hle := honce f.id
    omega
  · intro hnone id
    by_contra hmany
    obtain ⟨f, hf, hwrapped, hbears, -⟩ := (htwice id).mp (by omega)
    rw [hnone f hf hwrapped] at hbears
    cases hbears

/-- The text of a document with a group that holds a repeated field without datatype. -/
def noticeText : String :=
  "\x7b\"specifications\":\x7b\"r\":\x7b\"id\":\"r\",\"datatype\":\"model\"," ++
    "\"components\":\x7b\"p\":\x7b\"id\":\"p\",\"maxCardinality\":3\x7d\x7d\x7d\x7d\x7d"

theorem notice_ids_are_distinct :
    ∃ d form ids, Document.ofText noticeText = .ok d ∧
      ((start d {}).run [.select "r", .add "p_0"]).form = some form ∧
      form.ids = ["r_1", "p_0", "p_record_2", "p_3"] ∧
      elementIds? (formPage form "Notice" "/static") = some ids ∧ ids.Nodup := by
  have hchecks : checks noticeText [.select "r", .add "p_0"] (fun _ form _ =>
      decide (form.ids = ["r_1", "p_0", "p_record_2", "p_3"]) &&
        form.all.all fun f => !f.wrapped || !f.widget.bearsId) = true := by
    decide +kernel
  obtain ⟨d, form, _, hd, hform, _, htest⟩ := exists_of_checks hchecks
  obtain ⟨hids, hall⟩ := Bool.and_eq_true_iff.mp htest
  obtain ⟨ids, helements, hnodup, -⟩ := element_ids_nodup_iff hform "Notice" "/static"
  refine ⟨d, form, ids, hd, hform, of_decide_eq_true hids, helements, hnodup.mpr ?_⟩
  intro f hf hwrapped
  have hbears := List.all_eq_true.mp hall f hf
  simpa [hwrapped] using hbears

/-- A box has the id of the container around it. -/
theorem switch_id_stands_twice :
    ∃ d form ids, Document.ofText switchText = .ok d ∧
      ((start d {}).run [.select "b"]).form = some form ∧
      elementIds? (formPage form "Switch" "/static") = some ids ∧
      1 < ids.count "b_0" ∧ ¬ ids.Nodup := by
  have hchecks : checks switchText [.select "b"] (fun _ form _ =>
      form.all.any fun f => f.node.isDoubled && f.id == "b_0") = true := by
    decide +kernel
  obtain ⟨d, form, _, hd, hform, _, htest⟩ := exists_of_checks hchecks
  obtain ⟨f, hf, hbox⟩ := List.any_eq_true.mp htest
  obtain ⟨hdoubled, hid⟩ := Bool.and_eq_true_iff.mp hbox
  obtain ⟨ids, hids, hcount⟩ := count_element_ids hform "Switch" "/static"
  have htwice : 1 < ids.count "b_0" :=
    (hcount "b_0").mpr ⟨f.node, Form.mem_nodes hf, hdoubled, beq_iff_eq.mp hid⟩
  refine ⟨d, form, ids, hd, hform, hids, htwice, ?_⟩
  intro hnodup
  have hle := List.nodup_iff_count_le_one.mp hnodup "b_0"
  omega

end Session

end EntryForm
