import EntryForm.Proofs.Indents
import EntryForm.Proofs.SubmittedRecords

/-!
# The controls of a page

A page shows named controls, and a submission holds values under paths. Both come from the input
fields of a form, in the same order. A field without a container of its own shows no instances, so
it must not have any, which no run breaks.
-/

namespace EntryForm

/-- A field without a container of its own is not repeated and has no instances. -/
def Node.Contained (n : Node) : Prop :=
  n.wrapped = false → n.repetition = none ∧ n.instances = []

theorem Node.Compiled.contained {s : Settings} {n : Node} (h : n.Compiled s) : n.Contained := by
  intro hwrapped
  have hwrapped : n.toField.wrapped = false := hwrapped
  cases h with
  | @field e wrapped t id widget hfield hinstances =>
      rw [hfield] at hwrapped
      obtain rfl : wrapped = false := hwrapped
      have hrepetition : n.toField.repetition = none := by
        rw [hfield, Entity.field_repetition]
        rfl
      exact ⟨hrepetition, hinstances.resolve_right fun hmissing => hmissing rfl⟩
  | tabSet hfield _ =>
      rw [hfield] at hwrapped
      cases hwrapped

/-- What is repeated has a container. -/
theorem Node.Contained.wrapped {n : Node} (h : n.Contained) {r : RepeatState}
    (hr : n.repetition = some r) : n.wrapped = true := by
  cases hwrapped : n.wrapped with
  | true => rfl
  | false => exact absurd (hr.symm.trans (h hwrapped).1) nofun

/-- What has a container may have records. -/
theorem contained_of_wrapped {n : Node} (h : n.wrapped = true) : n.Contained := by
  intro hwrapped
  exact absurd (h.symm.trans hwrapped) nofun

/-- What is written of a node is all there is to show of it: its instances are inside its container,
and before its options there are blanks. -/
structure Node.Neat (n : Node) : Prop where
  contained : n.Contained
  indented : n.Indented

namespace Form

/-- A field without a container never comes to have instances. -/
theorem contained_lasting (s : Settings) : Lasting s Node.Contained where
  compiled h n hn := (h.compiled.1 n hn).contained
  shape {n n'} hshape h hwrapped := by
    obtain ⟨hrepetition, hinstances⟩ := h ((congrArg (·.wrapped) hshape).trans hwrapped)
    exact ⟨(congrArg (·.repetition) hshape).symm.trans hrepetition,
      (congrArg (·.instances) hshape).symm.trans hinstances⟩
  append hrepeated _ h := by
    obtain ⟨r, hr⟩ := Option.isSome_iff_exists.mp hrepeated
    exact contained_of_wrapped (h.wrapped hr)
  drop hrepeated h := by
    obtain ⟨r, hr⟩ := Option.isSome_iff_exists.mp hrepeated
    exact contained_of_wrapped (h.wrapped hr)

/-- In the forms of a session everything is neat. -/
theorem neat_run {d : Document} {c : Settings} {history : List Event} {form : Form}
    (h : ((Session.start d c).run history).form = some form) : ∀ n ∈ form.nodes, n.Neat :=
  fun n hn => ⟨(contained_lasting c).run h n hn, (indented_lasting c).run h n hn⟩

end Form

/-- Whether the value of a field is yes. -/
def Field.isTrue (f : Field) : Bool :=
  match f.value with
  | some (.bool b) => b
  | _ => false

/-- A field is true exactly if its value is. -/
theorem Field.isTrue_iff (f : Field) : f.isTrue = true ↔ f.value.getD .null = .bool true := by
  rw [isTrue]
  split
  case _ b heq => simp [heq]
  case _ hother =>
    cases hvalue : f.value with
    | none => simp
    | some value =>
        simp only [Bool.false_eq_true, Option.getD_some, false_iff]
        rintro rfl
        exact hother true hvalue

/-- A named control as it is told by its tag. -/
structure Control where
  name : String
  id : Option String
  type : Option String
  checked : Bool
  deriving DecidableEq, Repr

namespace Markup

/-- The value of the first attribute with a name. -/
def value? (name : String) (attributes : List Attribute) : Option String :=
  (attributes.find? (·.name == name)).bind (·.value)

/-- Whether there is an attribute with a name. -/
def carries (name : String) (attributes : List Attribute) : Bool :=
  attributes.any (·.name == name)

/-- The control that a tag starts, if it has a name. -/
def control? : Tag → Option Control
  | .start name attributes =>
    if name == "input" || name == "select" then
      (value? "name" attributes).map (⟨·, value? "id" attributes, value? "type" attributes,
        carries "checked" attributes⟩)
    else none
  | .stop _ => none

@[simp] theorem control?_start (name : String) (attributes : List Attribute) :
    control? (.start name attributes) =
      if name == "input" || name == "select" then
        (value? "name" attributes).map (⟨·, value? "id" attributes, value? "type" attributes,
          carries "checked" attributes⟩)
      else none := rfl

/-- The named controls of a page, unless it is not made of tags. -/
def controls? (page : String) : Option (List Control) := (tags? page).map (·.filterMap control?)

/-- The named controls of markup. -/
def controlsOf (row : List Markup) : List Control := (tagsOf row).filterMap control?

/-- The control that shows a field. -/
def controlOf (f : Field) : Widget Fragment → Option Control
  | .text _ => some ⟨f.path, some f.id, some "text", false⟩
  | .number _ => some ⟨f.path, some f.id, some "number", false⟩
  | .moment _ => some ⟨f.path, some f.id, some "text", false⟩
  | .boolean checked => some ⟨f.path, some f.id, some "checkbox", checked || f.isTrue⟩
  | .select _ => some ⟨f.path, some f.id, none, false⟩
  | _ => none

/-- The control that shows a fragment. -/
def shown? (f : Fragment) : Option Control := controlOf f.toField f.widget

section attributes

@[simp] theorem value?_nil (name : String) : value? name [] = none := rfl

@[simp] theorem value?_attr (name other value : String) (rest : List Attribute) :
    value? name (attr other value :: rest) =
      if other = name then some value else value? name rest := by
  simp only [value?, attr, List.find?_cons]
  by_cases h : other = name
  · simp [h]
  · simp [h, beq_false_of_ne h]

@[simp] theorem value?_flag (name other : String) (condition : Bool) (rest : List Attribute) :
    value? name (flag condition other ++ rest) =
      if condition && other == name then none else value? name rest := by
  cases condition with
  | false => simp [flag]
  | true =>
      simp only [flag, if_true, List.singleton_append, value?, List.find?_cons, Bool.true_and]
      cases other == name <;> rfl

@[simp] theorem value?_attr? {α : Type} (name other : String) (value : Option α)
    (write : α → String) :
    value? name (attr? other value write) = if other = name then value.map write else none := by
  cases value with
  | none => simp [attr?]
  | some a => exact value?_attr name other (write a) []

@[simp] theorem carries_append (name : String) (xs ys : List Attribute) :
    carries name (xs ++ ys) = (carries name xs || carries name ys) :=
  List.any_append

@[simp] theorem carries_cons (name : String) (a : Attribute) (rest : List Attribute) :
    carries name (a :: rest) = (a.name == name || carries name rest) :=
  List.any_cons

@[simp] theorem carries_attr? {α : Type} (name other : String) (value : Option α)
    (write : α → String) :
    carries name (attr? other value write) = (value.isSome && other == name) := by
  cases value <;> simp [attr?, carries]

@[simp] theorem carries_flag (name other : String) (condition : Bool) :
    carries name (flag condition other) = (condition && other == name) := by
  cases condition <;> simp [flag, carries]

end attributes

section writing

@[simp] theorem controlsOf_append (xs ys : List Markup) :
    controlsOf (xs ++ ys) = controlsOf xs ++ controlsOf ys := by
  rw [controlsOf, tagsOf_append, List.filterMap_append]
  rfl

@[simp] theorem controlsOf_nil : controlsOf [] = [] := rfl

@[simp] theorem controlsOf_newline (rest : List Markup) :
    controlsOf (newline :: rest) = controlsOf rest := rfl

@[simp] theorem controlsOf_text (content : String) (rest : List Markup) :
    controlsOf (.text content :: rest) = controlsOf rest := rfl

/-- A text without tags holds no controls, escaped or not. -/
theorem controlsOf_raw {content : String} (h : tags? content = some []) (rest : List Markup) :
    controlsOf (.raw content :: rest) = controlsOf rest := by
  rw [controlsOf, tagsOf, tags, h]
  rfl

/-- An element is a control at most itself, before those inside it. -/
@[simp] theorem controlsOf_element (name : String) (attributes : List Attribute)
    (children rest : List Markup) :
    controlsOf (.element name attributes children :: rest) =
      (control? (.start name attributes)).toList ++ (controlsOf children ++ controlsOf rest) := by
  have hstop : control? (.stop name) = none := rfl
  simp only [controlsOf, tagsOf, tags, List.cons_append, List.append_assoc, List.filterMap_cons,
    List.filterMap_append, hstop, List.nil_append]
  cases control? (.start name attributes) <;> rfl

@[simp] theorem controlsOf_void (name : String) (attributes : List Attribute)
    (rest : List Markup) :
    controlsOf (.void name attributes :: rest) =
      (control? (.start name attributes)).toList ++ controlsOf rest := by
  simp only [controlsOf, tagsOf, tags, List.singleton_append, List.filterMap_cons]
  cases control? (.start name attributes) <;> rfl

/-- The list of units has no name and is not submitted. -/
theorem controlsOf_units (u : UnitSelector) : controlsOf (units u) = [] := by
  cases u with
  | none => rfl
  | fixed unit => simp [units]
  | choice id options =>
      have hoptions : controlsOf (options.map fun u =>
          .element "option" [attr "value" u.id] [.text u.label]) = [] := by
        induction options with
        | nil => rfl
        | cons u rest ih => simp [ih]
      simp [units, hoptions]

theorem controlsOf_textInput (f : Field) (w : TextInput) :
    controlsOf (textInput f w) = [⟨f.path, some f.id, some "text", false⟩] := by
  simp [textInput, controlsOf_units, naming]

theorem controlsOf_numberInput (f : Field) (w : NumberInput) :
    controlsOf (numberInput f w) = [⟨f.path, some f.id, some "number", false⟩] := by
  simp [numberInput, controlsOf_units, naming]

theorem controlsOf_momentInput (f : Field) (w : MomentInput) :
    controlsOf (momentInput f w) = [⟨f.path, some f.id, some "text", false⟩] := by
  simp [momentInput, controlsOf_units, naming]

/-- A switch is checked if it started so or its value is true. -/
theorem controlsOf_checkbox (f : Field) (checked : Bool) :
    controlsOf (checkbox f checked) =
      [⟨f.path, some f.id, some "checkbox", checked || f.isTrue⟩] := by
  simp [checkbox, naming]
  rfl

theorem controlsOf_option (value : Option Json) {c : Choice} (h : c.Indented) :
    controlsOf (option value c) = [] := by
  simp [option, controlsOf_raw h.tags?]

/-- Options are no controls, as long as their indents are blanks. -/
theorem controlsOf_options (value : Option Json) {options : List Choice}
    (h : ∀ c ∈ options, c.Indented) : controlsOf (options.flatMap (option value)) = [] := by
  induction options with
  | nil => rfl
  | cons c rest ih =>
      obtain ⟨hfirst, hrest⟩ := List.forall_mem_cons.mp h
      rw [List.flatMap_cons, controlsOf_append, controlsOf_option value hfirst, ih hrest,
        List.append_nil]

theorem controlsOf_selectInput (f : Field) {w : SelectInput} (h : ∀ c ∈ w.options, c.Indented) :
    controlsOf (selectInput f w) = [⟨f.path, some f.id, none, false⟩] := by
  have hoptions := controlsOf_options f.value h
  cases hempty : w.allowEmpty <;> cases hlookup : w.lookup <;> cases hdeselect : w.allowDeselect <;>
    simp [selectInput, naming, hoptions, hempty, hlookup, hdeselect]

theorem controlsOf_label (f : Field) (l : Label) : controlsOf (label f l) = [] := by
  obtain ⟨text, definition, help, anchor, cardinality⟩ := l
  cases definition <;> cases help <;> cases anchor <;> cases cardinality <;>
    simp [label, labelText, labelLink]

theorem controlsOf_tabTitle (id text : String) (active : Bool) :
    controlsOf (tabTitle id text active) = [] := by
  cases active <;> simp [tabTitle]

theorem controlsOf_instanceHeader (id header : String) (removable : Bool) :
    controlsOf (instanceHeader id header removable) = [] := by
  cases removable <;> simp [instanceHeader]

theorem controlsOf_wrapperHead (f : Field) : controlsOf (wrapperHead f) = [] := by
  cases hrepetition : f.repetition <;> cases hlabel : f.label <;>
    simp [wrapperHead, hrepetition, hlabel, controlsOf_label]

theorem controlsOf_fragments (row : List Fragment) :
    controlsOf (fragments row) = row.flatMap fun f => controlsOf (fragment f) := by
  induction row with
  | nil => rfl
  | cons f rest ih => rw [fragments, controlsOf_append, ih, List.flatMap_cons]

theorem controlsOf_tabTitles (row : List (Tab Fragment)) : controlsOf (tabTitles row) = [] := by
  induction row with
  | nil => rfl
  | cons tab rest ih => rw [tabTitles, controlsOf_append, controlsOf_tabTitle, ih, List.nil_append]

/-- The controls of a row of tabs are those of all their fragments, shown or not. -/
theorem controlsOf_tabPanels (row : List (Tab Fragment)) :
    controlsOf (tabPanels row) = controlsOf (fragments (row.flatMap Tab.fragments)) := by
  simp only [controlsOf_fragments]
  induction row with
  | nil => rfl
  | cons tab rest ih => simp [tabPanels, controlsOf_fragments, ih]

theorem controlsOf_instancesOf (instances : List (Instance Fragment)) :
    controlsOf (instancesOf instances) =
      controlsOf (fragments (instances.flatMap Instance.fragments)) := by
  simp only [controlsOf_fragments]
  induction instances with
  | nil => rfl
  | cons i rest ih =>
      simp [instancesOf, controlsOf_fragments, controlsOf_instanceHeader, ih]

/-- The body of a field shows the field itself, then the fields inside its widget. -/
theorem controlsOf_body (f : Field) {w : Widget Fragment} (h : ∀ c ∈ w.options, c.Indented) :
    controlsOf (body f w) = (controlOf f w).toList ++ controlsOf (fragments w.children) := by
  cases w with
  | placeholder message => simp [body, controlOf, Widget.children, controlsOf_fragments]
  | diagnostic message => simp [body, controlOf, Widget.children, controlsOf_fragments]
  | group children => simp [body, controlOf, Widget.children]
  | tabs row =>
      simp [body, controlOf, Widget.children, controlsOf_tabTitles, controlsOf_tabPanels]
  | text w => rw [body, controlsOf_textInput]; rfl
  | number w => rw [body, controlsOf_numberInput]; rfl
  | moment w => rw [body, controlsOf_momentInput]; rfl
  | boolean checked => rw [body, controlsOf_checkbox]; rfl
  | select w => rw [body, controlsOf_selectInput f h]; rfl

/-- A field that has instances shows them in its container. Without a container they are not
written, but then there are none. -/
theorem controlsOf_fragment {f : Fragment} (h : f.node.Neat) :
    controlsOf (fragment f) =
      (shown? f).toList ++ controlsOf (fragments f.children) := by
  have hchildren : controlsOf (fragments f.children) =
      controlsOf (fragments f.widget.children) ++ controlsOf (instancesOf f.instances) := by
    rw [controlsOf_instancesOf, Fragment.children]
    simp only [controlsOf_fragments, List.flatMap_append]
  have hbody := controlsOf_body f.toField (f.indented_node.mp h.indented)
  rw [hchildren, ← List.append_assoc, shown?, ← hbody]
  obtain ⟨field, widget, instances⟩ := f
  rw [fragment]
  split
  case isTrue => simp [controlsOf_wrapperHead]
  case isFalse hwrapped =>
    have hnot : field.wrapped = false := by simpa using hwrapped
    obtain ⟨_, hnone⟩ := h.contained hnot
    obtain rfl : instances = [] := by simpa [Fragment.node] using hnone
    rw [instancesOf, controlsOf_nil, List.append_nil]

/-- The controls of a fragment are those of the inputs in it, in their order. -/
theorem controlsOf_all (f : Fragment) (h : ∀ g ∈ f.all, g.node.Neat) :
    controlsOf (fragment f) = f.all.filterMap shown? := by
  induction f using Fragment.children_induction with
  | step f ih =>
      rw [Fragment.all_eq] at h ⊢
      obtain ⟨hself, hinside⟩ := List.forall_mem_cons.mp h
      have hchildren : controlsOf (fragments f.children) =
          (Fragment.allOf f.children).filterMap shown? := by
        rw [controlsOf_fragments, Fragment.allOf_eq_flatMap, List.filterMap_flatMap]
        refine List.flatMap_congr fun child hchild => ih child hchild ?_
        intro g hg
        refine hinside g ?_
        rw [Fragment.allOf_eq_flatMap]
        exact List.mem_flatMap.mpr ⟨child, hchild, hg⟩
      rw [controlsOf_fragment hself, hchildren, List.filterMap_cons]
      cases shown? f <;> rfl

/-- A form shows the controls of all its fields, in the order of the fields. -/
theorem controlsOf_form {f : Form} (h : ∀ n ∈ f.nodes, n.Neat) :
    controlsOf (form f) = f.all.filterMap shown? := by
  have hrow : controlsOf (fragments f.fragments) =
      f.all.filterMap shown? := by
    rw [controlsOf_fragments, Form.all, Fragment.allOf_eq_flatMap, List.filterMap_flatMap]
    refine List.flatMap_congr fun child hchild => controlsOf_all child ?_
    intro g hg
    refine h g.node (Form.mem_nodes ?_)
    rw [Form.all, Fragment.allOf_eq_flatMap]
    exact List.mem_flatMap.mpr ⟨child, hchild, hg⟩
  rw [← hrow, form, Form.fragments]
  cases f.state with
  | noFieldSpecification => simp [FormState.fragments, fragments]
  | fields row => simp [FormState.fragments, submitButton]

end writing

/-- The controls that are read from the page of a form. -/
theorem controls?_form {f : Form} (h : ∀ n ∈ f.nodes, n.Neat) :
    controls? (render (form f)) = some (f.all.filterMap shown?) := by
  have hoptions := Form.indented_options fun n hn => (h n hn).indented
  have hproper := proper_form fun c hc => (hoptions c hc).isWellNested
  rw [controls?, tags?_render hproper, Option.map_some, ← controlsOf_form h]
  rfl

/-- A field is shown under its id, if it is. -/
theorem shown?_id {f : Fragment} {control : Control} (h : shown? f = some control) :
    control.id = some f.id := by
  obtain ⟨field, widget, instances⟩ := f
  cases widget <;> cases h <;> rfl

theorem shown?_name (f : Fragment) :
    (shown? f).map (·.name) = if f.widget.isInput then some f.path else none := by
  obtain ⟨field, widget, instances⟩ := f
  cases widget <;> rfl

/-- Fields are shown if they are inputs, under their paths. -/
theorem shown_names (row : List Fragment) :
    (row.filterMap shown?).map (·.name) = (row.filter (·.widget.isInput)).map (·.path) := by
  induction row with
  | nil => rfl
  | cons f rest ih =>
      have hname := shown?_name f
      rw [List.filterMap_cons, List.filter_cons]
      split at hname
      case isTrue hinput =>
        obtain ⟨control, hshown, hcontrol⟩ := Option.map_eq_some_iff.mp hname
        rw [hshown, if_pos hinput]
        exact congrArg₂ List.cons hcontrol ih
      case isFalse hother =>
        rw [Option.map_eq_none_iff.mp hname, if_neg hother]
        exact ih

/-- The ids of the controls are among those of the fragments, in their order. -/
theorem shown_ids_sublist (row : List Fragment) :
    ((row.filterMap shown?).map (·.id)).Sublist (row.map fun f => some f.id) := by
  induction row with
  | nil => exact List.Sublist.slnil
  | cons f rest ih =>
      rw [List.filterMap_cons]
      cases hshown : shown? f with
      | none => exact ih.cons _
      | some control =>
          rw [List.map_cons, List.map_cons, shown?_id hshown]
          exact ih.cons_cons _

end Markup

namespace Session
open Markup

/-- The controls of a form that a session shows. -/
theorem controls?_run {d : Document} {c : Settings} {history : List Event} {form : Form}
    (h : ((start d c).run history).form = some form) :
    controls? (render (Markup.form form)) = some (form.all.filterMap shown?) ∧
      ((form.all.filterMap shown?).map (·.id)).Nodup := by
  refine ⟨controls?_form (Form.neat_run h), ?_⟩
  have hids : (form.all.map fun f => some f.id).Nodup := by
    have hmap := (Form.fragment_ids_nodup (issued_run h).ids_nodup).map (fun _ _ => Option.some.inj)
    rwa [List.map_map] at hmap
  exact hids.sublist (shown_ids_sublist form.all)

/-- The page of a form shows the fields that are submitted, each in one control under its path, in
the order in which they are submitted. -/
theorem page_shows_submitted_fields {d : Document} {c : Settings} {history : List Event}
    {form : Form} (h : ((start d c).run history).form = some form) :
    ∃ controls, controls? (render (Markup.form form)) = some controls ∧
      controls.map (·.name) = (Fragment.entriesOf false form.fragments).map (·.path) ∧
      (controls.map (·.id)).Nodup := by
  obtain ⟨hcontrols, hids⟩ := controls?_run h
  refine ⟨_, hcontrols, ?_, hids⟩
  have hentries := congrArg (List.map Prod.fst) (Fragment.entriesOf_inputs form.fragments false)
  rw [List.map_map, List.map_map] at hentries
  rw [shown_names]
  exact hentries.symm

theorem contacts_are_shown :
    ∃ d form controls, Document.ofText contactText = .ok d ∧
      ((start d {}).run contactHistory).form = some form ∧
      controls? (render (Markup.form form)) = some controls ∧
      controls.map (·.name) = ["contact.mail", "contact.name", "contact.mail", "contact.name"] ∧
      (controls.map (·.id)).Nodup := by
  have hchecks : checks contactText contactHistory (fun _ form _ =>
      decide ((Fragment.entriesOf false form.fragments).map (·.path) =
        ["contact.mail", "contact.name", "contact.mail", "contact.name"])) = true := by
    decide +kernel
  obtain ⟨d, form, _, hd, hform, _, hpaths⟩ := exists_of_checks hchecks
  obtain ⟨controls, hcontrols, hnames, hids⟩ := page_shows_submitted_fields hform
  exact ⟨d, form, controls, hd, hform, hcontrols, hnames.trans (of_decide_eq_true hpaths), hids⟩

/-- A box shows the value that its field is submitted with exactly as long as that value is yes,
if the box was checked from the start. -/
theorem box_shows_value_iff {d : Document} {c : Settings} {history : List Event}
    {form : Form} (h : ((start d c).run history).form = some form) :
    (Fragment.entriesOf false form.fragments).map (fun e => (e.path, e.value)) =
        (form.all.filter (·.widget.isInput)).map Fragment.input ∧
      ∃ controls, controls? (render (Markup.form form)) = some controls ∧
        ∀ f ∈ form.all, ∀ initial, f.widget = .boolean initial →
          ∃ box ∈ controls, box.type = some "checkbox" ∧ box.name = f.path ∧
            (∀ other ∈ controls, other.id = some f.id ↔ other = box) ∧
            ((box.checked = true ↔ f.input.2 = .bool true) ↔
              (initial = true → f.input.2 = .bool true)) := by
  obtain ⟨hcontrols, hids⟩ := controls?_run h
  refine ⟨Fragment.entriesOf_inputs form.fragments false, _, hcontrols, ?_⟩
  intro f hf initial hwidget
  have hshown : shown? f = some ⟨f.path, some f.id, some "checkbox", initial || f.isTrue⟩ := by
    rw [shown?, hwidget]
    rfl
  have hbox := List.mem_filterMap.mpr ⟨f, hf, hshown⟩
  refine ⟨_, hbox, rfl, rfl, ?_, ?_⟩
  · intro other hother
    constructor
    · intro hid
      exact List.inj_on_of_nodup_map hids hother hbox hid
    · rintro rfl
      rfl
  · have htrue : f.isTrue = true ↔ f.input.2 = .bool true := f.isTrue_iff
    simp only [Bool.or_eq_true, ← htrue]
    tauto

/-- The text of a document with one field that is yes from the start. -/
def switchText : String :=
  "\x7b\"specifications\":\x7b\"b\":\x7b\"id\":\"b\",\"datatype\":\"xmls:boolean\"," ++
    "\"value\":true\x7d\x7d\x7d"

/-- Whether a form is one box that was checked from the start, with some value. -/
def isSwitch (value : Bool) (form : Form) : Bool :=
  match form.all with
  | [f] => match f.widget, f.value with
    | .boolean true, some (.bool b) => f.id == "b_0" && f.path == "b" && b == value
    | _, _ => false
  | _ => false

theorem of_isSwitch {value : Bool} {form : Form} (h : isSwitch value form = true) :
    ∃ f, form.all = [f] ∧ f.widget = .boolean true ∧ f.value = some (.bool value) ∧
      f.id = "b_0" ∧ f.path = "b" := by
  rw [isSwitch] at h
  split at h
  case _ f hall =>
    split at h
    case _ b hwidget hvalue =>
      simp only [Bool.and_eq_true, beq_iff_eq] at h
      obtain ⟨⟨hid, hpath⟩, rfl⟩ := h
      exact ⟨f, hall, hwidget, hvalue, hid, hpath⟩
    case _ => cases h
  case _ => cases h

theorem switch_shows_its_value :
    ∃ d form controls box f, Document.ofText switchText = .ok d ∧
      ((start d {}).run [.select "b"]).form = some form ∧
      controls? (render (Markup.form form)) = some controls ∧ box ∈ controls ∧ f ∈ form.all ∧
      f.widget = .boolean true ∧ (box.checked = true ↔ f.input.2 = .bool true) := by
  have hchecks : checks switchText [.select "b"] (fun _ form _ => isSwitch true form) = true := by
    decide +kernel
  obtain ⟨d, form, _, hd, hform, _, hswitch⟩ := exists_of_checks hchecks
  obtain ⟨f, hall, hwidget, hvalue, _, _⟩ := of_isSwitch hswitch
  have hf : f ∈ form.all := by simp [hall]
  have htrue : f.input.2 = .bool true := by simp [Fragment.input, hvalue]
  obtain ⟨_, controls, hcontrols, hboxes⟩ := box_shows_value_iff hform
  obtain ⟨box, hbox, _, _, _, hiff⟩ := hboxes f hf true hwidget
  exact ⟨d, form, controls, box, f, hd, hform, hcontrols, hbox, hf, hwidget,
    hiff.mpr fun _ => htrue⟩

/-- A box that was checked from the start stays checked when its value is set to no, which is what
is submitted then. -/
theorem switch_stays_checked :
    ∃ d form, Document.ofText switchText = .ok d ∧
      ((start d {}).run [.select "b", .set "b_0" (.bool false)]).form = some form ∧
      controls? (render (Markup.form form)) =
        some [⟨"b", some "b_0", some "checkbox", true⟩] ∧
      (Fragment.entriesOf false form.fragments).map (fun e => (e.path, e.value)) =
        [("b", .bool false)] := by
  have hchecks : checks switchText [.select "b", .set "b_0" (.bool false)]
      (fun _ form _ => isSwitch false form) = true := by
    decide +kernel
  obtain ⟨d, form, _, hd, hform, _, hswitch⟩ := exists_of_checks hchecks
  obtain ⟨f, hall, hwidget, hvalue, hid, hpath⟩ := of_isSwitch hswitch
  obtain ⟨hcontrols, _⟩ := controls?_run hform
  have hentries := Fragment.entriesOf_inputs form.fragments false
  have hfragments : Fragment.allOf form.fragments = [f] := hall
  refine ⟨d, form, hd, hform, ?_, ?_⟩
  · rw [hcontrols, hall]
    simp [shown?, hwidget, controlOf, hid, hpath]
  · rw [hentries, hfragments]
    simp [hwidget, Widget.isInput, Fragment.input, hvalue, hpath]

end Session

end EntryForm
