import EntryForm.Proofs.Tags

/-!
# Forms are well nested

Whatever a form holds, the tags of its markup pair up: every element that starts ends, and before
the elements around it do. Only inputs have no end. The indents of options are written as they
stand, so that they have to be well nested by themselves.
-/

namespace EntryForm

/-- The options of a pick-list. -/
def Widget.options {φ : Type} : Widget φ → List Choice
  | .select w => w.options
  | _ => []

/-- The options of all pick-lists of a form. -/
def Form.options (form : Form) : List Choice := form.all.flatMap (·.widget.options)

namespace Markup

/-- Tags that pair up leave open what was open before them. -/
theorem pairUp_append {opened : List String} {ts : List Tag} (h : pairUp opened ts = true)
    (unclosed : List String) (rest : List Tag) :
    pairUp (opened ++ unclosed) (ts ++ rest) = pairUp unclosed rest := by
  fun_induction pairUp opened ts with
  | case1 opened =>
      rw [List.isEmpty_iff.mp h]
      rfl
  | case2 opened attributes ts ih =>
      rw [List.cons_append, pairUp, if_pos rfl, ih h]
  | case3 opened name attributes ts hname ih =>
      rw [List.cons_append, pairUp, if_neg hname]
      exact ih h
  | case4 innermost opened name ts ih =>
      obtain ⟨hname, hrest⟩ := Bool.and_eq_true_iff.mp h
      rw [List.cons_append, List.cons_append, pairUp, hname, ih hrest, Bool.true_and]
  | case5 => cases h

mutual
/-- The tags of a proper part pair up whatever is open around it. What lies inside an element pairs
up above it, and then it is the innermost that is open. -/
theorem pairUp_tags (unclosed : List String) (rest : List Tag) : ∀ m : Markup, isProper m = true →
    pairUp unclosed (tags m ++ rest) = pairUp unclosed rest
  | .text _, _ => rfl
  | .raw content, h => by
      obtain ⟨ts, hts, hpairs⟩ := (Option.any_eq_true _ _).mp h
      rw [tags, hts, Option.getD_some]
      exact pairUp_append hpairs unclosed rest
  | .element name attributes children, h => by
      simp only [isProper, Bool.and_eq_true, bne_iff_ne] at h
      obtain ⟨⟨⟨_, hname⟩, _⟩, hchildren⟩ := h
      have hinside := pairUp_tagsOf (name :: unclosed) (.stop name :: rest) children hchildren
      rw [tags, List.cons_append, pairUp, if_neg hname, List.append_assoc, List.singleton_append,
        hinside, pairUp, beq_self_eq_true, Bool.true_and]
  | .void name attributes, h => by
      simp only [isProper, Bool.and_eq_true, beq_iff_eq] at h
      rw [tags, List.singleton_append, pairUp, if_pos h.1]
/-- Markup closes what it opens, and nothing else. -/
theorem pairUp_tagsOf (unclosed : List String) (rest : List Tag) :
    ∀ row : List Markup, areProper row = true →
      pairUp unclosed (tagsOf row ++ rest) = pairUp unclosed rest
  | [], _ => rfl
  | m :: row, h => by
      obtain ⟨hfirst, hrow⟩ := Bool.and_eq_true_iff.mp h
      rw [tagsOf, List.append_assoc, pairUp_tags unclosed _ m hfirst,
        pairUp_tagsOf unclosed rest row hrow]
end

/-- A row of proper parts is well nested. -/
theorem isWellNested_render {row : List Markup} (h : areProper row = true) :
    isWellNested (render row) = true := by
  have hpairs := pairUp_tagsOf [] [] row h
  rw [List.append_nil] at hpairs
  rw [isWellNested, tags?_render h, Option.any_some, hpairs]
  rfl

section proper

@[simp] theorem plain_flag (condition : Bool) (name : String) :
    (flag condition name).all (isPlain ·.name) = (!condition || isPlain name) := by
  cases condition <;> simp [flag]

@[simp] theorem plain_attr? {α : Type} (name : String) (value : Option α) (write : α → String) :
    (attr? name value write).all (isPlain ·.name) = (value.isNone || isPlain name) := by
  cases value <;> simp [attr?]

@[simp] theorem name_attr (name value : String) : (attr name value).name = name := rfl

@[simp] theorem plain_naming (f : Field) : (naming f).all (isPlain ·.name) = true := by
  simp +decide [naming]

@[simp] theorem proper_newline : isProper newline = true := by simp [newline, isProper]

/-- Markup that is there on a condition is proper if it is when it is there. -/
theorem proper_if {row : List Markup} (h : areProper row = true) (condition : Bool) :
    areProper (if condition then row else []) = true := by
  cases condition
  · rfl
  · exact h

theorem plain_if {attributes : List Attribute} (h : attributes.all (isPlain ·.name) = true)
    (condition : Bool) : (if condition then attributes else []).all (isPlain ·.name) = true := by
  cases condition
  · rfl
  · exact h

@[simp] theorem proper_units (u : UnitSelector) : areProper (units u) = true := by
  cases u with
  | none => rfl
  | fixed unit => simp +decide [units, areProper, isProper]
  | choice id options =>
      have hoptions : areProper (options.map fun u =>
          .element "option" [attr "value" u.id] [.text u.label]) = true := by
        induction options with
        | nil => rfl
        | cons u rest ih => simp +decide [areProper, isProper, ih]
      simp +decide [units, areProper, isProper, hoptions]

/-- An option is proper if its indent is well nested by itself. -/
theorem proper_option (value : Option Json) {c : Choice} (h : isWellNested c.indent = true) :
    areProper (option value c) = true := by
  simp +decide [option, areProper, isProper, h]

theorem proper_textInput (f : Field) (w : TextInput) : areProper (textInput f w) = true := by
  simp +decide [textInput, areProper, isProper]

theorem proper_numberInput (f : Field) (w : NumberInput) : areProper (numberInput f w) = true := by
  simp +decide [numberInput, areProper, isProper]

theorem proper_momentInput (f : Field) (w : MomentInput) : areProper (momentInput f w) = true := by
  simp +decide [momentInput, areProper, isProper]

theorem proper_checkbox (f : Field) (checked : Bool) : areProper (checkbox f checked) = true := by
  simp +decide [checkbox, areProper, isProper]

theorem proper_selectInput (f : Field) {w : SelectInput}
    (h : ∀ c ∈ w.options, isWellNested c.indent = true) : areProper (selectInput f w) = true := by
  have hoptions : areProper (w.options.flatMap (option f.value)) = true :=
    areProper_flatMap fun c hc => proper_option f.value (h c hc)
  have hempty : areProper [.element "option" [attr "value" ""] [], newline] = true := by decide
  have hlookup : areProper [.element "a" [attr "class" "input-group-label",
      attr "data-lookup" f.entityId] [.text "lookup choices"]] = true := by
    simp +decide [areProper, isProper]
  have hdeselect : [attr "data-allow-deselect" "true"].all (isPlain ·.name) = true := by decide
  rw [selectInput, areProper, isProper, areProper, isProper, areProper, areProper_append, hoptions,
    proper_if hempty, proper_if hlookup]
  simp +decide only [List.all_cons, List.all_append, plain_if hdeselect, plain_flag, plain_attr?,
    plain_naming, areProper, proper_newline]
  simp +decide

theorem proper_label (f : Field) (l : Label) : areProper (label f l) = true := by
  obtain ⟨text, definition, help, anchor, cardinality⟩ := l
  cases definition <;> cases help <;> cases anchor <;> cases cardinality <;>
    simp +decide [label, labelText, labelLink, areProper, isProper]

theorem proper_tabTitle (id text : String) (active : Bool) :
    areProper (tabTitle id text active) = true := by
  cases active <;> simp +decide [tabTitle, areProper, isProper]

theorem proper_instanceHeader (id header : String) (removable : Bool) :
    areProper (instanceHeader id header removable) = true := by
  cases removable <;> simp +decide [instanceHeader, areProper, isProper]

theorem proper_wrapperHead (f : Field) : areProper (wrapperHead f) = true := by
  rw [wrapperHead, areProper, areProper_append, proper_newline]
  cases f.repetition <;> cases f.label <;> simp +decide [areProper, isProper, proper_label]

theorem plain_wrapperAttributes (f : Field) (w : Widget Fragment) :
    (wrapperAttributes f w).all (isPlain ·.name) = true := by
  have harray : [attr "data-array" "true"].all (isPlain ·.name) = true := by decide
  simp only [wrapperAttributes, List.all_cons, plain_if harray]
  simp +decide

/-- The indents of all options of a widget are well nested. -/
def Nested (w : Widget Fragment) : Prop := ∀ c ∈ w.options, isWellNested c.indent = true

open Fragment in
mutual
/-- A fragment is proper if the indents in it are well nested by themselves. -/
theorem proper_fragment : ∀ f : Fragment, (∀ g ∈ f.all, Nested g.widget) →
    areProper (fragment f) = true
  | ⟨f, widget, instances⟩, h => by
      obtain ⟨hself, hinside⟩ := List.forall_mem_cons.mp h
      obtain ⟨hwidget, hinstances⟩ := List.forall_mem_append.mp hinside
      have hbody := proper_body f widget hself hwidget
      have hafter := proper_instancesOf instances hinstances
      rw [fragment]
      split
      · simp +decide [areProper, isProper, plain_wrapperAttributes, proper_wrapperHead, hbody,
          hafter]
      · exact hbody
theorem proper_body (f : Field) : ∀ w : Widget Fragment, Nested w →
    (∀ g ∈ allOfWidget w, Nested g.widget) → areProper (body f w) = true
  | .placeholder message, _, _ => by simp +decide [body, areProper, isProper]
  | .diagnostic message, _, _ => by simp +decide [body, areProper, isProper]
  | .group children, _, h => by
      simp +decide [body, areProper, isProper, proper_fragments children h]
  | .tabs row, _, h => by
      simp +decide [body, areProper, isProper, proper_tabTitles row, proper_tabPanels row h]
  | .text w, _, _ => by rw [body, proper_textInput]
  | .number w, _, _ => by rw [body, proper_numberInput]
  | .moment w, _, _ => by rw [body, proper_momentInput]
  | .boolean checked, _, _ => by rw [body, proper_checkbox]
  | .select w, h, _ => by rw [body, proper_selectInput f h]
theorem proper_fragments : ∀ row : List Fragment, (∀ g ∈ allOf row, Nested g.widget) →
    areProper (fragments row) = true
  | [], _ => by rw [fragments, areProper]
  | f :: rest, h => by
      obtain ⟨hfirst, hrest⟩ := List.forall_mem_append.mp h
      rw [fragments, areProper_append, proper_fragment f hfirst, proper_fragments rest hrest,
        Bool.and_self]
theorem proper_tabTitles : ∀ row : List (Tab Fragment), areProper (tabTitles row) = true
  | [] => by rw [tabTitles, areProper]
  | ⟨id, entityId, label, active, content⟩ :: rest => by
      rw [tabTitles, areProper_append, proper_tabTitle, proper_tabTitles rest, Bool.and_self]
theorem proper_tabPanels : ∀ row : List (Tab Fragment),
    (∀ g ∈ allOfTabs row, Nested g.widget) → areProper (tabPanels row) = true
  | [], _ => by rw [tabPanels, areProper]
  | ⟨id, entityId, label, active, content⟩ :: rest, h => by
      obtain ⟨hcontent, hrest⟩ := List.forall_mem_append.mp h
      rw [tabPanels, areProper_append, proper_tabPanels rest hrest]
      simp +decide [areProper, isProper, proper_fragments content hcontent]
theorem proper_instancesOf : ∀ row : List (Instance Fragment),
    (∀ g ∈ allOfInstances row, Nested g.widget) → areProper (instancesOf row) = true
  | [], _ => by rw [instancesOf, areProper]
  | ⟨id, header, removable, content⟩ :: rest, h => by
      obtain ⟨hcontent, hrest⟩ := List.forall_mem_append.mp h
      rw [instancesOf, areProper_append, areProper_append, proper_instanceHeader,
        proper_instancesOf rest hrest]
      simp +decide [areProper, isProper, proper_fragments content hcontent]
end

theorem proper_submitButton : isProper submitButton = true := by
  decide

/-- The markup of a form names its elements and attributes plainly. -/
theorem proper_form {f : Form} (h : ∀ c ∈ f.options, isWellNested c.indent = true) :
    areProper (form f) = true := by
  rw [form]
  split
  case _ => decide
  case _ row hstate =>
    have hnested : ∀ g ∈ Fragment.allOf row, Nested g.widget := by
      intro g hg c hc
      refine h c (List.mem_flatMap.mpr ⟨g, ?_, hc⟩)
      rw [Form.all, Form.fragments, hstate]
      exact hg
    simp +decide [areProper, isProper, proper_fragments row hnested, proper_submitButton]

end proper

end Markup

end EntryForm
