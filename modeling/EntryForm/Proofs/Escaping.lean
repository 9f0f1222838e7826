import EntryForm.Markup.Form
import EntryForm.Proofs.Views

/-!
# Texts in the markup of a form

The texts and values of a form stand in its markup only where they are escaped. So the marks that
markup is made of, angle brackets and quotes, tell the shape of the form and nothing else. The one
text that is written as it stands is the indent of an option, which adds the marks that it holds.
-/

namespace EntryForm

/-- Whether a character has a meaning in markup. -/
def isMark (c : Char) : Bool := c == '<' || c == '>' || c == '"'

/-- The marks of a text, in their order. -/
def marks (cs : List Char) : List Char := cs.filter isMark

@[simp] theorem marks_append (xs ys : List Char) : marks (xs ++ ys) = marks xs ++ marks ys :=
  List.filter_append xs ys

/-- A text of the marks of another. -/
def marksOf (s : String) : String := String.ofList (marks s.toList)

/-- Keeping the marks of a text twice keeps the same marks. -/
@[simp] theorem marksOf_marksOf (s : String) : marksOf (marksOf s) = marksOf s := by
  simp [marksOf, marks, List.filter_filter]

/-- An attribute without its value. A flag leaves no trace if there are no marks in its name. -/
def Attribute.skeleton? (a : Attribute) : Option Attribute :=
  match a.value with
  | some _ => some ⟨a.name, some ""⟩
  | none => if (marks a.name.toList).isEmpty then none else some a

namespace Markup

mutual
/-- Markup without the texts and values in it. Raw texts leave their marks. -/
def skeleton : Markup → Markup
  | .text _ => .text ""
  | .raw content => .raw (marksOf content)
  | .element name attributes children =>
    .element name (attributes.filterMap Attribute.skeleton?) (skeletonOf children)
  | .void name attributes => .void name (attributes.filterMap Attribute.skeleton?)
def skeletonOf : List Markup → List Markup
  | [] => []
  | m :: rest => skeleton m :: skeletonOf rest
end

theorem skeletonOf_eq (row : List Markup) : skeletonOf row = row.map skeleton := by
  induction row with
  | nil => rfl
  | cons m rest ih => rw [skeletonOf, ih, List.map_cons]

@[simp] theorem skeletonOf_append (xs ys : List Markup) :
    skeletonOf (xs ++ ys) = skeletonOf xs ++ skeletonOf ys := by
  rw [skeletonOf_eq, skeletonOf_eq, skeletonOf_eq, List.map_append]

theorem skeletonOf_flatMap {α : Type} (make : α → List Markup) (as : List α) :
    skeletonOf (as.flatMap make) = as.flatMap fun a => skeletonOf (make a) := by
  simp only [skeletonOf_eq, List.map_flatMap]

section marks

/-- An escaped character has no marks. -/
theorem marks_escapeChar (c : Char) : marks (escapeChar c) = [] := by
  unfold escapeChar
  split
  · rfl
  · rfl
  · rfl
  · rfl
  case _ hlt hgt hquote =>
    have hmark : isMark c = false := by
      rw [isMark, beq_false_of_ne hlt, beq_false_of_ne hgt, beq_false_of_ne hquote]
      rfl
    simp [marks, hmark]

/-- Nothing that is escaped holds a mark. -/
theorem marks_escapeChars (cs : List Char) : marks (escapeChars cs) = [] := by
  induction cs with
  | nil => rfl
  | cons c rest ih =>
      have hcons : escapeChars (c :: rest) = escapeChar c ++ escapeChars rest := rfl
      rw [hcons, marks_append, marks_escapeChar, ih, List.append_nil]

/-- The marks of an attribute are those of its name, and the quotes around its value. -/
theorem marks_attribute (a : Attribute) :
    marks (attributeChars a) = marks (a.skeleton?.toList.flatMap attributeChars) := by
  obtain ⟨name, value⟩ := a
  cases value with
  | some value =>
      have hchars (value : String) : attributeChars ⟨name, some value⟩ =
          ' ' :: name.toList ++ ['=', '"'] ++ escapeChars value.toList ++ ['"'] := by
        simp [attributeChars]
      simp only [Attribute.skeleton?, Option.toList_some, List.flatMap_cons, List.flatMap_nil,
        hchars, marks_append, marks_escapeChars, List.append_nil]
  | none =>
      have hchars : attributeChars ⟨name, none⟩ = [' '] ++ name.toList := by
        simp [attributeChars]
      have hblank : marks [' '] = [] := rfl
      simp only [Attribute.skeleton?]
      split
      case isTrue hempty =>
        rw [hchars, marks_append, hblank, List.isEmpty_iff.mp hempty]
        rfl
      case isFalse => simp

theorem marks_attributes (attributes : List Attribute) :
    marks (attributes.flatMap attributeChars) =
      marks ((attributes.filterMap Attribute.skeleton?).flatMap attributeChars) := by
  induction attributes with
  | nil => rfl
  | cons a rest ih =>
      have hsplit : (a :: rest).filterMap Attribute.skeleton? =
          a.skeleton?.toList ++ rest.filterMap Attribute.skeleton? := by
        rw [List.filterMap_cons]
        cases a.skeleton? <;> rfl
      rw [hsplit, List.flatMap_cons, List.flatMap_append, marks_append, marks_append,
        marks_attribute, ih]

theorem marks_openTag (name : String) (attributes : List Attribute) :
    marks (openTag name attributes) =
      marks (openTag name (attributes.filterMap Attribute.skeleton?)) := by
  have hopen (attributes : List Attribute) : openTag name attributes =
      '<' :: name.toList ++ (attributes.flatMap attributeChars ++ ['>']) := rfl
  rw [hopen, hopen, marks_append, marks_append, marks_append, marks_append, marks_attributes]

mutual
/-- The marks of markup are those of its skeleton. -/
theorem marks_chars : ∀ m : Markup, marks (chars m) = marks (chars (skeleton m))
  | .text content => marks_escapeChars content.toList
  | .raw content => by simp [skeleton, chars, marksOf, marks, List.filter_filter]
  | .element name attributes children => by
      rw [skeleton, chars, chars, marks_append, marks_append, marks_append, marks_append,
        marks_openTag, marks_charsOf children]
  | .void name attributes => marks_openTag name attributes
theorem marks_charsOf : ∀ row : List Markup, marks (charsOf row) = marks (charsOf (skeletonOf row))
  | [] => rfl
  | m :: rest => by
      rw [skeletonOf, charsOf, charsOf, marks_append, marks_append, marks_chars m,
        marks_charsOf rest]
end

end marks

end Markup

def UnitOption.blank (_ : UnitOption) : UnitOption := ⟨"", ""⟩

def UnitSelector.blank : UnitSelector → UnitSelector
  | .none => .none
  | .fixed unit => .fixed unit.blank
  | .choice _ options => .choice "" (options.map UnitOption.blank)

/-- An option without its texts, but for what is kept of its indent. -/
def Choice.blank (keep : String → String) (c : Choice) : Choice :=
  { c with
    id := "", label := "", indent := keep c.indent
    synonyms := c.synonyms.map fun _ => ""
    diagnostic := c.diagnostic.map fun _ => "" }

def Label.blank (l : Label) : Label :=
  { l with
    text := ""
    definition := l.definition.map fun _ => ""
    help := l.help.map fun _ => ""
    cardinality := l.cardinality.map fun _ => "" }

/-- The bounds without the text that tells them. -/
def Cardinality.blank (c : Cardinality) : Cardinality :=
  { c with label := c.label.map fun _ => "" }

/-- A field without its texts. There is a null for every value. -/
def Field.blank (f : Field) : Field :=
  { f with
    id := "", entityId := "", path := ""
    entityPath := f.entityPath.map fun _ => ""
    label := f.label.map Label.blank
    cardinality := f.cardinality.blank
    value := f.value.map fun _ => .null }

def TextInput.blank (w : TextInput) : TextInput :=
  { w with pattern := w.pattern.map fun _ => "", placeholder := "", units := w.units.blank }

/-- A number input without its texts and with bounds of no value. -/
def NumberInput.blank (w : NumberInput) : NumberInput :=
  { family := ""
    range := ⟨w.range.min.map fun _ => .int 0, w.range.max.map fun _ => .int 0⟩
    step := w.step.map fun _ => ""
    pattern := w.pattern.map fun _ => ""
    placeholder := ""
    units := w.units.blank }

def MomentInput.blank (w : MomentInput) : MomentInput :=
  { format := "", placeholder := "", units := w.units.blank }

/-- A pick-list without the texts of its options, of whose indents something is kept. -/
def SelectInput.blank (keep : String → String) (w : SelectInput) : SelectInput :=
  { w with options := w.options.map (Choice.blank keep) }

/-- The shape of a form: all its texts are blank and all its values null, but for what is kept of
the indents of options. How many there are, which optional parts are there, and what is true or
false, is as it was. -/
def View.shape (keep : String → String) : View where
  field := Field.blank
  name _ := ""
  title := Label.blank
  message _ := ""
  text := TextInput.blank
  number := NumberInput.blank
  moment := MomentInput.blank
  select := SelectInput.blank keep

namespace Markup

@[simp] theorem skeleton?_attr (name value : String) :
    (attr name value).skeleton? = some ⟨name, some ""⟩ := rfl

@[simp] theorem skeletons_attr? {α : Type} (name : String) (value : Option α) (write : α → String) :
    (attr? name value write).filterMap Attribute.skeleton? =
      if value.isSome then [⟨name, some ""⟩] else [] := by
  cases value <;> rfl

theorem skeleton_units (units : UnitSelector) :
    skeletonOf (Markup.units units.blank) = skeletonOf (Markup.units units) := by
  cases units with
  | none => rfl
  | fixed unit => rfl
  | choice id options =>
      simp [Markup.units, UnitSelector.blank, skeletonOf, skeleton, skeletonOf_eq, UnitOption.blank]

theorem skeleton_textInput (f : Field) (w : TextInput) :
    skeletonOf (textInput f.blank w.blank) = skeletonOf (textInput f w) := by
  simp [textInput, naming, Field.blank, TextInput.blank, skeletonOf, skeleton, skeleton_units]

theorem skeleton_numberInput (f : Field) (w : NumberInput) :
    skeletonOf (numberInput f.blank w.blank) = skeletonOf (numberInput f w) := by
  simp [numberInput, naming, Field.blank, NumberInput.blank, skeletonOf, skeleton, skeleton_units]

theorem skeleton_momentInput (f : Field) (w : MomentInput) :
    skeletonOf (momentInput f.blank w.blank) = skeletonOf (momentInput f w) := by
  simp [momentInput, naming, Field.blank, MomentInput.blank, skeletonOf, skeleton, skeleton_units]

/-- Which options are selected depends on texts and values, but a flag has no marks. -/
theorem skeletons_flag (condition : Bool) {name : String} (h : marks name.toList = []) :
    (flag condition name).filterMap Attribute.skeleton? = [] := by
  cases condition <;> simp [flag, Attribute.skeleton?, h]

theorem skeleton_checkbox (f : Field) (checked : Bool) :
    skeletonOf (checkbox f.blank checked) = skeletonOf (checkbox f checked) := by
  have hflag (on : Bool) := skeletons_flag on (show marks "checked".toList = [] from rfl)
  simp [checkbox, naming, Field.blank, skeletonOf, skeleton, hflag]

/-- An option leaves the marks of its indent. -/
theorem skeleton_option (value value' : Option Json) (c : Choice) :
    skeletonOf (option value (c.blank marksOf)) = skeletonOf (option value' c) := by
  have hflag (on : Bool) := skeletons_flag on (show marks "selected".toList = [] from rfl)
  simp [option, Choice.blank, skeletonOf, skeleton, hflag]

/-- Pick-lists have the same skeleton if only the marks of their indents are kept. -/
theorem skeleton_selectInput (f : Field) (w : SelectInput) :
    skeletonOf (selectInput f.blank (w.blank marksOf)) = skeletonOf (selectInput f w) := by
  obtain ⟨options, multiple, allowEmpty, allowDeselect, lookup, maxSelections⟩ := w
  have hoptions : skeletonOf ((options.map (Choice.blank marksOf)).flatMap
      (option (f.value.map fun _ => .null))) = skeletonOf (options.flatMap (option f.value)) := by
    rw [skeletonOf_flatMap, skeletonOf_flatMap, List.flatMap_map]
    exact List.flatMap_congr fun c _ => skeleton_option _ _ c
  cases allowEmpty <;> cases allowDeselect <;> cases lookup <;>
    simp [selectInput, naming, Field.blank, SelectInput.blank, skeletonOf, skeleton, hoptions]

/-- Labels have the same skeleton without their texts. -/
theorem skeleton_label (f : Field) (l : Label) :
    skeletonOf (label f.blank l.blank) = skeletonOf (label f l) := by
  obtain ⟨text, definition, help, anchor, cardinality⟩ := l
  cases anchor <;> cases definition <;> cases help <;> cases cardinality <;> rfl

theorem skeleton_tabTitle (id id' text text' : String) (active : Bool) :
    skeletonOf (tabTitle id text active) = skeletonOf (tabTitle id' text' active) := by
  cases active <;> rfl

theorem skeleton_instanceHeader (id id' header header' : String) (removable : Bool) :
    skeletonOf (instanceHeader id header removable) =
      skeletonOf (instanceHeader id' header' removable) := by
  cases removable <;> rfl

theorem skeleton_wrapperHead (f : Field) :
    skeletonOf (wrapperHead f.blank) = skeletonOf (wrapperHead f) := by
  have hrepetition : f.blank.repetition = f.repetition := rfl
  cases hlabel : f.label with
  | none =>
      have hblank : f.blank.label = none := congrArg (Option.map Label.blank) hlabel
      simp only [wrapperHead, hlabel, hblank, hrepetition]
  | some l =>
      have hblank : f.blank.label = some l.blank := congrArg (Option.map Label.blank) hlabel
      simp only [wrapperHead, hlabel, hblank, hrepetition, skeletonOf, skeletonOf_append,
        skeleton_label]

/-- The container has the same attributes whatever their values. -/
theorem skeletons_wrapperAttributes (f : Field) (w w' : Widget Fragment) :
    (wrapperAttributes f.blank w').filterMap Attribute.skeleton? =
      (wrapperAttributes f w).filterMap Attribute.skeleton? := by
  simp [wrapperAttributes, Field.blank, Cardinality.blank]

theorem skeleton_tabTitles (tabs : List (Tab Fragment)) :
    skeletonOf (tabTitles (Fragment.viewTabs (View.shape marksOf) tabs)) =
      skeletonOf (tabTitles tabs) := by
  induction tabs with
  | nil => rfl
  | cons tab rest ih =>
      obtain ⟨id, entityId, label, active, content⟩ := tab
      rw [Fragment.viewTabs, tabTitles, tabTitles, skeletonOf_append, skeletonOf_append, ih]
      exact congrArg (· ++ _) (skeleton_tabTitle _ _ _ _ active)

mutual
/-- What stands in the markup of a form besides texts and values is told by its shape. -/
theorem skeleton_fragment : ∀ f : Fragment,
    skeletonOf (fragment (f.view (.shape marksOf))) = skeletonOf (fragment f)
  | ⟨f, widget, instances⟩ => by
      have hfield : (View.shape marksOf).field f = f.blank := rfl
      have hwrapped : f.blank.wrapped = f.wrapped := rfl
      rw [Fragment.view, fragment, fragment, hfield, hwrapped]
      split
      · simp only [skeletonOf, skeleton, skeletonOf_append, skeletons_wrapperAttributes f widget,
          skeleton_wrapperHead, skeleton_body f widget, skeleton_instancesOf instances]
      · exact skeleton_body f widget
/-- What is inside a field has the same skeleton if only the marks of indents are kept. -/
theorem skeleton_body (f : Field) : ∀ w : Widget Fragment,
    skeletonOf (body f.blank (Fragment.viewWidget (View.shape marksOf) w)) = skeletonOf (body f w)
  | .placeholder _ => rfl
  | .diagnostic _ => rfl
  | .group children => by
      rw [Fragment.viewWidget, body, body]
      simp only [skeletonOf, skeleton, skeleton_fragments children]
  | .tabs tabs => by
      rw [Fragment.viewWidget, body, body]
      simp only [skeletonOf, skeleton, skeleton_tabTitles tabs, skeleton_tabPanels tabs]
      rfl
  | .text w => skeleton_textInput f w
  | .number w => skeleton_numberInput f w
  | .moment w => skeleton_momentInput f w
  | .boolean checked => skeleton_checkbox f checked
  | .select w => skeleton_selectInput f w
theorem skeleton_fragments : ∀ row : List Fragment,
    skeletonOf (fragments (Fragment.viewRow (View.shape marksOf) row)) = skeletonOf (fragments row)
  | [] => rfl
  | f :: rest => by
      rw [Fragment.viewRow, fragments, fragments, skeletonOf_append, skeletonOf_append,
        skeleton_fragment f, skeleton_fragments rest]
theorem skeleton_tabPanels : ∀ tabs : List (Tab Fragment),
    skeletonOf (tabPanels (Fragment.viewTabs (View.shape marksOf) tabs)) =
      skeletonOf (tabPanels tabs)
  | [] => rfl
  | ⟨id, _, _, active, content⟩ :: rest => by
      rw [Fragment.viewTabs, tabPanels, tabPanels]
      simp only [skeletonOf_append, skeletonOf, skeleton, skeleton_fragments content,
        skeleton_tabPanels rest]
      rfl
theorem skeleton_instancesOf : ∀ instances : List (Instance Fragment),
    skeletonOf (instancesOf (Fragment.viewInstances (View.shape marksOf) instances)) =
      skeletonOf (instancesOf instances)
  | [] => rfl
  | ⟨id, header, removable, content⟩ :: rest => by
      rw [Fragment.viewInstances, instancesOf, instancesOf]
      simp only [skeletonOf_append, skeletonOf, skeleton, skeleton_fragments content,
        skeleton_instancesOf rest, skeleton_instanceHeader _ id _ header removable]
      rfl
end

/-- What stands in the markup around the fragments is told by whether there are any to show. -/
theorem skeleton_form {a b : Form}
    (h : a.state.view (.shape marksOf) = b.state.view (.shape marksOf)) :
    skeletonOf (form a) = skeletonOf (form b) := by
  rw [form, form]
  cases ha : a.state with
  | noFieldSpecification =>
      cases hb : b.state with
      | noFieldSpecification => rfl
      | fields row =>
          rw [ha, hb] at h
          cases h
  | fields row =>
      cases hb : b.state with
      | noFieldSpecification =>
          rw [ha, hb] at h
          cases h
      | fields row' =>
          rw [ha, hb] at h
          have hrow : skeletonOf (fragments row) = skeletonOf (fragments row') := by
            rw [← skeleton_fragments row, FormState.fields.inj h, skeleton_fragments row']
          simp [skeletonOf, skeleton, hrow]

/-- The marks in the text of markup are those of its skeleton. -/
theorem marks_render (row : List Markup) :
    marks (render row).toList = marks (charsOf (skeletonOf row)) := by
  rw [render, String.toList_ofList, marks_charsOf]

end Markup

end EntryForm
