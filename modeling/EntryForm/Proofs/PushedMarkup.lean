import EntryForm.Proofs.Controls

/-!
# Markup that is pushed

The markup of a form as it is written in place: one text after the other is pushed to the end of
what has been written, the start of an element and its end at different times, and many of them
only if a part is there. What comes out is the text of the markup tree, so that all that starts
also ends.
-/

namespace EntryForm.Markup

/-- A writer pushes texts to the end of what has been written. -/
abbrev Writer := StateM String Unit

/-- Pushes a text behind what has been written. -/
def push (text : String) : Writer := modify (· ++ text)

/-- Pushes a text under a condition. -/
def pushIf (condition : Bool) (text : String) : Writer :=
  if condition then push text else pure ()

/-- An attribute after a blank, its value escaped. -/
def attrText (name value : String) : String := " " ++ name ++ "=\"" ++ escape value ++ "\""

/-- An attribute that is written if its value is there. -/
def attrText? {α : Type} (name : String) (value : Option α) (write : α → String) : String :=
  match value with
  | some a => attrText name (write a)
  | none => ""

/-- A flag that is written on a condition. -/
def flagText (condition : Bool) (name : String) : String := if condition then " " ++ name else ""

/-- One unit of a list. -/
def writeUnit (u : UnitOption) : Writer :=
  push ("<option" ++ attrText "value" u.id ++ ">" ++ escape u.label ++ "</option>")

/-- The list of units that can be chosen from. -/
def writeUnits (id : String) (options : List UnitOption) : Writer := do
  push ("<div class=\"input-group-button\"><select class=\"units\"" ++ attrText "id" id ++ ">")
  options.forM writeUnit
  push "</select></div>"

/-- The text of the control for the units of a field. -/
def unitsText : UnitSelector → String
  | .none => ""
  | .fixed unit => "<span class=\"input-group-label small\">" ++ escape unit.label ++ "</span>"
  | .choice id options => ((writeUnits id options).run "").2

/-- One option of a pick-list. Its indent is pushed as it is. -/
def writeOption (value : Option Json) (c : Choice) : Writer :=
  push ("<option" ++ attrText "value" c.id ++ attrText "class" ("depth" ++ toString c.depth) ++
    attrText? "data-synonyms" c.synonyms id ++ flagText (selects c.id value) "selected" ++ ">" ++
    c.indent ++ escape c.label ++ "</option>\n")

/-- The box for a text, in one piece but for the units. -/
def writeTextInput (f : Field) (w : TextInput) : Writer :=
  push ("<div class=\"input-group\"><input class=\"input-group-field\" type=\"text\"" ++
    attrText "id" f.id ++ attrText "name" f.path ++ attrText "placeholder" w.placeholder ++
    attrText? "minlength" w.minLength toString ++ attrText? "maxlength" w.maxLength toString ++
    attrText? "pattern" w.pattern id ++ attrText? "size" w.size toString ++
    attrText? "value" f.value valueText ++ ">" ++ unitsText w.units ++ "</div>\n")

/-- The box for a number, in one piece but for the units. -/
def writeNumberInput (f : Field) (w : NumberInput) : Writer :=
  push ("<div class=\"input-group\"><input class=\"input-group-field\" type=\"number\"" ++
    attrText "id" f.id ++ attrText "name" f.path ++ attrText "data-number-type" w.family ++
    attrText "placeholder" w.placeholder ++ attrText? "min" w.range.min Number.text ++
    attrText? "max" w.range.max Number.text ++ attrText? "step" w.step id ++
    attrText? "pattern" w.pattern id ++ attrText? "value" f.value valueText ++ ">" ++
    unitsText w.units ++ "</div>\n")

/-- The box for a date or a time, in one piece but for the units. -/
def writeMomentInput (f : Field) (w : MomentInput) : Writer :=
  push ("<div class=\"input-group date\"><div class=\"input-group-label prefix\">" ++
    "<i class=\"fi fi-calendar\"></i></div>" ++
    "<input class=\"input-group-field prefix\" type=\"text\"" ++ attrText "id" f.id ++
    attrText "name" f.path ++ attrText "data-date-format" w.format ++
    attrText "placeholder" w.placeholder ++ attrText? "value" f.value valueText ++ ">" ++
    unitsText w.units ++ "</div>\n")

/-- The switch of a truth value. -/
def writeCheckbox (f : Field) (checked : Bool) : Writer :=
  push ("<div class=\"switch small\"><input class=\"switch-input\" type=\"checkbox\"" ++
    attrText "id" f.id ++ attrText "name" f.path ++ flagText (checked || f.isTrue) "checked" ++
    "><label class=\"switch-paddle\"" ++ attrText "for" f.id ++ "></label></div>\n")

/-- The pick-list: its start tags, its options and its end tags. -/
def writeSelectInput (f : Field) (w : SelectInput) : Writer := do
  push ("<div class=\"input-group\"><select class=\"input-group-field regular\"" ++
    attrText "id" f.id ++ attrText "name" f.path ++ flagText w.multiple "multiple" ++
    (if w.allowDeselect then " data-allow-deselect=\"true\"" else "") ++
    attrText? "data-max-selections" w.maxSelections toString ++ ">\n")
  pushIf w.allowEmpty "<option value=\"\"></option>\n"
  w.options.forM (writeOption f.value)
  push "</select>"
  pushIf w.lookup ("<a class=\"input-group-label\"" ++ attrText "data-lookup" f.entityId ++
    ">lookup choices</a>")
  push "</div>\n"

/-- The text of a label, in a link if it has an anchor. -/
def linkText (f : Field) (l : Label) : String :=
  if l.anchor then
    "<a href=\"#" ++ escape f.entityId ++ "\"><i class=\"fi-magnifying-glass\"></i> " ++
      escape l.text ++ "</a>"
  else escape l.text

/-- The text of a label with the tooltip of its definition around it. -/
def tooltipText (f : Field) (l : Label) : String :=
  match l.definition with
  | some definition =>
    "<span data-tooltip class=\"has-tip top left\"" ++ attrText "title" definition ++ ">" ++
      linkText f l ++ "</span>"
  | none => linkText f l

/-- The label of a field, between its bounds and its help. -/
def writeLabel (f : Field) (l : Label) : Writer := do
  l.cardinality.forM fun c =>
    push ("<span class=\"info label float-right\">" ++ escape c ++ "</span>\n")
  push ("<label" ++ attrText "for" f.id ++ ">" ++ tooltipText f l ++ "</label>")
  l.help.forM fun help =>
    push ("<span data-tooltip class=\"has-tip float-right\"" ++ attrText "title" help ++
      "> <i class=\"fi-info blue\"></i></span>")
  push "\n"

/-- The button that adds a record. -/
def writeAddButton (r : RepeatState) : Writer :=
  push ("<button class=\"addInputElement\" type=\"button\"" ++
    flagText (!r.addEnabled) "disabled" ++ ">add record</button>\n")

/-- What stands in the container of a field before its body, the start of the container included. -/
def writeWrapperHead (f : Field) (w : Widget Fragment) : Writer := do
  push ("<div class=\"" ++ wrapperClass f w ++ "\"" ++ attrText "id" f.id ++
    attrText "data-ontology-id" f.entityId ++ attrText "data-field-path" f.path)
  pushIf f.cardinality.arrayLike " data-array=\"true\""
  push ">\n"
  f.repetition.forM writeAddButton
  f.label.forM (writeLabel f)

/-- The title of a tab. -/
def writeTabTitle (tab : Tab Fragment) : Writer :=
  let active := if tab.active then " is-active" else ""
  push ("<li class=\"tabs-title" ++ active ++ "\"><a" ++ attrText "href" ("#" ++ tab.id) ++
    (if tab.active then " aria-selected=\"true\"" else "") ++ ">" ++ escape tab.label.text ++
    "</a></li>\n")

/-- The separator above the body of an instance. -/
def writeInstanceHeader (id header : String) (removable : Bool) : Writer := do
  push "<div class=\"inputBlockSeparator\">"
  pushIf removable ("<i class=\"removeInputElement fi-x-circle\"" ++ attrText "data-instance" id ++
    "></i>")
  push ("<label>" ++ escape header ++ "</label></div>\n")

mutual
/-- Writes a field, in a container of its own if it is wrapped. -/
def writeFragment : Fragment → Writer
  | ⟨f, widget, instances⟩ =>
    if f.wrapped then do
      writeWrapperHead f widget
      writeBody f widget
      writeInstances instances
      push "</div>\n"
    else writeBody f widget
/-- Writes the widget of a field. -/
def writeBody (f : Field) : Widget Fragment → Writer
  | .placeholder message =>
    push ("<span class=\"small\"><i>" ++ escape message ++ "</i></span>\n")
  | .diagnostic message =>
    push ("<div class=\"callout alert small\">" ++ escape message ++ "</div>\n")
  | .group children => do
    push "<div class=\"inputBlock\">\n"
    writeFragments children
    push "</div>\n"
  | .tabs tabs => do
    push ("<ul class=\"tabs\" data-tabs" ++ attrText "id" f.id ++ ">\n")
    tabs.forM writeTabTitle
    push "</ul>\n"
    push ("<div class=\"input-group tabs-content\"" ++ attrText "data-tabs-content" f.id ++ ">\n")
    writeTabPanels tabs
    push "</div>\n"
  | .text w => writeTextInput f w
  | .number w => writeNumberInput f w
  | .moment w => writeMomentInput f w
  | .boolean checked => writeCheckbox f checked
  | .select w => writeSelectInput f w
/-- The fragments of a row, one after the other. -/
def writeFragments : List Fragment → Writer
  | [] => pure ()
  | f :: rest => do
    writeFragment f
    writeFragments rest
/-- The panels of a row of tabs: start tag, content, end tag. -/
def writeTabPanels : List (Tab Fragment) → Writer
  | [] => pure ()
  | ⟨id, _, _, active, content⟩ :: rest => do
    let state := if active then " is-active" else ""
    push ("<div class=\"tabs-panel" ++ state ++ "\"" ++ attrText "id" id ++ ">\n")
    writeFragments content
    push "</div>\n"
    writeTabPanels rest
/-- The records of a field: header, start tag, content, end tag. -/
def writeInstances : List (Instance Fragment) → Writer
  | [] => pure ()
  | ⟨id, header, removable, content⟩ :: rest => do
    writeInstanceHeader id header removable
    push ("<div class=\"inputBlock\"" ++ attrText "id" id ++ ">\n")
    writeFragments content
    push "</div>\n"
    writeInstances rest
end

/-- A form with fields: start tag, fields, button, end tag. -/
def writeForm (f : Form) (row : List Fragment) : Writer := do
  push ("<form id=\"mainForm\"" ++ attrText "data-focus" f.focus ++
    attrText "data-generation" (toString f.generation) ++ ">\n")
  writeFragments row
  push ("<input id=\"buttonFormSubmit\" class=\"button float-center\" type=\"button\" " ++
    "value=\"View Form Submission\">\n")
  push "</form>\n"

/-- The markup of a form as it is written in place. -/
def written (f : Form) : String :=
  match f.state with
  | .noFieldSpecification =>
    "<p class=\"small\"><i>" ++ escape noFieldSpecification ++ "</i></p>\n"
  | .fields row => ((writeForm f row).run "").2

/-- A writer pushes a text, whatever has been written before. -/
def Pushes (w : Writer) (cs : List Char) : Prop :=
  ∀ out : String, w.run out = ((), out ++ String.ofList cs)

namespace Pushes
variable {w : Writer} {next : Unit → Writer} {cs ds : List Char}

theorem push {text : String} (h : text.toList = cs) : Pushes (push text) cs := by
  intro out
  rw [← h, String.ofList_toList]
  rfl

theorem skip : Pushes (pure ()) [] := by
  intro out
  exact congrArg ((), ·) (String.append_empty).symm

/-- Two writers push the one text and then the other. -/
theorem seq (hw : Pushes w cs) (hnext : Pushes (next ()) ds) : Pushes (w >>= next) (cs ++ ds) := by
  intro out
  rw [StateT.run_bind, hw out]
  refine (hnext _).trans ?_
  rw [String.append_assoc, ← String.ofList_append]

theorem of_eq (hw : Pushes w cs) (h : cs = ds) : Pushes w ds := h ▸ hw

theorem pushIf {condition : Bool} {text : String} {cs : List Char} (h : text.toList = cs) :
    Pushes (pushIf condition text) (if condition then cs else []) := by
  cases condition
  · exact skip
  · exact push h

/-- A part that may be missing. -/
theorem part {α : Type} {part : Option α} {write : α → Writer} {cs : α → List Char}
    (h : ∀ a, Pushes (write a) (cs a)) :
    Pushes (part.forM write) (part.toList.flatMap cs) := by
  cases part with
  | none => exact skip
  | some a => exact (h a).of_eq (by simp)

/-- A loop over a row. -/
theorem each {α : Type} {write : α → Writer} {cs : α → List Char} {row : List α}
    (h : ∀ a ∈ row, Pushes (write a) (cs a)) : Pushes (row.forM write) (row.flatMap cs) := by
  induction row with
  | nil => exact skip
  | cons a rest ih =>
      obtain ⟨hfirst, hrest⟩ := List.forall_mem_cons.mp h
      exact hfirst.seq (ih hrest)

end Pushes

section texts

/-- Escaping leaves a text as it is. -/
def Verbatim (s : String) : Prop := escapeChars s.toList = s.toList

instance (s : String) : Decidable (Verbatim s) := inferInstanceAs (Decidable (_ = _))

/-- Two texts without anything to escape have nothing to escape together. -/
theorem Verbatim.append {a b : String} (ha : Verbatim a) (hb : Verbatim b) : Verbatim (a ++ b) := by
  rw [Verbatim, String.toList_append, escapeChars, List.flatMap_append]
  exact congrArg₂ (· ++ ·) ha hb

/-- A number has nothing to escape. -/
theorem verbatim_toString (n : Nat) : Verbatim (toString n) := by
  have hdigits : ∀ c ∈ (toString n).toList, escapeChar c = [c] := by
    intro c hc
    have hdigit : c.isDigit = true := by
      rw [Nat.toString_eq_repr, Nat.toList_repr] at hc
      exact Nat.isDigit_of_mem_toDigits (by decide) (by decide) hc
    unfold escapeChar
    split
    · cases hdigit
    · cases hdigit
    · cases hdigit
    · cases hdigit
    · rfl
  rw [Verbatim, escapeChars, List.flatMap_congr hdigits, List.flatMap_singleton']

@[simp] theorem toList_escape (s : String) : (escape s).toList = escapeChars s.toList := by
  rw [escape, String.toList_ofList]

/-- The text of an attribute is that of the part it stands for. -/
@[simp] theorem toList_attrText (name value : String) :
    (attrText name value).toList = attributeChars (attr name value) := by
  simp [attrText, attributeChars, attr]

@[simp] theorem toList_attrText? {α : Type} (name : String) (value : Option α)
    (write : α → String) :
    (attrText? name value write).toList = (attr? name value write).flatMap attributeChars := by
  cases value with
  | none => rfl
  | some a => simp [attrText?, attr?, attr]

@[simp] theorem toList_flagText (condition : Bool) (name : String) :
    (flagText condition name).toList = (flag condition name).flatMap attributeChars := by
  cases condition <;> simp [flagText, flag, attributeChars]

/-- An attribute whose value need not be escaped can be written as a whole. -/
theorem attributeChars_verbatim (name : String) {value : String} (h : Verbatim value) :
    attributeChars (attr name value) =
      ' ' :: (name.toList ++ '=' :: '"' :: (value.toList ++ ['"'])) := by
  rw [attributeChars, attr]
  simp only
  rw [h]

@[simp] theorem attributeChars_mark (name : String) :
    attributeChars ⟨name, none⟩ = ' ' :: name.toList := by
  simp [attributeChars]

/-- Only the target of a link within the page is escaped. -/
theorem attributeChars_link (target : String) :
    attributeChars (attr "href" ("#" ++ target)) =
      " href=\"#".toList ++ (escapeChars target.toList ++ ['"']) := by
  have hhash : escapeChars ("#" ++ target).toList = '#' :: escapeChars target.toList := by
    rw [String.toList_append]
    rfl
  rw [attributeChars, attr]
  simp only [hhash]
  simp

@[simp] theorem escapeChars_blank : escapeChars [' '] = [' '] := by decide

@[simp] theorem chars_newline : chars newline = ['\n'] := by decide

@[simp] theorem charsOf_append (xs ys : List Markup) :
    charsOf (xs ++ ys) = charsOf xs ++ charsOf ys := by
  induction xs with
  | nil => rfl
  | cons m rest ih => rw [List.cons_append, charsOf, charsOf, ih, List.append_assoc]

theorem charsOf_map {α : Type} (make : α → Markup) (as : List α) :
    charsOf (as.map make) = as.flatMap fun a => chars (make a) := by
  induction as with
  | nil => rfl
  | cons a rest ih => rw [List.map_cons, charsOf, ih, List.flatMap_cons]

theorem charsOf_flatMap {α : Type} (make : α → List Markup) (as : List α) :
    charsOf (as.flatMap make) = as.flatMap fun a => charsOf (make a) := by
  induction as with
  | nil => rfl
  | cons a rest ih => rw [List.flatMap_cons, List.flatMap_cons, charsOf_append, ih]

end texts

section leaves

/-- The end of a part that has lines of its own. -/
theorem pushes_divEnd : Pushes (push "</div>\n") (closeTag "div" ++ ['\n']) :=
  .push (by decide)

theorem pushes_unit (u : UnitOption) : Pushes (writeUnit u)
    (chars (.element "option" [attr "value" u.id] [.text u.label])) := by
  apply Pushes.push
  simp [chars, charsOf, openTag, closeTag]

theorem pushes_units (id : String) (options : List UnitOption) :
    Pushes (writeUnits id options) (charsOf (units (.choice id options))) := by
  have hoptions := Pushes.each fun u (_ : u ∈ options) => pushes_unit u
  refine ((Pushes.push rfl).seq (hoptions.seq (.push rfl))).of_eq ?_
  simp (disch := decide) [units, charsOf, chars, openTag, closeTag, attributeChars_verbatim,
    charsOf_map]

/-- The control for units is written as it is in the tree. -/
@[simp] theorem toList_unitsText (u : UnitSelector) : (unitsText u).toList = charsOf (units u) := by
  unfold unitsText
  cases u with
  | none => simp [units, charsOf]
  | fixed unit =>
      simp (disch := decide) [units, charsOf, chars, openTag, closeTag, attributeChars_verbatim]
  | choice id options =>
      simp only
      rw [pushes_units, String.empty_append, String.toList_ofList]

/-- An option is pushed in one piece, its indent as it is. -/
theorem pushes_option (value : Option Json) (c : Choice) :
    Pushes (writeOption value c) (charsOf (option value c)) := by
  apply Pushes.push
  simp [option, charsOf, chars, openTag, closeTag]

theorem pushes_textInput (f : Field) (w : TextInput) :
    Pushes (writeTextInput f w) (charsOf (textInput f w)) := by
  apply Pushes.push
  simp (disch := decide) [textInput, naming, charsOf, chars, openTag, closeTag,
    attributeChars_verbatim]

set_option maxRecDepth 1000 in
theorem pushes_numberInput (f : Field) (w : NumberInput) :
    Pushes (writeNumberInput f w) (charsOf (numberInput f w)) := by
  apply Pushes.push
  simp (disch := decide) [numberInput, naming, charsOf, chars, openTag, closeTag,
    attributeChars_verbatim]

set_option maxRecDepth 1000 in
theorem pushes_momentInput (f : Field) (w : MomentInput) :
    Pushes (writeMomentInput f w) (charsOf (momentInput f w)) := by
  apply Pushes.push
  simp (disch := decide) [momentInput, naming, charsOf, chars, openTag, closeTag,
    attributeChars_verbatim]

theorem pushes_checkbox (f : Field) (checked : Bool) :
    Pushes (writeCheckbox f checked) (charsOf (checkbox f checked)) := by
  apply Pushes.push
  simp (disch := decide) [checkbox, naming, charsOf, chars, openTag, closeTag,
    attributeChars_verbatim]
  rfl

/-- The start tags, the options and the end tags of a pick-list are pushed one after the other. -/
theorem pushes_selectInput (f : Field) (w : SelectInput) :
    Pushes (writeSelectInput f w) (charsOf (selectInput f w)) := by
  have hoptions := Pushes.each fun c (_ : c ∈ w.options) => pushes_option f.value c
  refine ((@Pushes.push (openTag "div" [attr "class" "input-group"] ++
      (openTag "select" (attr "class" "input-group-field regular" ::
        (naming f ++ flag w.multiple "multiple" ++
          (if w.allowDeselect then [attr "data-allow-deselect" "true"] else []) ++
          attr? "data-max-selections" w.maxSelections toString)) ++ ['\n'])) _ ?_).seq
    ((@Pushes.pushIf _ _
      (charsOf [.element "option" [attr "value" ""] [], newline]) (by decide)).seq
    (hoptions.seq ((@Pushes.push (closeTag "select") _ (by decide)).seq
    ((@Pushes.pushIf _ _ (charsOf [.element "a" [attr "class" "input-group-label",
      attr "data-lookup" f.entityId] [.text "lookup choices"]]) ?_).seq
    pushes_divEnd))))).of_eq ?_
  · cases w.allowDeselect <;>
      simp (disch := decide) [naming, openTag, attributeChars_verbatim]
  · have htext : escapeChars "lookup choices".toList = "lookup choices".toList := by decide
    simp only [charsOf, chars, htext]
    simp (disch := decide) [openTag, closeTag, attributeChars_verbatim]
  · cases hempty : w.allowEmpty <;> cases hlookup : w.lookup <;>
      simp [selectInput, charsOf, chars, charsOf_flatMap, hempty, hlookup]

/-- The linked text of a label is put together before it is pushed. -/
theorem toList_linkText (f : Field) (l : Label) :
    (linkText f l).toList = charsOf (labelLink f l) := by
  unfold linkText labelLink
  cases l.anchor with
  | false => simp [charsOf, chars]
  | true =>
      simp (disch := decide) [charsOf, chars, openTag, closeTag, attributeChars_verbatim,
        attributeChars_link]

theorem toList_tooltipText (f : Field) (l : Label) :
    (tooltipText f l).toList = charsOf (labelText f l) := by
  unfold tooltipText labelText
  cases l.definition with
  | none => exact toList_linkText f l
  | some definition =>
      simp (disch := decide) [charsOf, chars, openTag, closeTag, attributeChars_verbatim,
        toList_linkText]

/-- A label is pushed between its bounds and its help. -/
theorem pushes_label (f : Field) (l : Label) : Pushes (writeLabel f l) (charsOf (label f l)) := by
  refine ((Pushes.part fun c => @Pushes.push
      (charsOf [.element "span" [attr "class" "info label float-right"] [.text c], newline]) _
      ?_).seq
    ((@Pushes.push (charsOf [.element "label" [attr "for" f.id] (labelText f l)]) _ ?_).seq
    ((Pushes.part fun help => @Pushes.push
      (charsOf [.element "span"
        [⟨"data-tooltip", none⟩, attr "class" "has-tip float-right", attr "title" help]
        [.text " ", .element "i" [attr "class" "fi-info blue"] []]]) _ ?_).seq
    (@Pushes.push (charsOf [newline]) _ (by decide))))).of_eq ?_
  · simp (disch := decide) [charsOf, chars, openTag, closeTag, attributeChars_verbatim]
  · simp [charsOf, chars, openTag, closeTag, toList_tooltipText]
  · simp (disch := decide) [charsOf, chars, openTag, closeTag, attributeChars_verbatim]
  · unfold label
    cases l.cardinality <;> cases l.help <;> simp [charsOf]

theorem pushes_tabTitle (tab : Tab Fragment) :
    Pushes (writeTabTitle tab) (charsOf (tabTitle tab.id tab.label.text tab.active)) := by
  apply Pushes.push
  cases tab.active <;>
    simp (disch := decide) [tabTitle, charsOf, chars, openTag, closeTag, attributeChars_verbatim]

/-- The header of a record is pushed in pieces, the sign for removing it only if it can be
removed. -/
theorem pushes_instanceHeader (id header : String) (removable : Bool) :
    Pushes (writeInstanceHeader id header removable)
      (charsOf (instanceHeader id header removable)) := by
  refine ((Pushes.push rfl).seq ((Pushes.pushIf rfl).seq (.push rfl))).of_eq ?_
  cases removable <;>
    simp (disch := decide) [instanceHeader, charsOf, chars, openTag, closeTag,
      attributeChars_verbatim]

theorem charsOf_tabTitles (row : List (Tab Fragment)) :
    charsOf (tabTitles row) =
      row.flatMap fun tab => charsOf (tabTitle tab.id tab.label.text tab.active) := by
  induction row with
  | nil => rfl
  | cons tab rest ih => rw [tabTitles, charsOf_append, ih, List.flatMap_cons]

theorem pushes_addButton (r : RepeatState) : Pushes (writeAddButton r)
    (charsOf [.element "button" (attr "class" "addInputElement" :: attr "type" "button" ::
      flag (!r.addEnabled) "disabled") [.text "add record"], newline]) := by
  have htext : escapeChars "add record".toList = "add record".toList := by decide
  apply Pushes.push
  simp only [charsOf, chars, htext]
  simp (disch := decide) [openTag, closeTag, attributeChars_verbatim]

/-- The classes of a container need not be escaped, whatever field it is of. -/
theorem verbatim_wrapperClass (f : Field) (w : Widget Fragment) : Verbatim (wrapperClass f w) := by
  unfold wrapperClass
  refine .append (.append (.append ?_ ?_) ?_) ?_
  · split
    · exact .append (by decide) (verbatim_toString _)
    · decide
    · decide
  · split
    · decide
    · split <;> decide
  · split <;> decide
  · split <;> decide

/-- The start tag of a container is pushed in pieces, and behind it what stands above the field. -/
theorem pushes_wrapperHead (f : Field) (w : Widget Fragment) :
    Pushes (writeWrapperHead f w)
      (openTag "div" (wrapperAttributes f w) ++ charsOf (wrapperHead f)) := by
  refine ((@Pushes.push ("<div".toList ++ (attributeChars (attr "class" (wrapperClass f w)) ++
      (attributeChars (attr "id" f.id) ++ (attributeChars (attr "data-ontology-id" f.entityId) ++
        attributeChars (attr "data-field-path" f.path))))) _ ?_).seq
    ((@Pushes.pushIf _ _ (attributeChars (attr "data-array" "true")) (by decide)).seq
    ((@Pushes.push ['>', '\n'] _ (by decide)).seq
    ((Pushes.part pushes_addButton).seq (Pushes.part (pushes_label f)))))).of_eq ?_
  · simp [attributeChars_verbatim _ (verbatim_wrapperClass f w)]
  · cases harray : f.cardinality.arrayLike <;> cases hrepetition : f.repetition <;>
      cases hlabel : f.label <;>
      simp [openTag, wrapperAttributes, wrapperHead, charsOf, harray, hrepetition, hlabel]

end leaves

mutual
/-- The markup of a field is pushed as it stands in the tree. -/
theorem pushes_fragment : ∀ f : Fragment, Pushes (writeFragment f) (charsOf (fragment f))
  | ⟨f, widget, instances⟩ => by
      rw [writeFragment, fragment]
      split
      · refine ((pushes_wrapperHead f widget).seq ((pushes_body f widget).seq
          ((pushes_instances instances).seq pushes_divEnd))).of_eq ?_
        simp [charsOf, chars]
      · exact pushes_body f widget
theorem pushes_body (f : Field) : ∀ w : Widget Fragment,
    Pushes (writeBody f w) (charsOf (body f w))
  | .placeholder message => by
      rw [writeBody, body]
      apply Pushes.push
      simp (disch := decide) [charsOf, chars, openTag, closeTag, attributeChars_verbatim]
  | .diagnostic message => by
      rw [writeBody, body]
      apply Pushes.push
      simp (disch := decide) [charsOf, chars, openTag, closeTag, attributeChars_verbatim]
  | .group children => by
      rw [writeBody, body]
      refine ((@Pushes.push (openTag "div" [attr "class" "inputBlock"] ++ ['\n']) _
        (by decide)).seq ((pushes_fragments children).seq pushes_divEnd)).of_eq ?_
      simp [charsOf, chars]
  | .tabs tabs => by
      have htitles := Pushes.each fun tab (_ : tab ∈ tabs) => pushes_tabTitle tab
      rw [writeBody, body]
      refine ((@Pushes.push (openTag "ul" [attr "class" "tabs", ⟨"data-tabs", none⟩,
          attr "id" f.id] ++ ['\n']) _ ?_).seq (htitles.seq
        ((@Pushes.push (closeTag "ul" ++ ['\n']) _ (by decide)).seq
        ((@Pushes.push (openTag "div" [attr "class" "input-group tabs-content",
          attr "data-tabs-content" f.id] ++ ['\n']) _ ?_).seq
        ((pushes_tabPanels tabs).seq pushes_divEnd))))).of_eq ?_
      · simp (disch := decide) [openTag, attributeChars_verbatim]
      · simp (disch := decide) [openTag, attributeChars_verbatim]
      · simp [charsOf, chars, charsOf_tabTitles]
  | .text w => by
      rw [writeBody, body]
      exact pushes_textInput f w
  | .number w => by
      rw [writeBody, body]
      exact pushes_numberInput f w
  | .moment w => by
      rw [writeBody, body]
      exact pushes_momentInput f w
  | .boolean checked => by
      rw [writeBody, body]
      exact pushes_checkbox f checked
  | .select w => by
      rw [writeBody, body]
      exact pushes_selectInput f w
theorem pushes_fragments : ∀ row : List Fragment,
    Pushes (writeFragments row) (charsOf (fragments row))
  | [] => by
      rw [writeFragments, fragments]
      exact .skip
  | f :: rest => by
      rw [writeFragments, fragments, charsOf_append]
      exact (pushes_fragment f).seq (pushes_fragments rest)
theorem pushes_tabPanels : ∀ row : List (Tab Fragment),
    Pushes (writeTabPanels row) (charsOf (tabPanels row))
  | [] => by
      rw [writeTabPanels, tabPanels]
      exact .skip
  | ⟨id, _, _, active, content⟩ :: rest => by
      rw [writeTabPanels, tabPanels]
      refine ((@Pushes.push (openTag "div"
          [attr "class" (if active then "tabs-panel is-active" else "tabs-panel"),
            attr "id" id] ++ ['\n']) _ ?_).seq
        ((pushes_fragments content).seq (pushes_divEnd.seq (pushes_tabPanels rest)))).of_eq ?_
      · cases active <;> simp (disch := decide) [openTag, attributeChars_verbatim]
      · simp [charsOf, chars]
theorem pushes_instances : ∀ row : List (Instance Fragment),
    Pushes (writeInstances row) (charsOf (instancesOf row))
  | [] => by
      rw [writeInstances, instancesOf]
      exact .skip
  | ⟨id, header, removable, content⟩ :: rest => by
      rw [writeInstances, instancesOf]
      refine ((pushes_instanceHeader id header removable).seq
        ((@Pushes.push (openTag "div" [attr "class" "inputBlock", attr "id" id] ++ ['\n']) _
          ?_).seq
        ((pushes_fragments content).seq (pushes_divEnd.seq (pushes_instances rest))))).of_eq ?_
      · simp (disch := decide) [openTag, attributeChars_verbatim]
      · simp [charsOf, chars]
end

theorem pushes_form (f : Form) (row : List Fragment) : Pushes (writeForm f row)
    (charsOf [.element "form"
      [attr "id" "mainForm", attr "data-focus" f.focus,
        attr "data-generation" (toString f.generation)]
      (newline :: (fragments row ++ [submitButton, newline])), newline]) := by
  refine ((@Pushes.push (openTag "form" [attr "id" "mainForm", attr "data-focus" f.focus,
      attr "data-generation" (toString f.generation)] ++ ['\n']) _ ?_).seq
    ((pushes_fragments row).seq
    ((@Pushes.push (charsOf [submitButton, newline]) _ (by decide)).seq
    (@Pushes.push (closeTag "form" ++ ['\n']) _ (by decide))))).of_eq ?_
  · simp (disch := decide) [openTag, attributeChars_verbatim]
  · simp [charsOf, chars]

/-- What is pushed is the text of the markup tree. -/
theorem written_eq (f : Form) : written f = render (form f) := by
  unfold written form
  cases f.state with
  | noFieldSpecification =>
      apply String.toList_inj.mp
      rw [render, String.toList_ofList]
      simp (disch := decide) [charsOf, chars, openTag, closeTag, attributeChars_verbatim]
  | fields row =>
      simp only
      rw [pushes_form, String.empty_append]
      rfl

/-- The texts that are pushed for a form are the markup of its tree. Its tags pair up, whatever its
texts and values hold, if the indents of its options are well nested by themselves. Those of a form
that a session shows are. -/
theorem form_is_well_nested (f : Form) :
    written f = render (form f) ∧
      ((∀ c ∈ f.options, isWellNested c.indent = true) → isWellNested (written f) = true) ∧
      ∀ (d : Document) (s : Settings) (history : List Event),
        ((Session.start d s).run history).form = some f → isWellNested (written f) = true := by
  have hnested (h : ∀ c ∈ f.options, isWellNested c.indent = true) :
      isWellNested (written f) = true := by
    rw [written_eq]
    exact isWellNested_render (proper_form h)
  refine ⟨written_eq f, hnested, ?_⟩
  intro d s history hform
  have hindented := Form.indented_options ((Form.indented_lasting s).run hform)
  exact hnested fun c hc => (hindented c hc).isWellNested

/-- The tags of an indent may pair up, and a label that starts like a tag is none. -/
theorem tagged_texts_are_well_nested :
    let document : Document :=
      { specifications := ⟨[("note",
        { id := "note", datatype := some "xmls:string", label := some "<i" })]⟩ }
    let note : Form := (Form.compile {} document "note" 1).1
    (∀ c ∈ (oneOption "<i></i>").options, isWellNested c.indent = true) ∧
      isWellNested (written (oneOption "<i></i>")) = true ∧
      ((Session.start document {}).run [.select "note"]).form = some note ∧
      isWellNested (written note) = true := by
  intro document note
  have hoptions : ∀ c ∈ (oneOption "<i></i>").options, isWellNested c.indent = true := by
    have hindent : isWellNested "<i></i>" = true := by decide +kernel
    exact List.forall_mem_singleton.mpr hindent
  obtain ⟨_, hnested, _⟩ := form_is_well_nested (oneOption "<i></i>")
  obtain ⟨_, _, hshown⟩ := form_is_well_nested note
  exact ⟨hoptions, hnested hoptions, rfl, hshown document {} [.select "note"] rfl⟩

/-- An indent that starts like a tag takes the end of its option for one. -/
theorem tagged_indent_opens_a_tag : isWellNested (written (oneOption "<")) = false := by
  rw [written_eq, isWellNested, tags?, render, String.toList_ofList]
  decide +kernel

end EntryForm.Markup
