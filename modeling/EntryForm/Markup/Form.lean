import EntryForm.Form
import EntryForm.Markup.Basic
import EntryForm.Template

/-!
# Forms as markup
-/

namespace EntryForm

namespace Markup

/-- The text of a value in an attribute. -/
def valueText : Json → String
  | .null => ""
  | value => String.ofList value.plain

/-- The control for the units of a field. -/
def units : UnitSelector → List Markup
  | .none => []
  | .fixed unit =>
    [.element "span" [attr "class" "input-group-label small"] [.text unit.label]]
  | .choice id options =>
    [.element "div" [attr "class" "input-group-button"]
      [.element "select" [attr "class" "units", attr "id" id]
        (options.map fun u => .element "option" [attr "value" u.id] [.text u.label])]]

/-- Whether a value selects an option. -/
def selects (id : String) : Option Json → Bool
  | some (.str s) => s == id
  | some (.arr items) => items.any fun item => item.str? == some id
  | _ => false

/-- An option of a pick-list. Its indent is written as it stands. -/
def option (value : Option Json) (c : Choice) : List Markup :=
  [.element "option"
    (attr "value" c.id :: attr "class" ("depth" ++ toString c.depth) ::
      (attr? "data-synonyms" c.synonyms id ++ flag (selects c.id value) "selected"))
    [.raw c.indent, .text c.label], newline]

/-- The attributes that name a control and the field it belongs to. -/
def naming (f : Field) : List Attribute := [attr "id" f.id, attr "name" f.path]

/-- A box for a text, with its unit behind it. -/
def textInput (f : Field) (w : TextInput) : List Markup :=
  [.element "div" [attr "class" "input-group"]
    (.void "input"
      (attr "class" "input-group-field" :: attr "type" "text" ::
        (naming f ++ attr "placeholder" w.placeholder ::
          (attr? "minlength" w.minLength toString ++
          attr? "maxlength" w.maxLength toString ++
          attr? "pattern" w.pattern id ++
          attr? "size" w.size toString ++
          attr? "value" f.value valueText))) :: units w.units), newline]

/-- A box for a number, with its unit behind it. -/
def numberInput (f : Field) (w : NumberInput) : List Markup :=
  [.element "div" [attr "class" "input-group"]
    (.void "input"
      (attr "class" "input-group-field" :: attr "type" "number" ::
        (naming f ++ attr "data-number-type" w.family ::
          attr "placeholder" w.placeholder ::
          (attr? "min" w.range.min Number.text ++
          attr? "max" w.range.max Number.text ++
          attr? "step" w.step id ++
          attr? "pattern" w.pattern id ++
          attr? "value" f.value valueText))) :: units w.units), newline]

/-- A box for a date or a time, behind a calendar sign. -/
def momentInput (f : Field) (w : MomentInput) : List Markup :=
  [.element "div" [attr "class" "input-group date"]
    (.element "div" [attr "class" "input-group-label prefix"]
      [.element "i" [attr "class" "fi fi-calendar"] []] ::
    .void "input"
      (attr "class" "input-group-field prefix" :: attr "type" "text" ::
        (naming f ++ attr "data-date-format" w.format ::
          attr "placeholder" w.placeholder :: attr? "value" f.value valueText)) ::
    units w.units), newline]

/-- A box that is checked if it was from the start or its value is true. -/
def checkbox (f : Field) (checked : Bool) : List Markup :=
  let on := checked || (match f.value with | some (.bool b) => b | _ => false)
  [.element "div" [attr "class" "switch small"]
    [.void "input"
      (attr "class" "switch-input" :: attr "type" "checkbox" ::
        (naming f ++ flag on "checked")),
      .element "label" [attr "class" "switch-paddle", attr "for" f.id] []], newline]

/-- A pick-list, with a link to its choices if these can be looked up. -/
def selectInput (f : Field) (w : SelectInput) : List Markup :=
  [.element "div" [attr "class" "input-group"]
    (.element "select"
      (attr "class" "input-group-field regular" ::
        (naming f ++ flag w.multiple "multiple" ++
          (if w.allowDeselect then [attr "data-allow-deselect" "true"] else []) ++
          attr? "data-max-selections" w.maxSelections toString))
      (newline ::
        ((if w.allowEmpty then [.element "option" [attr "value" ""] [], newline] else []) ++
          w.options.flatMap (option f.value))) ::
    (if w.lookup then
      [.element "a" [attr "class" "input-group-label", attr "data-lookup" f.entityId]
        [.text "lookup choices"]]
    else [])), newline]

/-- The classes of the container of a field. -/
def wrapperClass (f : Field) (w : Widget Fragment) : String :=
  (match w with
    | .group _ => "field-wrapper model children depth" ++ toString f.depth
    | .tabs _ => "field-wrapper input-tabs"
    | _ => "field-wrapper field") ++
  (if f.cardinality.required then " required"
    else if f.cardinality.isOptional then " optional" else "") ++
  (if f.collapsible && !f.collapsed then " open" else "") ++
  (if f.collapsed then " collapsed" else "")

/-- The text of a label, in a link to the entity of the field if it has an anchor. -/
def labelLink (f : Field) (l : Label) : List Markup :=
  if l.anchor then
    [.element "a" [attr "href" ("#" ++ f.entityId)]
      [.element "i" [attr "class" "fi-magnifying-glass"] [], .text " ", .text l.text]]
  else [.text l.text]

/-- The text of a label, with the tooltip of its definition around it. -/
def labelText (f : Field) (l : Label) : List Markup :=
  match l.definition with
  | some definition =>
    [.element "span"
      [⟨"data-tooltip", none⟩, attr "class" "has-tip top left", attr "title" definition]
      (labelLink f l)]
  | none => labelLink f l

/-- The label of a field, with its tooltips around and after it. -/
def label (f : Field) (l : Label) : List Markup :=
  (match l.cardinality with
    | some c =>
      [.element "span" [attr "class" "info label float-right"] [.text c], newline]
    | none => []) ++
  [.element "label" [attr "for" f.id] (labelText f l)] ++
  (match l.help with
    | some help =>
      [.element "span"
        [⟨"data-tooltip", none⟩, attr "class" "has-tip float-right",
          attr "title" help]
        [.text " ", .element "i" [attr "class" "fi-info blue"] []]]
    | none => []) ++
  [newline]

/-- The title of a tab. -/
def tabTitle (id text : String) (active : Bool) : List Markup :=
  [.element "li"
    [attr "class" (if active then "tabs-title is-active" else "tabs-title")]
    [.element "a"
      (attr "href" ("#" ++ id) ::
        (if active then [attr "aria-selected" "true"] else []))
      [.text text]], newline]

/-- What stands above the body of an instance. -/
def instanceHeader (id header : String) (removable : Bool) : List Markup :=
  [.element "div" [attr "class" "inputBlockSeparator"]
    ((if removable then
      [.element "i"
        [attr "class" "removeInputElement fi-x-circle", attr "data-instance" id] []]
    else []) ++ [.element "label" [] [.text header]]), newline]

/-- What stands in the container of a field before its body. -/
def wrapperHead (f : Field) : List Markup :=
  newline ::
    ((match f.repetition with
      | some r =>
        [.element "button"
          (attr "class" "addInputElement" :: attr "type" "button" ::
            flag (!r.addEnabled) "disabled")
          [.text "add record"], newline]
      | none => []) ++
    (match f.label with
      | some l => label f l
      | none => []))

/-- The attributes of the container of a field. -/
def wrapperAttributes (f : Field) (w : Widget Fragment) : List Attribute :=
  attr "class" (wrapperClass f w) :: attr "id" f.id ::
    attr "data-ontology-id" f.entityId :: attr "data-field-path" f.path ::
    (if f.cardinality.arrayLike then [attr "data-array" "true"] else [])

mutual
/-- A field, in a container of its own if it is wrapped. -/
def fragment : Fragment → List Markup
  | ⟨f, widget, instances⟩ =>
    if f.wrapped then
      [.element "div" (wrapperAttributes f widget)
        (wrapperHead f ++ (body f widget ++ instancesOf instances)), newline]
    else body f widget
/-- The widget of a field. -/
def body (f : Field) : Widget Fragment → List Markup
  | .placeholder message =>
    [.element "span" [attr "class" "small"] [.element "i" [] [.text message]], newline]
  | .diagnostic message =>
    [.element "div" [attr "class" "callout alert small"] [.text message], newline]
  | .group children =>
    [.element "div" [attr "class" "inputBlock"] (newline :: fragments children), newline]
  | .tabs tabs =>
    [.element "ul" [attr "class" "tabs", ⟨"data-tabs", none⟩, attr "id" f.id]
      (newline :: tabTitles tabs), newline,
    .element "div"
      [attr "class" "input-group tabs-content", attr "data-tabs-content" f.id]
      (newline :: tabPanels tabs), newline]
  | .text w => textInput f w
  | .number w => numberInput f w
  | .moment w => momentInput f w
  | .boolean checked => checkbox f checked
  | .select w => selectInput f w
def fragments : List Fragment → List Markup
  | [] => []
  | f :: rest => fragment f ++ fragments rest
def tabTitles : List (Tab Fragment) → List Markup
  | [] => []
  | ⟨id, _, label, active, _⟩ :: rest => tabTitle id label.text active ++ tabTitles rest
/-- The panels of a row of tabs, with what is in them. -/
def tabPanels : List (Tab Fragment) → List Markup
  | [] => []
  | ⟨id, _, _, active, content⟩ :: rest =>
    [.element "div"
      [attr "class" (if active then "tabs-panel is-active" else "tabs-panel"),
        attr "id" id]
      (newline :: fragments content), newline] ++ tabPanels rest
/-- The records of a field, each under its header. -/
def instancesOf : List (Instance Fragment) → List Markup
  | [] => []
  | ⟨id, header, removable, content⟩ :: rest =>
    instanceHeader id header removable ++
      [.element "div" [attr "class" "inputBlock", attr "id" id]
        (newline :: fragments content), newline] ++ instancesOf rest
end

/-- The button that shows the submission. -/
def submitButton : Markup :=
  .void "input"
    [attr "id" "buttonFormSubmit", attr "class" "button float-center",
      attr "type" "button", attr "value" "View Form Submission"]

/-- A form, or a notice if it has no field specification. -/
def form (f : Form) : List Markup :=
  match f.state with
  | .noFieldSpecification =>
    [.element "p" [attr "class" "small"]
      [.element "i" [] [.text noFieldSpecification]], newline]
  | .fields row =>
    [.element "form"
      [attr "id" "mainForm", attr "data-focus" f.focus,
        attr "data-generation" (toString f.generation)]
      (newline :: (fragments row ++ [submitButton, newline])), newline]

end Markup

end EntryForm
