import EntryForm.Fragment.Basic
import EntryForm.Settings

/-!
# From entities to fragments

Every entity has fragments, whatever its kind: one that is at fault gets a fragment that says
so. `Entity.compile` gives an entity its label and container, `Entity.compileBody` leaves them
out, for one more instance of a repeated field.
-/

namespace EntryForm

/-- The validators that are known by name. -/
def presetPatterns : List String :=
  ["alpha", "alpha_numeric", "title", "integer", "number", "decimal", "float", "email", "url",
    "domain", "datetime", "date", "time", "dateISO", "month_day_year"]

/-- A pattern that must match the whole value, or the name of a validator. -/
def patternAttribute (pattern : String) : String :=
  if presetPatterns.contains pattern then pattern else "^" ++ pattern ++ "$"

/-- What stands for an entity without datatype. -/
def needsValueSpecification : String :=
  "This specification component needs a \"value specification\" so that it can be rendered."

namespace Facts

/-- The name of the datatype without its lead. -/
def placeholder (e : Facts) : String :=
  let tag := e.datatype.getD ""
  match Text.cut? ':' tag.toList with
  | some (_, name) => String.ofList name
  | none => tag

/-- The label of a field. Quotes in the definition become pairs of apostrophes. -/
def fieldLabel (s : Settings) (e : Facts) (c : Cardinality) : Label :=
  { text := e.displayLabel?.getD ""
    definition := e.displayDefinition?.map fun text =>
      String.ofList (text.toList.flatMap fun c => if c = '"' then ['\'', '\''] else [c])
    help := e.help
    anchor := s.ontologyDetails && decide (0 < e.depth)
    cardinality := if s.ontologyDetails then c.label else none }

/-- The bounds an entity sets to its values. -/
def range (e : Facts) : Range := ⟨e.minValue, e.maxValue⟩

/-- The width of a step that reaches all values with as many places as a number. -/
def stepFor? : Number → Option String
  | .int _ => none
  | .real x =>
    match Text.cut? '.' (Number.real x).display with
    | none => none
    | some (_, fraction) =>
      match (fraction.reverse.dropWhile (· == '0')).length with
      | 0 => none
      | n + 1 => some (String.ofList ('0' :: '.' :: (List.replicate n '0' ++ ['1'])))

/-- The step of a number field. -/
def step? (kind : NumberKind) (e : Facts) : Option String :=
  if kind.isInteger then some "1"
  else
    match e.minValue with
    | some n => stepFor? n
    | none => some "0.0001"

end Facts

namespace Entity

/-- The text input of a node. Below 40 characters, the limit of length sets the size of the box. -/
def textInput (e : Entity) (id : String) : TextInput :=
  { minLength := e.minLength
    maxLength := e.maxLength
    pattern := e.pattern.map patternAttribute
    size := (e.maxLength.filter (· < 40)).map (· + 2)
    placeholder := e.placeholder
    units := UnitSelector.ofEntity e id }

/-- The number input of a node: the bounds of its datatype, narrowed by its own. -/
def numberInput (e : Entity) (kind : NumberKind) (id : String) : NumberInput :=
  { family := kind.family
    range := (Range.ofKind kind).narrow e.range
    step := e.step? kind
    pattern := some ((e.pattern.map patternAttribute).getD kind.family)
    placeholder := kind.family
    units := UnitSelector.ofEntity e id }

/-- The picker of a date or a time, in the format that the node asks for. -/
def momentInput (e : Entity) (kind : DateTimeKind) (id : String) : MomentInput :=
  { format := (e.featureText? "format").getD kind.defaultFormat
    placeholder := e.placeholder
    units := UnitSelector.ofEntity e id }

/-- Whether several options of a pick-list can be chosen. -/
def isMultiple (e : Facts) : Bool :=
  e.maxCardinality != some 1 || e.minCardinality.any (1 < ·)

/-- The pick-list of a node. Only a list of which one option is chosen has an empty one. -/
def selectInput (s : Settings) (e : Entity) : PassM SelectInput := do
  let flat ← e.flatten s.synonymFields (e.cutDepth s.defaultCutDepth) 0
  let multiple := isMultiple e.toFacts
  pure
    { options := flat.toList
      multiple
      allowEmpty := !multiple
      allowDeselect := e.minCardinality.all (· == 0)
      lookup := (e.feature? "lookup").isSome
      maxSelections := if multiple then e.maxCardinality else none }

/-- The number input, with a warning if no number fits its bounds. -/
def numberWidget (e : Entity) (kind : NumberKind) (id : String) : PassM (Widget Fragment) := do
  let input := e.numberInput kind id
  match input.range.crossed? with
  | some (lo, hi) => Pass.warn (.emptyRange e.id lo hi)
  | none => pure ()
  pure (.number input)

/-- The field of an entity with a widget. Without wrapper it has no label and is neither
repeated nor closed. -/
def field (s : Settings) (e : Facts) (wrapped inTab : Bool) (id : String)
    (widget : Widget Fragment) : Field :=
  let cardinality := Cardinality.ofBounds e.minCardinality e.maxCardinality widget.isSelect
  let collapsible :=
    s.minimalForm && wrapped && cardinality.isOptional && !inTab && widget.isInput
  let field : Field :=
    { id
      entityId := e.id
      entityPath := e.entityPath
      path := e.fieldPath
      depth := e.depth
      label := if wrapped then some (e.fieldLabel s cardinality) else none
      cardinality
      wrapped
      collapsible
      collapsed := false
      value := e.value
      repetition :=
        if wrapped && cardinality.repeatable then
          some (RepeatState.start e.minCardinality e.maxCardinality)
        else none }
  { field with collapsed := collapsible && !field.hasContent }

/-- One more instance of an entity, with a body and a number. -/
def recordOf (e : Facts) (body : PassM (List Fragment)) (removable : Bool) (number : Nat) :
    PassM (Instance Fragment) := do
  let id ← Pass.nextId (e.id ++ "_record")
  pure ⟨id, recordHeader number, removable, ← body⟩

/-- Whether all instances that the bounds fix are shown from the start. Only inputs and groups
have a body that can be repeated, and pick-lists hold several choices themselves. -/
def isFillable (widget : Widget Fragment) : Bool :=
  !widget.isSelect && (widget.isInput || widget.isGroup)

/-- A fragment around a widget. With a body it is wrapped, and filled with as many instances of
the body as the bounds fix. -/
def fragment (s : Settings) (e : Facts) (body : Option (PassM (List Fragment)))
    (widget : String → PassM (Widget Fragment)) : PassM Fragment := do
  let id ← Pass.nextId e.id
  let widget ← widget id
  let field := field s e body.isSome (← Pass.inTab) id widget
  let instances ←
    match body, isFillable widget, field.cardinality.fixedSlots with
    | some body, true, some slots =>
      (List.range' 2 (slots - 1)).mapM (recordOf e body false)
    | _, _, _ => pure []
  pure ⟨field, widget, instances⟩

/-- A fragment that says what is wrong with an entity. -/
def diagnostic (s : Settings) (e : Facts) (message : String) : PassM Fragment :=
  fragment s e (some (pure [])) fun _ => pure (.diagnostic message)

/-- The tab set of a disjunction, which has neither label nor repetition of its own. -/
def tabSet (s : Settings) (e : Facts) (tabs : String → PassM (List (Tab Fragment))) :
    PassM Fragment := do
  let frame ← fragment s e (some (pure [])) fun _ => pure (.tabs [])
  let tabs ← tabs frame.id
  pure ⟨{ frame.toField with label := none, repetition := none }, .tabs tabs, []⟩

/-- The tab set of a disjunction, or what is wrong with it if it has no branches. -/
def disjunction (s : Settings) (e : Entity) (tabs : String → PassM (List (Tab Fragment))) :
    PassM Fragment := do
  if e.components.isEmpty then
    Pass.warn (.emptyDisjunction e.id)
    diagnostic s e.toFacts ("disjunction " ++ e.id ++ " has no branches")
  else tabSet s e.toFacts tabs

/-- The fragments of an entity, given those of its components. -/
def node (s : Settings) (e : Entity) (components : PassM (List Fragment))
    (tabs : String → PassM (List (Tab Fragment))) (body : Option (PassM (List Fragment))) :
    PassM (List Fragment) := do
  if e.boundsInverted then
    Pass.warn (.invertedCardinality e.id e.minCardinality e.maxCardinality)
  let single (widget : String → PassM (Widget Fragment)) : PassM (List Fragment) := do
    pure [← fragment s e.toFacts body widget]
  match e.kind with
  | .disjunction => do pure [← disjunction s e tabs]
  | .grouping =>
    let children ← components
    if children.isEmpty || body.isNone || e.displayLabel? = some Facts.noLabel then pure children
    else single fun _ => pure (.group children)
  | .unspecified => single fun _ => pure (.placeholder needsValueSpecification)
  | .unrecognized tag =>
    Pass.warn (.unrecognizedDatatype e.id tag)
    pure [← diagnostic s e.toFacts ("UNRECOGNIZED: " ++ e.id ++ " [" ++ tag ++ "]")]
  | .text _ => single fun id => pure (.text (e.textInput id))
  | .number kind => single (e.numberWidget kind)
  | .dateTime kind => single fun id => pure (.moment (e.momentInput kind id))
  | .boolean =>
    single fun _ => pure (.boolean (match e.value with | some (.bool b) => b | _ => false))
  | .categorical => single fun _ => do pure (.select (← selectInput s e))

/-- The fragments of an entity without label and container. -/
def bareNode (s : Settings) (e : Entity) (components : PassM (List Fragment))
    (tabs : String → PassM (List (Tab Fragment))) : PassM (List Fragment) :=
  node s e components tabs none

/-- The fragments of an entity with label and container. -/
def wrappedNode (s : Settings) (e : Entity) (components : PassM (List Fragment))
    (tabs : String → PassM (List (Tab Fragment))) : PassM (List Fragment) :=
  node s e components tabs (some (bareNode s e components tabs))

mutual
/-- The fragments of an entity, with those of its components inside. -/
def compile (s : Settings) : Entity → PassM (List Fragment)
  | ⟨facts, ⟨components⟩, choices, units⟩ =>
    wrappedNode s ⟨facts, ⟨components⟩, choices, units⟩ (compileAll s components)
      (compileTabs s components true)
/-- The fragments of a row of components, in document order. -/
def compileAll (s : Settings) : List (String × Entity) → PassM (List Fragment)
  | [] => pure []
  | (_, e) :: rest => do
    let fragments ← compile s e
    pure (fragments ++ (← compileAll s rest))
/-- The tabs of the branches, of which only the first is active. -/
def compileTabs (s : Settings) : List (String × Entity) → Bool → String →
    PassM (List (Tab Fragment))
  | [], _, _ => pure []
  | (key, branch) :: rest, first, parent => do
    let id ← Pass.nextPanelId parent key
    let fragments ← Pass.withinTab (compile s branch)
    let cardinality := Cardinality.ofBounds branch.minCardinality branch.maxCardinality false
    let tab : Tab Fragment :=
      ⟨id, branch.id, branch.fieldLabel s cardinality, first, fragments⟩
    pure (tab :: (← compileTabs s rest false parent))
end

/-- The body of one more instance of an entity. -/
def compileBody (s : Settings) (e : Entity) : PassM (List Fragment) :=
  bareNode s e (compileAll s e.components.entries) (compileTabs s e.components.entries true)

/-- An entity as a tab set of its components, whatever its kind. -/
def compileDisjunction (s : Settings) (e : Entity) : PassM Fragment :=
  disjunction s e (compileTabs s e.components.entries true)

/-- One more instance of an entity. -/
def compileRecord (s : Settings) (e : Entity) (number : Nat) (removable : Bool) :
    PassM (Instance Fragment) :=
  recordOf e.toFacts (compileBody s e) removable number

end Entity

end EntryForm
