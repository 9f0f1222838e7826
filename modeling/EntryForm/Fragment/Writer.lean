import EntryForm.Fragment.Basic

/-!
# Fragments as JSON
-/

namespace EntryForm

namespace Cardinality

def toJson (c : Cardinality) : Json :=
  .obj
    [("min", .option .nat c.min), ("max", .option .nat c.max), ("required", .bool c.required),
      ("label", .option .str c.label), ("array_like", .bool c.arrayLike),
      ("constrained", .bool c.constrained), ("repeatable", .bool c.repeatable)]

end Cardinality

namespace RepeatState

def toJson (s : RepeatState) : Json :=
  .obj
    [("count", .nat s.count), ("min", .option .nat s.min), ("max", .option .nat s.max),
      ("addEnabled", .bool s.addEnabled)]

end RepeatState

namespace Label

def toJson (l : Label) : Json :=
  .obj
    (("text", .str l.text) ::
      (Json.field? "definition" l.definition .str ++
      Json.field? "help" l.help .str ++
      ("anchor", .bool l.anchor) ::
      Json.field? "cardinality" l.cardinality .str))

end Label

namespace Choice

def toJson (c : Choice) : Json :=
  .obj
    (("id", .str c.id) :: ("label", .str c.label) :: ("depth", .nat c.depth) ::
      ("indent", .str c.indent) ::
      (Json.field? "synonyms" c.synonyms .str ++
      Json.field? "hidden_count" c.hiddenCount .nat ++
      Json.field? "diagnostic" c.diagnostic .str))

end Choice

namespace UnitSelector

def optionToJson (u : UnitOption) : Json :=
  .obj [("id", .str u.id), ("label", .str u.label)]

def toJson : UnitSelector → Json
  | .none => .obj [("type", .str "none")]
  | .fixed unit => .obj [("type", .str "static"), ("id", .str unit.id), ("label", .str unit.label)]
  | .choice id options =>
    .obj [("type", .str "choice"), ("id", .str id), ("options", .arr (options.map optionToJson))]

/-- The field for the units of a widget, left out if it has none. -/
def field? : UnitSelector → List (String × Json)
  | .none => []
  | units => [("units", units.toJson)]

end UnitSelector

namespace Fragment

/-- The fields of a widget that holds no fragments, and of any other widget its name. -/
def inputFields : Widget Fragment → List (String × Json)
  | .placeholder message => [("widget", .str "placeholder"), ("message", .str message)]
  | .diagnostic message => [("widget", .str "diagnostic"), ("message", .str message)]
  | .group _ => [("widget", .str "group")]
  | .tabs _ => [("widget", .str "tabs")]
  | .text w =>
    ("widget", .str "text") ::
      (Json.field? "minLength" w.minLength .nat ++
      Json.field? "maxLength" w.maxLength .nat ++
      Json.field? "pattern" w.pattern .str ++
      Json.field? "size" w.size .nat ++
      ("placeholder", .str w.placeholder) :: w.units.field?)
  | .number w =>
    ("widget", .str "number") :: ("family", .str w.family) ::
      (Json.field? "min" w.range.min .num ++
      Json.field? "max" w.range.max .num ++
      Json.field? "step" w.step .str ++
      Json.field? "pattern" w.pattern .str ++
      ("placeholder", .str w.placeholder) :: w.units.field?)
  | .moment w =>
    ("widget", .str "dateTime") :: ("format", .str w.format) ::
      ("placeholder", .str w.placeholder) :: w.units.field?
  | .boolean checked => [("widget", .str "boolean"), ("checked", .bool checked)]
  | .select w =>
    [("widget", .str "select"), ("options", .arr (w.options.map Choice.toJson)),
      ("multiple", .bool w.multiple), ("allowEmpty", .bool w.allowEmpty),
      ("allowDeselect", .bool w.allowDeselect), ("lookup", .bool w.lookup)] ++
      Json.field? "maxSelections" w.maxSelections .nat

mutual
/-- A fragment in JSON. What is absent or empty is left out. -/
def toJson : Fragment → Json
  | ⟨f, widget, instances⟩ =>
    .obj
      (("id", .str f.id) :: ("entityId", .str f.entityId) ::
        ("entityPath", .strings f.entityPath) :: ("fieldPath", .str f.path) ::
        ("depth", .nat f.depth) ::
        (Json.field? "label" f.label Label.toJson ++
        ("cardinality", f.cardinality.toJson) :: ("wrapped", .bool f.wrapped) ::
        ("collapsible", .bool f.collapsible) :: ("collapsed", .bool f.collapsed) ::
        (Json.field? "value" f.value id ++
        Json.field? "repeat" f.repetition RepeatState.toJson ++
        (if instances.isEmpty then [] else [("instances", .arr (instancesToJson instances))]) ++
        [("widget", .obj (widgetFields widget))])))
/-- The fields of a widget, of which the first names its sort. -/
def widgetFields : Widget Fragment → List (String × Json)
  | .group children =>
    [("widget", .str "group"), ("children", .arr (listToJson children))]
  | .tabs tabs => [("widget", .str "tabs"), ("tabs", .arr (tabsToJson tabs))]
  | w => inputFields w
def listToJson : List Fragment → List Json
  | [] => []
  | f :: rest => toJson f :: listToJson rest
def tabsToJson : List (Tab Fragment) → List Json
  | [] => []
  | ⟨id, entityId, label, active, fragments⟩ :: rest =>
    .obj
      [("id", .str id), ("entityId", .str entityId), ("label", label.toJson),
        ("active", .bool active), ("fragments", .arr (listToJson fragments))] :: tabsToJson rest
def instancesToJson : List (Instance Fragment) → List Json
  | [] => []
  | ⟨id, header, removable, fragments⟩ :: rest =>
    .obj
      [("id", .str id), ("header", .str header), ("removable", .bool removable),
        ("fragments", .arr (listToJson fragments))] :: instancesToJson rest
end

end Fragment

namespace Instance

def toJson (i : Instance Fragment) : Json :=
  .obj
    [("id", .str i.id), ("header", .str i.header), ("removable", .bool i.removable),
      ("fragments", .arr (Fragment.listToJson i.fragments))]

end Instance

end EntryForm
