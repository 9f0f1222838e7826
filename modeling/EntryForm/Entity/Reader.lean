import EntryForm.Entity.Basic
import EntryForm.Json.Shape

/-!
# Reading and writing entities

An entity is an object. Each of its own keys may occur once and is read as its type says; all
other keys are kept as they are. `Entity.toJson` writes the keys in a fixed order and leaves
out what is absent.
-/

namespace EntryForm

namespace Feature

/-- A feature is an object, or a list with at most one item, the value. -/
def shape : RecordShape Feature where
  name := "struct Feature"
  fields := ["value"]
  absent _ := .ok ()
  read _ value _ := do pure ⟨← value.optional Reading.toJson⟩

/-- A feature is read from an object, or from an array with its value. -/
def read (r : Reading) : Except ShapeError Feature :=
  shape.toRecord ⟨none⟩ r

def toJson (f : Feature) : Json :=
  .obj (Json.field? "value" f.value id)

/-- Reads features by name, the last of equal names winning. -/
def readFields (features : Fields Feature) :
    List (Option String × Reading) → Except ShapeError (Fields Feature)
  | [] => .ok features
  | (none, _) :: _ => .error .notJson
  | (some name, value) :: rest => do
    let feature ← read value
    readFields (features.insert name feature) rest

/-- The features of a node, by name. -/
def readAll : Reading → Except ShapeError (Fields Feature)
  | .obj fields ending => do
    let features ← readFields [] fields
    Reading.ended ending
    pure features
  | r => .error (r.notObject "a map")

end Feature

namespace Facts

/-- Reads one of the keys that do not hold nodes. -/
def readField (key : String) (value : Reading) (e : Facts) : Except ShapeError Facts :=
  match key with
  | "id" => do pure { e with id := ← value.toStr }
  | "datatype" => do pure { e with datatype := ← value.optional Reading.toStr }
  | "uiLabel" => do pure { e with uiLabel := ← value.optional Reading.toStr }
  | "label" => do pure { e with label := ← value.optional Reading.toStr }
  | "uiDefinition" => do pure { e with uiDefinition := ← value.optional Reading.toStr }
  | "definition" => do pure { e with definition := ← value.optional Reading.toStr }
  | "help" => do pure { e with help := ← value.optional Reading.toStr }
  | "features" => do pure { e with features := ← Feature.readAll value }
  | "minValue" => do pure { e with minValue := ← value.optional Reading.toNumber }
  | "maxValue" => do pure { e with maxValue := ← value.optional Reading.toNumber }
  | "minLength" => do pure { e with minLength := ← value.optional Reading.toUInt64 }
  | "maxLength" => do pure { e with maxLength := ← value.optional Reading.toUInt64 }
  | "pattern" => do pure { e with pattern := ← value.optional Reading.toStr }
  | "minCardinality" => do pure { e with minCardinality := ← value.optional Reading.toUInt32 }
  | "maxCardinality" => do pure { e with maxCardinality := ← value.optional Reading.toUInt32 }
  | "name" => do pure { e with name := ← value.optional Reading.toStr }
  | _ => do pure { e with value := ← value.optional Reading.toJson }

end Facts

namespace Entity

/-- The keys an entity knows. -/
def keys : List String :=
  ["id", "datatype", "uiLabel", "label", "uiDefinition", "definition", "help", "features",
    "components", "choices", "units", "minValue", "maxValue", "minLength", "maxLength",
    "pattern", "minCardinality", "maxCardinality", "name", "value"]

mutual
/-- An entity is read from an object. -/
def read : Reading → Except ShapeError Entity
  | .obj fields ending => do
    let e ← readFields [] {} fields
    Reading.ended ending
    pure e
  | r => .error (r.notObject "struct Entity")
/-- Reads the fields of an entity into it, after the known keys `seen`. -/
def readFields (seen : List String) (e : Entity) :
    List (Option String × Reading) → Except ShapeError Entity
  | [] => .ok e
  | (none, _) :: _ => .error .notJson
  | (some key, value) :: rest =>
    if !keys.contains key then do
      let v ← value.toJson
      readFields seen { e with extra := e.extra.insert key v } rest
    else if seen.contains key then .error (.duplicateField key)
    else if key = "components" then do
      let components ← readMap value
      readFields (key :: seen) { e with components } rest
    else if key = "choices" then do
      let choices ← readMap value
      readFields (key :: seen) { e with choices } rest
    else if key = "units" then do
      let units ← readList value
      readFields (key :: seen) { e with units } rest
    else do
      let facts ← e.toFacts.readField key value
      readFields (key :: seen) { e with toFacts := facts } rest
/-- Reads entities by key, a key keeping its first place and its last value. -/
def readMap : Reading → Except ShapeError (OrderedMap Entity)
  | .obj fields ending => do
    let map ← readEntries .empty fields
    Reading.ended ending
    pure map
  | r => .error (r.notObject "a map of entity ids to entities")
/-- Reads the nodes of a map behind those that are there already. -/
def readEntries (map : OrderedMap Entity) :
    List (Option String × Reading) → Except ShapeError (OrderedMap Entity)
  | [] => .ok map
  | (none, _) :: _ => .error .notJson
  | (some key, value) :: rest => do
    let e ← read value
    readEntries (map.insert key e) rest
/-- A list of nodes is read from an array. -/
def readList : Reading → Except ShapeError (List Entity)
  | .arr items ending => do
    let list ← readItems items
    Reading.ended ending
    pure list
  | r => .error (r.notArray "a sequence")
def readItems : List Reading → Except ShapeError (List Entity)
  | [] => .ok []
  | item :: items => do
    let e ← read item
    let list ← readItems items
    pure (e :: list)
end

/-- Reads the text of an entity, keeping the order of its components and choices. -/
def ofText (text : String) : Except ShapeError Entity :=
  readText read text

/-- A field that is left out if it has no entries. -/
def entriesField (key : String) (fields : List (String × Json)) : List (String × Json) :=
  if fields.isEmpty then [] else [(key, .obj fields)]

mutual
/-- An entity in JSON: its own fields in their order, then those that are not known. -/
def toJson : Entity → Json
  | ⟨e, ⟨components⟩, ⟨choices⟩, units⟩ =>
    .obj
      (("id", .str e.id) ::
        (Json.field? "datatype" e.datatype .str ++
        Json.field? "uiLabel" e.uiLabel .str ++
        Json.field? "label" e.label .str ++
        Json.field? "uiDefinition" e.uiDefinition .str ++
        Json.field? "definition" e.definition .str ++
        Json.field? "help" e.help .str ++
        entriesField "features" (e.features.map fun f => (f.1, f.2.toJson)) ++
        entriesField "components" (entriesToJson components) ++
        entriesField "choices" (entriesToJson choices) ++
        (if units.isEmpty then [] else [("units", .arr (listToJson units))]) ++
        Json.field? "minValue" e.minValue .num ++
        Json.field? "maxValue" e.maxValue .num ++
        Json.field? "minLength" e.minLength .nat ++
        Json.field? "maxLength" e.maxLength .nat ++
        Json.field? "pattern" e.pattern .str ++
        Json.field? "minCardinality" e.minCardinality .nat ++
        Json.field? "maxCardinality" e.maxCardinality .nat ++
        Json.field? "name" e.name .str ++
        Json.field? "value" e.value id ++
        e.extra))
def entriesToJson : List (String × Entity) → List (String × Json)
  | [] => []
  | (key, e) :: rest => (key, toJson e) :: entriesToJson rest
def listToJson : List Entity → List Json
  | [] => []
  | e :: rest => toJson e :: listToJson rest
end

/-- The compact text of an entity. -/
def text (e : Entity) : String := e.toJson.compact

end Entity

end EntryForm
