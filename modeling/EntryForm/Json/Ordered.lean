import EntryForm.Json.Shape
import EntryForm.OrderedMap

/-!
# Objects that keep their order
-/

namespace EntryForm

namespace OrderedMap
variable {α : Type}

/-- Reads entries one after the other into a map. -/
def readEntries (read : Reading → Except ShapeError α) (map : OrderedMap α) :
    List (Option String × Reading) → Except ShapeError (OrderedMap α)
  | [] => .ok map
  | (none, _) :: _ => .error .notJson
  | (some key, value) :: rest => do
    let a ← read value
    readEntries read (map.insert key a) rest

/-- Reads an object, a key keeping its first place and its last value. -/
def read (item : Reading → Except ShapeError α) : Reading → Except ShapeError (OrderedMap α)
  | .obj fields ending => do
    let map ← readEntries item empty fields
    Reading.ended ending
    pure map
  | r => .error (r.notObject "a map of entity ids to entities")

def toJson (f : α → Json) (map : OrderedMap α) : Json :=
  .obj (map.entries.map fun entry => (entry.1, f entry.2))

end OrderedMap

end EntryForm
