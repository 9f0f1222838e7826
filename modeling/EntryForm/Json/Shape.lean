import EntryForm.Json.Printer
import EntryForm.Json.Reading
import EntryForm.Text.Visible

/-!
# Taking values of an expected shape out of a reading

Whoever reads reports the first fault it meets: either the text stops being JSON, or a value
has another shape than expected.
-/

namespace EntryForm

/-- What stands where something else was expected. -/
inductive Found
  | number (value : Number)
  | bool (value : Bool)
  | str (value : String)
  | null
  | sequence
  | map
  deriving DecidableEq, Repr

/-- Why a reading does not give a value of the expected shape. -/
inductive ShapeError
  /-- The text is not JSON. -/
  | notJson
  | wrongType (found : Found) (expected : String)
  | outOfRange (value : Int) (expected : String)
  | missingField (name : String)
  | duplicateField (name : String)
  | wrongLength (length : Nat) (expected : String)
  /-- A record's id is neither text nor number. -/
  | badId (found : Json)
  deriving Repr

namespace Found

/-- What has been found, as an error tells it. -/
def describe : Found → String
  | .number (.int i) => "integer `" ++ String.ofList (Number.intChars i) ++ "`"
  | .number (.real x) => "floating point `" ++ String.ofList (Number.real x).chars ++ "`"
  | .bool b => "boolean `" ++ toString b ++ "`"
  | .str s => "string " ++ Text.quoted s
  | .null => "null"
  | .sequence => "sequence"
  | .map => "map"

end Found

namespace ShapeError

/-- The message of a fault in the data; faults of the text have none. -/
def message? : ShapeError → Option String
  | .notJson => none
  | .wrongType found expected =>
    some ("invalid type: " ++ found.describe ++ ", expected " ++ expected)
  | .outOfRange i expected =>
    some ("invalid value: " ++ (Found.number (.int i)).describe ++ ", expected " ++ expected)
  | .missingField name => some ("missing field `" ++ name ++ "`")
  | .duplicateField name => some ("duplicate field `" ++ name ++ "`")
  | .wrongLength n expected =>
    some ("invalid length " ++ toString n ++ ", expected " ++ expected)
  | .badId found =>
    some ("resource id must be a string or number, got " ++ found.compact)

end ShapeError

namespace Reading

/-- What a reading is found to be, if its text holds together that far. -/
def found? : Reading → Option Found
  | .null => some .null
  | .bool b => some (.bool b)
  | .num n => n.map .number
  | .str s => s.map .str
  | .arr _ _ => some .sequence
  | .obj _ _ => some .map
  | .deep (.arr _ _) => some .sequence
  | .deep _ => some .map
  | .fault => none

/-- The error of a reading that is not what was expected. -/
def mismatch (expected : String) (r : Reading) : ShapeError :=
  match r.found? with
  | some found => .wrongType found expected
  | none => .notJson

/-- The error of a reading that is no array. An array that lies too deep is a fault of the text. -/
def notArray (expected : String) : Reading → ShapeError
  | .deep (.arr _ _) => .notJson
  | r => r.mismatch expected

/-- The error of a reading that is no object. -/
def notObject (expected : String) : Reading → ShapeError
  | .deep (.obj _ _) => .notJson
  | r => r.mismatch expected

/-- The error of a reading that may be of any kind, but is not the one expected. -/
def notRecord (expected : String) : Reading → ShapeError
  | .deep _ => .notJson
  | r => r.mismatch expected

/-- The error of a row of parts that has no end, if it has none. -/
def ended (ending : Ending) : Except ShapeError Unit :=
  if ending = .missing then .error .notJson else .ok ()

def toStr : Reading → Except ShapeError String
  | .str (some s) => .ok s
  | r => .error (r.mismatch "a string")

def toBool : Reading → Except ShapeError Bool
  | .bool b => .ok b
  | r => .error (r.mismatch "a boolean")

def toNumber : Reading → Except ShapeError Number
  | .num (some n) => .ok n
  | r => .error (r.notRecord "a JSON number")

/-- Reads a natural number below a limit. -/
def toNat (limit : Nat) (expected : String) : Reading → Except ShapeError Nat
  | .num (some (.int i)) =>
    if 0 ≤ i ∧ i < limit then .ok i.toNat else .error (.outOfRange i expected)
  | r => .error (r.mismatch expected)

def toUInt32 : Reading → Except ShapeError Nat := toNat UInt32.size "u32"

def toUInt64 : Reading → Except ShapeError Nat := toNat UInt64.size "u64"

/-- Reads a value that may be given as null instead. -/
def optional {α : Type} (read : Reading → Except ShapeError α) :
    Reading → Except ShapeError (Option α)
  | .null => .ok none
  | r => (read r).map some

mutual
/-- Reads any value. Objects get their fields in key order, the last of equal keys winning. -/
def toJson : Reading → Except ShapeError Json
  | .null => .ok .null
  | .bool b => .ok (.bool b)
  | .num (some n) => .ok (.num n)
  | .str (some s) => .ok (.str s)
  | .arr items ending => do
    let items ← itemsToJson items
    ended ending
    pure (.arr items)
  | .obj fields ending => do
    let fields ← fieldsToJson [] fields
    ended ending
    pure (.obj fields)
  | .num none => .error .notJson
  | .str none => .error .notJson
  | .deep _ => .error .notJson
  | .fault => .error .notJson
/-- The values of a row of readings, up to the first that is wrong. -/
def itemsToJson : List Reading → Except ShapeError (List Json)
  | [] => .ok []
  | item :: items => do
    let item ← toJson item
    let items ← itemsToJson items
    pure (item :: items)
/-- Reads fields into those that are there already. -/
def fieldsToJson (read : Fields Json) :
    List (Option String × Reading) → Except ShapeError (Fields Json)
  | [] => .ok read
  | (none, _) :: _ => .error .notJson
  | (some key, value) :: fields => do
    let value ← toJson value
    fieldsToJson (read.insert key value) fields
end

/-- Reads an array whose items are of one kind. -/
def toList {α : Type} (read : Reading → Except ShapeError α) : Reading → Except ShapeError (List α)
  | .arr items ending => do
    let items ← items.mapM read
    ended ending
    pure items
  | r => .error (r.notArray "a sequence")

mutual
/-- Whether a reading that nobody looks into at least ends, in whatever shape. -/
def holds : Reading → Bool
  | .arr items ending => itemsHold items && ending != .missing
  | .obj fields ending => fieldsHold fields && ending != .missing
  | .deep inner => holds inner
  | .fault => false
  | .null => true
  | .bool _ => true
  | .num _ => true
  | .str _ => true
def itemsHold : List Reading → Bool
  | [] => true
  | item :: items => holds item && itemsHold items
def fieldsHold : List (Option String × Reading) → Bool
  | [] => true
  | (_, value) :: fields => holds value && fieldsHold fields
end

/-- Passes over a value without looking at it. -/
def skip (r : Reading) : Except ShapeError Unit :=
  if r.holds then .ok () else .error .notJson

end Reading

/-- How a record is read. Its fields may be given by name or, in order, without. -/
structure RecordShape (α : Type) where
  name : String
  fields : List String
  /-- Reads the named field into a record. -/
  read : String → Reading → α → Except ShapeError α
  /-- What to do about a field that is absent. -/
  absent : String → Except ShapeError Unit

namespace RecordShape
variable {α : Type} (shape : RecordShape α)

/-- Reads fields given by name. A known name occurs once, and other names are passed over. -/
def readNamed (ending : Ending) : List String → List (Option String × Reading) → α →
    Except ShapeError α
  | seen, [], record => do
    Reading.ended ending
    for name in shape.fields do
      if !seen.contains name then shape.absent name
    pure record
  | _, (none, _) :: _, _ => .error .notJson
  | seen, (some name, value) :: rest, record =>
    if shape.fields.contains name then
      if seen.contains name then .error (.duplicateField name)
      else do
        let record ← shape.read name value record
        readNamed ending (name :: seen) rest record
    else do
      value.skip
      readNamed ending seen rest record

/-- Reads fields given in order. `size` is how many values there are. -/
def readListed (ending : Ending) (size : Nat) (onShort : Nat → String → Except ShapeError Unit) :
    Nat → List String → List Reading → α → Except ShapeError α
  | _, [], [], record => do
    Reading.ended ending
    pure record
  | _, [], _ :: _, _ =>
    .error (if ending = .counted then .wrongLength size "fewer elements in array" else .notJson)
  | position, name :: names, [], record => do
    Reading.ended ending
    onShort position name
    readListed ending size onShort (position + 1) names [] record
  | position, name :: names, value :: values, record => do
    let record ← shape.read name value record
    readListed ending size onShort (position + 1) names values record

/-- The error of a list of values that is too short for a field that must be given. -/
def short (position : Nat) (name : String) : Except ShapeError Unit :=
  match shape.absent name with
  | .ok _ => .ok ()
  | .error _ =>
    .error (.wrongLength position
      (shape.name ++ " with " ++ toString shape.fields.length ++
        (if shape.fields.length = 1 then " element" else " elements")))

/-- Reads a record, starting from its defaults. -/
def toRecord (default : α) : Reading → Except ShapeError α
  | .obj fields ending => shape.readNamed ending [] fields default
  | .arr items ending =>
    shape.readListed ending items.length shape.short 0 shape.fields items default
  | r => .error (r.notRecord shape.name)

end RecordShape

/-- Reads a text as one value of a kind. Faults after the value count last. -/
def readText {α : Type} (read : Reading → Except ShapeError α) (text : String) :
    Except ShapeError α := do
  let (reading, clean) := Reading.ofText text.toList
  let value ← read reading
  if clean then .ok value else .error .notJson

/-- Reads a text as any JSON value. -/
def Json.ofText (text : String) : Except ShapeError Json :=
  readText Reading.toJson text

end EntryForm
