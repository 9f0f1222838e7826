import EntryForm.Entity.Reader
import EntryForm.Warning

/-!
# Specification documents

A document holds specifications by the id of their root. A focus is a path of keys separated by
slashes that leads from a root down to the entity whose form is wanted.
-/

namespace EntryForm

/-- A specification document: its root entities and what comes with them. -/
structure Document where
  /-- What the leads of ids stand for. -/
  context : Fields Json := []
  specifications : OrderedMap Entity := ⟨[]⟩
  metadata : Json := .null
  deriving Repr, Inhabited

/-- Why a document or a resource cannot be had. -/
inductive LoadError
  /-- The file cannot be read. -/
  | unreadable
  | shape (error : ShapeError)
  /-- The document is no object. -/
  | notATree
  | missingSpecifications
  | unknownResource (id : String)
  deriving Repr

namespace LoadError

/-- The message of an error that has a fixed one. -/
def message? : LoadError → Option String
  | .unreadable => none
  | .shape e => e.message?
  | .notATree => some "specification document is not a tree (expected a JSON object)"
  | .missingSpecifications => some "specification document has no \"specifications\" map"
  | .unknownResource id => some ("unknown resource: " ++ id)

end LoadError

/-- Where a focus leads. -/
inductive Focus
  /-- No root has the id. -/
  | missing (id : String)
  /-- The last entity on the way, and the first step that leads nowhere. -/
  | found (entity : Entity) (unresolved : Option String)
  deriving Repr, Inhabited

namespace Document

mutual
/-- The fields of the innermost object inside objects named `contents`. -/
def innermost? : Json → Option (Fields Json)
  | .obj fields => some ((contents? fields).getD (Fields.erase "contents" fields))
  | _ => none
/-- The fields inside the first field named `contents`, if there is one. -/
def contents? : List (String × Json) → Option (Fields Json)
  | [] => none
  | (key, value) :: rest => if key = "contents" then innermost? value else contents? rest
end

/-- The fields of a document. Fields with other names are passed over. -/
def shape : RecordShape Document where
  name := "struct SpecificationDocument"
  fields := ["@context", "specifications", "metadata"]
  absent _ := .ok ()
  read name value d :=
    match name with
    | "@context" =>
      match value with
      | .obj fields ending => do
        let context ← Reading.fieldsToJson [] fields
        Reading.ended ending
        pure { d with context }
      | r => .error (r.notObject "a map")
    | "specifications" => do pure { d with specifications := ← Entity.readMap value }
    | _ => do pure { d with metadata := ← value.toJson }

/-- Places every root and the entities below. -/
def annotate (d : Document) : Document :=
  { d with specifications := d.specifications.map Entity.annotate }

/-- Builds a document from a value, which may hold it as its contents. -/
def ofJson (value : Json) : Except LoadError Document :=
  match innermost? value with
  | none => .error .notATree
  | some fields =>
    match Fields.get? "specifications" fields with
    | some (.obj _) =>
      match shape.toRecord {} (Reading.ofJson (.obj fields)) with
      | .ok d => .ok d.annotate
      | .error e => .error (.shape e)
    | _ => .error .missingSpecifications

/-- Reads the text of a document. -/
def ofText (text : String) : Except LoadError Document :=
  match Json.ofText text with
  | .ok value => ofJson value
  | .error e => .error (.shape e)

def toJson (d : Document) : Json :=
  .obj
    [("@context", .obj d.context),
      ("specifications", .obj (Entity.entriesToJson d.specifications.entries)),
      ("metadata", d.metadata)]

/-- The root entity under a key. -/
def root? (id : String) (d : Document) : Option Entity := d.specifications.get? id

/-- The steps of a focus. Slashes in excess do not matter. -/
def steps (focus : String) : List String :=
  ((Text.split '/' focus.toList).filter fun step => !step.isEmpty).map String.ofList

/-- Follows steps down from an entity, as far as they lead. -/
def walk (e : Entity) : List String → Entity × Option String
  | [] => (e, none)
  | key :: keys =>
    match e.child? key with
    | some child => walk child keys
    | none => (e, some key)

/-- The root named by a focus. -/
def rootOf (focus : String) : String := (steps focus).head?.getD ""

/-- Where a focus path leads: its first segment is the key of a root. -/
def focus (d : Document) (focus : String) : Focus :=
  match d.root? (rootOf focus) with
  | none => .missing (rootOf focus)
  | some root =>
    let (e, unresolved) := walk root (steps focus).tail
    .found e unresolved

/-- What is wrong with a focus. -/
def focusWarnings (focus : String) : Focus → List Warning
  | .missing _ => []
  | .found _ none => []
  | .found _ (some segment) => [.missingSegment focus segment]

end Document

end EntryForm
