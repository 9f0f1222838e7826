import EntryForm.Document

/-!
# Resources

A resource is a named and versioned package whose contents are a specification document.
-/

namespace EntryForm

/-- A stored resource, of which the contents may be a document. -/
structure Resource where
  id : String := ""
  name : String := ""
  version : String := ""
  /-- The address of the owner. -/
  owner : Option String := none
  isPublic : Bool := false
  /-- The package was derived from an ontology. -/
  ontology : Bool := false
  /-- How far the package has come, such as draft. -/
  curation : String := ""
  contents : Json := .null
  deriving Repr, Inhabited

/-- What a listing tells about a resource. -/
structure Summary where
  id : String := ""
  name : String := ""
  version : String := ""
  isPublic : Bool := false
  ontology : Bool := false
  curation : String := ""
  deriving DecidableEq, Repr, Inhabited

/-- Reads an id, which may be given as a number. -/
def readId (value : Reading) : Except ShapeError String := do
  match ← value.toJson with
  | .str s => .ok s
  | .num n => .ok (String.ofList n.chars)
  | other => .error (.badId other)

namespace Resource

/-- The fields of a resource, in their order. -/
def shape : RecordShape Resource where
  name := "struct Resource"
  fields := ["id", "name", "version", "owner", "public", "ontology", "curation", "contents"]
  absent name := if name = "id" then .error (.missingField name) else .ok ()
  read name value r :=
    match name with
    | "id" => do pure { r with id := ← readId value }
    | "name" => do pure { r with name := ← value.toStr }
    | "version" => do pure { r with version := ← value.toStr }
    | "owner" => do pure { r with owner := ← value.optional Reading.toStr }
    | "public" => do pure { r with isPublic := ← value.toBool }
    | "ontology" => do pure { r with ontology := ← value.toBool }
    | "curation" => do pure { r with curation := ← value.toStr }
    | _ => do pure { r with contents := ← value.toJson }

/-- Reads the text of a resource. -/
def ofText (text : String) : Except ShapeError Resource :=
  readText (shape.toRecord {}) text

def toJson (r : Resource) : Json :=
  .obj
    [("id", .str r.id), ("name", .str r.name), ("version", .str r.version),
      ("owner", .option .str r.owner), ("public", .bool r.isPublic),
      ("ontology", .bool r.ontology), ("curation", .str r.curation), ("contents", r.contents)]

/-- The document that a resource holds. -/
def document (r : Resource) : Except LoadError Document := Document.ofJson r.contents

/-- What a list of resources tells about one. -/
def summary (r : Resource) : Summary :=
  ⟨r.id, r.name, r.version, r.isPublic, r.ontology, r.curation⟩

end Resource

namespace Summary

/-- The fields of a summary, in their order. -/
def shape : RecordShape Summary where
  name := "struct ResourceSummary"
  fields := ["id", "name", "version", "public", "ontology", "curation"]
  absent name := .error (.missingField name)
  read name value s :=
    match name with
    | "id" => do pure { s with id := ← value.toStr }
    | "name" => do pure { s with name := ← value.toStr }
    | "version" => do pure { s with version := ← value.toStr }
    | "public" => do pure { s with isPublic := ← value.toBool }
    | "ontology" => do pure { s with ontology := ← value.toBool }
    | _ => do pure { s with curation := ← value.toStr }

/-- The summaries that a known value lists. -/
def listOfJson (value : Json) : Except ShapeError (List Summary) :=
  (Reading.ofJson value).toList (shape.toRecord {})

def toJson (s : Summary) : Json :=
  .obj
    [("id", .str s.id), ("name", .str s.name), ("version", .str s.version),
      ("public", .bool s.isPublic), ("ontology", .bool s.ontology),
      ("curation", .str s.curation)]

/-- The name and version as shown in listings. -/
def title (s : Summary) : String := s.name ++ " (" ++ s.version ++ ")"

end Summary

/-- Which resources a listing shows. -/
structure Filter where
  ontology : Option Bool := none
  isPublic : Option Bool := none
  draftOnly : Bool := false
  deriving DecidableEq, Repr, Inhabited

namespace Filter

/-- The id of the resource that new packages start from. -/
def templateId : String := "1"

/-- A filter on publicity also drops the resource that new packages start from. -/
def accepts (f : Filter) (s : Summary) : Bool :=
  f.ontology.all (· == s.ontology) &&
    f.isPublic.all (fun wanted => wanted == s.isPublic && s.id != templateId) &&
    (!f.draftOnly || s.curation == "draft")

end Filter

/-- The number after `/api/users/` in the address of an owner, if it has at most 64 bits. -/
def ownerNumber? (address : String) : Option Nat :=
  let marker := "/api/users/".toList
  match Text.indexOf? marker address.toList with
  | none => none
  | some start =>
    Text.count? ((address.toList.drop (start + marker.length)).takeWhile Char.isDigit)

/-- Whether a user may edit a resource, which only its owner may. -/
def mayEdit (user : Option Nat) (r : Resource) : Bool :=
  match user, r.owner.bind ownerNumber? with
  | some user, some owner => user == owner
  | _, _ => false

end EntryForm
