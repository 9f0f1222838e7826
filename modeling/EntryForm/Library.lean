import EntryForm.Resource

/-!
# Libraries

A library is a directory with one file per resource, named by the id of the resource.
-/

namespace EntryForm

/-- What a name in a directory stands for. -/
inductive FileEntry
  | text (content : String)
  /-- A file that is not text. -/
  | binary
  | directory
  deriving DecidableEq, Repr, Inhabited

/-- What lies right inside a directory, by name. -/
abbrev Directory := Fields FileEntry

namespace Library

/-- Whether a name has something before its extension, and the extension is `json`. -/
def isRecord (name : String) : Bool :=
  let cs := name.toList
  ".json".toList.isSuffixOf cs && decide (5 < cs.length)

/-- Whether a text can be the id of a file in this very directory. -/
def isPlainId (id : String) : Bool :=
  !id.isEmpty && id.toList.all (fun c => c != '/' && c != '\\') && id.toList.head? != some '.'

/-- Loads the resource of the file with an id. -/
def load (d : Directory) (id : String) : Except LoadError Resource :=
  if !isPlainId id then .error (.unknownResource id)
  else
    match Fields.get? (id ++ ".json") d with
    | none => .error (.unknownResource id)
    | some .directory => .error (.unknownResource id)
    | some .binary => .error .unreadable
    | some (.text content) =>
      match Resource.ofText content with
      | .ok r => .ok r
      | .error e => .error (.shape e)

/-- The summary of a file, if it holds a resource. -/
def summary? (name : String) (entry : FileEntry) : Option Summary :=
  match entry with
  | .text content =>
    if isRecord name then (Resource.ofText content).toOption.map Resource.summary else none
  | _ => none

/-- The summaries of all resources, ordered by the names of their files. Other files are passed
over. -/
def list (d : Directory) : List Summary :=
  d.filterMap fun entry => summary? entry.1 entry.2

end Library

end EntryForm
