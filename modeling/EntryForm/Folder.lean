import EntryForm.Library
import EntryForm.Path

/-!
# Folders

A folder is a tree of files kept in memory. `Files` is what a command needs of a place with
files, and a folder is one such place.
-/

namespace EntryForm

/-- How writing a file ends. -/
inductive Written
  | done
  /-- The directory around the file cannot be made. -/
  | noDirectory
  | failed
  deriving DecidableEq, Repr

/-- What a command does with files. Reading gives nothing if there is no readable text. -/
structure Files (m : Type → Type) where
  read : String → m (Option String)
  /-- What lies right inside a directory. -/
  directory : String → m Directory
  /-- What a path stands for. -/
  look : String → m (Option FileEntry)
  /-- Writes a file, first making the directories around it if asked to. -/
  write : Bool → String → String → m Written

/-- A tree of files by path. Every directory but the root has an entry of its own. -/
structure Folder where
  entries : List (Path × FileEntry)
  deriving DecidableEq, Repr, Inhabited

namespace Folder

/-- What stands at a path. The folder itself is a directory. -/
def entry? (path : Path) (f : Folder) : Option FileEntry :=
  if path.isEmpty then some .directory else (f.entries.find? (·.1 == path)).map Prod.snd

/-- Puts an entry at a path, in place of what was there. -/
def put (path : Path) (entry : FileEntry) (f : Folder) : Folder :=
  ⟨f.entries.filter (·.1 != path) ++ [(path, entry)]⟩

/-- Makes the directories along a row of names and tells where it leads, unless a file is in the
way or a name is too long. What has been made before stays. `above` is where the names start. -/
def makeWay (above : Path) : List String → Folder → Option Path × Folder
  | [], f => (some above, f)
  | name :: rest, f =>
    if Path.stays name then makeWay above rest f
    else if name = ".." then
      if above.isEmpty then (none, f) else makeWay above.dropLast rest f
    else
      match f.entry? (above ++ [name]) with
      | some .directory => makeWay (above ++ [name]) rest f
      | some _ => (none, f)
      | none =>
        if Path.isName name then
          makeWay (above ++ [name]) rest (f.put (above ++ [name]) .directory)
        else (none, f)

/-- Makes the directories around a path given as text. -/
def makeParents (text : String) (f : Folder) : Option Path × Folder :=
  if Path.isPath (Path.parent text) then f.makeWay [] (Path.before (Path.names text))
  else (none, f)

/-- Follows a row of names. -/
def follow? (f : Folder) (path : Path) : List String → Option Path
  | [] => some path
  | name :: rest =>
    if Path.stays name then follow? f path rest
    else if name = ".." then
      if path.isEmpty || f.entry? path != some .directory then none
      else follow? f path.dropLast rest
    else follow? f (path ++ [name]) rest

/-- Where a path given as text leads inside the folder. -/
def resolve? (f : Folder) (text : String) : Option Path :=
  if Path.isPath text then
    match text.toList with
    | [] => none
    | '/' :: _ => none
    | _ => follow? f [] (Path.names text)
  else none

/-- The text of the file at a path. -/
def read? (text : String) (f : Folder) : Option String :=
  match (f.resolve? text).bind (f.entry? ·) with
  | some (.text content) => if Path.namesFile text then some content else none
  | _ => none

/-- What stands where a path text leads. -/
def look? (text : String) (f : Folder) : Option FileEntry :=
  (f.resolve? text).bind (f.entry? ·)

/-- What lies right inside a directory. -/
def inside (path : Path) (f : Folder) : Directory :=
  Fields.ofList (f.entries.filterMap fun entry =>
    match entry.1.getLast? with
    | some name => if entry.1.dropLast = path then some (name, entry.2) else none
    | none => none)

/-- What lies right inside the directory at a path, as far as paths can name it. -/
def directory (text : String) (f : Folder) : Directory :=
  match f.resolve? text with
  | some path => (f.inside path).filter fun entry => Path.isPath (Path.join text entry.1)
  | none => []

/-- Writes a file, first making the directories around it if asked to. -/
def write (parents : Bool) (text content : String) (f : Folder) : Written × Folder :=
  match if parents then f.makeParents text else (some [], f) with
  | (none, f) => (.noDirectory, f)
  | (some _, f) =>
    match f.resolve? text with
    | none => (.failed, f)
    | some path =>
      if !Path.namesFile text || f.entry? path == some .directory ||
          f.entry? path.dropLast != some .directory then (.failed, f)
      else (.done, f.put path (.text content))

/-- A folder as a place for commands. -/
def files : Files (StateM Folder) where
  read path := do pure ((← get).read? path)
  directory path := do pure ((← get).directory path)
  look path := do pure ((← get).look? path)
  write parents path content := modifyGet (write parents path content)

/-- A folder with the given files and directories. -/
def ofList (entries : List (String × FileEntry)) : Folder :=
  entries.foldl (fun f entry =>
    match f.makeParents entry.1 with
    | (some above, f) =>
      match ((Path.names entry.1).filter (!Path.stays ·)).getLast? with
      | some name => f.put (above ++ [name]) entry.2
      | none => f
    | (none, f) => f) ⟨[]⟩

end Folder

end EntryForm
