/-!
# TOML values, and building tables from headers and keys with dots

A tree remembers how each of its tables came about, since that decides who may add to it.
-/

namespace EntryForm

/-- A TOML value. Floats and moments are kept as written. -/
inductive Toml
  | bool (value : Bool)
  | int (value : Int)
  | float (text : String)
  | moment (text : String)
  | str (value : String)
  | arr (items : List Toml)
  | table (entries : List (String × Toml))
  deriving Repr, Inhabited

namespace Toml

/-- How a table came about: by its own header, on the way to the header of another, or by the
dots of a key. -/
inductive Origin
  | header
  | passage
  | dots
  deriving DecidableEq, Repr

/-- A part of a tree. Every element of a row of tables has a header of its own. -/
inductive Node
  | value (value : Toml)
  | table (origin : Origin) (entries : List (String × Node))
  | row (tables : List (List (String × Node)))
  deriving Repr, Inhabited

/-- The entries of a table. -/
abbrev Entries := List (String × Node)

namespace Entries

def get? (key : String) (entries : Entries) : Option Node :=
  (entries.find? (·.1 == key)).map Prod.snd

/-- Puts a node in place of the one under a key. -/
def replace (key : String) (node : Node) (entries : Entries) : Entries :=
  entries.map fun entry => if entry.1 == key then (key, node) else entry

/-- Changes the table at a path of headers, making the tables on the way. -/
def reach (change : Entries → Option Entries) : List String → Entries → Option Entries
  | [], entries => change entries
  | key :: path, entries =>
    match entries.get? key with
    | none => do pure (entries ++ [(key, .table .passage (← reach change path []))])
    | some (.table origin inner) => do
      pure (entries.replace key (.table origin (← reach change path inner)))
    | some (.row tables) => do
      let last ← tables.getLast?
      pure (entries.replace key (.row (tables.dropLast ++ [← reach change path last])))
    | some (.value _) => none

/-- Opens the table of a header, which must not have been opened before. -/
def openTable (key : String) (entries : Entries) : Option Entries :=
  match entries.get? key with
  | none => some (entries ++ [(key, .table .header [])])
  | some (.table .passage inner) => some (entries.replace key (.table .header inner))
  | some _ => none

/-- Opens one more element of a row of tables. -/
def openElement (key : String) (entries : Entries) : Option Entries :=
  match entries.get? key with
  | none => some (entries ++ [(key, .row [[]])])
  | some (.row tables) => some (entries.replace key (.row (tables ++ [[]])))
  | some _ => none

/-- Binds a key with dots. Only tables made by dots take values in this way, and `takes` tells
whether the present table does. -/
def assign (value : Toml) : Bool → List String → Entries → Option Entries
  | _, [], _ => none
  | takes, [key], entries =>
    if takes && (entries.get? key).isNone then some (entries ++ [(key, .value value)]) else none
  | _, key :: path, entries =>
    match entries.get? key with
    | none => do pure (entries ++ [(key, .table .dots (← assign value true path []))])
    | some (.table .header _) => none
    | some (.table origin inner) => do
      pure (entries.replace key (.table origin (← assign value (origin == .dots) path inner)))
    | some (.row tables) => do
      let last ← tables.getLast?
      pure (entries.replace key (.row (tables.dropLast ++ [← assign value false path last])))
    | some (.value _) => none

end Entries

mutual
/-- The value a part of a tree stands for. -/
def Node.toToml : Node → Toml
  | .value v => v
  | .table _ entries => .table (entriesToToml entries)
  | .row tables => .arr (tablesToToml tables)
/-- The values of the entries of a table. -/
def entriesToToml : List (String × Node) → List (String × Toml)
  | [] => []
  | (key, node) :: rest => (key, Node.toToml node) :: entriesToToml rest
def tablesToToml : List (List (String × Node)) → List Toml
  | [] => []
  | entries :: rest => .table (entriesToToml entries) :: tablesToToml rest
end

end Toml

end EntryForm
