/-!
# Maps in order of first insertion

A key keeps the place of its first insertion (`keys_put`) and takes the value of its last
(`find?_put`).
-/

namespace EntryForm

/-- A map that keeps its keys in the order in which they came. -/
structure OrderedMap (α : Type) where
  entries : List (String × α)
  deriving Repr, DecidableEq, Inhabited

namespace OrderedMap
variable {α β : Type}

/-- Replaces the value of a key in a list of entries, or appends the key. -/
def put (key : String) (value : α) : List (String × α) → List (String × α)
  | [] => [(key, value)]
  | (k, v) :: rest =>
    if k = key then (k, value) :: rest else (k, v) :: put key value rest

/-- The value of the first entry with a key. -/
def find? (key : String) : List (String × α) → Option α
  | [] => none
  | (k, v) :: rest => if k = key then some v else find? key rest

/-- A key that has been put has its new value, the others have theirs. -/
@[simp] theorem find?_put (key k : String) (value : α) (entries : List (String × α)) :
    find? k (put key value entries) = if key = k then some value else find? k entries := by
  induction entries with
  | nil => simp [put, find?]
  | cons entry rest ih =>
      obtain ⟨first, v⟩ := entry
      simp only [put]
      split
      · simp_all [find?]
      · simp only [find?, ih]
        split
        · have hkey : key ≠ k := by simp_all [eq_comm]
          simp [hkey]
        · rfl

/-- A key that is there already stays where it is, another comes last. -/
theorem keys_put (key : String) (value : α) (entries : List (String × α)) :
    (put key value entries).map Prod.fst =
      if key ∈ entries.map Prod.fst then entries.map Prod.fst
      else entries.map Prod.fst ++ [key] := by
  induction entries with
  | nil => simp [put]
  | cons entry rest ih =>
      simp only [put]
      split
      · simp_all
      · simp only [List.map_cons, ih, List.mem_cons]
        split <;> simp_all [eq_comm]

def empty : OrderedMap α := ⟨[]⟩

/-- Binds a key. One that is there keeps its place and takes the new value. -/
def insert (key : String) (value : α) (map : OrderedMap α) : OrderedMap α :=
  ⟨put key value map.entries⟩

def get? (key : String) (map : OrderedMap α) : Option α :=
  find? key map.entries

/-- The map of some entries, inserted one after the other. -/
def ofList (entries : List (String × α)) : OrderedMap α :=
  entries.foldl (fun map entry => map.insert entry.1 entry.2) empty

def size (map : OrderedMap α) : Nat := map.entries.length

def isEmpty (map : OrderedMap α) : Bool := map.entries.isEmpty

def keys (map : OrderedMap α) : List String := map.entries.map Prod.fst

def values (map : OrderedMap α) : List α := map.entries.map Prod.snd

/-- Applies a function to every value. -/
def map (f : α → β) (m : OrderedMap α) : OrderedMap β :=
  ⟨m.entries.map fun entry => (entry.1, f entry.2)⟩

end OrderedMap

end EntryForm
