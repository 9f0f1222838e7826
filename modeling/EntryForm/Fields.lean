/-!
# Fields in key order

A list of keyed values whose keys increase. `insert` keeps that order (`Sorted.insert`) and lets
the last value of a key win (`get?_insert`).
-/

namespace EntryForm

/-- Keyed values, keys increasing. -/
abbrev Fields (α : Type) := List (String × α)

namespace Fields
variable {α : Type}

/-- The keys increase strictly, so none occurs twice. -/
def Sorted (fields : Fields α) : Prop :=
  fields.Pairwise fun a b => a.1 < b.1

/-- Binds a key, replacing its value if it has one. -/
def insert (key : String) (value : α) : Fields α → Fields α
  | [] => [(key, value)]
  | (k, v) :: rest =>
    if key < k then (key, value) :: (k, v) :: rest
    else if key = k then (key, value) :: rest
    else (k, v) :: insert key value rest

theorem mem_insert {key : String} {value : α} {fields : Fields α} {entry : String × α}
    (h : entry ∈ insert key value fields) : entry = (key, value) ∨ entry ∈ fields := by
  induction fields with
  | nil => simpa [insert] using h
  | cons field rest ih =>
      obtain ⟨k, v⟩ := field
      simp only [insert] at h
      split at h
      · simpa using h
      · split at h
        · rcases List.mem_cons.mp h with h | h
          · exact Or.inl h
          · exact Or.inr (List.mem_cons_of_mem _ h)
        · rcases List.mem_cons.mp h with h | h
          · exact Or.inr (h ▸ List.mem_cons_self)
          · rcases ih h with h | h
            · exact Or.inl h
            · exact Or.inr (List.mem_cons_of_mem _ h)

theorem Sorted.insert (key : String) (value : α) {fields : Fields α} (h : Sorted fields) :
    Sorted (Fields.insert key value fields) := by
  induction fields with
  | nil => simp [Fields.insert, Sorted]
  | cons field rest ih =>
      obtain ⟨k, v⟩ := field
      obtain ⟨hfirst, hrest⟩ := List.pairwise_cons.mp h
      simp only [Fields.insert]
      split
      case isTrue hlt =>
        refine List.pairwise_cons.mpr ⟨?_, h⟩
        intro entry hentry
        rcases List.mem_cons.mp hentry with rfl | hentry
        · exact hlt
        · exact String.lt_trans hlt (hfirst entry hentry)
      case isFalse hnlt =>
        split
        case isTrue heq => exact List.pairwise_cons.mpr ⟨heq ▸ hfirst, hrest⟩
        case isFalse hne =>
          refine List.pairwise_cons.mpr ⟨?_, ih hrest⟩
          intro entry hentry
          rcases mem_insert hentry with rfl | hentry
          · exact String.not_le.mp fun hle => hne (String.le_antisymm hle (String.not_lt.mp hnlt))
          · exact hfirst entry hentry

def get? (key : String) : Fields α → Option α
  | [] => none
  | (k, v) :: rest => if k = key then some v else get? key rest

/-- A key that has been inserted has its new value, the others have theirs. -/
@[simp] theorem get?_insert (key k : String) (value : α) (fields : Fields α) :
    get? k (insert key value fields) = if key = k then some value else get? k fields := by
  induction fields with
  | nil => simp [insert, get?]
  | cons field rest ih =>
      simp only [insert]
      split
      · simp [get?]
      · split
        · simp_all [get?]
        · simp only [get?, ih]
          split <;> simp_all

/-- The fields without a key. -/
def erase (key : String) (fields : Fields α) : Fields α :=
  fields.filter fun field => field.1 != key

def contains (key : String) (fields : Fields α) : Bool :=
  (fields.get? key).isSome

/-- The fields of some entries. Of two values of one key the last one stays. -/
def ofList (entries : List (String × α)) : Fields α :=
  entries.foldl (fun fields entry => fields.insert entry.1 entry.2) []

end Fields

end EntryForm
