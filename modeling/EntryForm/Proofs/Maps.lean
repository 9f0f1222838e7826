import EntryForm.Fields
import EntryForm.OrderedMap

/-!
# More about maps

Inserting behind the last key appends, so a list whose keys increase is what inserting its entries
one after the other makes of it. A new key joins the others, and binding a key to what it is bound
to changes nothing. Mapping the values of fields commutes with all that is done by key.
A new key of an ordered map comes last whatever it is, and no key of an ordered map occurs twice.
-/

namespace EntryForm

namespace Fields
variable {α β : Type}

theorem map_insert (f : α → β) (key : String) (value : α) (fields : Fields α) :
    (fields.insert key value).map (fun field => (field.1, f field.2)) =
      Fields.insert key (f value) (fields.map fun field => (field.1, f field.2)) := by
  induction fields with
  | nil => rfl
  | cons field rest ih =>
      simp only [insert, List.map_cons]
      split
      · rfl
      · split
        · rfl
        · simp only [List.map_cons, ih]

theorem get?_map (f : α → β) (key : String) (fields : Fields α) :
    Fields.get? key (fields.map fun field => (field.1, f field.2)) = (fields.get? key).map f := by
  induction fields with
  | nil => rfl
  | cons field rest ih =>
      simp only [List.map_cons, get?, ih]
      split <;> rfl

theorem contains_map (f : α → β) (key : String) (fields : Fields α) :
    contains key (fields.map fun field => (field.1, f field.2)) = contains key fields := by
  rw [contains, get?_map, Option.isSome_map, contains]

theorem erase_map (f : α → β) (key : String) (fields : Fields α) :
    erase key (fields.map fun field => (field.1, f field.2)) =
      (erase key fields).map fun field => (field.1, f field.2) := by
  rw [erase, erase, List.filter_map]
  rfl

/-- A key behind all others comes last. -/
theorem insert_eq_append {key : String} {fields : Fields α} (value : α)
    (h : ∀ field ∈ fields, field.1 < key) :
    fields.insert key value = fields ++ [(key, value)] := by
  induction fields with
  | nil => rfl
  | cons field rest ih =>
      have hlt : field.1 < key := h field (by simp)
      have hnlt : ¬ key < field.1 := by
        intro hgt
        exact String.lt_irrefl _ (String.lt_trans hlt hgt)
      have hne : key ≠ field.1 := by
        rintro rfl
        exact String.lt_irrefl _ hlt
      have hrest : insert key value rest = rest ++ [(key, value)] :=
        ih fun other hother => h other (List.mem_cons_of_mem _ hother)
      simp [insert, hnlt, hne, hrest]

/-- Inserts entries one after the other. -/
def insertAll (entries : List (String × α)) (fields : Fields α) : Fields α :=
  entries.foldl (fun fields entry => fields.insert entry.1 entry.2) fields

@[simp] theorem insertAll_nil (fields : Fields α) : insertAll [] fields = fields := rfl

@[simp] theorem insertAll_cons (entry : String × α) (rest : List (String × α))
    (fields : Fields α) :
    insertAll (entry :: rest) fields = insertAll rest (fields.insert entry.1 entry.2) := rfl

theorem insertAll_sorted (entries : List (String × α)) {fields : Fields α} (h : Sorted fields) :
    Sorted (insertAll entries fields) := by
  induction entries generalizing fields with
  | nil => exact h
  | cons entry rest ih => exact ih (h.insert entry.1 entry.2)

/-- Entries whose keys come behind all others and increase come last, as they are. -/
theorem insertAll_eq_append {entries : List (String × α)} {fields : Fields α}
    (h : Sorted (fields ++ entries)) : insertAll entries fields = fields ++ entries := by
  induction entries generalizing fields with
  | nil => simp
  | cons entry rest ih =>
      have hlast : ∀ field ∈ fields, field.1 < entry.1 := by
        intro field hfield
        exact (List.pairwise_append.mp h).2.2 field hfield entry List.mem_cons_self
      rw [insertAll_cons, insert_eq_append entry.2 hlast, ih (by simpa using h)]
      simp

theorem ofList_sorted (entries : List (String × α)) : Sorted (ofList entries) :=
  insertAll_sorted entries List.Pairwise.nil

theorem map_insertAll (f : α → β) (entries : List (String × α)) (fields : Fields α) :
    (insertAll entries fields).map (fun field => (field.1, f field.2)) =
      insertAll (entries.map fun entry => (entry.1, f entry.2))
        (fields.map fun field => (field.1, f field.2)) := by
  induction entries generalizing fields with
  | nil => rfl
  | cons entry rest ih => simp [ih, map_insert]

theorem map_ofList (f : α → β) (entries : List (String × α)) :
    (ofList entries).map (fun field => (field.1, f field.2)) =
      ofList (entries.map fun entry => (entry.1, f entry.2)) :=
  map_insertAll f entries []

theorem get?_eq_none {key : String} {fields : Fields α} (h : key ∉ fields.map Prod.fst) :
    Fields.get? key fields = none := by
  induction fields with
  | nil => rfl
  | cons field rest ih =>
      simp only [List.map_cons, List.mem_cons, not_or] at h
      simp [get?, Ne.symm h.1, ih h.2]

/-- Of inserted entries with distinct keys each has its value, and the other keys have theirs. -/
theorem get?_insertAll {entries : List (String × α)} (h : (entries.map Prod.fst).Nodup)
    (key : String) (fields : Fields α) :
    Fields.get? key (insertAll entries fields) =
      (Fields.get? key entries).or (Fields.get? key fields) := by
  induction entries generalizing fields with
  | nil => rfl
  | cons entry rest ih =>
      obtain ⟨hnew, hrest⟩ := List.nodup_cons.mp h
      rw [insertAll_cons, ih hrest, get?_insert]
      by_cases hkey : entry.1 = key
      · have hnone : Fields.get? key rest = none := get?_eq_none (hkey ▸ hnew)
        simp [get?, hkey, hnone]
      · simp [get?, hkey]

/-- If no key occurs twice, sorting keeps what is bound to each. -/
theorem get?_ofList {entries : List (String × α)} (h : (entries.map Prod.fst).Nodup)
    (key : String) : Fields.get? key (ofList entries) = Fields.get? key entries := by
  rw [show ofList entries = insertAll entries [] from rfl, get?_insertAll h]
  simp [get?]

/-- What is there after an insertion was inserted or was there before. -/
theorem mem_insertAll {entries : List (String × α)} {fields : Fields α} {field : String × α}
    (h : field ∈ insertAll entries fields) : field ∈ entries ∨ field ∈ fields := by
  induction entries generalizing fields with
  | nil => exact Or.inr h
  | cons entry rest ih =>
      rcases ih h with h | h
      · exact Or.inl (List.mem_cons_of_mem _ h)
      · rcases mem_insert h with rfl | h
        · exact Or.inl (by simp)
        · exact Or.inr h

theorem mem_of_mem_ofList {entries : List (String × α)} {field : String × α}
    (h : field ∈ ofList entries) : field ∈ entries :=
  (mem_insertAll h).resolve_right (by simp)

/-- Sorting changes nothing exactly where the keys increase. -/
theorem ofList_eq_self_iff (entries : List (String × α)) :
    ofList entries = entries ↔ Sorted entries := by
  constructor
  · intro h
    rw [← h]
    exact ofList_sorted entries
  · intro h
    change insertAll entries [] = [] ++ entries
    exact insertAll_eq_append h

/-- Keys that increase are distinct. -/
theorem Sorted.nodup {fields : Fields α} (h : Sorted fields) :
    (fields.map Prod.fst).Nodup := by
  apply List.pairwise_map.mpr
  refine h.imp ?_
  intro a b hlt heq
  exact String.lt_irrefl _ (heq ▸ hlt)

theorem get?_erase (key name : String) (fields : Fields α) :
    Fields.get? name (Fields.erase key fields) =
      if name = key then none else Fields.get? name fields := by
  induction fields with
  | nil => simp [erase, get?]
  | cons field rest ih =>
      simp only [erase] at ih
      by_cases hkey : field.1 = key
      · have hdrop : (field.1 != key) = false := by simpa using hkey
        rw [erase, List.filter_cons_of_neg (by simp [hdrop]), ih]
        by_cases hname : name = key
        · simp [hname]
        · simp [get?, hname, show ¬ field.1 = name from fun h => hname (h ▸ hkey)]
      · rw [erase, List.filter_cons_of_pos (by simpa using hkey)]
        simp only [get?, ih]
        by_cases hname : field.1 = name
        · simp [hname, show ¬ name = key from hname ▸ hkey]
        · simp [hname]

@[simp] theorem contains_insert (key name : String) (value : α) (fields : Fields α) :
    contains name (insert key value fields) = (decide (key = name) || contains name fields) := by
  rw [contains, get?_insert]
  by_cases hname : key = name <;> simp [hname, contains]

@[simp] theorem contains_erase (key name : String) (fields : Fields α) :
    contains name (erase key fields) = (decide (name ≠ key) && contains name fields) := by
  rw [contains, get?_erase]
  by_cases hname : name = key <;> simp [hname, contains]

theorem mem_of_get? {key : String} {value : α} {fields : Fields α}
    (h : get? key fields = some value) : (key, value) ∈ fields := by
  induction fields with
  | nil => cases h
  | cons field rest ih =>
      obtain ⟨k, v⟩ := field
      rw [get?] at h
      split at h
      case isTrue hkey =>
        cases h
        exact hkey ▸ List.mem_cons_self
      case isFalse => exact List.mem_cons_of_mem _ (ih h)

/-- The first key takes the new value. -/
theorem insert_head (key : String) (first second : α) (rest : Fields α) :
    Fields.insert key second ((key, first) :: rest) = (key, second) :: rest := by
  rw [insert, if_neg (String.lt_irrefl key), if_pos rfl]

/-- Of two values bound to one key the second stays. -/
theorem insert_insert (key : String) (first second : α) (fields : Fields α) :
    Fields.insert key second (fields.insert key first) = fields.insert key second := by
  induction fields with
  | nil => exact insert_head key first second []
  | cons field rest ih =>
      obtain ⟨k, v⟩ := field
      by_cases hlt : key < k
      · rw [insert, if_pos hlt, insert_head, insert, if_pos hlt]
      · by_cases heq : key = k
        · subst heq
          rw [insert_head, insert_head, insert_head]
        · simp only [insert, if_neg hlt, if_neg heq, ih]

/-- Binding a key to the value that it has changes nothing. -/
theorem insert_of_get? {key : String} {value : α} {fields : Fields α} (h : Sorted fields)
    (hget : fields.get? key = some value) : fields.insert key value = fields := by
  induction fields with
  | nil => cases hget
  | cons field rest ih =>
      obtain ⟨k, v⟩ := field
      obtain ⟨hfirst, hrest⟩ := List.pairwise_cons.mp h
      rw [get?] at hget
      split at hget
      case isTrue heq =>
        cases hget
        subst heq
        exact insert_head k value value rest
      case isFalse hne =>
        have hlt : k < key := hfirst _ (mem_of_get? hget)
        have hnlt : ¬ key < k := fun hgt => String.lt_irrefl _ (String.lt_trans hlt hgt)
        rw [insert, if_neg hnlt, if_neg (Ne.symm hne), ih hrest hget]

/-- A new key joins the others. -/
theorem insert_perm {key : String} {fields : Fields α} (value : α)
    (h : fields.get? key = none) : (fields.insert key value).Perm ((key, value) :: fields) := by
  induction fields with
  | nil => exact List.Perm.refl _
  | cons field rest ih =>
      obtain ⟨k, v⟩ := field
      rw [get?] at h
      split at h
      case isTrue => cases h
      case isFalse hne =>
        rw [insert]
        split
        · exact List.Perm.refl _
        · rw [if_neg (Ne.symm hne)]
          exact ((ih h).cons (k, v)).trans (List.Perm.swap _ _ _)

/-- What a key is bound to, if no key occurs twice. -/
theorem get?_of_mem {fields : Fields α} (hnodup : (fields.map Prod.fst).Nodup) {key : String}
    {value : α} (h : (key, value) ∈ fields) : get? key fields = some value := by
  induction fields with
  | nil => cases h
  | cons field rest ih =>
      obtain ⟨hnew, hrest⟩ := List.nodup_cons.mp hnodup
      rw [get?]
      rcases List.mem_cons.mp h with rfl | h
      · rw [if_pos rfl]
      · have hkey : ¬ field.1 = key := fun heq => hnew (heq ▸ List.mem_map_of_mem h)
        rw [if_neg hkey]
        exact ih hrest h

/-- A key has its value among the fields that are kept if its field is. -/
theorem get?_filter {fields : Fields α} (hnodup : (fields.map Prod.fst).Nodup)
    (keep : String × α → Bool) (key : String) :
    get? key (fields.filter keep) = (get? key fields).filter fun value => keep (key, value) := by
  induction fields with
  | nil => rfl
  | cons field rest ih =>
      obtain ⟨k, v⟩ := field
      obtain ⟨hnew, hrest⟩ := List.nodup_cons.mp hnodup
      by_cases hkey : k = key
      · subst hkey
        have hgone : get? k (rest.filter keep) = none := by
          apply get?_eq_none
          intro hmem
          exact hnew ((List.filter_sublist.map Prod.fst).subset hmem)
        cases hkeep : keep (k, v) <;> simp [get?, Option.filter, hkeep, hgone]
      · cases hkeep : keep (k, v) <;> simp [get?, hkey, hkeep, ih hrest]

theorem contains_of_mem {fields : Fields α} {entry : String × α} (h : entry ∈ fields) :
    contains entry.1 fields = true := by
  induction fields with
  | nil => cases h
  | cons field rest ih =>
      rw [contains, get?]
      split
      · rfl
      case isFalse hkey =>
        refine ih ((List.mem_cons.mp h).resolve_left ?_)
        rintro rfl
        exact hkey rfl

end Fields

namespace OrderedMap
variable {α : Type}

theorem put_eq_append {key : String} {entries : List (String × α)} (value : α)
    (h : key ∉ entries.map Prod.fst) : put key value entries = entries ++ [(key, value)] := by
  induction entries with
  | nil => rfl
  | cons entry rest ih =>
      simp only [List.map_cons, List.mem_cons, not_or] at h
      simp [put, Ne.symm h.1, ih h.2]

theorem mem_of_find? {key : String} {value : α} {entries : List (String × α)}
    (h : find? key entries = some value) : (key, value) ∈ entries := by
  induction entries with
  | nil => cases h
  | cons entry rest ih =>
      rw [find?] at h
      split at h
      case isTrue hkey =>
        cases h
        exact hkey ▸ List.mem_cons_self
      case isFalse => exact List.mem_cons_of_mem _ (ih h)

/-- Where no key occurs twice, every entry is found by its key. -/
theorem find?_of_mem {key : String} {value : α} {entries : List (String × α)}
    (hkeys : (entries.map Prod.fst).Nodup) (h : (key, value) ∈ entries) :
    find? key entries = some value := by
  induction entries with
  | nil => cases h
  | cons entry rest ih =>
      obtain ⟨hnew, hrest⟩ := List.nodup_cons.mp hkeys
      rcases List.mem_cons.mp h with rfl | h
      · simp [find?]
      · have hne : entry.1 ≠ key := by
          rintro rfl
          exact hnew (List.mem_map.mpr ⟨_, h, rfl⟩)
        rw [find?, if_neg hne, ih hrest h]

theorem nodup_insert {map : OrderedMap α} (h : map.keys.Nodup) (key : String) (value : α) :
    (map.insert key value).keys.Nodup := by
  rw [keys, insert, keys_put]
  split
  case isTrue => exact h
  case isFalse hnew =>
    refine List.nodup_append.mpr ⟨h, by simp, ?_⟩
    rintro k hk _ hlast rfl
    exact hnew (List.mem_singleton.mp hlast ▸ hk)

theorem mem_insert {map : OrderedMap α} {key : String} {value : α} {entry : String × α}
    (h : entry ∈ (map.insert key value).entries) : entry = (key, value) ∨ entry ∈ map.entries := by
  obtain ⟨entries⟩ := map
  simp only [insert] at h
  induction entries with
  | nil => exact Or.inl (by simpa [put] using h)
  | cons first rest ih =>
      rw [put] at h
      split at h
      case isTrue hkey =>
        subst hkey
        rcases List.mem_cons.mp h with rfl | h
        · exact Or.inl rfl
        · exact Or.inr (List.mem_cons_of_mem _ h)
      case isFalse =>
        rcases List.mem_cons.mp h with rfl | h
        · exact Or.inr List.mem_cons_self
        · exact (ih h).imp_right (List.mem_cons_of_mem _)

end OrderedMap

end EntryForm
