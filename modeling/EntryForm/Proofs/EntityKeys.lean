import EntryForm.Entity.Reader
import EntryForm.Proofs.ReadingValue

/-!
# The keys of an entity

An entity is written key by key: what stands under each of its own keys is a function of the key
(`Entity.own?`), and so is reading it (`Entity.readKnown`). Having written or read some of the keys,
an entity is known as far as those keys go (`Entity.only`), so one more key is one step.
-/

namespace EntryForm

namespace Entity

/-- What is written under one of the own keys, unless it is left out. -/
def own? (key : String) (e : Entity) : Option Json :=
  match key with
  | "id" => some (.str e.id)
  | "datatype" => e.datatype.map .str
  | "uiLabel" => e.uiLabel.map .str
  | "label" => e.label.map .str
  | "uiDefinition" => e.uiDefinition.map .str
  | "definition" => e.definition.map .str
  | "help" => e.help.map .str
  | "features" =>
    if e.features.isEmpty then none else some (.obj (e.features.map fun f => (f.1, f.2.toJson)))
  | "components" =>
    if e.components.isEmpty then none else some (.obj (entriesToJson e.components.entries))
  | "choices" =>
    if e.choices.isEmpty then none else some (.obj (entriesToJson e.choices.entries))
  | "units" => if e.units.isEmpty then none else some (.arr (listToJson e.units))
  | "minValue" => e.minValue.map .num
  | "maxValue" => e.maxValue.map .num
  | "minLength" => e.minLength.map .nat
  | "maxLength" => e.maxLength.map .nat
  | "pattern" => e.pattern.map .str
  | "minCardinality" => e.minCardinality.map .nat
  | "maxCardinality" => e.maxCardinality.map .nat
  | "name" => e.name.map .str
  | "value" => e.value
  | _ => none

/-- The field of one of the own keys, unless it is left out. -/
def ownField (e : Entity) (key : String) : List (String × Json) :=
  ((e.own? key).map (key, ·)).toList

/-- An optional field is written if it has a value. -/
theorem field?_eq {α : Type} (key : String) (value : Option α) (f : α → Json) :
    Json.field? key value f = ((value.map f).map (key, ·)).toList := by
  cases value <;> rfl

theorem entriesToJson_isEmpty (entries : List (String × Entity)) :
    (entriesToJson entries).isEmpty = entries.isEmpty := by
  cases entries <;> rfl

theorem ite_toList (c : Prop) [Decidable c] (key : String) (v : Json) :
    (if c then [] else [(key, v)]) = ((if c then none else some v).map (key, ·)).toList := by
  split <;> rfl

/-- An entity is written key by key, then with its other keys. -/
theorem toJson_eq (e : Entity) : e.toJson = .obj (keys.flatMap e.ownField ++ e.extra) := by
  obtain ⟨facts, ⟨components⟩, ⟨choices⟩, units⟩ := e
  simp only [toJson, field?_eq, entriesField, entriesToJson_isEmpty, List.isEmpty_map, ite_toList,
    keys, List.flatMap_cons, List.flatMap_nil, List.append_assoc, List.nil_append, Option.map_id]
  rfl

/-- Reads one of the own keys into an entity. -/
def readKnown (key : String) (value : Reading) (e : Entity) : Except ShapeError Entity :=
  if key = "components" then do pure { e with components := ← readMap value }
  else if key = "choices" then do pure { e with choices := ← readMap value }
  else if key = "units" then do pure { e with units := ← readList value }
  else do pure { e with toFacts := ← e.toFacts.readField key value }

section reading
variable {seen : List String} {key : String} {value : Reading} {e e' : Entity}
  {rest : List (Option String × Reading)}

/-- A field that is not known is kept with its value. -/
theorem readFields_other (h : key ∉ keys) :
    readFields seen e ((some key, value) :: rest) =
      value.toJson >>= fun v => readFields seen { e with extra := e.extra.insert key v } rest := by
  rw [readFields, if_pos (by simpa using h)]

/-- A known field is read where it first occurs. -/
theorem readFields_known (h : key ∈ keys) (hnew : key ∉ seen) :
    readFields seen e ((some key, value) :: rest) =
      readKnown key value e >>= fun e => readFields (key :: seen) e rest := by
  rw [readFields, if_neg (by simpa using h), if_neg (by simpa using hnew), readKnown]
  split_ifs <;> simp

/-- What reading one field of an entity does. -/
theorem readFields_ok {field : Option String × Reading}
    (h : readFields seen e (field :: rest) = .ok e') :
    ∃ key value seen' e₁, field = (some key, value) ∧ readFields seen' e₁ rest = .ok e' ∧
      ((key ∉ keys ∧ ∃ v, value.toJson = .ok v ∧
          e₁ = { e with extra := e.extra.insert key v }) ∨
        (key ∈ keys ∧ readKnown key value e = .ok e₁)) := by
  obtain ⟨_ | key, value⟩ := field
  · cases h
  · by_cases hkey : key ∈ keys
    · by_cases hseen : key ∈ seen
      · rw [readFields, if_neg (by simpa using hkey), if_pos (by simpa using hseen)] at h
        cases h
      · rw [readFields_known hkey hseen] at h
        obtain ⟨e₁, hknown, h⟩ := ok_of_bind h
        exact ⟨key, value, _, e₁, rfl, h, Or.inr ⟨hkey, hknown⟩⟩
    · rw [readFields_other hkey] at h
      obtain ⟨v, hv, h⟩ := ok_of_bind h
      exact ⟨key, value, _, _, rfl, h, Or.inl ⟨hkey, v, hv, rfl⟩⟩

end reading

/-- Only the empty map has no entries. -/
theorem isEmpty_iff {α : Type} {map : OrderedMap α} : map.isEmpty ↔ map = .empty := by
  obtain ⟨_ | ⟨entry, rest⟩⟩ := map <;> simp [OrderedMap.isEmpty, OrderedMap.empty]

/-- A field as far as it is known: with its value if its key is among those that are done, else with
its default. -/
def keep {α : Type} (done : List String) (key : String) (value default : α) : α :=
  if key ∈ done then value else default

section keep
variable {α : Type} {done : List String} {key : String} {value default : α}

@[simp] theorem keep_self : keep (key :: done) key value default = value :=
  if_pos List.mem_cons_self

@[simp] theorem keep_default : keep done key value value = value := ite_self value

/-- A field that has been read keeps its value. -/
theorem keep_of_mem (h : key ∈ done) : keep done key value default = value := if_pos h

/-- Reading another key changes nothing of a field. -/
theorem keep_cons_of_ne {other : String} (h : other ≠ key) :
    keep (key :: done) other value default = keep done other value default := by
  simp [keep, h]

end keep

/-- An entity as far as it is known from some of its own keys. -/
def only (done : List String) (e : Entity) : Entity where
  id := keep done "id" e.id ""
  datatype := keep done "datatype" e.datatype none
  uiLabel := keep done "uiLabel" e.uiLabel none
  label := keep done "label" e.label none
  uiDefinition := keep done "uiDefinition" e.uiDefinition none
  definition := keep done "definition" e.definition none
  help := keep done "help" e.help none
  features := keep done "features" e.features []
  components := keep done "components" e.components .empty
  choices := keep done "choices" e.choices .empty
  units := keep done "units" e.units []
  minValue := keep done "minValue" e.minValue none
  maxValue := keep done "maxValue" e.maxValue none
  minLength := keep done "minLength" e.minLength none
  maxLength := keep done "maxLength" e.maxLength none
  pattern := keep done "pattern" e.pattern none
  minCardinality := keep done "minCardinality" e.minCardinality none
  maxCardinality := keep done "maxCardinality" e.maxCardinality none
  name := keep done "name" e.name none
  value := keep done "value" e.value none

theorem only_nil (e : Entity) : e.only [] = {} := rfl

/-- Nothing but the place and the other keys is not known from the own keys. -/
theorem only_keys {e : Entity} {done : List String} (h : ∀ key ∈ keys, key ∈ done) :
    e.only done = { e with depth := 0, path := [], extra := [] } := by
  simp only [keys, List.forall_mem_cons] at h
  simp only [only, keep_of_mem, h]

/-- A key that is not written leaves the entity as it is without it. -/
theorem only_cons_of_none {key : String} {e : Entity} (hkey : key ∈ keys)
    (h : e.own? key = none) (done : List String) : e.only (key :: done) = e.only done := by
  simp only [keys, List.mem_cons, List.not_mem_nil, or_false] at hkey
  rcases hkey with rfl | rfl | rfl | rfl | rfl | rfl | rfl | rfl | rfl | rfl | rfl | rfl | rfl |
    rfl | rfl | rfl | rfl | rfl | rfl | rfl
  case inl => cases h
  all_goals
    simp only [own?, Option.map_eq_none_iff, ite_eq_left_iff, reduceCtorEq, imp_false, not_not,
      List.isEmpty_iff, isEmpty_iff] at h
    simp [only, keep_cons_of_ne, h]

end Entity

end EntryForm
