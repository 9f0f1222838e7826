import EntryForm.Proofs.Induction
import EntryForm.Proofs.Maps
import Mathlib.Data.List.Forall2
import Mathlib.Data.List.Nodup

/-!
# From readings to values

The value of an array has the items of its reading in their order. The value of an object has the
fields of its reading in the order of their keys. If no key occurs twice, each key keeps its field.
-/

namespace EntryForm

/-- A step that succeeds after another has succeeded. -/
theorem ok_of_bind {ε α β : Type} {x : Except ε α} {f : α → Except ε β} {b : β}
    (h : x >>= f = .ok b) : ∃ a, x = .ok a ∧ f a = .ok b := by
  cases x with
  | error e => cases h
  | ok a => exact ⟨a, rfl, h⟩

/-- A result of which a test can tell. -/
theorem exists_of_any {ε α : Type} {x : Except ε α} {test : α → Bool}
    (h : x.toOption.any test = true) : ∃ a, x = .ok a ∧ test a = true := by
  cases x with
  | error e => cases h
  | ok a => exact ⟨a, rfl, h⟩

theorem exists_of_mem_right {α β : Type} {R : α → β → Prop} {xs : List α} {ys : List β}
    (h : List.Forall₂ R xs ys) {y : β} (hy : y ∈ ys) : ∃ x ∈ xs, R x y := by
  induction h with
  | nil => simp at hy
  | @cons a b _ _ hfirst _ ih =>
      rcases List.mem_cons.mp hy with rfl | hy
      · exact ⟨a, by simp, hfirst⟩
      · obtain ⟨x, hx, hxy⟩ := ih hy
        exact ⟨x, List.mem_cons_of_mem _ hx, hxy⟩

namespace Reading

/-- The first value under a key. -/
def valueAt? (name : String) : List (Option String × Reading) → Option Reading
  | [] => none
  | (key, value) :: rest => if key = some name then some value else valueAt? name rest

mutual
/-- No object has two fields with the same key. -/
def Distinct : Reading → Prop
  | .arr items _ => ItemsDistinct items
  | .obj fields _ => (fields.map Prod.fst).Nodup ∧ FieldsDistinct fields
  | .deep inner => Distinct inner
  | _ => True
def ItemsDistinct : List Reading → Prop
  | [] => True
  | item :: items => Distinct item ∧ ItemsDistinct items
def FieldsDistinct : List (Option String × Reading) → Prop
  | [] => True
  | (_, value) :: fields => Distinct value ∧ FieldsDistinct fields
end

mutual
/-- Tells whether no object has two fields with the same key. -/
def decideDistinct : (r : Reading) → Decidable r.Distinct
  | .null => .isTrue trivial
  | .bool _ => .isTrue trivial
  | .num _ => .isTrue trivial
  | .str _ => .isTrue trivial
  | .fault => .isTrue trivial
  | .deep inner => decideDistinct inner
  | .arr items _ => decideItems items
  | .obj fields _ => @instDecidableAnd _ _ inferInstance (decideFields fields)
def decideItems : (items : List Reading) → Decidable (ItemsDistinct items)
  | [] => .isTrue trivial
  | item :: items => @instDecidableAnd _ _ (decideDistinct item) (decideItems items)
def decideFields : (fields : List (Option String × Reading)) → Decidable (FieldsDistinct fields)
  | [] => .isTrue trivial
  | (_, value) :: fields => @instDecidableAnd _ _ (decideDistinct value) (decideFields fields)
end

instance (r : Reading) : Decidable r.Distinct := decideDistinct r

theorem itemsDistinct_iff (items : List Reading) :
    ItemsDistinct items ↔ ∀ item ∈ items, item.Distinct := by
  induction items with
  | nil => simp [ItemsDistinct]
  | cons item rest ih => simp [ItemsDistinct, ih]

theorem fieldsDistinct_iff (fields : List (Option String × Reading)) :
    FieldsDistinct fields ↔ ∀ field ∈ fields, field.2.Distinct := by
  induction fields with
  | nil => simp [FieldsDistinct]
  | cons field rest ih => simp [FieldsDistinct, ih]

theorem Distinct.part {r part : Reading} (h : r.Distinct) (hpart : part ∈ r.parts) :
    part.Distinct := by
  cases r with
  | arr items ending => exact (itemsDistinct_iff items).mp h part hpart
  | obj fields ending =>
      obtain ⟨field, hfield, rfl⟩ := List.mem_map.mp hpart
      exact (fieldsDistinct_iff fields).mp h.2 field hfield
  | deep inner =>
      rw [List.mem_singleton.mp hpart]
      exact h
  | _ => simp [parts] at hpart

/-- A value that is found under a name stands there. -/
theorem mem_of_valueAt? {name : String} {fields : List (Option String × Reading)} {r : Reading}
    (h : valueAt? name fields = some r) : (some name, r) ∈ fields := by
  induction fields with
  | nil => simp [valueAt?] at h
  | cons field rest ih =>
      obtain ⟨key, value⟩ := field
      simp only [valueAt?] at h
      split at h
      case isTrue hkey => simp_all
      case isFalse => exact List.mem_cons_of_mem _ (ih h)

theorem valueAt?_eq_none {name : String} {fields : List (Option String × Reading)}
    (h : some name ∉ fields.map Prod.fst) : valueAt? name fields = none := by
  cases hvalue : valueAt? name fields with
  | none => rfl
  | some r => exact absurd (List.mem_map_of_mem (mem_of_valueAt? hvalue)) h

theorem ofItems_eq_map (items : List Json) : ofItems items = items.map ofJson := by
  induction items with
  | nil => rfl
  | cons item rest ih => simp [ofItems, ih]

theorem ofFields_eq_map (fields : Fields Json) :
    ofFields fields = fields.map fun field => (some field.1, ofJson field.2) := by
  induction fields with
  | nil => rfl
  | cons field rest ih => simp [ofFields, ih]

/-- The value under a name is the same in a reading. -/
theorem valueAt?_ofFields (name : String) (fields : Fields Json) :
    valueAt? name (ofFields fields) = (Fields.get? name fields).map ofJson := by
  induction fields with
  | nil => rfl
  | cons field rest ih =>
      simp only [ofFields, valueAt?, Fields.get?, ih, Option.some.injEq]
      split <;> rfl

/-- What a reading and the value taken out of it have in common, field by field. -/
def Taken (field : Option String × Reading) (entry : String × Json) : Prop :=
  field.1 = some entry.1 ∧ field.2.toJson = .ok entry.2

theorem itemsToJson_ok {items : List Reading} {values : List Json}
    (h : itemsToJson items = .ok values) :
    List.Forall₂ (fun item value => item.toJson = .ok value) items values := by
  induction items generalizing values with
  | nil =>
      cases h
      exact List.Forall₂.nil
  | cons item rest ih =>
      obtain ⟨value, hitem, h⟩ := ok_of_bind h
      obtain ⟨others, hrest, h⟩ := ok_of_bind h
      cases h
      exact List.Forall₂.cons hitem (ih hrest)

/-- Fields that are read are inserted one after the other. -/
theorem fieldsToJson_ok {fields : List (Option String × Reading)} {read out : Fields Json}
    (h : fieldsToJson read fields = .ok out) :
    ∃ entries, List.Forall₂ Taken fields entries ∧ out = Fields.insertAll entries read := by
  induction fields generalizing read with
  | nil =>
      cases h
      exact ⟨[], List.Forall₂.nil, rfl⟩
  | cons field rest ih =>
      obtain ⟨key, r⟩ := field
      cases key with
      | none => cases h
      | some key =>
          obtain ⟨value, hr, h⟩ := ok_of_bind h
          obtain ⟨entries, htaken, rfl⟩ := ih h
          exact ⟨(key, value) :: entries, List.Forall₂.cons ⟨rfl, hr⟩ htaken, rfl⟩

theorem toJson_arr_ok {items : List Reading} {ending : Ending} {v : Json}
    (h : toJson (.arr items ending) = .ok v) :
    ∃ values, List.Forall₂ (fun item value => item.toJson = .ok value) items values ∧
      v = .arr values := by
  obtain ⟨values, hitems, h⟩ := ok_of_bind h
  obtain ⟨_, _, h⟩ := ok_of_bind h
  cases h
  exact ⟨values, itemsToJson_ok hitems, rfl⟩

/-- The value of an object holds the fields in the order of their keys. -/
theorem toJson_obj_ok {fields : List (Option String × Reading)} {ending : Ending} {v : Json}
    (h : toJson (.obj fields ending) = .ok v) :
    ∃ entries, List.Forall₂ Taken fields entries ∧ v = .obj (Fields.ofList entries) := by
  obtain ⟨out, hfields, h⟩ := ok_of_bind h
  obtain ⟨_, _, h⟩ := ok_of_bind h
  cases h
  obtain ⟨entries, htaken, rfl⟩ := fieldsToJson_ok hfields
  exact ⟨entries, htaken, rfl⟩

/-- A value without parts. -/
def IsScalar : Json → Prop
  | .arr _ => False
  | .obj _ => False
  | _ => True

/-- What a value can have been taken out of. -/
theorem toJson_cases {r : Reading} {v : Json} (h : r.toJson = .ok v) :
    (∃ items ending values, r = .arr items ending ∧ v = .arr values ∧
        List.Forall₂ (fun item value => item.toJson = .ok value) items values) ∨
      (∃ fields ending entries, r = .obj fields ending ∧ v = .obj (Fields.ofList entries) ∧
        List.Forall₂ Taken fields entries) ∨
      (r = ofJson v ∧ IsScalar v) := by
  cases r with
  | arr items ending =>
      obtain ⟨values, hvalues, rfl⟩ := toJson_arr_ok h
      exact Or.inl ⟨items, ending, values, rfl, rfl, hvalues⟩
  | obj fields ending =>
      obtain ⟨entries, htaken, rfl⟩ := toJson_obj_ok h
      exact Or.inr (Or.inl ⟨fields, ending, entries, rfl, rfl, htaken⟩)
  | null =>
      cases h
      exact Or.inr (Or.inr ⟨rfl, trivial⟩)
  | bool b =>
      cases h
      exact Or.inr (Or.inr ⟨rfl, trivial⟩)
  | num n =>
      cases n with
      | none => cases h
      | some n =>
          cases h
          exact Or.inr (Or.inr ⟨rfl, trivial⟩)
  | str s =>
      cases s with
      | none => cases h
      | some s =>
          cases h
          exact Or.inr (Or.inr ⟨rfl, trivial⟩)
  | deep inner => cases h
  | fault => cases h

theorem taken_keys {fields : List (Option String × Reading)} {entries : List (String × Json)}
    (h : List.Forall₂ Taken fields entries) :
    fields.map Prod.fst = (entries.map Prod.fst).map some := by
  induction h with
  | nil => rfl
  | cons hfirst _ ih => simp [hfirst.1, ih]

/-- Distinct keys stay distinct when fields are taken. -/
theorem taken_nodup {fields : List (Option String × Reading)} {entries : List (String × Json)}
    (h : List.Forall₂ Taken fields entries) (hd : (fields.map Prod.fst).Nodup) :
    (entries.map Prod.fst).Nodup :=
  List.Nodup.of_map some (taken_keys h ▸ hd)

/-- The value under a key is the one that stands there in the text. -/
theorem taken_valueAt? {fields : List (Option String × Reading)}
    {entries : List (String × Json)} (h : List.Forall₂ Taken fields entries) (name : String) :
    (valueAt? name fields = none ∧ Fields.get? name entries = none) ∨
      ∃ r v, valueAt? name fields = some r ∧ Fields.get? name entries = some v ∧
        r.toJson = .ok v := by
  induction h with
  | nil => exact Or.inl ⟨rfl, rfl⟩
  | @cons field entry _ _ hfirst _ ih =>
      by_cases hname : entry.1 = name
      · exact Or.inr ⟨field.2, entry.2, by simp [valueAt?, hfirst.1, hname],
          by simp [Fields.get?, hname], hfirst.2⟩
      · simpa [valueAt?, Fields.get?, hfirst.1, hname] using ih

/-- In a value no key of an object occurs twice, whatever the text. -/
theorem distinct_ofJson : ∀ (r : Reading) (v : Json), r.toJson = .ok v → (ofJson v).Distinct := by
  intro r
  induction r using parts_induction with
  | step r ih =>
      intro v hv
      rcases toJson_cases hv with ⟨items, ending, values, rfl, rfl, hvalues⟩ |
        ⟨fields, ending, entries, rfl, rfl, htaken⟩ | ⟨_, hscalar⟩
      · simp only [ofJson, Distinct, itemsDistinct_iff, ofItems_eq_map]
        intro item hitem
        obtain ⟨value, hvalue, rfl⟩ := List.mem_map.mp hitem
        obtain ⟨source, hsource, hok⟩ := exists_of_mem_right hvalues hvalue
        exact ih source hsource value hok
      · simp only [ofJson, Distinct, fieldsDistinct_iff, ofFields_eq_map]
        constructor
        · have hkeys := (Fields.ofList_sorted entries).nodup
          rw [List.map_map]
          change ((Fields.ofList entries).map (some ∘ Prod.fst)).Nodup
          rw [← List.map_map]
          exact hkeys.map fun _ _ h => Option.some.inj h
        · intro field hfield
          obtain ⟨entry, hentry, rfl⟩ := List.mem_map.mp hfield
          obtain ⟨source, hsource, htook⟩ :=
            exists_of_mem_right htaken (Fields.mem_of_mem_ofList hentry)
          exact ih source.2 (List.mem_map_of_mem hsource) entry.2 htook.2
      · cases v <;> trivial

end Reading

end EntryForm
