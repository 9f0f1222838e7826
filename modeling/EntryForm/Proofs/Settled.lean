import EntryForm.Proofs.Keys
import EntryForm.Proofs.Rereading

/-!
# What has been read as an entity

An entity that has been read is settled (`Entity.Settled`): its features and its other keys
increase, no key of a map occurs twice, counts have the size of their type, no value is null, and
all of it keeps the bounds of the text. Reading one more field keeps this.
-/

namespace EntryForm

namespace Json

/-- What keeps the bounds inside an array or object that keeps them. -/
def Inside (n : Nat) (v : Json) : Prop := ∃ m, n = m + 1 ∧ v.Within m

theorem exists_within {α : Type} {n : Nat} {f : α → Json} {l : List α} (hne : l ≠ [])
    (h : ∀ a ∈ l, (f a).Inside n) : ∃ m, n = m + 1 ∧ ∀ a ∈ l, (f a).Within m := by
  obtain ⟨first, hfirst⟩ := List.exists_mem_of_ne_nil l hne
  obtain ⟨m, rfl, _⟩ := h first hfirst
  refine ⟨m, rfl, fun a ha => ?_⟩
  obtain ⟨_, hm, hwithin⟩ := h a ha
  cases hm
  exact hwithin

theorem within_obj_of_inside {n : Nat} {fields : List (String × Json)} (hne : fields ≠ [])
    (h : ∀ field ∈ fields, field.2.Inside n) : (Json.obj fields).Within n := by
  obtain ⟨m, rfl, hfields⟩ := exists_within hne h
  exact within_obj hfields

theorem within_arr_of_inside {n : Nat} {items : List Json} (hne : items ≠ [])
    (h : ∀ item ∈ items, item.Inside n) : (Json.arr items).Within n := by
  obtain ⟨m, rfl, hitems⟩ := exists_within hne h
  exact within_arr hitems

end Json

namespace Reading

/-- An optional value that is there was read as one. -/
theorem optional_ok {α : Type} {read : Reading → Except ShapeError α} {r : Reading}
    {out : Option α} (h : r.optional read = .ok out) :
    ∀ a ∈ out, r ≠ .null ∧ read r = .ok a := by
  have hread {r : Reading} (h : (read r).map some = .ok out) : ∀ a ∈ out, read r = .ok a := by
    rintro a rfl
    cases hr : read r with
    | error e => rw [hr] at h; cases h
    | ok b => rw [hr] at h; cases h; rfl
  cases r with
  | null =>
      cases h
      exact nofun
  | _ => exact fun a ha => ⟨nofun, hread h a ha⟩

theorem toNumber_ok {r : Reading} {k : Number} (h : r.toNumber = .ok k) : r = .num (some k) := by
  unfold toNumber at h
  split at h
  · cases h
    rfl
  · cases h

theorem toNat_lt {limit k : Nat} {expected : String} {r : Reading}
    (h : toNat limit expected r = .ok k) : k < limit := by
  unfold toNat at h
  split at h
  · split at h
    case isTrue hrange =>
      cases h
      omega
    case isFalse => cases h
  · cases h

/-- Only null is read as null. -/
theorem toJson_null {r : Reading} (h : r.toJson = .ok .null) : r = .null := by
  rcases toJson_cases h with ⟨_, _, _, _, h, _⟩ | ⟨_, _, _, _, h, _⟩ | ⟨h, _⟩
  · cases h
  · cases h
  · exact h

/-- A value that is given is not null, and keeps the bounds. -/
theorem optional_toJson_keeps {n : Nat} {r : Reading} {out : Option Json} (hr : r.Within n)
    (h : r.optional toJson = .ok out) : ∀ v ∈ out, v ≠ .null ∧ v.Stable ∧ v.Within n := by
  intro v hv
  obtain ⟨hnull, hread⟩ := optional_ok h v hv
  obtain ⟨hwithin, hstable⟩ := toJson_keeps r n v hr hread
  refine ⟨?_, hstable, hwithin⟩
  rintro rfl
  exact hnull (toJson_null hread)

theorem optional_written {v : Json} (hnull : v ≠ .null) (hv : v.Stable) :
    (written v).optional toJson = .ok (some v) := by
  have hv : (written v).toJson = .ok v := hv
  have hoptional : (written v).optional toJson = (written v).toJson.map some := by
    cases v with
    | null => exact absurd rfl hnull
    | _ => rfl
  rw [hoptional, hv]
  rfl

end Reading

namespace RecordShape
variable {α : Type} {shape : RecordShape α} {P : α → Prop}

/-- What each field keeps is kept by reading a record by names. -/
theorem readNamed_keeps {ending : Ending} {seen : List String}
    {fields : List (Option String × Reading)} {x out : α}
    (step : ∀ name, ∀ field ∈ fields, ∀ x y, P x → shape.read name field.2 x = .ok y → P y)
    (hx : P x) (h : shape.readNamed ending seen fields x = .ok out) : P out := by
  induction fields generalizing seen x with
  | nil =>
      obtain ⟨_, _, h⟩ := ok_of_bind h
      obtain ⟨_, _, h⟩ := ok_of_bind h
      cases h
      exact hx
  | cons field rest ih =>
      obtain ⟨_ | name, value⟩ := field
      · cases h
      · obtain ⟨hfirst, hrest⟩ :
            (∀ name x y, P x → shape.read name value x = .ok y → P y) ∧
              ∀ name, ∀ field ∈ rest, ∀ x y, P x → shape.read name field.2 x = .ok y → P y :=
          ⟨fun name => step name _ List.mem_cons_self,
            fun name field hfield => step name field (List.mem_cons_of_mem _ hfield)⟩
        rw [readNamed] at h
        split at h
        · split at h
          · cases h
          · obtain ⟨y, hy, h⟩ := ok_of_bind h
            exact ih hrest (hfirst name x y hx hy) h
        · obtain ⟨_, _, h⟩ := ok_of_bind h
          exact ih hrest hx h

/-- What each field keeps is kept by reading a record as a list. -/
theorem readListed_keeps {ending : Ending} {size : Nat}
    {onShort : Nat → String → Except ShapeError Unit} {position : Nat} {names : List String}
    {values : List Reading} {x out : α}
    (step : ∀ name, ∀ value ∈ values, ∀ x y, P x → shape.read name value x = .ok y → P y)
    (hx : P x) (h : shape.readListed ending size onShort position names values x = .ok out) :
    P out := by
  induction names generalizing position values x with
  | nil =>
      cases values with
      | nil =>
          obtain ⟨_, _, h⟩ := ok_of_bind h
          cases h
          exact hx
      | cons value rest => cases h
  | cons name names ih =>
      cases values with
      | nil =>
          obtain ⟨_, _, h⟩ := ok_of_bind h
          obtain ⟨_, _, h⟩ := ok_of_bind h
          exact ih step hx h
      | cons value rest =>
          obtain ⟨y, hy, h⟩ := ok_of_bind h
          refine ih ?_ (step name value List.mem_cons_self x y hx hy) h
          exact fun name value hvalue => step name value (List.mem_cons_of_mem _ hvalue)

/-- A record that has been read has what its default has and what each of its fields keeps. What
has been read as a record has parts, one level further in. -/
theorem toRecord_keeps {n : Nat} {r : Reading} {default out : α} (hr : r.Within n)
    (step : ∀ m, n = m + 1 → ∀ name part x y, part.Within m → P x →
      shape.read name part x = .ok y → P y)
    (hdefault : P default) (h : shape.toRecord default r = .ok out) : 0 < n ∧ P out := by
  cases hr with
  | arr hitems =>
      refine ⟨Nat.succ_pos _, readListed_keeps ?_ hdefault h⟩
      exact fun name value hvalue x y => step _ rfl name value x y (hitems value hvalue)
  | obj hfields =>
      refine ⟨Nat.succ_pos _, readNamed_keeps ?_ hdefault h⟩
      exact fun name field hfield x y => step _ rfl name field.2 x y (hfields field hfield)
  | _ => cases h

end RecordShape

namespace Feature
open Reading

/-- A feature that is read as it was written. -/
def Stable (f : Feature) : Prop := read (written f.toJson) = .ok f

theorem stable_of_value {f : Feature} (h : ∀ v ∈ f.value, v ≠ .null ∧ v.Stable) : f.Stable := by
  obtain ⟨_ | v⟩ := f
  · rfl
  · obtain ⟨hnull, hv⟩ := h v rfl
    have hread : shape.read "value" (written v) ⟨none⟩ = .ok ⟨some v⟩ := by
      simp only [shape, optional_written hnull hv]
      rfl
    have hknown : shape.fields.contains "value" = true := rfl
    change shape.readNamed .bracket [] [(some "value", written v)] ⟨none⟩ = .ok ⟨some v⟩
    rw [RecordShape.readNamed, if_pos hknown, if_neg (by simp), hread]
    rfl

/-- A feature that is read is stable and within the bounds. -/
theorem read_keeps {n : Nat} {r : Reading} {f : Feature} (hr : r.Within n) (h : read r = .ok f) :
    f.Stable ∧ f.toJson.Within n := by
  obtain ⟨hpos, hvalue⟩ : 0 < n ∧ ∀ v ∈ f.value, v ≠ .null ∧ v.Stable ∧ v.Inside n := by
    refine RecordShape.toRecord_keeps (P := fun f => ∀ v ∈ f.value, v ≠ .null ∧ v.Stable ∧
      v.Inside n) hr ?_ nofun h
    intro m hm name part x y hpart _ hread v hv
    obtain ⟨value, hvalue, hread⟩ := ok_of_bind hread
    cases hread
    obtain ⟨hnull, hstable, hwithin⟩ := optional_toJson_keeps hpart hvalue v hv
    exact ⟨hnull, hstable, m, hm, hwithin⟩
  refine ⟨stable_of_value fun v hv => ⟨(hvalue v hv).1, (hvalue v hv).2.1⟩, ?_⟩
  obtain ⟨_ | v⟩ := f
  · exact ⟨hpos, nofun⟩
  · refine Json.within_obj_of_inside (List.cons_ne_nil _ _) ?_
    exact List.forall_mem_singleton.mpr (hvalue v rfl).2.2

theorem readFields_keeps {n : Nat} {fields : List (Option String × Reading)}
    {features out : Fields Feature} (hfields : ∀ field ∈ fields, field.2.Within n)
    (hsorted : Fields.Sorted features)
    (hfeatures : ∀ f ∈ features, f.2.Stable ∧ f.2.toJson.Within n)
    (h : readFields features fields = .ok out) :
    Fields.Sorted out ∧ ∀ f ∈ out, f.2.Stable ∧ f.2.toJson.Within n := by
  induction fields generalizing features with
  | nil =>
      cases h
      exact ⟨hsorted, hfeatures⟩
  | cons field rest ih =>
      obtain ⟨hfirst, hrest⟩ := List.forall_mem_cons.mp hfields
      obtain ⟨_ | name, value⟩ := field
      · cases h
      · obtain ⟨f, hf, h⟩ := ok_of_bind h
        refine ih hrest (hsorted.insert name f) ?_ h
        intro g hg
        rcases Fields.mem_insert hg with rfl | hg
        · exact read_keeps hfirst hf
        · exact hfeatures g hg

theorem readAll_keeps {n : Nat} {r : Reading} {features : Fields Feature} (hr : r.Within n)
    (h : readAll r = .ok features) :
    Fields.Sorted features ∧ ∀ f ∈ features, f.2.Stable ∧ f.2.toJson.Inside n := by
  cases hr with
  | @obj m fields _ hfields =>
      obtain ⟨out, hout, h⟩ := ok_of_bind h
      obtain ⟨_, _, h⟩ := ok_of_bind h
      cases h
      obtain ⟨hsorted, hall⟩ := readFields_keeps hfields List.Pairwise.nil nofun hout
      exact ⟨hsorted, fun f hf => ⟨(hall f hf).1, m, rfl, (hall f hf).2⟩⟩
  | _ => cases h

theorem readFields_written {features : Fields Feature} (h : ∀ f ∈ features, f.2.Stable)
    (read : Fields Feature) :
    readFields read (writtenFields (features.map fun f => (f.1, f.2.toJson))) =
      .ok (Fields.insertAll features read) := by
  induction features generalizing read with
  | nil => rfl
  | cons feature rest ih =>
      obtain ⟨hfirst, hrest⟩ := List.forall_mem_cons.mp h
      have hfirst : Feature.read (written feature.2.toJson) = .ok feature.2 := hfirst
      rw [List.map_cons, writtenFields, readFields, hfirst]
      exact ih hrest _

/-- All features are read again from what is written of them. -/
theorem readAll_written {features : Fields Feature} (hsorted : Fields.Sorted features)
    (h : ∀ f ∈ features, f.2.Stable) :
    readAll (written (.obj (features.map fun f => (f.1, f.2.toJson)))) = .ok features := by
  have hsame : Fields.insertAll features [] = features := Fields.insertAll_eq_append hsorted
  rw [written, readAll, readFields_written h, hsame]
  rfl

end Feature

/-- What an entity that has been read says about itself. `n` bounds what lies right inside it. -/
structure Facts.Settled (n : Nat) (e : Facts) : Prop where
  sorted : Fields.Sorted e.features
  features : ∀ f ∈ e.features, f.2.Stable ∧ f.2.toJson.Inside n
  minValue : ∀ k ∈ e.minValue, k.Fits
  maxValue : ∀ k ∈ e.maxValue, k.Fits
  minLength : ∀ k ∈ e.minLength, k < UInt64.size
  maxLength : ∀ k ∈ e.maxLength, k < UInt64.size
  minCardinality : ∀ k ∈ e.minCardinality, k < UInt32.size
  maxCardinality : ∀ k ∈ e.maxCardinality, k < UInt32.size
  value : ∀ v ∈ e.value, v ≠ .null ∧ v.Stable ∧ v.Within n
  increasing : Fields.Sorted e.extra
  extra : ∀ field ∈ e.extra, field.1 ∉ Entity.keys ∧ field.2.Stable ∧ field.2.Within n
  depth : e.depth = 0
  path : e.path = []

namespace Facts
variable {n : Nat} {e e' : Facts} {key : String} {r : Reading}

theorem settled_default : ({} : Facts).Settled n where
  sorted := List.Pairwise.nil
  features := nofun
  minValue := nofun
  maxValue := nofun
  minLength := nofun
  maxLength := nofun
  minCardinality := nofun
  maxCardinality := nofun
  value := nofun
  increasing := List.Pairwise.nil
  extra := nofun
  depth := rfl
  path := rfl

theorem fits_of_optional {out : Option Number} (hr : r.Within n)
    (h : r.optional Reading.toNumber = .ok out) : ∀ k ∈ out, k.Fits := by
  intro k hk
  obtain ⟨_, hread⟩ := Reading.optional_ok h k hk
  rw [Reading.toNumber_ok hread] at hr
  cases hr with
  | num hfits => exact hfits k rfl

theorem lt_of_optional {limit : Nat} {expected : String} {out : Option Nat}
    (h : r.optional (Reading.toNat limit expected) = .ok out) : ∀ k ∈ out, k < limit := by
  intro k hk
  exact Reading.toNat_lt (Reading.optional_ok h k hk).2

/-- Reading a field keeps an entity settled. There is one case for each key, in the order of
`readField`: 8 are the features, 17 is the initial value, the others named are numbers, and the rest
are texts, which are not restricted. -/
theorem readField_settled (hr : r.Within n) (he : e.Settled n)
    (h : e.readField key r = .ok e') : e'.Settled n := by
  unfold readField at h
  split at h
  all_goals
    obtain ⟨x, hx, h⟩ := ok_of_bind h
    cases h
  case h_8 =>
    obtain ⟨hsorted, hfeatures⟩ := Feature.readAll_keeps hr hx
    exact { he with sorted := hsorted, features := hfeatures }
  case h_9 => exact { he with minValue := fits_of_optional hr hx }
  case h_10 => exact { he with maxValue := fits_of_optional hr hx }
  case h_11 => exact { he with minLength := lt_of_optional hx }
  case h_12 => exact { he with maxLength := lt_of_optional hx }
  case h_14 => exact { he with minCardinality := lt_of_optional hx }
  case h_15 => exact { he with maxCardinality := lt_of_optional hx }
  case h_17 => exact { he with value := Reading.optional_toJson_keeps hr hx }
  all_goals exact { he with }

theorem settled_insert {v : Json} (hkey : key ∉ Entity.keys) (hv : v.Stable ∧ v.Within n)
    (he : e.Settled n) : ({ e with extra := e.extra.insert key v } : Facts).Settled n := by
  refine { he with increasing := he.increasing.insert key v, extra := ?_ }
  intro field hfield
  rcases Fields.mem_insert hfield with rfl | hfield
  · exact ⟨hkey, hv⟩
  · exact he.extra field hfield

end Facts

namespace Entity
open Reading

/-- An entity that is read as it was written. -/
def Stable (e : Entity) : Prop := read (written e.toJson) = .ok e

/-- The nodes right below a node. -/
def subnodes (e : Entity) : List Entity :=
  e.components.values ++ (e.choices.values ++ e.units)

/-- An entity that keeps the bounds of a text and is read as it was written, as are all nodes below
it. -/
inductive Kept : Entity → Prop
  | intro {e : Entity} (stable : e.Stable) (within : e.toJson.Within maxDepth)
      (subnodes : ∀ d ∈ e.subnodes, Kept d) : Kept e

theorem Kept.stable {e : Entity} (h : e.Kept) : e.Stable := by
  cases h
  assumption

theorem Kept.within {e : Entity} (h : e.Kept) : e.toJson.Within maxDepth := by
  cases h
  assumption

theorem Kept.subnodes {e : Entity} (h : e.Kept) : ∀ d ∈ e.subnodes, d.Kept := by
  cases h
  assumption

/-- What an entity that has been read consists of. `n` bounds what lies right inside it. -/
structure Settled (n : Nat) (e : Entity) : Prop where
  facts : e.toFacts.Settled n
  components : e.components.keys.Nodup
  choices : e.choices.keys.Nodup
  subnodes : ∀ d ∈ e.subnodes, d.Kept ∧ d.toJson.Inside n

/-- What reading a node, a map of nodes or a list of units keeps. -/
structure ReadKept (r : Reading) : Prop where
  node : ∀ n e, n ≤ maxDepth → r.Within n → read r = .ok e → e.Kept ∧ e.toJson.Within n
  map : ∀ n m, n ≤ maxDepth → r.Within n → readMap r = .ok m →
    m.keys.Nodup ∧ ∀ d ∈ m.values, d.Kept ∧ d.toJson.Inside n
  list : ∀ n l, n ≤ maxDepth → r.Within n → readList r = .ok l →
    ∀ d ∈ l, d.Kept ∧ d.toJson.Inside n

section settled
variable {n : Nat} {e e' : Entity} {key : String} {r : Reading}

/-- Reading a known field keeps an entity settled. -/
theorem readKnown_settled (hn : n ≤ maxDepth) (hr : r.Within n) (ih : ReadKept r)
    (he : e.Settled n) (h : readKnown key r e = .ok e') : e'.Settled n := by
  obtain ⟨hcomponents, hchoices, hunits⟩ : (∀ d ∈ e.components.values, d.Kept ∧ d.toJson.Inside n) ∧
      (∀ d ∈ e.choices.values, d.Kept ∧ d.toJson.Inside n) ∧
        ∀ d ∈ e.units, d.Kept ∧ d.toJson.Inside n := by
    simpa only [Entity.subnodes, List.forall_mem_append] using he.subnodes
  unfold readKnown at h
  split_ifs at h
  · obtain ⟨m, hm, h⟩ := ok_of_bind h
    cases h
    obtain ⟨hkeys, hvalues⟩ := ih.map n m hn hr hm
    refine { he with components := hkeys, subnodes := ?_ }
    exact List.forall_mem_append.mpr ⟨hvalues, List.forall_mem_append.mpr ⟨hchoices, hunits⟩⟩
  · obtain ⟨m, hm, h⟩ := ok_of_bind h
    cases h
    obtain ⟨hkeys, hvalues⟩ := ih.map n m hn hr hm
    refine { he with choices := hkeys, subnodes := ?_ }
    exact List.forall_mem_append.mpr ⟨hcomponents, List.forall_mem_append.mpr ⟨hvalues, hunits⟩⟩
  · obtain ⟨l, hl, h⟩ := ok_of_bind h
    cases h
    refine { he with subnodes := ?_ }
    exact List.forall_mem_append.mpr ⟨hcomponents,
      List.forall_mem_append.mpr ⟨hchoices, ih.list n l hn hr hl⟩⟩
  · obtain ⟨facts, hfacts, h⟩ := ok_of_bind h
    cases h
    exact { he with facts := Facts.readField_settled hr he.facts hfacts }

/-- Reading fields keeps an entity settled. -/
theorem readFields_settled {fields : List (Option String × Reading)} {seen : List String}
    (hn : n ≤ maxDepth) (hfields : ∀ field ∈ fields, field.2.Within n)
    (ih : ∀ field ∈ fields, ReadKept field.2) (he : e.Settled n)
    (h : readFields seen e fields = .ok e') : e'.Settled n := by
  induction fields generalizing seen e with
  | nil =>
      cases h
      exact he
  | cons field rest ihrest =>
      obtain ⟨hfirst, hrest⟩ := List.forall_mem_cons.mp hfields
      obtain ⟨hkept, hlater⟩ := List.forall_mem_cons.mp ih
      obtain ⟨key, value, seen', e₁, rfl, h, hstep⟩ := readFields_ok h
      refine ihrest hrest hlater ?_ h
      rcases hstep with ⟨hkey, v, hv, rfl⟩ | ⟨_, hknown⟩
      · obtain ⟨hwithin, hstable⟩ := toJson_keeps value n v hfirst hv
        exact { he with facts := Facts.settled_insert hkey ⟨hstable, hwithin⟩ he.facts }
      · exact readKnown_settled hn hfirst hkept he hknown

end settled

end Entity

end EntryForm
