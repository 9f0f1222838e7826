import EntryForm.Proofs.JsonText

/-!
# What is taken out of a reading

A text is read with bounds: nothing that can be taken out of the reading nests deeper than the
reader allows, and its integers have 64 bits. A value that has been taken out keeps within these
bounds, and is the same when it is written and taken out again.
-/

namespace EntryForm

namespace Reading

/-- At most so many arrays and objects lie in each other, apart from those that lie too deep to be
taken out, and integers have 64 bits. -/
inductive Within : Nat → Reading → Prop
  | null {n : Nat} : Within n .null
  | bool {n : Nat} {b : Bool} : Within n (.bool b)
  | num {n : Nat} {x : Option Number} : (∀ k ∈ x, k.Fits) → Within n (.num x)
  | str {n : Nat} {s : Option String} : Within n (.str s)
  | arr {n : Nat} {items : List Reading} {ending : Ending} :
      (∀ item ∈ items, Within n item) → Within (n + 1) (.arr items ending)
  | obj {n : Nat} {fields : List (Option String × Reading)} {ending : Ending} :
      (∀ field ∈ fields, Within n field.2) → Within (n + 1) (.obj fields ending)
  | deep {n : Nat} {inner : Reading} : Within n (.deep inner)
  | fault {n : Nat} : Within n .fault

/-- A reading cut at the limit of depth is within the bounds. -/
theorem within_limit {depth n : Nat} {r : Reading} (h : depth + n = maxDepth)
    (hr : ∀ m, n = m + 1 → r.Within n) : (limit depth r).Within n := by
  rw [limit]
  split
  · exact .deep
  · cases n with
    | zero => omega
    | succ m => exact hr m rfl

/-- What the reader reads with some fuel keeps within the bounds. -/
structure Keeps (fuel : Nat) : Prop where
  value : ∀ depth n cs, depth + n = maxDepth → (readValue depth fuel cs).1.Within n
  items : ∀ depth n first cs, depth + n = maxDepth →
    ∀ item ∈ (readItems depth fuel first cs).1, item.Within n
  fields : ∀ depth n first cs, depth + n = maxDepth →
    ∀ field ∈ (readFields depth fuel first cs).1, field.2.Within n

theorem Keeps.value_succ {fuel : Nat} (h : Keeps fuel) {depth n : Nat} (cs : List Char)
    (hdepth : depth + n = maxDepth) : (readValue depth (fuel + 1) cs).1.Within n := by
  rw [readValue]
  split
  case _ rest _ =>
    refine within_limit hdepth ?_
    rintro m rfl
    exact .arr (h.items (depth + 1) m true rest (by omega))
  case _ rest _ =>
    refine within_limit hdepth ?_
    rintro m rfl
    exact .obj (h.fields (depth + 1) m true rest (by omega))
  case _ =>
    split
    · exact .str
    · exact .fault
  · exact .null
  · exact .bool
  · exact .bool
  · split
    · exact .num fun k hk => Number.fits_value? hk
    · exact .fault

theorem Keeps.items_succ {fuel : Nat} (h : Keeps fuel) {depth n : Nat} (first : Bool)
    (cs : List Char) (hdepth : depth + n = maxDepth) :
    ∀ item ∈ (readItems depth (fuel + 1) first cs).1, item.Within n := by
  have hitem (cs : List Char) {r : Reading} {left : Option (List Char)}
      (hread : readValue depth fuel cs = (r, left)) : r.Within n := by
    have hvalue := h.value depth n cs hdepth
    rwa [hread] at hvalue
  rw [readItems.eq_def]
  dsimp only
  split
  · exact List.forall_mem_nil _
  · split
    case _ hread => exact List.forall_mem_singleton.mpr (hitem _ hread)
    case _ hread =>
      split
      · exact List.forall_mem_singleton.mpr (hitem _ hread)
      · exact List.forall_mem_cons.mpr ⟨hitem _ hread, h.items depth n false _ hdepth⟩
      · exact List.forall_mem_singleton.mpr (hitem _ hread)

theorem Keeps.fields_succ {fuel : Nat} (h : Keeps fuel) {depth n : Nat} (first : Bool)
    (cs : List Char) (hdepth : depth + n = maxDepth) :
    ∀ field ∈ (readFields depth (fuel + 1) first cs).1, field.2.Within n := by
  have hfield (cs : List Char) {r : Reading} {left : Option (List Char)}
      (hread : readValue depth fuel cs = (r, left)) : r.Within n := by
    have hvalue := h.value depth n cs hdepth
    rwa [hread] at hvalue
  rw [readFields.eq_def]
  dsimp only
  split
  · exact List.forall_mem_nil _
  · split
    · exact List.forall_mem_nil _
    · split
      · split
        case _ hread => exact List.forall_mem_singleton.mpr (hfield _ hread)
        case _ hread =>
          split
          · exact List.forall_mem_singleton.mpr (hfield _ hread)
          · exact List.forall_mem_cons.mpr ⟨hfield _ hread, h.fields depth n false _ hdepth⟩
          · exact List.forall_mem_singleton.mpr (hfield _ hread)
      · exact List.forall_mem_singleton.mpr .fault
  · exact List.forall_mem_nil _

/-- Whatever is read of a text is within the bounds. -/
theorem keeps (fuel : Nat) : Keeps fuel := by
  induction fuel with
  | zero => exact ⟨fun _ _ _ _ => .fault, fun _ _ _ _ _ => nofun, fun _ _ _ _ _ => nofun⟩
  | succ fuel ih =>
      refine ⟨?_, ?_, ?_⟩
      · intro depth n cs hdepth
        exact ih.value_succ cs hdepth
      · intro depth n first cs hdepth
        exact ih.items_succ first cs hdepth
      · intro depth n first cs hdepth
        exact ih.fields_succ first cs hdepth

/-- The reading of a text keeps within the bounds. -/
theorem within_ofText (cs : List Char) : (ofText cs).1.Within maxDepth := by
  have hvalue := (keeps (2 * cs.length + 2)).value 0 maxDepth cs (by omega)
  rw [ofText]
  split
  case _ hread => rwa [hread] at hvalue
  case _ hread => rwa [hread] at hvalue

end Reading

namespace Json
open Reading

/-- What a value keeps of the bounds that it was read with. -/
structure Within (n : Nat) (v : Json) : Prop where
  depth : v.depth ≤ n
  fits : ∀ k ∈ v.numbers, k.Fits

theorem Within.mono {n m : Nat} {v : Json} (h : v.Within n) (hle : n ≤ m) : v.Within m :=
  ⟨h.depth.trans hle, h.fits⟩

/-- An array is one deeper than its items. -/
theorem within_arr {n : Nat} {items : List Json} (h : ∀ item ∈ items, item.Within n) :
    (Json.arr items).Within (n + 1) := by
  have hitems : itemsDepth items ≤ n ∧ ∀ k ∈ itemsNumbers items, k.Fits := by
    induction items with
    | nil => exact ⟨Nat.zero_le n, nofun⟩
    | cons item rest ih =>
        obtain ⟨hfirst, hrest⟩ := List.forall_mem_cons.mp h
        obtain ⟨hdepth, hfits⟩ := ih hrest
        exact ⟨Nat.max_le.mpr ⟨hfirst.depth, hdepth⟩,
          List.forall_mem_append.mpr ⟨hfirst.fits, hfits⟩⟩
  exact ⟨Nat.succ_le_succ hitems.1, hitems.2⟩

theorem within_obj {n : Nat} {fields : List (String × Json)}
    (h : ∀ field ∈ fields, field.2.Within n) : (Json.obj fields).Within (n + 1) := by
  have hfields : fieldsDepth fields ≤ n ∧ ∀ k ∈ fieldsNumbers fields, k.Fits := by
    induction fields with
    | nil => exact ⟨Nat.zero_le n, nofun⟩
    | cons field rest ih =>
        obtain ⟨hfirst, hrest⟩ := List.forall_mem_cons.mp h
        obtain ⟨hdepth, hfits⟩ := ih hrest
        exact ⟨Nat.max_le.mpr ⟨hfirst.depth, hdepth⟩,
          List.forall_mem_append.mpr ⟨hfirst.fits, hfits⟩⟩
  exact ⟨Nat.succ_le_succ hfields.1, hfields.2⟩

/-- A scalar is within all bounds of depth. -/
theorem within_scalar {n : Nat} {v : Json} (h : IsScalar v) (hfits : ∀ k, v = .num k → k.Fits) :
    v.Within n := by
  cases v with
  | num k => exact ⟨Nat.zero_le n, List.forall_mem_singleton.mpr (hfits k rfl)⟩
  | arr items => exact h.elim
  | obj fields => exact h.elim
  | _ => exact ⟨Nat.zero_le n, nofun⟩

/-- A value that stays the same when it is written and taken out again. -/
def Stable (v : Json) : Prop := (written v).toJson = .ok v

end Json

namespace Reading

theorem written_scalar {v : Json} (h : IsScalar v) : written v = ofJson v := by
  cases v with
  | arr items => exact h.elim
  | obj fields => exact h.elim
  | _ => rfl

/-- Stable items are read again from what is written of them. -/
theorem itemsToJson_written {items : List Json} (h : ∀ item ∈ items, item.Stable) :
    itemsToJson (writtenItems items) = .ok items := by
  induction items with
  | nil => rfl
  | cons item rest ih =>
      obtain ⟨hfirst, hrest⟩ := List.forall_mem_cons.mp h
      have hfirst : (written item).toJson = .ok item := hfirst
      rw [writtenItems, itemsToJson, hfirst, ih hrest]
      rfl

theorem fieldsToJson_written {fields : List (String × Json)} (h : ∀ field ∈ fields, field.2.Stable)
    (read : Fields Json) :
    fieldsToJson read (writtenFields fields) = .ok (Fields.insertAll fields read) := by
  induction fields generalizing read with
  | nil => rfl
  | cons field rest ih =>
      obtain ⟨key, value⟩ := field
      obtain ⟨hfirst, hrest⟩ := List.forall_mem_cons.mp h
      have hfirst : (written value).toJson = .ok value := hfirst
      rw [writtenFields, fieldsToJson, hfirst]
      exact ih hrest _

/-- A value is as far within bounds as its reading, and stable. -/
theorem toJson_keeps : ∀ (r : Reading) (n : Nat) (v : Json), r.Within n → r.toJson = .ok v →
    v.Within n ∧ v.Stable := by
  intro r
  induction r using parts_induction with
  | step r ih =>
      intro n v hr hv
      rcases toJson_cases hv with ⟨items, ending, values, rfl, rfl, hvalues⟩ |
        ⟨fields, ending, entries, rfl, rfl, htaken⟩ | ⟨rfl, hscalar⟩
      · cases hr with
        | @arr m _ _ hitems =>
            have hkept : ∀ value ∈ values, value.Within m ∧ value.Stable := by
              intro value hvalue
              obtain ⟨item, hitem, hok⟩ := exists_of_mem_right hvalues hvalue
              exact ih item hitem m value (hitems item hitem) hok
            refine ⟨Json.within_arr fun value hvalue => (hkept value hvalue).1, ?_⟩
            rw [Json.Stable, written, toJson,
              itemsToJson_written fun value hvalue => (hkept value hvalue).2]
            rfl
      · cases hr with
        | @obj m _ _ hfields =>
            have hkept : ∀ entry ∈ Fields.ofList entries, entry.2.Within m ∧ entry.2.Stable := by
              intro entry hentry
              obtain ⟨field, hfield, htook⟩ :=
                exists_of_mem_right htaken (Fields.mem_of_mem_ofList hentry)
              exact ih field.2 (List.mem_map_of_mem hfield) m entry.2 (hfields field hfield) htook.2
            refine ⟨Json.within_obj fun entry hentry => (hkept entry hentry).1, ?_⟩
            have hsorted : Fields.insertAll (Fields.ofList entries) [] = Fields.ofList entries :=
              (Fields.ofList_eq_self_iff _).mpr (Fields.ofList_sorted entries)
            rw [Json.Stable, written, toJson,
              fieldsToJson_written fun entry hentry => (hkept entry hentry).2, hsorted]
            rfl
      · refine ⟨Json.within_scalar hscalar ?_, ?_⟩
        · rintro k rfl
          cases hr with
          | num hfits => exact hfits k rfl
        · rw [Json.Stable, written_scalar hscalar]
          exact hv

end Reading

end EntryForm
