import EntryForm.Proofs.Extraction
import EntryForm.Proofs.Maps

/-!
# Insertions in place

An insertion as it works on an object in place: objects are made on the way to where a value goes,
and what has been made before the value turns out not to fit stays made. It does what
`Submission.insert` tells. A value that does not fit has changed nothing, and then at most a mark
joins the object; a value that fits changes what its path leads to, and no path apart from it.
-/

namespace EntryForm

namespace Json

/-- The keys of every object that a path through objects leads to increase. -/
def KeysIncrease (value : Json) : Prop :=
  ∀ q fields, under? q value = some (.obj fields) → Fields.Sorted fields

theorem KeysIncrease.sorted {fields : Fields Json} (h : KeysIncrease (.obj fields)) :
    Fields.Sorted fields :=
  h [] fields (under?_nil _)

/-- The keys increase in every object inside one. -/
theorem KeysIncrease.inner {fields : Fields Json} (h : KeysIncrease (.obj fields)) {key : String}
    {value : Json} (hkey : Fields.get? key fields = some value) : KeysIncrease value := by
  intro q inner hinner
  apply h (key :: q) inner
  rw [under?_cons, hkey, Option.bind_some, hinner]

/-- What is no object has no keys that could be out of order. -/
theorem keysIncrease_leaf {value : Json} (h : ∀ fields, value ≠ .obj fields) :
    KeysIncrease value := by
  intro q fields hq
  cases q with
  | nil => exact absurd (Option.some.inj ((under?_nil value).symm.trans hq)) (h fields)
  | cons key q =>
      cases value with
      | obj inner => exact absurd rfl (h inner)
      | _ => cases hq

/-- Binding a key keeps the order of the keys. -/
theorem KeysIncrease.insert {fields : Fields Json} {value : Json} (h : KeysIncrease (.obj fields))
    (hvalue : KeysIncrease value) (key : String) :
    KeysIncrease (.obj (Fields.insert key value fields)) := by
  intro q inner hq
  cases q with
  | nil =>
      cases (under?_nil _).symm.trans hq
      exact h.sorted.insert key value
  | cons other q =>
      by_cases hkey : key = other
      · subst hkey
        rw [under?_insert_self] at hq
        exact hvalue q inner hq
      · rw [under?_insert_other hkey] at hq
        exact h (other :: q) inner hq

/-- An empty object has nothing under any path but itself. -/
theorem under?_of_empty {q : List String} {found : Json}
    (h : under? q (.obj []) = some found) : found = .obj [] := by
  cases q with
  | nil => exact (Option.some.inj ((under?_nil _).symm.trans h)).symm
  | cons key q => cases h

theorem keysIncrease_empty : KeysIncrease (.obj []) := by
  intro q fields h
  cases under?_of_empty h
  exact List.Pairwise.nil

end Json

namespace Submission
open Json

/-- A step that works on the fields of an object in place. -/
abbrev FieldsM := StateM (Fields Json)

/-- Does a step inside the object under a key, which is made first if there is nothing, and tells
whether it could be done. -/
def within (key : String) (step : FieldsM Bool) : FieldsM Bool := do
  if !Fields.contains key (← get) then modify (Fields.insert key (.obj []))
  match Fields.get? key (← get) with
  | some (.obj inner) =>
    let result := step.run inner
    modify (Fields.insert key (.obj result.2))
    pure result.1
  | _ => pure false

/-- Puts a value where a path ends, and tells whether it fits there. -/
def putting (key : String) (value : Json) (listed : Bool) : FieldsM Bool := do
  match put? key value listed (← get) with
  | some fields =>
    set fields
    pure true
  | none => pure false

/-- Puts a value at a path, one step after the other, and tells whether it fits there. -/
def placing (value : Json) (listed : Bool) : List String → FieldsM Bool
  | [] => pure false
  | [key] => putting key value listed
  | key :: path => within key (placing value listed path)

/-- Puts a value at its path. None fits at a path with an empty step. -/
def fitting (e : Entry) : FieldsM Bool :=
  if (steps e.path).any (·.isEmpty) then pure false
  else placing e.value e.listed (steps e.path)

/-- An object with a mark under a key, if that is free. -/
def marked (path : String) (fields : Fields Json) : Fields Json :=
  if Fields.contains path fields then fields
  else fields.insert path (.str (unmatchedReference path))

/-- Puts a mark under a key, if that is free, and tells what does not fit. -/
def marking (path : String) : FieldsM (List Warning) := do
  if !Fields.contains path (← get) then
    modify (Fields.insert path (.str (unmatchedReference path)))
  pure [.misfit path]

/-- Puts a value at its path, or else a mark under the full path. -/
def inserting (e : Entry) : FieldsM (List Warning) := do
  if ← fitting e then pure [] else marking e.path

/-- A step inside a field works on the object there, or fails if there is room for none. -/
theorem run_within (key : String) (step : FieldsM Bool) (fields : Fields Json) :
    (within key step).run fields =
      match room? key fields with
      | some inner => ((step.run inner).1, fields.insert key (.obj (step.run inner).2))
      | none => (false, fields) := by
  rw [room?]
  cases hkey : Fields.get? key fields with
  | none =>
      have hrun : (within key step).run fields = ((step.run []).1,
          (fields.insert key (.obj [])).insert key (.obj (step.run []).2)) := by
        simp [within, Fields.contains, hkey]
        rfl
      rw [hrun, Fields.insert_insert]
  | some found => cases found <;> simp [within, Fields.contains, hkey] <;> rfl

/-- Putting a value fails if it does not go with what is there, and then changes nothing. -/
theorem run_putting (key : String) (value : Json) (listed : Bool) (fields : Fields Json) :
    (putting key value listed).run fields =
      ((put? key value listed fields).isSome, (put? key value listed fields).getD fields) := by
  change StateT.run (match put? key value listed fields with | some _ => _ | none => _) fields = _
  cases put? key value listed fields <;> rfl

/-- Whether a value fits is found out before anything has been made: in a new object it fits. -/
theorem run_placing (value : Json) (listed : Bool) (path : List String) {fields : Fields Json}
    (h : KeysIncrease (.obj fields)) :
    (placing value listed path).run fields =
      ((place? value listed path fields).isSome,
        (place? value listed path fields).getD fields) := by
  induction path generalizing fields with
  | nil => rfl
  | cons key rest ih =>
      by_cases hrest : rest = []
      · subst hrest
        exact run_putting key value listed fields
      · have hplacing : placing value listed (key :: rest) =
            within key (placing value listed rest) := by
          cases rest with
          | nil => exact absurd rfl hrest
          | cons next path => rfl
        rw [hplacing, run_within, place?_cons hrest, room?]
        cases hkey : Fields.get? key fields with
        | none =>
            have hjoins : Joins listed (under? rest (.obj [])) := by
              rw [under?_empty hrest]
              trivial
            obtain ⟨after, hafter⟩ := place?_fits value hrest
              (fun q _ _ found hfound => ⟨[], under?_of_empty hfound⟩) hjoins
            simp [ih keysIncrease_empty, hafter]
        | some found =>
            cases found with
            | obj inner =>
                simp only [ih (h.inner hkey), Option.bind_some]
                cases hbelow : place? value listed rest inner with
                | none => simp [Fields.insert_of_get? h.sorted hkey]
                | some below => rfl
            | _ => rfl

theorem run_marking (path : String) (fields : Fields Json) :
    (marking path).run fields = ([.misfit path], marked path fields) := by
  cases hfree : Fields.contains path fields <;> simp [marking, marked, hfree] <;> rfl

theorem any_isEmpty_iff {row : List String} : row.any (·.isEmpty) = true ↔ "" ∈ row := by
  simp [List.any_eq_true]

/-- An insertion puts the value at its path, or else at most a mark under the full path. -/
theorem insert_cases (e : Entry) (fields : Fields Json) :
    ("" ∉ steps e.path ∧ ∃ after, place? e.value e.listed (steps e.path) fields = some after ∧
      insert e fields = (after, [])) ∨
    (("" ∈ steps e.path ∨ place? e.value e.listed (steps e.path) fields = none) ∧
      insert e fields = (marked e.path fields, [.misfit e.path])) := by
  rw [insert]
  cases hempty : (steps e.path).any (·.isEmpty) with
  | true =>
      exact Or.inr ⟨Or.inl (any_isEmpty_iff.mp hempty), rfl⟩
  | false =>
      have hfull : "" ∉ steps e.path := by
        intro hmem
        rw [any_isEmpty_iff.mpr hmem] at hempty
        cases hempty
      cases hplace : place? e.value e.listed (steps e.path) fields with
      | none => exact Or.inr ⟨Or.inr rfl, rfl⟩
      | some after => exact Or.inl ⟨hfull, after, rfl, rfl⟩

/-- An entry that is inserted in place leaves what inserting it gives. -/
theorem run_inserting (e : Entry) {fields : Fields Json} (h : KeysIncrease (.obj fields)) :
    (inserting e).run fields = ((insert e fields).2, (insert e fields).1) := by
  have hrun : (inserting e).run fields =
      (if ((fitting e).run fields).1 then pure [] else marking e.path : FieldsM _).run
        ((fitting e).run fields).2 := rfl
  rw [hrun, fitting, insert]
  cases (steps e.path).any (·.isEmpty) with
  | true => exact run_marking e.path fields
  | false =>
      simp only [Bool.false_eq_true, if_false, run_placing e.value e.listed (steps e.path) h]
      cases place? e.value e.listed (steps e.path) fields with
      | none => exact run_marking e.path fields
      | some after => rfl

/-- Putting a value at a path changes what is bound to its first step. -/
theorem place?_first {value : Json} {listed : Bool} {key : String} {path : List String}
    {fields after : Fields Json} (h : place? value listed (key :: path) fields = some after) :
    ∃ first, after = fields.insert key first := by
  by_cases hpath : path = []
  · subst hpath
    rcases put?_eq key value listed fields with ⟨_, hput⟩ | ⟨_, hput⟩
    · exact ⟨_, (Option.some.inj (hput.symm.trans h)).symm⟩
    · exact absurd (hput.symm.trans h) nofun
  · rw [place?_cons hpath] at h
    obtain ⟨inner, _, h⟩ := Option.bind_eq_some_iff.mp h
    obtain ⟨below, _, rfl⟩ := Option.map_eq_some_iff.mp h
    exact ⟨.obj below, rfl⟩

theorem follow?_cons (key : List Char) (keys : List (List Char)) (fields : Fields Json) :
    follow? (key :: keys) (.obj fields) =
      (Fields.get? (String.ofList key) fields).bind (follow? keys) := rfl

/-- What a path leads to below a key is what it leads to in the object to go on in. -/
theorem follow?_room {key : List Char} {keys : List (List Char)} {fields inner : Fields Json}
    (h : room? (String.ofList key) fields = some inner) (hkeys : keys ≠ []) :
    follow? (key :: keys) (.obj fields) = follow? keys (.obj inner) := by
  rw [follow?_cons]
  rw [room?] at h
  split at h
  case _ hkey =>
    cases h
    rw [hkey]
    cases keys with
    | nil => exact absurd rfl hkeys
    | cons next rest => rfl
  case _ hkey =>
    cases h
    rw [hkey, Option.bind_some]
  case _ => cases h

/-- A value that is put at a path is found there through objects only. -/
theorem follow?_of_place? {value : Json} {listed : Bool} {keys : List (List Char)}
    {fields after : Fields Json}
    (h : place? value listed (keys.map String.ofList) fields = some after) :
    follow? keys (.obj fields) = under? (keys.map String.ofList) (.obj fields) := by
  induction keys generalizing fields after with
  | nil => rfl
  | cons key rest ih =>
      rw [List.map_cons] at h ⊢
      by_cases hrest : rest = []
      · subst hrest
        rw [follow?_cons, List.map_nil, under?_singleton]
        cases Fields.get? (String.ofList key) fields <;> rfl
      · have hpath : rest.map String.ofList ≠ [] := by simpa using hrest
        rw [place?_cons hpath] at h
        obtain ⟨inner, hroom, h⟩ := Option.bind_eq_some_iff.mp h
        obtain ⟨below, hbelow, rfl⟩ := Option.map_eq_some_iff.mp h
        rw [follow?_room hroom hrest, under?_room hroom hpath, ih hbelow]

/-- A path that lies apart from where a value is put leads where it led before. -/
theorem follow?_beside {value : Json} {listed : Bool} {path : List String}
    {fields after : Fields Json} (h : place? value listed path fields = some after)
    {keys : List (List Char)} (hapart : Apart (keys.map String.ofList) path) :
    follow? keys (.obj after) = follow? keys (.obj fields) := by
  induction path generalizing keys fields after with
  | nil => cases h
  | cons key rest ih =>
      cases keys with
      | nil => exact absurd List.nil_prefix hapart.1
      | cons other keys =>
          rw [List.map_cons] at hapart
          by_cases hkey : key = String.ofList other
          · subst hkey
            have hbelow := apart_cons_iff.mp hapart
            have hkeys : keys ≠ [] := by
              rintro rfl
              exact hbelow.1 List.nil_prefix
            have hrest : rest ≠ [] := by
              rintro rfl
              exact hbelow.2 List.nil_prefix
            rw [place?_cons hrest] at h
            obtain ⟨inner, hroom, h⟩ := Option.bind_eq_some_iff.mp h
            obtain ⟨below, hplace, rfl⟩ := Option.map_eq_some_iff.mp h
            rw [follow?_room hroom hkeys, follow?_cons, Fields.get?_insert, if_pos rfl,
              Option.bind_some]
            exact ih hplace hbelow
          · obtain ⟨first, rfl⟩ := place?_first h
            rw [follow?_cons, follow?_cons, Fields.get?_insert, if_neg hkey]

/-- A mark joins an object under a key that is free, and all else stays. -/
theorem marked_perm (path : String) (fields : Fields Json) :
    (Fields.contains path fields = true ∧ marked path fields = fields) ∨
      (Fields.contains path fields = false ∧
        (marked path fields).Perm ((path, .str (unmatchedReference path)) :: fields)) := by
  rw [marked]
  cases hfree : Fields.contains path fields with
  | true => exact Or.inl ⟨rfl, rfl⟩
  | false =>
      have hnone : fields.get? path = none := by simpa [Fields.contains] using hfree
      exact Or.inr ⟨rfl, Fields.insert_perm _ hnone⟩

/-- What the path of a value leads to once the value has been put there: the value itself, or the
list that was there with the value at its end. -/
theorem lookup?_place {e : Entry} {fields after : Fields Json}
    (h : place? e.value e.listed (steps e.path) fields = some after) :
    (e.listed = false → lookup? e.path.toList (.obj after) = some e.value) ∧
      (e.listed = true → ∃ items,
        (lookup? e.path.toList (.obj fields) = some (.arr items) ∨
          (lookup? e.path.toList (.obj fields) = none ∧ items = [])) ∧
        lookup? e.path.toList (.obj after) = some (.arr (items ++ [e.value]))) := by
  have hbefore : lookup? e.path.toList (.obj fields) = under? (steps e.path) (.obj fields) :=
    follow?_of_place? h
  have hafter := follow?_of_under? (place?_places h).value
  rw [hbefore]
  constructor
  · intro hlisted
    rw [lookup?, hafter, hlisted]
    rfl
  · intro hlisted
    obtain ⟨_, hjoins⟩ := place?_met h
    rw [hlisted] at hjoins
    rw [lookup?, hafter, hlisted]
    cases hold : under? (steps e.path) (.obj fields) with
    | none => exact ⟨[], Or.inr ⟨rfl, rfl⟩, rfl⟩
    | some old =>
        rw [hold] at hjoins
        cases old with
        | arr items => exact ⟨items, Or.inl rfl, rfl⟩
        | obj inner => exact hjoins.elim
        | _ => cases hjoins

/-- An insertion works in place as `insert` tells. Where a value does not fit, nothing has been
made on the way to it, and at most a mark has joined the object; where it fits, its path leads to
it, or to the list with it at the end, and every path apart leads where it led before. -/
theorem insertion_is_atomic_and_local {fields : Fields Json} (h : KeysIncrease (.obj fields))
    (e : Entry) :
    let placed := (placing e.value e.listed (steps e.path)).run fields
    let inserted := (inserting e).run fields
    (placed = ((place? e.value e.listed (steps e.path) fields).isSome,
        (place? e.value e.listed (steps e.path) fields).getD fields) ∧
      inserted = ((insert e fields).2, (insert e fields).1)) ∧
    (placed.1 = false → placed.2 = fields) ∧
    (placed.1 = false ∨ "" ∈ steps e.path → inserted.1 = [.misfit e.path] ∧
      ((Fields.contains e.path fields = true ∧ inserted.2 = fields) ∨
        (Fields.contains e.path fields = false ∧
          inserted.2.Perm ((e.path, .str (unmatchedReference e.path)) :: fields)))) ∧
    (placed.1 = true →
      ("" ∉ steps e.path → inserted = ([], placed.2)) ∧
      (e.listed = false → lookup? e.path.toList (.obj placed.2) = some e.value) ∧
      (e.listed = true → ∃ items,
        (lookup? e.path.toList (.obj fields) = some (.arr items) ∨
          (lookup? e.path.toList (.obj fields) = none ∧ items = [])) ∧
        lookup? e.path.toList (.obj placed.2) = some (.arr (items ++ [e.value]))) ∧
      ∀ q : String, Apart (steps q) (steps e.path) →
        lookup? q.toList (.obj placed.2) = lookup? q.toList (.obj fields)) := by
  intro placed inserted
  have hplaced : placed = ((place? e.value e.listed (steps e.path) fields).isSome,
      (place? e.value e.listed (steps e.path) fields).getD fields) :=
    run_placing e.value e.listed (steps e.path) h
  have hinserted : inserted = ((insert e fields).2, (insert e fields).1) := run_inserting e h
  refine ⟨⟨hplaced, hinserted⟩, ?_⟩
  rw [hplaced, hinserted]
  refine ⟨?_, ?_, ?_⟩
  · intro hrefused
    have hnone : place? e.value e.listed (steps e.path) fields = none := by simpa using hrefused
    rw [hnone, Option.getD_none]
  · intro hmisfit
    rcases insert_cases e fields with ⟨hfull, after, hplace, _⟩ | ⟨_, hinsert⟩
    · rcases hmisfit with hrefused | hempty
      · rw [hplace] at hrefused
        cases hrefused
      · exact absurd hempty hfull
    · rw [hinsert]
      exact ⟨rfl, marked_perm e.path fields⟩
  · intro hfits
    obtain ⟨after, hplace⟩ := Option.isSome_iff_exists.mp hfits
    obtain ⟨hsingle, hlist⟩ := lookup?_place hplace
    rw [hplace, Option.getD_some]
    refine ⟨?_, hsingle, hlist, fun q hapart => follow?_beside hplace hapart⟩
    intro hfull
    rcases insert_cases e fields with ⟨_, after', hplace', hinsert⟩ | ⟨hnot, _⟩
    · cases hplace.symm.trans hplace'
      rw [hinsert]
    · rcases hnot with hempty | hnone
      · exact absurd hempty hfull
      · exact absurd (hplace.symm.trans hnone) nofun

/-- Into a site with a name, a list of depths is put inside a new object, and nothing is put inside
the name. -/
theorem depths_fit_and_name_stays :
    let fields : Fields Json := [("site", .obj [("name", .str "pond")])]
    let depths : Entry := ⟨"site.depth.values", .str "3", true⟩
    let initial : Entry := ⟨"site.name.initial", .str "p", false⟩
    let placed := (placing depths.value depths.listed (steps depths.path)).run fields
    let refused := (placing initial.value initial.listed (steps initial.path)).run fields
    KeysIncrease (.obj fields) ∧ placed.1 = true ∧
      lookup? depths.path.toList (.obj placed.2) = some (.arr [.str "3"]) ∧
      lookup? "site.name".toList (.obj placed.2) = lookup? "site.name".toList (.obj fields) ∧
      refused.1 = false ∧ refused.2 = fields ∧
      ((inserting initial).run fields).1 = [.misfit initial.path] := by
  intro fields depths initial placed refused
  have hname : KeysIncrease (.str "pond") := keysIncrease_leaf nofun
  have hsite := keysIncrease_empty.insert hname "name"
  have hfields : KeysIncrease (.obj fields) := keysIncrease_empty.insert hsite "site"
  have hfits : placed.1 = true := by decide +kernel
  have hrefused : refused.1 = false := by decide +kernel
  have hfree : (lookup? depths.path.toList (.obj fields)).isNone = true := by decide +kernel
  obtain ⟨_, _, _, hplaced⟩ := insertion_is_atomic_and_local hfields depths
  obtain ⟨_, _, hlist, hbeside⟩ := hplaced hfits
  obtain ⟨items, hitems, hvalue⟩ := hlist rfl
  have hnone : items = [] := by
    rcases hitems with hsome | ⟨_, hnil⟩
    · rw [hsome] at hfree
      cases hfree
    · exact hnil
  obtain ⟨_, hkept, hmarked, _⟩ := insertion_is_atomic_and_local hfields initial
  refine ⟨hfields, hfits, ?_, hbeside "site.name" (by decide +kernel), hrefused, hkept hrefused,
    (hmarked (Or.inl hrefused)).1⟩
  rw [hvalue, hnone]
  rfl

end Submission

end EntryForm
