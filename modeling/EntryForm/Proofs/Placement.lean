import EntryForm.Submission

/-!
# Putting values at paths

`Json.under?` follows a path through objects only. What `Submission.place?` does is told by what
is under each path afterwards: at the path itself, on the way to it, and beside it.
-/

namespace EntryForm

/-- Neither path lies on the way to the other. -/
def Apart (p q : List String) : Prop := ¬ p <+: q ∧ ¬ q <+: p

instance (p q : List String) : Decidable (Apart p q) := inferInstanceAs (Decidable (_ ∧ _))

theorem Apart.symm {p q : List String} (h : Apart p q) : Apart q p := ⟨h.2, h.1⟩

theorem apart_cons_iff {key : String} {p q : List String} :
    Apart (key :: p) (key :: q) ↔ Apart p q := by
  simp [Apart, List.cons_prefix_cons]

theorem not_apart_self (p : List String) : ¬ Apart p p := by
  intro h
  exact h.1 (List.prefix_refl p)

/-- A path that is not apart from another one, and does not go through it, stops on the way. -/
theorem before_of_not_apart {p q : List String} (h : ¬ Apart p q) (hq : ¬ q <+: p) :
    p <+: q ∧ p ≠ q := by
  constructor
  · apply Classical.byContradiction
    intro hp
    exact h ⟨hp, hq⟩
  · rintro rfl
    exact hq (List.prefix_refl p)

namespace Json

/-- The part of a value at a path through objects. -/
def under? : List String → Json → Option Json
  | [], value => some value
  | key :: path, .obj fields => (Fields.get? key fields).bind (under? path)
  | _ :: _, _ => none

@[simp] theorem under?_nil (value : Json) : under? [] value = some value := by
  cases value <;> rfl

theorem under?_cons (key : String) (path : List String) (fields : Fields Json) :
    under? (key :: path) (.obj fields) = (Fields.get? key fields).bind (under? path) := rfl

theorem under?_empty {path : List String} (h : path ≠ []) : under? path (.obj []) = none := by
  cases path with
  | nil => exact absurd rfl h
  | cons key rest => rfl

/-- Inserting under a key changes what is under it, and nothing else. -/
theorem under?_insert_self (key : String) (path : List String) (value : Json)
    (fields : Fields Json) :
    under? (key :: path) (.obj (Fields.insert key value fields)) = under? path value := by
  rw [under?_cons, Fields.get?_insert, if_pos rfl, Option.bind_some]

/-- Binding a key changes nothing under the others. -/
theorem under?_insert_other {key other : String} (h : key ≠ other) (path : List String)
    (value : Json) (fields : Fields Json) :
    under? (other :: path) (.obj (Fields.insert key value fields)) =
      under? (other :: path) (.obj fields) := by
  rw [under?_cons, under?_cons, Fields.get?_insert, if_neg h]

end Json

namespace Submission
open Json

/-- The object to go on in below a key: the one that is there, or a new one. -/
def room? (key : String) (fields : Fields Json) : Option (Fields Json) :=
  match fields.get? key with
  | none => some []
  | some (.obj inner) => some inner
  | some _ => none

theorem place?_cons {value : Json} {listed : Bool} {key : String} {path : List String}
    (h : path ≠ []) (fields : Fields Json) :
    place? value listed (key :: path) fields =
      (room? key fields).bind fun inner =>
        (place? value listed path inner).map fun inner => fields.insert key (.obj inner) := by
  cases path with
  | nil => exact absurd rfl h
  | cons next rest =>
      rw [place?, room?]
      · cases hkey : Fields.get? key fields with
        | none => rfl
        | some found => cases found <;> rfl
      · exact nofun

/-- What is under a key is under the object to go on in. -/
theorem under?_room {key : String} {fields inner : Fields Json} (h : room? key fields = some inner)
    {path : List String} (hpath : path ≠ []) :
    under? (key :: path) (.obj fields) = under? path (.obj inner) := by
  rw [under?_cons]
  rw [room?] at h
  split at h
  case _ hkey =>
    cases h
    rw [hkey, under?_empty hpath]
    rfl
  case _ found hkey =>
    cases h
    rw [hkey]
    rfl
  case _ => cases h

/-- What a value becomes where it is put, given what was there. -/
def joined (value : Json) (listed : Bool) (old : Option Json) : Json :=
  match listed, old with
  | true, some (.arr items) => .arr (items ++ [value])
  | true, _ => .arr [value]
  | false, _ => value

/-- Whether a value can be put in place of what is there. -/
def Joins (listed : Bool) : Option Json → Prop
  | none => True
  | some (.arr _) => True
  | some (.obj _) => False
  | some _ => listed = false

/-- Putting binds the joined value where it joins, and fails where it does not. -/
theorem put?_eq (key : String) (value : Json) (listed : Bool) (fields : Fields Json) :
    (Joins listed (fields.get? key) ∧ put? key value listed fields =
      some (fields.insert key (joined value listed (fields.get? key)))) ∨
    (¬ Joins listed (fields.get? key) ∧ put? key value listed fields = none) := by
  unfold put?
  cases hkey : Fields.get? key fields with
  | none => cases listed <;> simp [Joins, joined]
  | some found => cases found <;> cases listed <;> simp [Joins, joined]

/-- What there is after a value has been put at a path: the value, on the way to it only objects,
and beside it what was there. -/
structure Places (value : Json) (listed : Bool) (path : List String) (fields after : Fields Json) :
    Prop where
  value : under? path (.obj after) = some (joined value listed (under? path (.obj fields)))
  above : ∀ q, q <+: path → q ≠ path → ∃ inner, under? q (.obj after) = some (.obj inner)
  beside : ∀ q, Apart q path → under? q (.obj after) = under? q (.obj fields)

theorem under?_singleton (key : String) (fields : Fields Json) :
    under? [key] (.obj fields) = Fields.get? key fields := by
  rw [under?_cons]
  cases Fields.get? key fields with
  | none => rfl
  | some value => exact under?_nil value

/-- A value that is put is placed under its key. -/
theorem places_put {key : String} {value : Json} {listed : Bool} {fields after : Fields Json}
    (h : put? key value listed fields = some after) :
    Places value listed [key] fields after := by
  rcases put?_eq key value listed fields with ⟨_, hput⟩ | ⟨_, hput⟩
  · cases hput.symm.trans h
    refine ⟨?_, ?_, ?_⟩
    · rw [under?_insert_self, under?_nil, under?_singleton]
    · intro q hway hne
      rcases List.prefix_cons_iff.mp hway with rfl | ⟨rest, rfl, hrest⟩
      · exact ⟨_, under?_nil _⟩
      · rw [List.prefix_nil.mp hrest] at hne
        exact absurd rfl hne
    · intro q hapart
      cases q with
      | nil => exact absurd (List.nil_prefix) hapart.1
      | cons other rest =>
          have hkey : key ≠ other := by
            rintro rfl
            exact hapart.2 (List.cons_prefix_cons.mpr ⟨rfl, List.nil_prefix⟩)
          exact under?_insert_other hkey rest _ fields
  · exact absurd (hput.symm.trans h) nofun

/-- What is placed in an inner object is placed in the outer one. -/
theorem places_below {key : String} {value : Json} {listed : Bool} {path : List String}
    {fields inner after : Fields Json} (hpath : path ≠ []) (hroom : room? key fields = some inner)
    (h : Places value listed path inner after) :
    Places value listed (key :: path) fields (fields.insert key (.obj after)) := by
  refine ⟨?_, ?_, ?_⟩
  · rw [under?_insert_self, under?_room hroom hpath]
    exact h.value
  · intro q hway hne
    rcases List.prefix_cons_iff.mp hway with rfl | ⟨rest, rfl, hrest⟩
    · exact ⟨_, under?_nil _⟩
    · rw [under?_insert_self]
      exact h.above rest hrest fun heq => hne (congrArg (key :: ·) heq)
  · intro q hapart
    cases q with
    | nil => exact absurd (List.nil_prefix) hapart.1
    | cons other rest =>
        by_cases hkey : key = other
        · subst hkey
          have hrest : Apart rest path := apart_cons_iff.mp hapart
          have hne : rest ≠ [] := by
            rintro rfl
            exact hrest.1 List.nil_prefix
          rw [under?_insert_self, under?_room hroom hne]
          exact h.beside rest hrest
        · exact under?_insert_other hkey rest _ fields

/-- A value that finds its place is there, and nothing apart from it has changed. -/
theorem place?_places {value : Json} {listed : Bool} {path : List String}
    {fields after : Fields Json} (h : place? value listed path fields = some after) :
    Places value listed path fields after := by
  induction path generalizing fields after with
  | nil => cases h
  | cons key rest ih =>
      by_cases hrest : rest = []
      · subst hrest
        exact places_put h
      · rw [place?_cons hrest] at h
        obtain ⟨inner, hroom, h⟩ := Option.bind_eq_some_iff.mp h
        obtain ⟨below, hbelow, rfl⟩ := Option.map_eq_some_iff.mp h
        exact places_below hrest hroom (ih hbelow)

/-- A value fits where there are only objects on the way, and nothing else in its place. -/
theorem place?_fits (value : Json) {listed : Bool} {path : List String} {fields : Fields Json}
    (hpath : path ≠ [])
    (habove : ∀ q, q <+: path → q ≠ path → ∀ found, under? q (.obj fields) = some found →
      ∃ inner, found = .obj inner)
    (hjoins : Joins listed (under? path (.obj fields))) :
    ∃ after, place? value listed path fields = some after := by
  induction path generalizing fields with
  | nil => exact absurd rfl hpath
  | cons key rest ih =>
      by_cases hrest : rest = []
      · subst hrest
        rw [under?_singleton] at hjoins
        rcases put?_eq key value listed fields with ⟨_, hput⟩ | ⟨hnot, _⟩
        · exact ⟨_, hput⟩
        · exact absurd hjoins hnot
      · obtain ⟨inner, hroom⟩ : ∃ inner, room? key fields = some inner := by
          unfold room?
          cases hkey : Fields.get? key fields with
          | none => exact ⟨[], rfl⟩
          | some found =>
              have hway : [key] <+: key :: rest :=
                List.cons_prefix_cons.mpr ⟨rfl, List.nil_prefix⟩
              obtain ⟨inner, rfl⟩ := habove [key] hway (by simpa using Ne.symm hrest) found
                (by rw [under?_singleton, hkey])
              exact ⟨inner, rfl⟩
        have hbelow : ∃ below, place? value listed rest inner = some below := by
          apply ih hrest
          · intro q hway hne found hfound
            by_cases hq : q = []
            · subst hq
              rw [under?_nil] at hfound
              exact ⟨inner, (Option.some.inj hfound).symm⟩
            · apply habove (key :: q) (List.cons_prefix_cons.mpr ⟨rfl, hway⟩)
                (fun heq => hne (List.cons.inj heq).2) found
              rw [under?_room hroom hq]
              exact hfound
          · rw [← under?_room hroom hrest]
            exact hjoins
        obtain ⟨below, hbelow⟩ := hbelow
        refine ⟨fields.insert key (.obj below), ?_⟩
        rw [place?_cons hrest, hroom, Option.bind_some, hbelow]
        rfl

/-- A value that could be put at a path has met only objects on the way, and nothing else in its
place. -/
theorem place?_met {value : Json} {listed : Bool} {path : List String} {fields after : Fields Json}
    (h : place? value listed path fields = some after) :
    (∀ q, q <+: path → q ≠ path → ∀ found, under? q (.obj fields) = some found →
      ∃ inner, found = .obj inner) ∧ Joins listed (under? path (.obj fields)) := by
  induction path generalizing fields after with
  | nil => cases h
  | cons key rest ih =>
      by_cases hrest : rest = []
      · subst hrest
        constructor
        · intro q hway hne found hfound
          rcases List.prefix_cons_iff.mp hway with rfl | ⟨tail, rfl, htail⟩
          · exact ⟨fields, (Option.some.inj ((under?_nil _).symm.trans hfound)).symm⟩
          · rw [List.prefix_nil.mp htail] at hne
            exact absurd rfl hne
        · rw [under?_singleton]
          rcases put?_eq key value listed fields with ⟨hjoins, _⟩ | ⟨_, hput⟩
          · exact hjoins
          · exact absurd (hput.symm.trans h) nofun
      · rw [place?_cons hrest] at h
        obtain ⟨inner, hroom, h⟩ := Option.bind_eq_some_iff.mp h
        obtain ⟨below, hbelow, _⟩ := Option.map_eq_some_iff.mp h
        obtain ⟨hobjects, hjoins⟩ := ih hbelow
        constructor
        · intro q hway hne found hfound
          rcases List.prefix_cons_iff.mp hway with rfl | ⟨tail, rfl, htail⟩
          · exact ⟨fields, (Option.some.inj ((under?_nil _).symm.trans hfound)).symm⟩
          · by_cases hnil : tail = []
            · subst hnil
              rw [under?_singleton] at hfound
              rw [room?, hfound] at hroom
              cases found with
              | obj inner => exact ⟨inner, rfl⟩
              | _ => cases hroom
            · rw [under?_room hroom hnil] at hfound
              exact hobjects tail htail (fun heq => hne (congrArg (key :: ·) heq)) found hfound
        · rw [under?_room hroom hrest]
          exact hjoins

end Submission

end EntryForm
