import EntryForm.Proofs.Placement

/-!
# What a submission holds

If no path of a field lies on the way to another, and paths that occur twice belong to lists, then
a submission holds exactly the values of the fields, each under its path, and nothing else.
-/

namespace EntryForm

namespace Fragment

/-- The entries of a row are those of its fragments. -/
theorem entriesOf_eq_flatMap (listed : Bool) (fragments : List Fragment) :
    entriesOf listed fragments = fragments.flatMap (entries listed) := by
  induction fragments with
  | nil => rfl
  | cons f rest ih => rw [entriesOf, List.flatMap_cons, ih]

theorem entriesOfTabs_eq (listed : Bool) (row : List (Tab Fragment)) :
    entriesOfTabs listed row = entriesOf listed (row.flatMap Tab.fragments) := by
  induction row with
  | nil => rfl
  | cons tab rest ih =>
      rw [entriesOfTabs, ih, List.flatMap_cons]
      simp only [entriesOf_eq_flatMap, List.flatMap_append]

theorem entriesOfInstances_eq (listed : Bool) (instances : List (Instance Fragment)) :
    entriesOfInstances listed instances =
      entriesOf listed (instances.flatMap Instance.fragments) := by
  induction instances with
  | nil => rfl
  | cons i rest ih =>
      rw [entriesOfInstances, ih, List.flatMap_cons]
      simp only [entriesOf_eq_flatMap, List.flatMap_append]

theorem entriesOfWidget_eq (listed : Bool) (widget : Widget Fragment) :
    entriesOfWidget listed widget = entriesOf listed widget.children := by
  cases widget with
  | tabs row => exact entriesOfTabs_eq listed row
  | _ => rfl

/-- The values of a fragment: its own if it is an input, then those of its children. -/
theorem entries_eq (listed : Bool) (f : Fragment) :
    f.entries listed =
      (if f.widget.isInput then
        [⟨f.path, f.value.getD .null, listed || makesList f.toField f.widget⟩] else []) ++
      f.children.flatMap (entries (listed || makesList f.toField f.widget)) := by
  obtain ⟨field, widget, instances⟩ := f
  rw [entries, entriesOfWidget_eq, entriesOfInstances_eq]
  simp only [entriesOf_eq_flatMap, children, List.flatMap_append]

end Fragment

theorem Text.split_ne_nil (sep : Char) (cs : List Char) : split sep cs ≠ [] := by
  cases cs with
  | nil => simp [split]
  | cons c rest =>
      rw [split]
      split
      · simp
      · split <;> simp

namespace Json

/-- What is under a path through objects is what the path leads to. -/
theorem follow?_of_under? {keys : List (List Char)} {value found : Json}
    (h : under? (keys.map String.ofList) value = some found) : follow? keys value = some found := by
  induction keys generalizing value with
  | nil => exact (under?_nil value).symm.trans h
  | cons key rest ih =>
      cases value with
      | obj fields =>
          obtain ⟨inner, hkey, hrest⟩ := Option.bind_eq_some_iff.mp h
          rw [follow?, step?, hkey]
          exact ih hrest
      | _ => cases h

/-- A path that leads somewhere leads there through objects, or comes to a list on the way. -/
theorem under?_of_follow? {keys : List (List Char)} {value found : Json}
    (h : follow? keys value = some found) :
    under? (keys.map String.ofList) value = some found ∨
      ∃ q items, q <+: keys.map String.ofList ∧ under? q value = some (.arr items) := by
  induction keys generalizing value with
  | nil => exact Or.inl ((under?_nil value).trans h)
  | cons key rest ih =>
      obtain ⟨inner, hstep, hrest⟩ := Option.bind_eq_some_iff.mp h
      cases value with
      | obj fields =>
          have hkey : Fields.get? (String.ofList key) fields = some inner := hstep
          rcases ih hrest with hunder | ⟨q, items, hway, hunder⟩
          · exact Or.inl (by rw [List.map_cons, under?_cons, hkey]; exact hunder)
          · refine Or.inr ⟨String.ofList key :: q, items, ?_, ?_⟩
            · exact List.cons_prefix_cons.mpr ⟨rfl, hway⟩
            · rw [under?_cons, hkey]
              exact hunder
      | arr items => exact Or.inr ⟨[], items, List.nil_prefix, under?_nil _⟩
      | _ => cases hstep

end Json

namespace Submission
open Json

/-- Two fields that do not get in each other's way: their paths lie apart, or both contribute to
the list at one path. -/
def Compatible (a b : Entry) : Prop :=
  Apart (steps a.path) (steps b.path) ∨ (a.path = b.path ∧ a.listed = true ∧ b.listed = true)

instance (a b : Entry) : Decidable (Compatible a b) := inferInstanceAs (Decidable (_ ∨ _))

/-- What a submission of some entries should hold at the path of one of them. -/
def expected (entries : List Entry) (e : Entry) : Json :=
  if e.listed then .arr ((entries.filter fun other => other.path = e.path).map (·.value))
  else e.value

/-- What has been built from some entries: their values, objects on the way to them, and nothing
else. -/
structure Holds (done : List Entry) (fields : Fields Json) : Prop where
  value : ∀ e ∈ done, under? (steps e.path) (.obj fields) = some (expected done e)
  above : ∀ e ∈ done, ∀ q, q <+: steps e.path → q ≠ steps e.path →
    ∃ inner, under? q (.obj fields) = some (.obj inner)
  found : ∀ q v, q ≠ [] → under? q (.obj fields) = some v →
    ∃ e ∈ done, ¬ Apart q (steps e.path)

theorem steps_ne_nil (path : String) : steps path ≠ [] := by
  simpa [steps] using Text.split_ne_nil '.' path.toList

theorem holds_nil : Holds [] [] := by
  refine ⟨nofun, nofun, ?_⟩
  intro q v hq hfound
  rw [under?_empty hq] at hfound
  cases hfound

/-- The values gathered so far at the path of an entry. -/
def gathered (done : List Entry) (e : Entry) : List Json :=
  (done.filter fun other => other.path = e.path).map (·.value)

/-- What is in the place of an entry before it comes: nothing, or the list it joins. -/
theorem Holds.before {done : List Entry} {fields : Fields Json} {e : Entry} (h : Holds done fields)
    (hc : ∀ d ∈ done, Compatible d e) :
    (under? (steps e.path) (.obj fields) = none ∧ gathered done e = []) ∨
      (e.listed = true ∧
        under? (steps e.path) (.obj fields) = some (.arr (gathered done e))) := by
  by_cases hsame : ∃ d ∈ done, d.path = e.path
  · obtain ⟨d, hd, hpath⟩ := hsame
    rcases hc d hd with hapart | ⟨_, hlisted, helisted⟩
    · rw [hpath] at hapart
      exact absurd hapart (not_apart_self _)
    · refine Or.inr ⟨helisted, ?_⟩
      have hvalue := h.value d hd
      rw [expected, if_pos hlisted, hpath] at hvalue
      exact hvalue
  · have hall : ∀ d ∈ done, Apart (steps d.path) (steps e.path) := by
      intro d hd
      rcases hc d hd with hapart | ⟨hpath, _, _⟩
      · exact hapart
      · exact absurd ⟨d, hd, hpath⟩ hsame
    refine Or.inl ⟨?_, ?_⟩
    · cases hunder : under? (steps e.path) (.obj fields) with
      | none => rfl
      | some v =>
          obtain ⟨d, hd, hnot⟩ := h.found _ v (steps_ne_nil e.path) hunder
          exact absurd (hall d hd).symm hnot
    · rw [gathered, List.map_eq_nil_iff, List.filter_eq_nil_iff]
      intro d hd
      simpa using fun hpath => hsame ⟨d, hd, hpath⟩

/-- On the way to an entry there are only objects before it comes, since a path that the one of the
entry begins with cannot end there. -/
theorem Holds.way {done : List Entry} {fields : Fields Json} {e : Entry} (h : Holds done fields)
    (hc : ∀ d ∈ done, Compatible d e) {q : List String} (hway : q <+: steps e.path)
    (hne : q ≠ steps e.path) {v : Json} (hv : under? q (.obj fields) = some v) :
    ∃ inner, v = .obj inner := by
  by_cases hq : q = []
  · subst hq
    exact ⟨fields, (Option.some.inj ((under?_nil _).symm.trans hv)).symm⟩
  · obtain ⟨d, hd, hnot⟩ := h.found q v hq hv
    have habove : q <+: steps d.path ∧ q ≠ steps d.path := by
      rcases hc d hd with hapart | ⟨hpath, _, _⟩
      · apply before_of_not_apart hnot
        intro hafter
        exact hapart.1 (hafter.trans hway)
      · rw [hpath]
        exact ⟨hway, hne⟩
    obtain ⟨inner, hinner⟩ := h.above d hd q habove.1 habove.2
    exact ⟨inner, Option.some.inj (hv.symm.trans hinner)⟩

/-- An entry adds its value to what has been gathered under its path. -/
theorem gathered_append (done : List Entry) (e d : Entry) :
    gathered (done ++ [e]) d =
      gathered done d ++ if e.path = d.path then [e.value] else [] := by
  rw [gathered, List.filter_append, List.map_append]
  by_cases hpath : e.path = d.path <;> simp [gathered, hpath]

theorem expected_eq (done : List Entry) (e : Entry) :
    expected done e = if e.listed then .arr (gathered done e) else e.value := rfl

/-- What is at the path of an entry once it is placed. -/
theorem Holds.own {done : List Entry} {fields after : Fields Json} {e : Entry}
    (h : Holds done fields) (hc : ∀ d ∈ done, Compatible d e)
    (hplace : place? e.value e.listed (steps e.path) fields = some after) :
    under? (steps e.path) (.obj after) = some (expected (done ++ [e]) e) := by
  rw [(place?_places hplace).value, expected_eq, gathered_append, if_pos rfl]
  rcases h.before hc with ⟨hnone, hempty⟩ | ⟨hlisted, hsome⟩
  · rw [hnone, hempty]
    cases e.listed <;> rfl
  · rw [hsome, hlisted]
    rfl

/-- Placing one more entry that is compatible with all before. -/
theorem Holds.place {done : List Entry} {fields : Fields Json} {e : Entry} (h : Holds done fields)
    (hc : ∀ d ∈ done, Compatible d e) :
    ∃ after, place? e.value e.listed (steps e.path) fields = some after ∧
      Holds (done ++ [e]) after := by
  have hjoins : Joins e.listed (under? (steps e.path) (.obj fields)) := by
    rcases h.before hc with ⟨hnone, _⟩ | ⟨_, hsome⟩
    · rw [hnone]
      trivial
    · rw [hsome]
      trivial
  obtain ⟨after, hplace⟩ := place?_fits e.value (steps_ne_nil e.path)
    (fun q hway hne v hv => h.way hc hway hne hv) hjoins
  have hplaces := place?_places hplace
  have hown := h.own hc hplace
  refine ⟨after, hplace, ?_, ?_, ?_⟩
  · intro d hd
    rcases List.mem_append.mp hd with hd | hd
    · rcases hc d hd with hapart | ⟨hpath, hlisted, helisted⟩
      · have hne : e.path ≠ d.path := by
          intro heq
          rw [heq] at hapart
          exact not_apart_self _ hapart
        rw [hplaces.beside _ hapart, h.value d hd, expected_eq, expected_eq, gathered_append,
          if_neg hne, List.append_nil]
      · rw [hpath, hown, expected_eq, expected_eq, if_pos helisted, if_pos hlisted, gathered,
          gathered, hpath]
    · rw [List.mem_singleton.mp hd]
      exact hown
  · intro d hd q hway hne
    rcases List.mem_append.mp hd with hd | hd
    · rcases hc d hd with hapart | ⟨hpath, _, _⟩
      · by_cases hq : Apart q (steps e.path)
        · rw [hplaces.beside q hq]
          exact h.above d hd q hway hne
        · have hbefore : q <+: steps e.path ∧ q ≠ steps e.path := by
            apply before_of_not_apart hq
            intro hafter
            exact hapart.2 (hafter.trans hway)
          exact hplaces.above q hbefore.1 hbefore.2
      · rw [hpath] at hway hne
        exact hplaces.above q hway hne
    · rw [List.mem_singleton.mp hd] at hway hne
      exact hplaces.above q hway hne
  · intro q v hq hfound
    by_cases hapart : Apart q (steps e.path)
    · rw [hplaces.beside q hapart] at hfound
      obtain ⟨d, hd, hnot⟩ := h.found q v hq hfound
      exact ⟨d, List.mem_append_left _ hd, hnot⟩
    · exact ⟨e, by simp, hapart⟩

/-- Places entries one after the other, if all of them fit. -/
def placeAll? (entries : List Entry) (fields : Fields Json) : Option (Fields Json) :=
  entries.foldlM (fun fields e => place? e.value e.listed (steps e.path) fields) fields

/-- Placing entries that are compatible with each other and with all before. -/
theorem Holds.placeAll {done rest : List Entry} {fields : Fields Json} (h : Holds done fields)
    (hpairs : (done ++ rest).Pairwise Compatible) (hsteps : ∀ e ∈ rest, "" ∉ steps e.path) :
    ∃ after, insertAll rest fields = (after, []) ∧ placeAll? rest fields = some after ∧
      Holds (done ++ rest) after := by
  induction rest generalizing done fields with
  | nil => exact ⟨fields, rfl, rfl, by rwa [List.append_nil]⟩
  | cons e rest ih =>
      have hc : ∀ d ∈ done, Compatible d e := by
        intro d hd
        exact (List.pairwise_append.mp hpairs).2.2 d hd e List.mem_cons_self
      obtain ⟨middle, hplace, hmiddle⟩ := h.place hc
      have hpairs' : (done ++ [e] ++ rest).Pairwise Compatible := by
        rwa [List.append_assoc, List.singleton_append]
      obtain ⟨after, hinsert, hall, hafter⟩ :=
        ih hmiddle hpairs' fun other hother => hsteps other (List.mem_cons_of_mem _ hother)
      have hfull : (steps e.path).any (·.isEmpty) = false := by
        rw [List.any_eq_false]
        intro step hstep hempty
        have hnil : step = "" := by simpa using hempty
        exact hsteps e List.mem_cons_self (hnil ▸ hstep)
      have hfirst : insert e fields = (middle, []) := by
        simp only [insert, hfull, hplace, Bool.false_eq_true, if_false]
      refine ⟨after, ?_, ?_, ?_⟩
      · rw [insertAll, hfirst]
        simp only [hinsert, List.append_nil]
      · rw [placeAll?, List.foldlM_cons, hplace]
        exact hall
      · rwa [List.append_assoc, List.singleton_append] at hafter

/-- A path that lies apart from all entries leads nowhere. Where it would lead through a list, the
path of an entry ends. -/
theorem Holds.follow?_none {done : List Entry} {fields : Fields Json} (h : Holds done fields)
    {path : String} (hapart : ∀ e ∈ done, Apart (steps path) (steps e.path)) :
    lookup? path.toList (.obj fields) = none := by
  cases hlookup : lookup? path.toList (.obj fields) with
  | none => rfl
  | some v =>
      rcases under?_of_follow? hlookup with hunder | ⟨q, items, hway, hunder⟩
      · obtain ⟨e, he, hnot⟩ := h.found _ v (steps_ne_nil path) hunder
        exact absurd (hapart e he) hnot
      · have hq : q ≠ [] := by
          rintro rfl
          rw [under?_nil] at hunder
          cases hunder
        obtain ⟨e, he, hnot⟩ := h.found q _ hq hunder
        have hbefore : q <+: steps e.path ∧ q ≠ steps e.path := by
          apply before_of_not_apart hnot
          intro hafter
          exact (hapart e he).2 (hafter.trans hway)
        obtain ⟨inner, hinner⟩ := h.above e he q hbefore.1 hbefore.2
        exact absurd (hunder.symm.trans hinner) nofun

/-- Submitting is exact if no path has an empty step and no field gets in the way of another: all
values are placed and none is marked, each path of a field leads to its value or to all values of
the list, and a path apart from those leads nowhere. -/
theorem submission_exact {form : Form}
    (hsteps : ∀ e ∈ Fragment.entriesOf false form.fragments, "" ∉ steps e.path)
    (hpairs : (Fragment.entriesOf false form.fragments).Pairwise Compatible) :
    (∀ e ∈ Fragment.entriesOf false form.fragments,
      form.submission.lookup? e.path.toList =
        some (if e.listed then
          .arr (((Fragment.entriesOf false form.fragments).filter (·.path = e.path)).map (·.value))
        else e.value)) ∧
    ((ofForm form).2 = [] ∧ ∃ fields, form.submission = .obj fields ∧
      placeAll? (Fragment.entriesOf false form.fragments) [] = some fields) ∧
    ∀ path : String,
      (∀ e ∈ Fragment.entriesOf false form.fragments, Apart (steps path) (steps e.path)) →
        form.submission.lookup? path.toList = none := by
  obtain ⟨fields, hinsert, hplace, hholds⟩ := holds_nil.placeAll hpairs hsteps
  have hform : ofForm form = (.obj fields, []) := by
    simp only [ofForm, hinsert]
  have hsubmission : form.submission = .obj fields := by
    rw [Form.submission, hform]
  refine ⟨?_, ⟨by rw [hform], fields, hsubmission, hplace⟩, ?_⟩
  · intro e he
    rw [hsubmission]
    exact follow?_of_under? (hholds.value e he)
  · intro path hapart
    rw [hsubmission]
    exact hholds.follow?_none hapart

/-- A form with a name and, in one group, two records of a listed field. -/
def sampleForm : Form :=
  let text (path : String) (value : Option Json) (arrayLike : Bool) : Fragment :=
    { (default : Field) with
      path, value, cardinality := { (default : Cardinality) with arrayLike }
      widget := .text default, instances := [] }
  let tags : List Fragment :=
    [text "sample.tags" (some (.str "soil")) true, text "sample.tags" none true]
  { (default : Form) with
    state := .fields
      [text "name" (some (.str "S1")) false,
        { (default : Field) with widget := .group tags, instances := [] }] }

theorem sampleForm_submission :
    sampleForm.submission.lookup? "name".toList = some (.str "S1") ∧
      sampleForm.submission.lookup? "sample.tags".toList = some (.arr [.str "soil", .null]) ∧
      sampleForm.submission.lookup? "sample.date".toList = none := by
  have hentries : Fragment.entriesOf false sampleForm.fragments =
      [⟨"name", .str "S1", false⟩, ⟨"sample.tags", .str "soil", true⟩,
        ⟨"sample.tags", .null, true⟩] := rfl
  have hsteps : ∀ e ∈ Fragment.entriesOf false sampleForm.fragments, "" ∉ steps e.path := by
    rw [hentries]
    decide +kernel
  have hpairs : (Fragment.entriesOf false sampleForm.fragments).Pairwise Compatible := by
    rw [hentries]
    decide +kernel
  obtain ⟨hvalues, _, hapart⟩ := submission_exact hsteps hpairs
  rw [hentries] at hvalues hapart
  refine ⟨?_, ?_, ?_⟩
  · exact hvalues ⟨"name", .str "S1", false⟩ (by simp)
  · exact hvalues ⟨"sample.tags", .null, true⟩ (by simp)
  · exact hapart "sample.date" (by decide +kernel)

end Submission

end EntryForm
