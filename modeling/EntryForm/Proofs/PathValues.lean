import EntryForm.Proofs.Extraction

/-!
# What a submission holds at one path

A field whose path lies apart from all others is submitted, whatever goes wrong elsewhere: a field
that does not fit is marked under its full path, which is no step of a path apart from it.
-/

namespace EntryForm

namespace Text

theorem split_of_not_mem {sep : Char} {cs : List Char} (h : sep ∉ cs) : split sep cs = [cs] := by
  induction cs with
  | nil => rfl
  | cons c rest ih =>
      rw [List.mem_cons, not_or] at h
      rw [split, if_neg (Ne.symm h.1), ih h.2]

/-- The pieces of a split text do not have the separator. -/
theorem not_mem_of_mem_split {sep : Char} {cs piece : List Char} (h : piece ∈ split sep cs) :
    sep ∉ piece := by
  induction cs generalizing piece with
  | nil =>
      rw [List.mem_singleton.mp h]
      exact List.not_mem_nil
  | cons c rest ih =>
      rw [split] at h
      split at h
      case isTrue =>
        rcases List.mem_cons.mp h with rfl | h
        · exact List.not_mem_nil
        · exact ih h
      case isFalse hne =>
        split at h
        · rw [List.mem_singleton.mp h]
          simpa [eq_comm] using hne
        case _ first pieces hpieces =>
          rcases List.mem_cons.mp h with rfl | h
          · have hfirst := ih (hpieces ▸ List.mem_cons_self)
            simp [hfirst, Ne.symm hne]
          · exact ih (hpieces ▸ List.mem_cons_of_mem _ h)

end Text

namespace Submission
open Json

/-- A step of a path is a path of one step. -/
theorem steps_of_mem {path step : String} (h : step ∈ steps path) : steps step = [step] := by
  obtain ⟨piece, hpiece, rfl⟩ := List.mem_map.mp h
  rw [steps, String.toList_ofList, Text.split_of_not_mem (Text.not_mem_of_mem_split hpiece)]
  rfl

/-- What there is at the path of an entry once some entries have come: nothing before the first of
them that has the path. -/
def kept? (done : List Entry) (e : Entry) : Option Json :=
  if gathered done e = [] then none else some (expected done e)

/-- At the path of an entry is what has come there, and only objects are on the way. -/
structure Keeps (e : Entry) (done : List Entry) (fields : Fields Json) : Prop where
  value : under? (steps e.path) (.obj fields) = kept? done e
  way : ∀ q, q <+: steps e.path → q ≠ steps e.path → ∀ v, under? q (.obj fields) = some v →
    ∃ inner, v = .obj inner

variable {e d : Entry} {done : List Entry} {fields : Fields Json}

theorem keeps_nil (e : Entry) : Keeps e [] [] := by
  constructor
  · rw [under?_empty (steps_ne_nil e.path)]
    rfl
  · intro q _ _ v hv
    by_cases hq : q = []
    · subst hq
      exact ⟨[], (Option.some.inj ((under?_nil _).symm.trans hv)).symm⟩
    · rw [under?_empty hq] at hv
      cases hv

/-- Nothing changes on the way where what is under every part of it stays. -/
theorem Keeps.of_under {after : Fields Json} (h : Keeps e done fields)
    (hunder : ∀ q, q <+: steps e.path → q ≠ [] →
      under? q (.obj after) = under? q (.obj fields)) : Keeps e done after := by
  constructor
  · rw [hunder _ (List.prefix_refl _) (steps_ne_nil e.path)]
    exact h.value
  · intro q hway hne v hv
    by_cases hq : q = []
    · subst hq
      exact ⟨after, (Option.some.inj ((under?_nil _).symm.trans hv)).symm⟩
    · rw [hunder q hway hq] at hv
      exact h.way q hway hne v hv

/-- A mark does not come on the way to a path apart from it. -/
theorem Keeps.mark (h : Keeps e done fields) (hapart : Apart (steps d.path) (steps e.path))
    (value : Json) : Keeps e done (fields.insert d.path value) := by
  apply h.of_under
  intro q hway hq
  cases q with
  | nil => exact absurd rfl hq
  | cons first rest =>
      have hmem : first ∈ steps e.path := hway.subset List.mem_cons_self
      have hne : d.path ≠ first := by
        intro heq
        apply hapart.1
        rw [heq, steps_of_mem hmem]
        exact (List.cons_prefix_cons.mpr ⟨rfl, List.nil_prefix⟩).trans hway
      exact under?_insert_other hne rest value fields

/-- An entry whose path lies apart changes nothing. -/
theorem kept?_of_apart (hapart : Apart (steps d.path) (steps e.path)) :
    kept? (done ++ [d]) e = kept? done e := by
  have hne : d.path ≠ e.path := by
    intro heq
    rw [heq] at hapart
    exact not_apart_self _ hapart
  simp only [kept?, expected_eq, gathered_append, if_neg hne, List.append_nil]

/-- An entry whose path lies apart changes nothing, whether it fits or not. -/
theorem Keeps.beside (h : Keeps e done fields) (hapart : Apart (steps d.path) (steps e.path)) :
    Keeps e (done ++ [d]) (insert d fields).1 := by
  have hkeeps : Keeps e done (insert d fields).1 := by
    rw [insert]
    split
    case _ after hplaced =>
      split at hplaced
      · cases hplaced
      · have hplaces := place?_places hplaced
        constructor
        · rw [hplaces.beside _ hapart.symm]
          exact h.value
        · intro q hway hne v hv
          by_cases hq : Apart q (steps d.path)
          · rw [hplaces.beside q hq] at hv
            exact h.way q hway hne v hv
          · have hbefore : q <+: steps d.path ∧ q ≠ steps d.path := by
              apply before_of_not_apart hq
              intro hafter
              exact hapart.1 (hafter.trans hway)
            obtain ⟨inner, hinner⟩ := hplaces.above q hbefore.1 hbefore.2
            exact ⟨inner, Option.some.inj (hv.symm.trans hinner)⟩
    case _ =>
      split
      · exact h
      · exact h.mark hapart _
  constructor
  · rw [kept?_of_apart hapart]
    exact hkeeps.value
  · exact hkeeps.way

/-- An entry with the path comes to the list there, or is the first to come. -/
theorem Keeps.join (h : Keeps e done fields) (hsteps : "" ∉ steps e.path) (hpath : d.path = e.path)
    (hlisted : d.listed = e.listed)
    (hfirst : e.listed = true ∨ (gathered done e = [] ∧ d.value = e.value)) :
    Keeps e (done ++ [d]) (insert d fields).1 := by
  have hfull : (steps d.path).any (·.isEmpty) = false := by
    rw [List.any_eq_false]
    intro step hstep hempty
    have hnil : step = "" := by simpa using hempty
    exact hsteps (hpath ▸ hnil ▸ hstep)
  have hvalue := h.value
  have hjoins : Joins d.listed (under? (steps d.path) (.obj fields)) := by
    rw [hpath, hvalue, kept?]
    split
    case isTrue => trivial
    case isFalse hne =>
      have hlist := hfirst.resolve_right fun hnone => hne hnone.1
      rw [expected_eq, if_pos hlist]
      trivial
  obtain ⟨after, hplace⟩ := place?_fits d.value (steps_ne_nil d.path)
    (fun q hway hne v hv => h.way q (hpath ▸ hway) (hpath ▸ hne) v hv) hjoins
  have hplaces := place?_places hplace
  have hinsert : (insert d fields).1 = after := by
    simp only [insert, hfull, hplace, Bool.false_eq_true, if_false]
  rw [hinsert]
  constructor
  · have hown := hplaces.value
    rw [hpath, hvalue, hlisted] at hown
    rw [hown, kept?, kept?, expected_eq, expected_eq, gathered_append, if_pos hpath]
    cases hgathered : gathered done e with
    | nil => cases hlist : e.listed <;> simp_all [joined]
    | cons first rest =>
        have hlist := hfirst.resolve_right (by simp [hgathered])
        simp [hlist, joined]
  · intro q hway hne v hv
    obtain ⟨inner, hinner⟩ := hplaces.above q (hpath ▸ hway) (hpath ▸ hne)
    exact ⟨inner, Option.some.inj (hv.symm.trans hinner)⟩

theorem insertAll_cons (d : Entry) (rest : List Entry) (fields : Fields Json) :
    (insertAll (d :: rest) fields).1 = (insertAll rest (insert d fields).1).1 := rfl

theorem insertAll_append (xs ys : List Entry) (fields : Fields Json) :
    (insertAll (xs ++ ys) fields).1 = (insertAll ys (insertAll xs fields).1).1 := by
  induction xs generalizing fields with
  | nil => rfl
  | cons d rest ih => rw [List.cons_append, insertAll_cons, insertAll_cons, ih]

/-- Entries that lie apart from a path or join its list keep what is there. -/
theorem Keeps.insertAll {rest : List Entry} (h : Keeps e done fields) (hsteps : "" ∉ steps e.path)
    (hrest : ∀ d ∈ rest, Compatible d e) :
    Keeps e (done ++ rest) (Submission.insertAll rest fields).1 := by
  induction rest generalizing done fields with
  | nil =>
      rw [List.append_nil]
      exact h
  | cons d rest ih =>
      obtain ⟨hfirst, hrest⟩ := List.forall_mem_cons.mp hrest
      rw [insertAll_cons, ← List.singleton_append, ← List.append_assoc]
      apply ih _ hrest
      rcases hfirst with hapart | ⟨hpath, hlisted, helisted⟩
      · exact h.beside hapart
      · exact h.join hsteps hpath (hlisted.trans helisted.symm) (Or.inl helisted)

/-- A submission holds at the path of an entry what it should, if every other entry lies apart or
joins the list there. -/
theorem lookup?_insertAll {entries before after : List Entry}
    (hentries : entries = before ++ e :: after) (hsteps : "" ∉ steps e.path)
    (hothers : ∀ d ∈ before ++ after, Compatible d e) :
    lookup? e.path.toList (.obj (insertAll entries []).1) = some (expected entries e) := by
  subst hentries
  obtain ⟨hbefore, hafter⟩ := List.forall_mem_append.mp hothers
  have hfirst : e.listed = true ∨ (gathered before e = [] ∧ e.value = e.value) := by
    cases hlisted : e.listed with
    | true => exact Or.inl rfl
    | false =>
        refine Or.inr ⟨?_, rfl⟩
        rw [gathered, List.map_eq_nil_iff, List.filter_eq_nil_iff]
        intro d hd hpath
        rcases hbefore d hd with hapart | ⟨_, _, helisted⟩
        · rw [of_decide_eq_true hpath] at hapart
          exact not_apart_self _ hapart
        · rw [hlisted] at helisted
          cases helisted
  have hkeeps := (((keeps_nil e).insertAll hsteps hbefore).join hsteps rfl rfl hfirst).insertAll
    hsteps hafter
  have hvalue := hkeeps.value
  rw [List.nil_append, List.append_assoc, List.singleton_append, kept?, if_neg] at hvalue
  · rw [insertAll_append, insertAll_cons]
    exact follow?_of_under? hvalue
  · rw [gathered, List.map_eq_nil_iff, List.filter_eq_nil_iff]
    intro hnone
    exact hnone e (by simp) (by simp)

/-- If a single value is gathered at the path of an entry, it is the entry's, and no other entry has
the path. -/
theorem alone_of_gathered {before after : List Entry} {v : Json}
    (h : gathered (before ++ e :: after) e = [v]) :
    e.value = v ∧ ∀ d ∈ before ++ after, d.path ≠ e.path := by
  have hsplit : gathered before e ++ e.value :: gathered after e = [v] := by
    rw [← h]
    simp [gathered]
  obtain ⟨hbefore, hown⟩ : gathered before e = [] ∧ e.value :: gathered after e = [v] := by
    cases hfirst : gathered before e with
    | nil => exact ⟨rfl, by simpa [hfirst] using hsplit⟩
    | cons first rest => simp [hfirst] at hsplit
  obtain ⟨hv, hafter⟩ := List.cons.inj hown
  refine ⟨hv, ?_⟩
  intro d hd hpath
  have hkept : d.value ∈ gathered before e ++ gathered after e := by
    rw [gathered, gathered, ← List.map_append, ← List.filter_append]
    exact List.mem_map_of_mem (List.mem_filter.mpr ⟨hd, decide_eq_true hpath⟩)
  rw [hbefore, hafter] at hkept
  cases hkept

end Submission

end EntryForm
