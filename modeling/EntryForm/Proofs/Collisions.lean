import EntryForm.Proofs.Insertions
import EntryForm.Proofs.OwnRecords
import EntryForm.Proofs.PathValues

/-!
# Collisions of lists and single values

A submission does not tell whether a list in it was gathered from the records of a field or is the
value of one field. So a single value replaces whatever list it meets, and a value of a list joins
any list; only a single value that is no list is safe from a list that comes to its path later.
-/

namespace EntryForm

namespace Text

/-- Joining the pieces of a text gives the text. -/
theorem join_split (sep : Char) (cs : List Char) : join [sep] (split sep cs) = cs := by
  induction cs with
  | nil => rfl
  | cons c rest ih =>
      obtain ⟨piece, pieces, hsplit⟩ := List.exists_cons_of_ne_nil (split_ne_nil sep rest)
      rw [hsplit] at ih
      rw [split, hsplit]
      split
      case isTrue heq =>
        rw [join, ih, heq]
        · rfl
        · intro hnil
          cases hnil
      case isFalse =>
        cases pieces with
        | nil => simpa [join] using ih
        | cons next more => simpa [join] using ih

end Text

namespace Json

/-- What a path leads through is an object. -/
theorem under?_on_way {q path : List String} {value found : Json} (hway : q <+: path)
    (hne : q ≠ path) (h : under? path value = some found) :
    ∃ inner, under? q value = some (.obj inner) := by
  induction path generalizing q value with
  | nil => exact absurd (List.prefix_nil.mp hway) hne
  | cons key rest ih =>
      cases value with
      | obj fields =>
          rcases List.prefix_cons_iff.mp hway with rfl | ⟨tail, rfl, htail⟩
          · exact ⟨fields, under?_nil _⟩
          · obtain ⟨first, hfirst, hrest⟩ := Option.bind_eq_some_iff.mp h
            rw [under?_cons, hfirst, Option.bind_some]
            exact ih htail (fun heq => hne (congrArg (key :: ·) heq)) hrest
      | _ => cases h

/-- A mark comes to a key that is free, so nothing that a path leads to changes. -/
theorem under?_marked {q : List String} {fields : Fields Json} {found : Json}
    (h : under? q (.obj fields) = some found) (hq : q ≠ []) (path : String) :
    under? q (.obj (Submission.marked path fields)) = some found := by
  cases q with
  | nil => exact absurd rfl hq
  | cons key rest =>
      rw [Submission.marked]
      split
      case isTrue => exact h
      case isFalse hfree =>
        have hne : path ≠ key := by
          rintro rfl
          obtain ⟨first, hfirst, _⟩ := Option.bind_eq_some_iff.mp h
          exact hfree (by rw [Fields.contains, hfirst]; rfl)
        rw [under?_insert_other hne]
        exact h

end Json

namespace Submission
open Json

/-- Two paths with the same steps are the same. -/
theorem steps_inj {p q : String} (h : steps p = steps q) : p = q := by
  have hsplit : Text.split '.' p.toList = Text.split '.' q.toList :=
    (List.map_inj_right fun _ _ => String.ofList_inj.mp).mp h
  rw [← String.toList_inj, ← Text.join_split '.' p.toList, hsplit, Text.join_split]

/-- Whether the value of an entry is put at its path when it comes after others. -/
def Fits (done : List Entry) (e : Entry) : Prop := (insert e (insertAll done []).1).2 = []

instance (done : List Entry) (e : Entry) : Decidable (Fits done e) :=
  inferInstanceAs (Decidable (_ = _))

/-- What is at a path was put there as a list, where nothing was, or as a single value. It stays
until a single value is put in its place. -/
inductive PutAs (path : String) : Bool → List Entry → Prop
  | list {done : List Entry} {e : Entry} : e.path = path → e.listed = true → Fits done e →
      lookup? path.toList (.obj (insertAll done []).1) = none → PutAs path true (done ++ [e])
  | single {done : List Entry} {e : Entry} : e.path = path → e.listed = false → Fits done e →
      PutAs path false (done ++ [e])
  | stays {listed : Bool} {done : List Entry} {e : Entry} : PutAs path listed done →
      (e.path = path → e.listed = false → ¬ Fits done e) → PutAs path listed (done ++ [e])

/-- Whether a value is an array. -/
def IsList (value : Json) : Prop := ∃ items, value = .arr items

theorem insertAll_concat (done : List Entry) (e : Entry) (fields : Fields Json) :
    (insertAll (done ++ [e]) fields).1 = (insert e (insertAll done fields).1).1 := by
  rw [insertAll_append]
  rfl

/-- What is at a path is still there after another entry has come, and a list is still a list,
unless the entry is a single value in its place. Nothing is put in place of an object that a path
leads through. -/
theorem there_after_insert {path : String} {fields : Fields Json} {v : Json}
    (hv : under? (steps path) (.obj fields) = some v) {e : Entry}
    (he : e.path = path → e.listed = false → (insert e fields).2 ≠ []) :
    ∃ w, under? (steps path) (.obj (insert e fields).1) = some w ∧ (IsList v → IsList w) := by
  rcases insert_cases e fields with ⟨_, after, hplace, hinsert⟩ | ⟨_, hinsert⟩
  · rw [hinsert] at he ⊢
    have hplaces := place?_places hplace
    obtain ⟨hobjects, hjoins⟩ := place?_met hplace
    by_cases hpath : e.path = path
    · subst hpath
      have hlisted : e.listed = true := by
        cases hlisted : e.listed with
        | true => rfl
        | false => exact absurd rfl (he rfl hlisted)
      have hvalue := hplaces.value
      rw [hv] at hjoins hvalue
      rw [hlisted] at hjoins hvalue
      refine ⟨_, hvalue, ?_⟩
      rintro ⟨items, rfl⟩
      exact ⟨_, rfl⟩
    · have hsteps : steps path ≠ steps e.path := fun heq => hpath (steps_inj heq).symm
      by_cases hapart : Apart (steps path) (steps e.path)
      · exact ⟨v, (hplaces.beside _ hapart).trans hv, id⟩
      · by_cases habove : steps e.path <+: steps path
        · obtain ⟨inner, hinner⟩ := under?_on_way habove (Ne.symm hsteps) hv
          rw [hinner] at hjoins
          exact hjoins.elim
        · obtain ⟨hbelow, _⟩ := before_of_not_apart hapart habove
          obtain ⟨inner, rfl⟩ := hobjects _ hbelow hsteps v hv
          obtain ⟨inner', hinner'⟩ := hplaces.above _ hbelow hsteps
          exact ⟨_, hinner', by rintro ⟨items, ⟨⟩⟩⟩
  · rw [hinsert]
    exact ⟨v, under?_marked hv (steps_ne_nil path) e.path, id⟩

/-- A value that joins a list makes a list of what was there. -/
theorem isList_joined (value : Json) (old : Option Json) : IsList (joined value true old) := by
  rcases old with _ | old
  · exact ⟨[value], rfl⟩
  · cases old <;> exact ⟨_, rfl⟩

theorem isList_of_joins {value : Json} (h : Joins true (some value)) : IsList value := by
  cases value with
  | arr items => exact ⟨items, rfl⟩
  | obj fields => exact h.elim
  | _ => cases h

/-- What is at the path of an entry whose value fits. -/
theorem there_of_fits {done : List Entry} {e : Entry} (h : Fits done e) :
    "" ∉ steps e.path ∧ under? (steps e.path) (.obj (insertAll (done ++ [e]) []).1) =
      some (joined e.value e.listed (under? (steps e.path) (.obj (insertAll done []).1))) := by
  rw [insertAll_concat]
  rw [Fits] at h
  rcases insert_cases e (insertAll done []).1 with ⟨hfull, after, hplace, hinsert⟩ | ⟨_, hinsert⟩
  · rw [hinsert]
    exact ⟨hfull, (place?_places hplace).value⟩
  · rw [hinsert] at h
    cases h

/-- What was put at a path is there, and a list if it was put there as one. -/
theorem PutAs.there {path : String} {listed : Bool} {done : List Entry}
    (h : PutAs path listed done) :
    "" ∉ steps path ∧ ∃ v, under? (steps path) (.obj (insertAll done []).1) = some v ∧
      (listed = true → IsList v) := by
  induction h with
  | list hpath hlisted hfits _ =>
      subst hpath
      obtain ⟨hfull, hvalue⟩ := there_of_fits hfits
      rw [hlisted] at hvalue
      exact ⟨hfull, _, hvalue, fun _ => isList_joined _ _⟩
  | single hpath _ hfits =>
      subst hpath
      obtain ⟨hfull, hvalue⟩ := there_of_fits hfits
      exact ⟨hfull, _, hvalue, nofun⟩
  | @stays listed done e _ hstays ih =>
      obtain ⟨hfull, v, hv, hlist⟩ := ih
      obtain ⟨w, hw, hkept⟩ := there_after_insert hv (e := e) hstays
      rw [insertAll_concat]
      exact ⟨hfull, w, hw, fun hlisted => hkept (hlist hlisted)⟩

section collision
variable {fields : Fields Json} {e : Entry} {v : Json}

/-- A value that joins what is at its path, or replaces it. -/
theorem insert_joins (hfull : "" ∉ steps e.path) (hv : under? (steps e.path) (.obj fields) = some v)
    (hjoins : Joins e.listed (some v)) :
    (insert e fields).2 = [] ∧
      lookup? e.path.toList (.obj (insert e fields).1) =
        some (joined e.value e.listed (some v)) := by
  obtain ⟨after, hplace⟩ := place?_fits e.value (steps_ne_nil e.path)
    (fun q hway hne found hfound => by
      obtain ⟨inner, hinner⟩ := under?_on_way hway hne hv
      exact ⟨inner, Option.some.inj (hfound.symm.trans hinner)⟩)
    (hv.symm ▸ hjoins)
  rcases insert_cases e fields with ⟨_, after', hplace', hinsert⟩ | ⟨hempty | hnone, _⟩
  · rw [hinsert]
    have hvalue := (place?_places hplace').value
    rw [hv] at hvalue
    exact ⟨rfl, follow?_of_under? hvalue⟩
  · exact absurd hempty hfull
  · exact absurd (hplace.symm.trans hnone) nofun

/-- A value that does not join what is at its path leaves it, and is marked. -/
theorem insert_refused (hv : under? (steps e.path) (.obj fields) = some v)
    (hnot : ¬ Joins e.listed (some v)) :
    insert e fields = (marked e.path fields, [.misfit e.path]) ∧
      lookup? e.path.toList (.obj (insert e fields).1) = some v := by
  rcases insert_cases e fields with ⟨_, after, hplace, _⟩ | ⟨_, hinsert⟩
  · obtain ⟨_, hjoins⟩ := place?_met hplace
    exact absurd (hv ▸ hjoins) hnot
  · rw [hinsert]
    exact ⟨rfl, follow?_of_under? (under?_marked hv (steps_ne_nil e.path) e.path)⟩

/-- A marked path keeps its value, and has the marker if it has none. -/
theorem get?_marked (path : String) (fields : Fields Json) :
    Fields.get? path (marked path fields) =
      some ((fields.get? path).getD (.str (unmatchedReference path))) := by
  rw [marked, Fields.contains]
  cases hget : Fields.get? path fields with
  | none => simp
  | some found => simpa using hget

end collision

/-- A value that comes to a path where another was put with the other list flag leaves that value
and is marked exactly if a list comes to a single value that is no list. A list that was gathered is
replaced by what comes, and the list of one field is joined by it. -/
theorem collision_is_marked_iff {path : String} {listed : Bool} {done : List Entry}
    (h : PutAs path listed done) {e : Entry} (hpath : e.path = path) (hother : e.listed ≠ listed) :
    let before := (insertAll done []).1
    let after := (insertAll (done ++ [e]) []).1
    ∃ v, lookup? path.toList (.obj before) = some v ∧ (listed = true → IsList v) ∧
      (lookup? path.toList (.obj after) = some v ∧ (insert e before).2 = [.misfit path] ∧
          Fields.get? path after =
            some ((Fields.get? path before).getD (.str (unmatchedReference path))) ↔
        listed = false ∧ ¬ IsList v) ∧
      (lookup? path.toList (.obj after) = some v ↔
        (listed = false ∧ ¬ IsList v) ∨ (listed = true ∧ e.value = v)) := by
  intro before after
  subst hpath
  obtain ⟨hfull, v, hv, hlist⟩ := h.there
  have hafter : after = (insert e before).1 := insertAll_concat done e []
  refine ⟨v, follow?_of_under? hv, hlist, ?_⟩
  rw [hafter]
  cases listed with
  | true =>
      obtain ⟨items, rfl⟩ := hlist rfl
      have hflag : e.listed = false := by simpa using hother
      obtain ⟨hfits, hvalue⟩ := insert_joins hfull hv trivial
      rw [hflag] at hvalue
      rw [hfits, hvalue]
      simp [joined]
  | false =>
      have hflag : e.listed = true := by simpa using hother
      by_cases hkind : IsList v
      · obtain ⟨items, rfl⟩ := hkind
        obtain ⟨hfits, hvalue⟩ := insert_joins hfull hv trivial
        rw [hflag] at hvalue
        rw [hfits, hvalue]
        simp [joined, IsList]
      · have hnot : ¬ Joins e.listed (some v) := by
          rw [hflag]
          exact fun hjoins => hkind (isList_of_joins hjoins)
        obtain ⟨hrefused, hvalue⟩ := insert_refused hv hnot
        rw [hvalue, hrefused, get?_marked]
        simp [hkind, before]

/-- A list of depths that comes to a path where a text was put leaves the text, and is marked. -/
theorem text_is_kept :
    let text : Entry := ⟨"site.depth", .str "deep", false⟩
    let depth : Entry := ⟨"site.depth", .str "3", true⟩
    PutAs "site.depth" false [text] ∧ depth.listed ≠ false ∧
      lookup? "site.depth".toList (.obj (insertAll [text, depth] []).1) = some (.str "deep") ∧
      Fields.get? "site.depth" (insertAll [text, depth] []).1 =
        some (.str "unmatched reference: @site.depth") := by
  intro text depth
  have hput : PutAs "site.depth" false ([] ++ [text]) :=
    .single rfl rfl (by decide +kernel)
  have hother : depth.listed ≠ false := by decide
  have hdeep : (lookup? "site.depth".toList (.obj (insertAll [text] []).1)).bind str? =
      some "deep" := by decide +kernel
  have hfree : (Fields.get? "site.depth" (insertAll [text] []).1).isNone = true := by
    decide +kernel
  obtain ⟨v, hv, _, hmarked, _⟩ := collision_is_marked_iff hput (e := depth) rfl hother
  rw [List.nil_append] at hv hmarked
  rw [hv] at hdeep
  obtain rfl : v = .str "deep" := eq_str_of_str? hdeep
  obtain ⟨hkept, _, hmark⟩ := hmarked.mpr ⟨rfl, by rintro ⟨items, ⟨⟩⟩⟩
  refine ⟨hput, hother, hkept, ?_⟩
  rw [Option.isNone_iff_eq_none.mp hfree] at hmark
  exact hmark

end Submission

namespace Session
open Json Submission

/-- The text of a document with a field for up to three depths and one for a single depth, which
are submitted under the same name. -/
def gatheredText : String :=
  "\x7b\"specifications\":\x7b\"r\":\x7b\"id\":\"r\",\"datatype\":\"model\"," ++
    "\"components\":\x7b\"a\":\x7b\"id\":\"a\",\"datatype\":\"xmls:string\"," ++
    "\"name\":\"x\",\"maxCardinality\":3,\"value\":\"1\"\x7d," ++
    "\"b\":\x7b\"id\":\"b\",\"datatype\":\"xmls:string\"," ++
    "\"name\":\"x\",\"value\":\"2\"\x7d\x7d\x7d\x7d\x7d"

/-- The text of a document with a pick-list and a field for up to three depths, which are submitted
under the same name. -/
def chosenText : String :=
  "\x7b\"specifications\":\x7b\"r\":\x7b\"id\":\"r\",\"datatype\":\"model\"," ++
    "\"components\":\x7b\"a\":\x7b\"id\":\"a\",\"datatype\":\"xmls:anyURI\"," ++
    "\"name\":\"x\",\"value\":[\"m\"]\x7d," ++
    "\"b\":\x7b\"id\":\"b\",\"datatype\":\"xmls:string\"," ++
    "\"name\":\"x\",\"maxCardinality\":3,\"value\":\"1\"\x7d\x7d\x7d\x7d\x7d"

/-- The values of a form on their way into a submission, and the submission, as they are written. -/
def writtenEntries (form : Form) : List (String × String × Bool) × String :=
  ((Fragment.entriesOf false form.fragments).map fun e => (e.path, e.value.compact, e.listed),
    form.submission.compact)

/-- A single value replaces the list of a field with records, and such a list goes on behind the
list of one field. -/
theorem lists_are_not_kept :
    (let depths : Entry := ⟨"x", .str "1", true⟩
      let depth : Entry := ⟨"x", .str "2", false⟩
      PutAs "x" true [depths] ∧
        lookup? "x".toList (.obj (insertAll [depths] []).1) = some (.arr [.str "1"]) ∧
        lookup? "x".toList (.obj (insertAll [depths, depth] []).1) = some (.str "2") ∧
        ∃ d form, Document.ofText gatheredText = .ok d ∧
          ((start d {}).run [.select "r"]).form = some form ∧
          writtenEntries form =
            ([("x", "\"1\"", true), ("x", "\"2\"", false)], "\x7b\"x\":\"2\"\x7d")) ∧
    (let choice : Entry := ⟨"x", .arr [.str "m"], false⟩
      let depths : Entry := ⟨"x", .str "1", true⟩
      PutAs "x" false [choice] ∧
        lookup? "x".toList (.obj (insertAll [choice] []).1) = some (.arr [.str "m"]) ∧
        lookup? "x".toList (.obj (insertAll [choice, depths] []).1) =
          some (.arr [.str "m", .str "1"]) ∧
        ∃ d form, Document.ofText chosenText = .ok d ∧
          ((start d {}).run [.select "r"]).form = some form ∧
          writtenEntries form = ([("x", "[\"m\"]", false), ("x", "\"1\"", true)],
            "\x7b\"x\":[\"m\",\"1\"]\x7d")) := by
  have hsteps : steps "x" = ["x"] := by decide +kernel
  have hsplit : Text.split '.' "x".toList = [['x']] := by decide +kernel
  have hkey : String.ofList ['x'] = "x" := by decide +kernel
  have hfind (fields : Fields Json) : lookup? "x".toList (.obj fields) = fields.get? "x" := by
    rw [lookup?, hsplit]
    simp [follow?, step?, hkey]
  constructor
  · intro depths depth
    have hput : PutAs "x" true ([] ++ [depths]) :=
      .list rfl rfl (by decide +kernel) (hfind [])
    have hchecks : checks gatheredText [.select "r"] (fun _ form _ => writtenEntries form ==
        ([("x", "\"1\"", true), ("x", "\"2\"", false)], "\x7b\"x\":\"2\"\x7d")) = true := by
      decide +kernel
    obtain ⟨d, form, _, hd, hform, _, hwritten⟩ := exists_of_checks hchecks
    refine ⟨hput, ?_, ?_, d, form, hd, hform, beq_iff_eq.mp hwritten⟩
    · rw [hfind]
      simp [insertAll, Submission.insert, depths, hsteps, place?, put?, Fields.get?,
        Fields.insert]
    · rw [hfind]
      simp [insertAll, Submission.insert, depths, depth, hsteps, place?, put?, Fields.get?,
        Fields.insert]
  · intro choice depths
    have hput : PutAs "x" false ([] ++ [choice]) :=
      .single rfl rfl (by decide +kernel)
    have hchecks : checks chosenText [.select "r"] (fun _ form _ => writtenEntries form ==
        ([("x", "[\"m\"]", false), ("x", "\"1\"", true)],
          "\x7b\"x\":[\"m\",\"1\"]\x7d")) = true := by
      decide +kernel
    obtain ⟨d, form, _, hd, hform, _, hwritten⟩ := exists_of_checks hchecks
    refine ⟨hput, ?_, ?_, d, form, hd, hform, beq_iff_eq.mp hwritten⟩
    · rw [hfind]
      simp [insertAll, Submission.insert, choice, hsteps, place?, put?, Fields.get?,
        Fields.insert]
    · rw [hfind]
      simp [insertAll, Submission.insert, choice, depths, hsteps, place?, put?, Fields.get?,
        Fields.insert]

end Session

end EntryForm
