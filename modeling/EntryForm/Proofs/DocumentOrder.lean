import EntryForm.Document
import EntryForm.Proofs.Outline

/-!
# In which order a document is iterated

A document is read as a value before it is read as a document, and the objects of a value are in
key order. So the maps of a document come in the order of their keys, and in the order of the text
exactly where the text has the keys in that order.
-/

namespace EntryForm

namespace Outline

theorem sorted_iff_keys (entries : List (String × Outline)) :
    Fields.Sorted entries ↔ (entries.map Prod.fst).Pairwise (· < ·) :=
  List.pairwise_map.symm

theorem keys_sortEntries (entries : List (String × Outline)) :
    (sortEntries entries).map Prod.fst = entries.map Prod.fst := by
  rw [sortEntries_eq_map, List.map_map]
  rfl

/-- The step from single entries to a map in `sort_eq_iff`. -/
theorem sortMap_eq_iff_of {entries : List (String × Outline)}
    (h : sortEntries entries = entries ↔ EntriesSorted entries) :
    sortMap entries = entries ↔ MapSorted entries := by
  have hsorted : Fields.Sorted (sortEntries entries) ↔ Fields.Sorted entries := by
    rw [sorted_iff_keys, sorted_iff_keys, keys_sortEntries]
  constructor
  · intro heq
    have hkeys : Fields.Sorted entries := heq ▸ Fields.ofList_sorted (sortEntries entries)
    have hfix : sortMap entries = sortEntries entries :=
      (Fields.ofList_eq_self_iff _).mpr (hsorted.mpr hkeys)
    exact ⟨hkeys, h.mp (hfix.symm.trans heq)⟩
  · rintro ⟨hkeys, hentries⟩
    have hfix : sortMap entries = sortEntries entries :=
      (Fields.ofList_eq_self_iff _).mpr (hsorted.mpr hkeys)
    exact hfix.trans (h.mpr hentries)

mutual
/-- Sorting leaves an outline as it is exactly if it is sorted all the way down. -/
theorem sort_eq_iff : ∀ o : Outline, o.sort = o ↔ o.Sorted
  | .node components choices units => by
      have hcomponents := sortMap_eq_iff_of (sortEntries_eq_iff components)
      have hchoices := sortMap_eq_iff_of (sortEntries_eq_iff choices)
      have hunits := sortAll_eq_iff units
      simp only [sortMap, MapSorted] at hcomponents hchoices
      simp only [sort, Sorted, node.injEq, hcomponents, hchoices, hunits]
theorem sortEntries_eq_iff : ∀ entries : List (String × Outline),
    sortEntries entries = entries ↔ EntriesSorted entries
  | [] => by simp [sortEntries, EntriesSorted]
  | (key, o) :: rest => by
      simp [sortEntries, EntriesSorted, sort_eq_iff o, sortEntries_eq_iff rest]
theorem sortAll_eq_iff : ∀ units : List Outline, sortAll units = units ↔ AllSorted units
  | [] => by simp [sortAll, AllSorted]
  | o :: rest => by simp [sortAll, AllSorted, sort_eq_iff o, sortAll_eq_iff rest]
end

theorem sortMap_eq_iff (entries : List (String × Outline)) :
    sortMap entries = entries ↔ MapSorted entries :=
  sortMap_eq_iff_of (sortEntries_eq_iff entries)

end Outline

namespace Entity

theorem outlineEntries_eq_map (entries : List (String × Entity)) :
    outlineEntries entries = entries.map fun entry => (entry.1, entry.2.outline) := by
  induction entries with
  | nil => rfl
  | cons entry rest ih => simp [outlineEntries, ih]

mutual
/-- Placing a node changes no map. -/
theorem outline_placeAt (depth : Nat) (path : List String) :
    ∀ e : Entity, (e.placeAt depth path).outline = e.outline
  | ⟨facts, ⟨components⟩, ⟨choices⟩, units⟩ => by
      simp only [placeAt, outline, outline_placeEntries, outline_placeAll]
theorem outline_placeEntries (depth : Nat) (path : List String) :
    ∀ entries : List (String × Entity),
      outlineEntries (placeEntries depth path entries) = outlineEntries entries
  | [] => rfl
  | (key, e) :: rest => by
      simp only [placeEntries, outlineEntries, outline_placeAt depth path e,
        outline_placeEntries depth path rest]
theorem outline_placeAll (depth : Nat) (path : List String) :
    ∀ units : List Entity, outlineAll (placeAll depth path units) = outlineAll units
  | [] => rfl
  | e :: rest => by
      simp only [placeAll, outlineAll, outline_placeAt depth path e,
        outline_placeAll depth path rest]
end

end Entity

namespace Reading

mutual
/-- The outlines of the specifications of a document as they are written. What a document holds
as its contents counts in its place. -/
def roots? : Reading → Option (List (String × Outline))
  | .obj fields _ => some ((contentsRoots? fields).getD (outlineAt "specifications" fields))
  | _ => none
/-- The outlines of the roots inside the first field named `contents`. -/
def contentsRoots? : List (Option String × Reading) → Option (List (String × Outline))
  | [] => none
  | (key, value) :: rest => if key = some "contents" then roots? value else contentsRoots? rest
end

theorem contentsRoots?_eq (fields : List (Option String × Reading)) :
    contentsRoots? fields = (valueAt? "contents" fields).bind roots? := by
  induction fields with
  | nil => rfl
  | cons field rest ih =>
      simp only [contentsRoots?, valueAt?]
      split
      · rfl
      · exact ih

end Reading

namespace Document

/-- The outlines of the specifications of a document as they are iterated. -/
def outline (d : Document) : List (String × Outline) :=
  Entity.outlineEntries d.specifications.entries

/-- Placing the nodes of a document moves none of them. -/
theorem outline_annotate (d : Document) : d.annotate.outline = d.outline := by
  simp [annotate, outline, OrderedMap.map, Entity.outlineEntries_eq_map, Entity.annotate,
    Entity.outline_placeAt]

/-- The fields inside `contents` are those inside the value that has this key. -/
theorem contents?_eq (fields : Fields Json) :
    contents? fields = (Fields.get? "contents" fields).bind innermost? := by
  induction fields with
  | nil => rfl
  | cons field rest ih =>
      simp only [contents?, Fields.get?]
      split
      · rfl
      · exact ih

/-- A value has innermost fields where the text has specifications to look for. -/
theorem innermost?_isSome {r : Reading} {v : Json} (h : r.toJson = .ok v) :
    (innermost? v).isSome = r.roots?.isSome := by
  rcases Reading.toJson_cases h with ⟨items, ending, values, rfl, rfl, _⟩ |
    ⟨fields, ending, entries, rfl, rfl, _⟩ | ⟨rfl, hscalar⟩
  · rfl
  · rfl
  · cases v <;> rfl

/-- Without a field the others are still distinct. -/
theorem distinct_erase {key : String} {fields : Fields Json}
    (h : (Reading.ofJson (.obj fields)).Distinct) :
    (Reading.ofJson (.obj (Fields.erase key fields))).Distinct := by
  simp only [Reading.ofJson, Reading.Distinct, Reading.fieldsDistinct_iff,
    Reading.ofFields_eq_map] at h ⊢
  obtain ⟨hkeys, hfields⟩ := h
  have hsub : ((Fields.erase key fields).map fun f => (some f.1, Reading.ofJson f.2)).Sublist
      (fields.map fun f => (some f.1, Reading.ofJson f.2)) := List.filter_sublist.map _
  exact ⟨hkeys.sublist (hsub.map _), fun field hfield => hfields field (hsub.subset hfield)⟩

/-- Without an object as contents, the field of that name is only left out. -/
theorem specifications_of_bare {source : List (Option String × Reading)} {ending : Ending}
    {entries : List (String × Json)} {fields : Fields Json}
    (htaken : List.Forall₂ Reading.Taken source entries)
    (hd : (Reading.obj source ending).Distinct)
    (hv : (Reading.obj source ending).toJson = .ok (.obj (Fields.ofList entries)))
    (hin : innermost? (.obj (Fields.ofList entries)) = some fields)
    (hnone : contents? (Fields.ofList entries) = none)
    (hroots : Reading.contentsRoots? source = none) :
    (Reading.ofJson (.obj fields)).Distinct ∧
      Reading.outlineAt "specifications" (Reading.ofFields fields) =
        Outline.sortMap (((Reading.obj source ending).roots?).getD []) := by
  have hspecs := Reading.outlineAt_ofFields "specifications" htaken hd.1
    fun inner w hinner hw =>
      Reading.sortedBy_toJson inner (hd.part (List.mem_map_of_mem hinner)) w hw
  simp only [innermost?, hnone, Option.getD_none, Option.some.injEq] at hin
  subst hin
  refine ⟨distinct_erase (Reading.distinct_ofJson _ _ hv), ?_⟩
  simp only [Reading.roots?, hroots, Option.getD_none, Option.getD_some]
  rw [← hspecs, Reading.outlineAt_eq, Reading.outlineAt_eq, Reading.valueAt?_ofFields,
    Reading.valueAt?_ofFields, Fields.get?_erase]
  simp

/-- The innermost fields of the value of a text hold the specifications of the text, sorted. -/
theorem innermost?_specifications : ∀ (r : Reading), r.Distinct → ∀ v fields,
    r.toJson = .ok v → innermost? v = some fields →
      (Reading.ofJson (.obj fields)).Distinct ∧
        Reading.outlineAt "specifications" (Reading.ofFields fields) =
          Outline.sortMap (r.roots?.getD []) := by
  intro r
  induction r using Reading.parts_induction with
  | step r ih =>
      intro hd v fields hv hin
      rcases Reading.toJson_cases hv with ⟨items, ending, values, rfl, rfl, hvalues⟩ |
        ⟨source, ending, entries, rfl, rfl, htaken⟩ | ⟨rfl, hscalar⟩
      · cases hin
      · have hkeys := Reading.taken_nodup htaken hd.1
        have hcontents : contents? (Fields.ofList entries) =
            (Fields.get? "contents" entries).bind innermost? := by
          rw [contents?_eq, Fields.get?_ofList hkeys]
        have houter := specifications_of_bare htaken hd hv hin
        rcases Reading.taken_valueAt? htaken "contents" with ⟨hr, hw⟩ | ⟨inner, w, hr, hw, hok⟩
        · apply houter
          · rw [hcontents, hw]
            rfl
          · rw [Reading.contentsRoots?_eq, hr]
            rfl
        · have hroots : Reading.contentsRoots? source = inner.roots? := by
            rw [Reading.contentsRoots?_eq, hr]
            rfl
          rw [hw, Option.bind_some] at hcontents
          have hsome := innermost?_isSome hok
          cases hinner : innermost? w with
          | none =>
              rw [hinner, Option.isSome_none] at hsome
              exact houter (hcontents.trans hinner)
                (hroots.trans (Option.not_isSome_iff_eq_none.mp (by simp [← hsome])))
          | some found =>
              have hpart : inner ∈ (Reading.obj source ending).parts :=
                List.mem_map_of_mem (Reading.mem_of_valueAt? hr)
              obtain ⟨written, hwritten⟩ : ∃ written, inner.roots? = some written :=
                Option.isSome_iff_exists.mp (by rw [← hsome, hinner]; rfl)
              simp only [innermost?, hcontents, hinner, Option.getD_some,
                Option.some.injEq] at hin
              subst hin
              have hgo := ih inner hpart (hd.part hpart) w found hok hinner
              simpa [Reading.roots?, hroots, hwritten] using hgo
      · cases v <;> first | exact hscalar.elim | cases hin

/-- What reading one field of a document does to its specifications. -/
theorem shape_read_specifications {name : String} {value : Reading} {d d' : Document}
    (h : shape.read name value d = .ok d') :
    (name = "specifications" ∧ Entity.readMap value = .ok d'.specifications) ∨
      (name ≠ "specifications" ∧ d'.specifications = d.specifications) := by
  unfold shape at h
  simp only at h
  split at h
  · split at h
    · obtain ⟨context, _, h⟩ := ok_of_bind h
      obtain ⟨_, _, h⟩ := ok_of_bind h
      cases h
      exact Or.inr ⟨by decide, rfl⟩
    · cases h
  · obtain ⟨m, hm, h⟩ := ok_of_bind h
    cases h
    exact Or.inl ⟨rfl, hm⟩
  case _ hname =>
    obtain ⟨v, _, h⟩ := ok_of_bind h
    cases h
    exact Or.inr ⟨hname, rfl⟩

/-- Reading the fields of a document takes its specifications from their field. -/
theorem readNamed_outline {ending : Ending} {seen : List String}
    {fields : List (Option String × Reading)} {d d' : Document}
    (hd : (Reading.obj fields ending).Distinct)
    (h : shape.readNamed ending seen fields d = .ok d') :
    d'.outline =
      ((Reading.valueAt? "specifications" fields).map Reading.outlineMap).getD d.outline := by
  induction fields generalizing seen d with
  | nil =>
      obtain ⟨_, _, h⟩ := ok_of_bind h
      obtain ⟨_, _, h⟩ := ok_of_bind h
      cases h
      rfl
  | cons field rest ih =>
      obtain ⟨key, value⟩ := field
      obtain ⟨hkeys, hvalue, hrest⟩ := hd
      obtain ⟨hnew, hkeys⟩ := List.nodup_cons.mp hkeys
      have hgo {seen : List String} {d₁ : Document}
          (h : shape.readNamed ending seen rest d₁ = .ok d') := ih ⟨hkeys, hrest⟩ h
      cases key with
      | none => cases h
      | some name =>
          rw [RecordShape.readNamed] at h
          split at h
          case isTrue =>
            split at h
            · cases h
            · obtain ⟨d₁, hread, h⟩ := ok_of_bind h
              rcases shape_read_specifications hread with ⟨rfl, hmap⟩ | ⟨hname, hkeep⟩
              · have hlast : Reading.valueAt? "specifications" rest = none :=
                  Reading.valueAt?_eq_none hnew
                have horder := (Entity.readInOrder value hvalue).map _ hmap
                simpa [Reading.valueAt?, hlast, outline, horder] using hgo h
              · simpa [Reading.valueAt?, hname, outline, hkeep] using hgo h
          case isFalse hknown =>
            obtain ⟨_, _, h⟩ := ok_of_bind h
            have hname : name ≠ "specifications" := by
              rintro rfl
              exact hknown rfl
            simpa [Reading.valueAt?, hname] using hgo h

/-- The keys of a text that should come in order in its document, as they are written. -/
def written (text : String) : List (String × Outline) :=
  (Reading.ofText text.toList).1.roots?.getD []

/-- A document has the keys of its text, but every map in the order of its keys. -/
theorem outline_eq_sortMap {text : String} {d : Document}
    (hkeys : (Reading.ofText text.toList).1.Distinct) (h : ofText text = .ok d) :
    d.outline = Outline.sortMap (written text) := by
  obtain ⟨value, hvalue, h⟩ : ∃ value, Json.ofText text = .ok value ∧ ofJson value = .ok d := by
    simp only [ofText] at h
    split at h
    · exact ⟨_, ‹_›, h⟩
    · cases h
  have htaken : (Reading.ofText text.toList).1.toJson = .ok value := by
    simp only [Json.ofText, readText] at hvalue
    obtain ⟨v, hv, hvalue⟩ := ok_of_bind hvalue
    split at hvalue
    · cases hvalue
      exact hv
    · cases hvalue
  simp only [ofJson] at h
  split at h
  · cases h
  case _ fields hfields =>
    obtain ⟨hdistinct, hspecs⟩ := innermost?_specifications _ hkeys value fields htaken hfields
    split at h
    case _ entries hentries =>
      split at h
      case _ d₀ hrecord =>
        cases h
        have houtline := readNamed_outline hdistinct hrecord
        rw [outline_annotate, houtline, written, ← hspecs, Reading.outlineAt_eq,
          Reading.valueAt?_ofFields, hentries]
        rfl
      · cases h
    · cases h

/-- A document comes in the order of its text exactly where the keys of the text increase. -/
theorem outline_eq_written_iff {text : String} {d : Document}
    (hkeys : (Reading.ofText text.toList).1.Distinct) (h : ofText text = .ok d) :
    d.outline = written text ↔ Outline.MapSorted (written text) := by
  rw [outline_eq_sortMap hkeys h]
  exact Outline.sortMap_eq_iff (written text)

theorem outline_eq_written_of_sorted_text :
    let text := "\x7b\"specifications\":\x7b\"person\":\x7b\"components\":" ++
      "\x7b\"age\":\x7b\x7d,\"name\":\x7b\x7d\x7d\x7d\x7d\x7d"
    ∃ d, ofText text = .ok d ∧ d.outline = written text := by
  intro text
  have hkeys : (Reading.ofText text.toList).1.Distinct := by decide +kernel
  have hsorted : Outline.MapSorted (written text) := by decide +kernel
  have hok : (ofText text).isOk = true := by decide +kernel
  cases h : ofText text with
  | error e => simp [h, Except.isOk, Except.toBool] at hok
  | ok d => exact ⟨d, rfl, (outline_eq_written_iff hkeys h).mpr hsorted⟩

/-- The order of a text can be lost: a root that is written first comes second. -/
theorem outline_ne_written :
    let text := "\x7b\"specifications\":\x7b\"b\":\x7b\x7d,\"a\":\x7b\x7d\x7d\x7d"
    ∃ d, ofText text = .ok d ∧ (Reading.ofText text.toList).1.Distinct ∧
      d.outline ≠ written text := by
  intro text
  have hkeys : (Reading.ofText text.toList).1.Distinct := by decide +kernel
  have hwritten : (written text).map Prod.fst = ["b", "a"] := by decide +kernel
  have hread : (ofText text).toOption.map (fun d => d.outline.map Prod.fst) =
      some ["a", "b"] := by decide +kernel
  cases h : ofText text with
  | error e => simp [h, Except.toOption] at hread
  | ok d =>
      refine ⟨d, rfl, hkeys, ?_⟩
      intro heq
      simp [h, Except.toOption, heq, hwritten] at hread

end Document

end EntryForm
