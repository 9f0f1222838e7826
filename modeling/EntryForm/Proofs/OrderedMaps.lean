import EntryForm.Entity.Reader
import EntryForm.Json.Ordered
import EntryForm.Proofs.JsonText
import Mathlib.Data.Finset.Card

/-!
# Maps made by insertion

Whatever entries are inserted into a map one after the other, each key stands where it occurred
first and is bound to what it was bound to last (`OrderedMap.Holds`). Decoding an object inserts its
fields. A map in which no key occurs twice is decoded from its text as it is, if its values are
decoded where they stand in that text.
-/

namespace EntryForm

namespace Reading
variable {α : Type} {item : Reading → Except ShapeError α}

/-- Whether a value is decoded from a text inside `depth` arrays and objects, whatever follows that
does not go on with the text. -/
def Decodes (item : Reading → Except ShapeError α) (depth : Nat) (cs : List Char) (a : α) : Prop :=
  ∃ r, Stands depth cs r ∧ item r = .ok a

/-- What is decoded from the text of a value is what reading the text gives. -/
theorem Decodes.readText {v : Json} {a : α} (h : Decodes item 0 v.chars a) :
    readText item v.compact = .ok a := by
  obtain ⟨r, hstands, hitem⟩ := h
  have htext : ofText v.compact.toList = (r, true) := by
    rw [Json.compact, String.toList_ofList]
    exact hstands.ofText
  rw [EntryForm.readText, htext]
  change (item r >>= fun a => if true then .ok a else .error .notJson) = _
  rw [hitem]
  rfl

/-- What is decoded from the text of a value by itself is decoded from it wherever it stands, if the
value does not nest too deep there. -/
theorem decodes_of_readText {v : Json} {a : α} {depth : Nat}
    (hnumbers : ∀ n ∈ v.numbers, n.Rereads) (hdepth : depth + v.depth ≤ maxDepth)
    (h : readText item v.compact = .ok a) : Decodes item depth v.chars a := by
  have htext : ofText v.compact.toList = (written v, true) := by
    rw [Json.compact, String.toList_ofList]
    exact ofText_chars hnumbers (by omega)
  rw [readText, htext] at h
  obtain ⟨a', hitem, h⟩ := ok_of_bind h
  cases h
  exact ⟨written v, stands_chars v depth hnumbers hdepth, hitem⟩

end Reading

namespace OrderedMap
open Reading
variable {α : Type} {item : Reading → Except ShapeError α}

section insertion
variable {entries : List (String × α)} {map : OrderedMap α}

/-- What a map holds into which entries have been inserted. -/
structure Holds (entries : List (String × α)) (map : OrderedMap α) : Prop where
  nodup : map.keys.Nodup
  keys : ∀ key, key ∈ map.keys ↔ key ∈ entries.map Prod.fst
  /-- A key stands where it occurred first. -/
  order : map.keys.Pairwise fun first second =>
    (entries.map Prod.fst).idxOf first < (entries.map Prod.fst).idxOf second
  /-- A key is bound to what it was bound to last. -/
  get : ∀ key, map.get? key = entries.reverse.lookup key

theorem holds_empty : Holds [] (empty : OrderedMap α) where
  nodup := List.nodup_nil
  keys _ := Iff.rfl
  order := List.Pairwise.nil
  get _ := rfl

/-- A map goes on holding its entries when one more is inserted, which does not move the first
occurrence of a key that was there. -/
theorem Holds.insert (h : Holds entries map) (key : String) (value : α) :
    Holds (entries ++ [(key, value)]) (map.insert key value) where
  nodup := nodup_insert h.nodup key value
  keys k := by
    rw [OrderedMap.keys, OrderedMap.insert, keys_put, List.map_append, List.mem_append, ← h.keys k]
    split
    case isTrue hold =>
      refine ⟨Or.inl, ?_⟩
      rintro (hk | hk)
      · exact hk
      · rw [List.mem_singleton.mp hk]
        exact hold
    case isFalse => exact List.mem_append
  order := by
    have hbefore : map.keys.Pairwise fun first second =>
        (List.map Prod.fst (entries ++ [(key, value)])).idxOf first <
          (List.map Prod.fst (entries ++ [(key, value)])).idxOf second := by
      refine h.order.imp_of_mem ?_
      intro first second hfirst hsecond hlt
      rwa [List.map_append, List.idxOf_append_of_mem ((h.keys first).mp hfirst),
        List.idxOf_append_of_mem ((h.keys second).mp hsecond)]
    rw [OrderedMap.keys, OrderedMap.insert, keys_put]
    split
    case isTrue => exact hbefore
    case isFalse hnew =>
      refine List.pairwise_append.mpr ⟨hbefore, List.pairwise_singleton _ _, ?_⟩
      intro first hfirst last hlast
      have hmem := (h.keys first).mp hfirst
      have hnot : key ∉ entries.map Prod.fst := fun hkey => hnew ((h.keys key).mpr hkey)
      rw [List.mem_singleton.mp hlast, List.map_append, List.idxOf_append_of_mem hmem,
        List.idxOf_append_of_notMem hnot]
      exact Nat.lt_of_lt_of_le (List.idxOf_lt_length_of_mem hmem) (Nat.le_add_right _ _)
  get k := by
    rw [get?, OrderedMap.insert, find?_put, List.reverse_append, List.reverse_singleton,
      List.singleton_append, List.lookup_cons, ← h.get k, get?]
    by_cases hkey : key = k
    · rw [if_pos hkey, beq_iff_eq.mpr hkey.symm]
    · rw [if_neg hkey, beq_eq_false_iff_ne.mpr (Ne.symm hkey)]

theorem ofList_append_singleton (entries : List (String × α)) (entry : String × α) :
    ofList (entries ++ [entry]) = (ofList entries).insert entry.1 entry.2 := by
  rw [ofList, List.foldl_append]
  rfl

/-- A map that is made of entries holds them. -/
theorem holds_ofList (entries : List (String × α)) : Holds entries (ofList entries) := by
  induction entries using List.reverseRecOn with
  | nil => exact holds_empty
  | append_singleton entries entry ih =>
      rw [ofList_append_singleton]
      exact ih.insert entry.1 entry.2

/-- Inserting entries with distinct keys puts them in a row. -/
theorem ofList_of_nodup (h : (entries.map Prod.fst).Nodup) : ofList entries = ⟨entries⟩ := by
  induction entries using List.reverseRecOn with
  | nil => rfl
  | append_singleton entries entry ih =>
      rw [List.map_append] at h
      obtain ⟨hbefore, _, hnew⟩ := List.nodup_append.mp h
      have hnot : entry.1 ∉ entries.map Prod.fst :=
        fun hmem => hnew _ hmem _ List.mem_cons_self rfl
      rw [ofList_append_singleton, ih hbefore, OrderedMap.insert, put_eq_append _ hnot]

/-- A map has the last value of every key. -/
theorem Holds.mem_entries (h : Holds entries map) (key : String) (value : α) :
    (key, value) ∈ map.entries ↔ entries.reverse.lookup key = some value := by
  rw [← h.get key]
  exact ⟨find?_of_mem h.nodup, mem_of_find?⟩

theorem Holds.isSome_get? (h : Holds entries map) (key : String) :
    (map.get? key).isSome ↔ key ∈ map.keys := by
  rw [Option.isSome_iff_exists, OrderedMap.keys, List.mem_map]
  constructor
  · rintro ⟨value, hget⟩
    exact ⟨(key, value), mem_of_find? hget, rfl⟩
  · rintro ⟨⟨_, value⟩, hentry, rfl⟩
    exact ⟨value, find?_of_mem h.nodup hentry⟩

/-- A map has as many entries as there are keys. -/
theorem Holds.size (h : Holds entries map) :
    map.size = (entries.map Prod.fst).toFinset.card := by
  have hkeys : (entries.map Prod.fst).toFinset = map.keys.toFinset := by
    ext key
    rw [List.mem_toFinset, List.mem_toFinset, h.keys key]
  rw [hkeys, List.toFinset_card_of_nodup h.nodup, OrderedMap.keys, List.length_map, OrderedMap.size]

end insertion

section decoding

/-- A field of an object that is decoded as an entry. -/
def Gives (item : Reading → Except ShapeError α) (field : Option String × Reading)
    (entry : String × α) : Prop :=
  field.1 = some entry.1 ∧ item field.2 = .ok entry.2

theorem readEntries_of_gives {fields : List (Option String × Reading)}
    {entries : List (String × α)} (h : List.Forall₂ (Gives item) fields entries)
    (map : OrderedMap α) :
    readEntries item map fields =
      .ok (entries.foldl (fun map entry => map.insert entry.1 entry.2) map) := by
  induction h generalizing map with
  | nil => rfl
  | @cons field entry fields entries hfield _ ih =>
      obtain ⟨_, value⟩ := field
      obtain ⟨rfl, hitem⟩ := hfield
      rw [readEntries, show item value = .ok entry.2 from hitem]
      exact ih (map.insert entry.1 entry.2)

theorem gives_of_readEntries {fields : List (Option String × Reading)} {map map' : OrderedMap α}
    (h : readEntries item map fields = .ok map') :
    ∃ entries, List.Forall₂ (Gives item) fields entries := by
  induction fields generalizing map with
  | nil => exact ⟨[], .nil⟩
  | cons field rest ih =>
      obtain ⟨key, value⟩ := field
      cases key with
      | none => cases h
      | some key =>
          obtain ⟨a, ha, h⟩ := ok_of_bind h
          obtain ⟨entries, hentries⟩ := ih h
          exact ⟨(key, a) :: entries, .cons ⟨rfl, ha⟩ hentries⟩

/-- What is decoded as a map is an object with an end, all of whose fields are decoded. They are
inserted in their order. -/
theorem read_ok_iff {r : Reading} {map : OrderedMap α} :
    read item r = .ok map ↔
      ∃ fields ending entries, r = .obj fields ending ∧ ending ≠ .missing ∧
        List.Forall₂ (Gives item) fields entries ∧ map = ofList entries := by
  constructor
  · intro h
    cases r with
    | obj fields ending =>
        obtain ⟨map', hread, h⟩ := ok_of_bind h
        obtain ⟨_, hended, h⟩ := ok_of_bind h
        cases h
        obtain ⟨entries, hgives⟩ := gives_of_readEntries hread
        refine ⟨fields, ending, entries, rfl, ?_, hgives, ?_⟩
        · rintro rfl
          cases hended
        · rw [readEntries_of_gives hgives] at hread
          exact (Except.ok.inj hread).symm
    | _ => cases h
  · rintro ⟨fields, ending, entries, rfl, hended, hgives, rfl⟩
    have hending : ended ending = .ok () := by rw [ended, if_neg hended]
    rw [read, readEntries_of_gives hgives, hending]
    rfl

/-- Maps of entities are decoded in the same way. -/
theorem readMap_eq_read (r : Reading) : Entity.readMap r = read Entity.read r := by
  have hentries : ∀ (fields : List (Option String × Reading)) (map : OrderedMap Entity),
      Entity.readEntries map fields = readEntries Entity.read map fields := by
    intro fields
    induction fields with
    | nil => intro map; rw [Entity.readEntries, readEntries]
    | cons field rest ih =>
        intro map
        obtain ⟨key, value⟩ := field
        cases key with
        | none => rw [Entity.readEntries, readEntries]
        | some key => simp only [Entity.readEntries, readEntries, ih]
  cases r with
  | obj fields ending => rw [Entity.readMap, read, hentries]
  | _ => simp only [Entity.readMap, read]

variable {f : α → Json} {depth : Nat}

/-- Values that can be decoded have readings that stand for them. -/
theorem exists_readings {entries : List (String × α)}
    (h : ∀ a ∈ entries.map Prod.snd, Decodes item depth (f a).chars a) :
    ∃ readings, List.Forall₂ (StandsField depth)
        (entries.map fun entry => (entry.1, f entry.2)) readings ∧
      List.Forall₂ (Gives item) readings entries := by
  induction entries with
  | nil => exact ⟨[], .nil, .nil⟩
  | cons entry rest ih =>
      obtain ⟨hfirst, hrest⟩ := List.forall_mem_cons.mp h
      obtain ⟨r, hstands, hitem⟩ := hfirst
      obtain ⟨readings, hfields, hgives⟩ := ih hrest
      exact ⟨(some entry.1, r) :: readings, .cons ⟨rfl, hstands⟩ hfields,
        .cons ⟨rfl, hitem⟩ hgives⟩

/-- A map without a key that occurs twice is decoded from its text, if its values are. -/
theorem decodes_toJson {map : OrderedMap α} (hkeys : map.keys.Nodup) (hdepth : depth < maxDepth)
    (h : ∀ a ∈ map.values, Decodes item (depth + 1) (f a).chars a) :
    Decodes (read item) depth (map.toJson f).chars map := by
  obtain ⟨readings, hfields, hgives⟩ := exists_readings h
  refine ⟨.obj readings .bracket, stands_obj hdepth hfields, ?_⟩
  exact read_ok_iff.mpr ⟨readings, .bracket, map.entries, rfl, nofun, hgives,
    (ofList_of_nodup hkeys).symm⟩

end decoding

/-- How a map comes from entries: they are inserted one after the other, or they are the fields of
an object that is decoded. -/
inductive Made (item : Reading → Except ShapeError α) : List (String × α) → OrderedMap α → Prop
  | ofList (entries : List (String × α)) : Made item entries (ofList entries)
  | read {fields : List (Option String × Reading)} {ending : Ending} {entries : List (String × α)}
      {map : OrderedMap α} : List.Forall₂ (Gives item) fields entries →
        OrderedMap.read item (.obj fields ending) = .ok map → Made item entries map
  | insert {entries : List (String × α)} {map : OrderedMap α} (key : String) (value : α) :
      Made item entries map → Made item (entries ++ [(key, value)]) (map.insert key value)

/-- However a map is made of entries, it is the map of these entries. -/
theorem Made.eq_ofList {entries : List (String × α)} {map : OrderedMap α}
    (h : Made item entries map) : map = OrderedMap.ofList entries := by
  induction h with
  | ofList entries => rfl
  | read hgives hread =>
      obtain ⟨map', hentries, h⟩ := ok_of_bind hread
      obtain ⟨_, _, h⟩ := ok_of_bind h
      cases h
      rw [readEntries_of_gives hgives] at hentries
      exact (Except.ok.inj hentries).symm
  | insert key value _ ih => rw [ofList_append_singleton, ih]

/-- A map into which entries have been inserted, or decoded, holds each of their keys once, in the
order in which the keys occurred first, and bound to what each was bound to last. A key is looked up
with success exactly if it is there, and the size is the number of distinct keys. If the values of
the map are decoded from their texts, where these stand or by themselves, the map is decoded from
its own text. -/
theorem made_map_holds_entries {entries : List (String × α)} {map : OrderedMap α}
    (h : Made item entries map) :
    map.Holds entries ∧
      (∀ key value, (key, value) ∈ map.entries ↔ entries.reverse.lookup key = some value) ∧
      (∀ key, (map.get? key).isSome ↔ key ∈ map.keys) ∧
      map.size = (entries.map Prod.fst).toFinset.card ∧
      ∀ f : α → Json,
        (∀ depth < maxDepth, (∀ a ∈ map.values, Decodes item (depth + 1) (f a).chars a) →
          Decodes (OrderedMap.read item) depth (map.toJson f).chars map) ∧
        ((∀ a ∈ map.values, Decodes item 1 (f a).chars a) →
          readText (OrderedMap.read item) (map.toJson f).compact = .ok map) ∧
        ((∀ a ∈ map.values, readText item (f a).compact = .ok a) →
          (∀ a ∈ map.values, (f a).depth < maxDepth ∧ ∀ n ∈ (f a).numbers, n.Rereads) →
            readText (OrderedMap.read item) (map.toJson f).compact = .ok map) := by
  have hholds : map.Holds entries := h.eq_ofList ▸ holds_ofList entries
  refine ⟨hholds, hholds.mem_entries, hholds.isSome_get?, hholds.size, fun f => ?_⟩
  have hdecodes : ∀ depth < maxDepth,
      (∀ a ∈ map.values, Decodes item (depth + 1) (f a).chars a) →
        Decodes (OrderedMap.read item) depth (map.toJson f).chars map :=
    fun _ hdepth hvalues => decodes_toJson hholds.nodup hdepth hvalues
  refine ⟨hdecodes, fun hvalues => (hdecodes 0 (by decide) hvalues).readText, ?_⟩
  intro hvalues hfits
  refine (hdecodes 0 (by decide) ?_).readText
  intro a ha
  obtain ⟨hdepth, hnumbers⟩ := hfits a ha
  exact decodes_of_readText hnumbers (by omega) (hvalues a ha)

/-- A small number is decoded from its numeral. -/
theorem decodes_nat {n depth : Nat} (h : n < UInt32.size) (hdepth : depth ≤ maxDepth) :
    Decodes toUInt32 depth (Json.nat n).chars n := by
  have hfits : (Number.int n).Fits := by
    have hsizes : UInt32.size < UInt64.size := by decide
    exact ⟨by omega, by omega⟩
  have hnumbers : ∀ k ∈ (Json.nat n).numbers, k.Rereads := by
    intro k hk
    rw [List.mem_singleton.mp hk]
    exact Number.rereads_int hfits
  refine ⟨_, stands_chars (Json.nat n) depth hnumbers hdepth, ?_⟩
  have hrange : (0 : Int) ≤ n ∧ (n : Int) < UInt32.size := by omega
  rw [Json.nat, written, toUInt32, Reading.toNat, if_pos hrange, Int.toNat_natCast]

/-- A key that is decoded twice keeps its place among those that come later. -/
theorem repeated_key_keeps_place :
    let map : OrderedMap Nat := ⟨[("b", 3), ("a", 2), ("c", 4)]⟩
    Made toUInt32 [("b", 1), ("a", 2), ("b", 3), ("c", 4)] map ∧ map.keys = ["b", "a", "c"] ∧
      map.get? "b" = some 3 ∧ map.size = 3 ∧
      readText (OrderedMap.read toUInt32) (map.toJson Json.nat).compact = .ok map := by
  intro map
  have hgives : List.Forall₂ (Gives toUInt32)
      [(some "b", .num (some (.int 1))), (some "a", .num (some (.int 2))),
        (some "b", .num (some (.int 3)))] [("b", 1), ("a", 2), ("b", 3)] :=
    .cons ⟨rfl, rfl⟩ (.cons ⟨rfl, rfl⟩ (.cons ⟨rfl, rfl⟩ .nil))
  have hread := read_ok_iff.mpr ⟨_, .bracket, _, rfl, nofun, hgives, rfl⟩
  have hmade : Made toUInt32 [("b", 1), ("a", 2), ("b", 3), ("c", 4)] map :=
    (Made.read hgives hread).insert "c" 4
  obtain ⟨hholds, _, _, hsize, htext⟩ := made_map_holds_entries hmade
  refine ⟨hmade, rfl, hholds.get "b", hsize, (htext Json.nat).2.1 ?_⟩
  intro a ha
  have hsmall : a < UInt32.size := by
    have hall : ∀ n ∈ map.values, n < UInt32.size := by decide
    exact hall a ha
  exact decodes_nat hsmall (by decide)

end OrderedMap

end EntryForm
