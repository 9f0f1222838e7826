import EntryForm.Proofs.OrderedMaps
import EntryForm.Proofs.Settled

/-!
# The text of an entity

A settled entity is read as it was written, one own key after the other and then the other keys
(`Entity.stable_of_settled`). All that has been read from a text is settled, so every node that has
been read is read again from its compact text.
-/

namespace EntryForm

namespace Entity
open Reading

theorem entriesToJson_eq_map (entries : List (String × Entity)) :
    entriesToJson entries = entries.map fun entry => (entry.1, entry.2.toJson) := by
  induction entries with
  | nil => rfl
  | cons entry rest ih => rw [entriesToJson, ih, List.map_cons]

theorem listToJson_eq_map (units : List Entity) : listToJson units = units.map toJson := by
  induction units with
  | nil => rfl
  | cons unit rest ih => rw [listToJson, ih, List.map_cons]

section bounds
variable {n : Nat} {e : Entity}

theorem within_num {k : Number} (h : k.Fits) : (Json.num k).Within n :=
  Json.within_scalar trivial fun _ hk => Json.num.inj hk ▸ h

theorem within_nat {limit k : Nat} (hlimit : limit ≤ UInt64.size) (h : k < limit) :
    (Json.nat k).Within n := by
  refine within_num ⟨by omega, ?_⟩
  exact_mod_cast h.trans_le hlimit

theorem within_str (s : String) : (Json.str s).Within n :=
  Json.within_scalar trivial fun _ hk => nomatch hk

/-- A map of nodes keeps the bounds if its nodes do. -/
theorem within_entries {entries : List (String × Entity)} (hne : entries.isEmpty = false)
    (h : ∀ d ∈ entries.map Prod.snd, d.toJson.Inside n) :
    (Json.obj (entriesToJson entries)).Within n := by
  rw [entriesToJson_eq_map]
  refine Json.within_obj_of_inside (by simpa using hne) ?_
  intro field hfield
  obtain ⟨entry, hentry, rfl⟩ := List.mem_map.mp hfield
  exact h entry.2 (List.mem_map_of_mem hentry)

/-- What is written under a key of a settled entity keeps the bounds. There is one case for each
key, in the order of `own?`: 8 to 11 hold what lies below, 20 is the initial value, and those left
to the end are texts. -/
theorem own?_within (he : e.Settled n) {key : String} {v : Json} (h : e.own? key = some v) :
    v.Within n := by
  have hinside : ∀ d ∈ e.subnodes, d.toJson.Inside n := fun d hd => (he.subnodes d hd).2
  simp only [subnodes, List.forall_mem_append] at hinside
  obtain ⟨hcomponents, hchoices, hunits⟩ := hinside
  have facts := he.facts
  unfold own? at h
  split at h
  case h_1 =>
    cases h
    exact within_str _
  case h_8 =>
    split at h
    case isTrue => cases h
    case isFalse hne =>
      cases h
      refine Json.within_obj_of_inside (by simpa using hne) ?_
      exact List.forall_mem_map.mpr fun f hf => (facts.features f hf).2
  case h_9 =>
    split at h
    case isTrue => cases h
    case isFalse hne =>
      cases h
      exact within_entries (Bool.eq_false_iff.mpr hne) hcomponents
  case h_10 =>
    split at h
    case isTrue => cases h
    case isFalse hne =>
      cases h
      exact within_entries (Bool.eq_false_iff.mpr hne) hchoices
  case h_11 =>
    split at h
    case isTrue => cases h
    case isFalse hne =>
      cases h
      rw [listToJson_eq_map]
      refine Json.within_arr_of_inside (by simpa using hne) ?_
      exact List.forall_mem_map.mpr hunits
  case h_20 => exact (facts.value v h).2.2
  case h_21 => cases h
  all_goals obtain ⟨x, hx, rfl⟩ := Option.map_eq_some_iff.mp h
  case h_12 => exact within_num (facts.minValue x hx)
  case h_13 => exact within_num (facts.maxValue x hx)
  case h_14 => exact within_nat le_rfl (facts.minLength x hx)
  case h_15 => exact within_nat le_rfl (facts.maxLength x hx)
  case h_17 => exact within_nat (by decide) (facts.minCardinality x hx)
  case h_18 => exact within_nat (by decide) (facts.maxCardinality x hx)
  all_goals exact within_str x

/-- A settled entity is written within the bounds. -/
theorem within_of_settled (he : e.Settled n) : e.toJson.Within (n + 1) := by
  rw [toJson_eq]
  refine Json.within_obj (List.forall_mem_append.mpr ⟨?_, fun field hfield => ?_⟩)
  · intro field hfield
    obtain ⟨key, _, hfield⟩ := List.mem_flatMap.mp hfield
    obtain ⟨v, hv, rfl⟩ := Option.map_eq_some_iff.mp (Option.mem_toList.mp hfield)
    exact own?_within he hv
  · exact (he.facts.extra field hfield).2.2

end bounds

section nodes

/-- Nodes that are stable are read again from what is written of them. -/
theorem gives_written {entries : List (String × Entity)}
    (h : ∀ d ∈ entries.map Prod.snd, d.Stable) :
    List.Forall₂ (OrderedMap.Gives read) (writtenFields (entriesToJson entries)) entries := by
  induction entries with
  | nil => exact .nil
  | cons entry rest ih =>
      obtain ⟨hfirst, hrest⟩ := List.forall_mem_cons.mp h
      exact .cons ⟨rfl, hfirst⟩ (ih hrest)

theorem readMap_written {map : OrderedMap Entity} (hkeys : map.keys.Nodup)
    (h : ∀ d ∈ map.values, d.Stable) :
    readMap (written (.obj (entriesToJson map.entries))) = .ok map := by
  rw [OrderedMap.readMap_eq_read]
  exact OrderedMap.read_ok_iff.mpr ⟨_, .bracket, map.entries, rfl, nofun, gives_written h,
    (OrderedMap.ofList_of_nodup hkeys).symm⟩

theorem readList_written {units : List Entity} (h : ∀ d ∈ units, d.Stable) :
    readList (written (.arr (listToJson units))) = .ok units := by
  have hitems : readItems (writtenItems (listToJson units)) = .ok units := by
    induction units with
    | nil => rfl
    | cons unit rest ih =>
        obtain ⟨hfirst, hrest⟩ := List.forall_mem_cons.mp h
        have hfirst : read (written unit.toJson) = .ok unit := hfirst
        rw [listToJson, writtenItems, readItems, hfirst, ih hrest]
        rfl
  rw [written, readList, hitems]
  rfl

end nodes

section keys
variable {n : Nat} {e : Entity}

/-- A count within its limit is read again from what is written of it. -/
theorem optional_toNat_written {limit k : Nat} (h : k < limit) (expected : String) :
    (written (.nat k)).optional (toNat limit expected) = .ok (some k) := by
  have hrange : (0 : Int) ≤ k ∧ (k : Int) < limit := ⟨by omega, by exact_mod_cast h⟩
  have hread : toNat limit expected (written (.nat k)) = .ok k := by
    rw [Json.nat, written, Reading.toNat, if_pos hrange]
    rfl
  change (toNat limit expected (written (.nat k))).map some = _
  rw [hread]
  rfl

/-- Reading what is written under a key adds the key to those that are known. In the cases of
`own?_within`, each reader is applied to what was written for it. -/
theorem readKnown_only (he : e.Settled n) {key : String} {v : Json}
    (h : e.own? key = some v) (done : List String) :
    readKnown key (written v) (e.only done) = .ok (e.only (key :: done)) := by
  have facts := he.facts
  have hstable : ∀ d ∈ e.subnodes, d.Stable := fun d hd => (he.subnodes d hd).1.stable
  simp only [subnodes, List.forall_mem_append] at hstable
  obtain ⟨hcomponents, hchoices, hunits⟩ := hstable
  unfold own? at h
  split at h
  case h_1 =>
    cases h
    simp [readKnown, Facts.readField, only, keep_cons_of_ne, written, toStr]
  case h_8 =>
    split at h
    case isTrue => cases h
    case isFalse =>
      cases h
      have hread := Feature.readAll_written facts.sorted fun f hf => (facts.features f hf).1
      simp [readKnown, Facts.readField, only, keep_cons_of_ne, hread]
  case h_9 =>
    split at h
    case isTrue => cases h
    case isFalse =>
      cases h
      have hread := readMap_written he.components hcomponents
      simp [readKnown, only, keep_cons_of_ne, hread]
  case h_10 =>
    split at h
    case isTrue => cases h
    case isFalse =>
      cases h
      have hread := readMap_written he.choices hchoices
      simp [readKnown, only, keep_cons_of_ne, hread]
  case h_11 =>
    split at h
    case isTrue => cases h
    case isFalse =>
      cases h
      have hread := readList_written hunits
      simp [readKnown, only, keep_cons_of_ne, hread]
  case h_20 =>
    obtain ⟨hnull, hv, _⟩ := facts.value v h
    have hread := optional_written hnull hv
    simp [readKnown, Facts.readField, only, keep_cons_of_ne, hread, h]
  case h_21 => cases h
  all_goals obtain ⟨x, hx, rfl⟩ := Option.map_eq_some_iff.mp h
  case h_12 =>
    have hread : (written (.num x)).optional toNumber = .ok (some x) := rfl
    simp [readKnown, Facts.readField, only, keep_cons_of_ne, hread, hx]
  case h_13 =>
    have hread : (written (.num x)).optional toNumber = .ok (some x) := rfl
    simp [readKnown, Facts.readField, only, keep_cons_of_ne, hread, hx]
  case h_14 =>
    have hread := optional_toNat_written (facts.minLength x hx) "u64"
    simp [readKnown, Facts.readField, only, keep_cons_of_ne, toUInt64, hread, hx]
  case h_15 =>
    have hread := optional_toNat_written (facts.maxLength x hx) "u64"
    simp [readKnown, Facts.readField, only, keep_cons_of_ne, toUInt64, hread, hx]
  case h_17 =>
    have hread := optional_toNat_written (facts.minCardinality x hx) "u32"
    simp [readKnown, Facts.readField, only, keep_cons_of_ne, toUInt32, hread, hx]
  case h_18 =>
    have hread := optional_toNat_written (facts.maxCardinality x hx) "u32"
    simp [readKnown, Facts.readField, only, keep_cons_of_ne, toUInt32, hread, hx]
  all_goals
    have hread : (written (.str x)).optional toStr = .ok (some x) := rfl
    simp [readKnown, Facts.readField, only, keep_cons_of_ne, hread, hx]

/-- Fields that are not known are read again one after the other. -/
theorem readFields_extra {fields : Fields Json}
    (h : ∀ field ∈ fields, field.1 ∉ keys ∧ field.2.Stable) (seen : List String) (e : Entity) :
    readFields seen e (writtenFields fields) =
      .ok { e with extra := Fields.insertAll fields e.extra } := by
  induction fields generalizing e with
  | nil =>
      obtain ⟨facts, components, choices, units⟩ := e
      rw [writtenFields, readFields]
      rfl
  | cons field rest ih =>
      obtain ⟨key, v⟩ := field
      obtain ⟨⟨hkey, hv⟩, hrest⟩ := List.forall_mem_cons.mp h
      have hv : (written v).toJson = .ok v := hv
      rw [writtenFields, readFields_other hkey, hv]
      exact ih hrest _

/-- Reading what is written under some of the own keys, and the other keys after them. The keys
`done` have been gone through, and those of them that were written are the keys `seen`. -/
theorem readFields_written (he : e.Settled n) {todo : List String}
    (hkeys : ∀ key ∈ todo, key ∈ keys) (hnodup : todo.Nodup) (seen done : List String)
    (hnew : ∀ key ∈ todo, key ∉ seen) :
    readFields seen (e.only done) (writtenFields (todo.flatMap e.ownField ++ e.extra)) =
      .ok { e.only (todo.reverse ++ done) with extra := e.extra } := by
  induction todo generalizing seen done with
  | nil =>
      have hextra := readFields_extra
        (fun field hfield => ⟨(he.facts.extra field hfield).1, (he.facts.extra field hfield).2.1⟩)
        seen (e.only done)
      have hsame : Fields.insertAll e.extra [] = e.extra :=
        Fields.insertAll_eq_append he.facts.increasing
      rw [List.flatMap_nil, List.nil_append, hextra, show (e.only done).extra = [] from rfl, hsame]
      rfl
  | cons key rest ih =>
      obtain ⟨hkey, hkeys⟩ := List.forall_mem_cons.mp hkeys
      obtain ⟨hother, hnodup⟩ := List.nodup_cons.mp hnodup
      obtain ⟨hunseen, hnew⟩ := List.forall_mem_cons.mp hnew
      rw [List.flatMap_cons, List.reverse_cons, List.append_assoc, List.append_assoc,
        List.singleton_append, ownField]
      cases hown : e.own? key with
      | none =>
          rw [← only_cons_of_none hkey hown done]
          exact ih hkeys hnodup seen (key :: done) hnew
      | some v =>
          change readFields seen (e.only done) ((some key, written v) ::
            writtenFields (rest.flatMap e.ownField ++ e.extra)) = _
          rw [readFields_known hkey hunseen, readKnown_only he hown done]
          refine ih hkeys hnodup (key :: seen) (key :: done) ?_
          intro other hmem
          rw [List.mem_cons, not_or]
          exact ⟨fun heq => hother (heq ▸ hmem), hnew other hmem⟩

/-- A settled entity is read as it was written. -/
theorem stable_of_settled (he : e.Settled n) : e.Stable := by
  have hread := readFields_written he (fun _ h => h) (by decide) [] [] nofun
  have hall : e.only (keys.reverse ++ []) = { e with depth := 0, path := [], extra := [] } :=
    only_keys fun key hkey => by simpa using hkey
  have hsame : ({ e with depth := 0, path := [], extra := e.extra } : Entity) = e := by
    obtain ⟨⟨⟩, components, choices, units⟩ := e
    obtain ⟨rfl, rfl⟩ := And.intro he.facts.depth he.facts.path
    rfl
  rw [only_nil, hall] at hread
  rw [Stable, toJson_eq, written, read, hread]
  exact congrArg Except.ok hsame

end keys

section reading

theorem settled_default {n : Nat} : ({} : Entity).Settled n :=
  ⟨Facts.settled_default, List.nodup_nil, List.nodup_nil, nofun⟩

/-- Reading a map of nodes keeps what reading each of them keeps. -/
theorem readEntries_kept {n : Nat} (hn : n ≤ maxDepth) {fields : List (Option String × Reading)}
    (hfields : ∀ field ∈ fields, field.2.Within n) (ih : ∀ field ∈ fields, ReadKept field.2)
    {map out : OrderedMap Entity}
    (hmap : map.keys.Nodup ∧ ∀ d ∈ map.values, d.Kept ∧ d.toJson.Within n)
    (h : readEntries map fields = .ok out) :
    out.keys.Nodup ∧ ∀ d ∈ out.values, d.Kept ∧ d.toJson.Within n := by
  induction fields generalizing map with
  | nil =>
      cases h
      exact hmap
  | cons field rest ihrest =>
      obtain ⟨hfirst, hrest⟩ := List.forall_mem_cons.mp hfields
      obtain ⟨hkept, hlater⟩ := List.forall_mem_cons.mp ih
      obtain ⟨_ | key, value⟩ := field
      · cases h
      · obtain ⟨e, he, h⟩ := ok_of_bind h
        refine ihrest hrest hlater ⟨OrderedMap.nodup_insert hmap.1 key e, ?_⟩ h
        intro d hd
        obtain ⟨entry, hentry, rfl⟩ := List.mem_map.mp hd
        rcases OrderedMap.mem_insert hentry with rfl | hentry
        · exact hkept.node n e hn hfirst he
        · exact hmap.2 entry.2 (List.mem_map_of_mem hentry)

theorem readItems_kept {n : Nat} (hn : n ≤ maxDepth) {items : List Reading}
    (hitems : ∀ item ∈ items, item.Within n) (ih : ∀ item ∈ items, ReadKept item)
    {l : List Entity} (h : readItems items = .ok l) :
    ∀ d ∈ l, d.Kept ∧ d.toJson.Within n := by
  induction items generalizing l with
  | nil =>
      cases h
      exact nofun
  | cons item rest ihrest =>
      obtain ⟨hfirst, hrest⟩ := List.forall_mem_cons.mp hitems
      obtain ⟨hkept, hlater⟩ := List.forall_mem_cons.mp ih
      obtain ⟨e, he, h⟩ := ok_of_bind h
      obtain ⟨others, hothers, h⟩ := ok_of_bind h
      cases h
      exact List.forall_mem_cons.mpr
        ⟨hkept.node n e hn hfirst he, ihrest hrest hlater hothers⟩

/-- A settled entity is kept whole. -/
theorem kept_of_settled {n : Nat} (hn : n + 1 ≤ maxDepth) {e : Entity} (he : e.Settled n) :
    e.Kept ∧ e.toJson.Within (n + 1) := by
  have hwithin := within_of_settled he
  exact ⟨.intro (stable_of_settled he) (hwithin.mono hn) fun d hd => (he.subnodes d hd).1, hwithin⟩

/-- Every entity that is read from a reading within the bounds is kept when it is written. -/
theorem readKept : ∀ r : Reading, ReadKept r := by
  intro r
  induction r using Reading.parts_induction with
  | step r ih =>
      constructor
      case node =>
        intro n e hn hr h
        cases hr with
        | @obj m fields _ hfields =>
            obtain ⟨e', he', h⟩ := ok_of_bind h
            obtain ⟨_, _, h⟩ := ok_of_bind h
            cases h
            refine kept_of_settled hn (readFields_settled (Nat.le_of_succ_le hn) hfields ?_
              settled_default he')
            exact fun field hfield => ih field.2 (List.mem_map_of_mem hfield)
        | _ => cases h
      case map =>
        intro n out hn hr h
        cases hr with
        | @obj m fields _ hfields =>
            obtain ⟨out', hout, h⟩ := ok_of_bind h
            obtain ⟨_, _, h⟩ := ok_of_bind h
            cases h
            have hempty : (OrderedMap.empty : OrderedMap Entity).keys.Nodup ∧
                ∀ d ∈ (OrderedMap.empty : OrderedMap Entity).values,
                  d.Kept ∧ d.toJson.Within m := ⟨List.nodup_nil, nofun⟩
            obtain ⟨hkeys, hvalues⟩ := readEntries_kept (Nat.le_of_succ_le hn) hfields
              (fun field hfield => ih field.2 (List.mem_map_of_mem hfield)) hempty hout
            exact ⟨hkeys, fun d hd => ⟨(hvalues d hd).1, m, rfl, (hvalues d hd).2⟩⟩
        | _ => cases h
      case list =>
        intro n l hn hr h
        cases hr with
        | @arr m items _ hitems =>
            obtain ⟨l', hl, h⟩ := ok_of_bind h
            obtain ⟨_, _, h⟩ := ok_of_bind h
            cases h
            have hkept := readItems_kept (Nat.le_of_succ_le hn) hitems ih hl
            exact fun d hd => ⟨(hkept d hd).1, m, rfl, (hkept d hd).2⟩
        | _ => cases h

mutual
/-- All nodes below a kept one are kept. -/
theorem Kept.nodes (place : Option Place) :
    ∀ e : Entity, e.Kept → ∀ x ∈ e.nodes place, x.2.Kept
  | ⟨facts, ⟨components⟩, ⟨choices⟩, units⟩ => by
      intro h
      have hchildren := h.subnodes
      simp only [Entity.subnodes, OrderedMap.values, List.forall_mem_append] at hchildren
      obtain ⟨hcomponents, hchoices, hunits⟩ := hchildren
      rw [Entity.nodes]
      refine List.forall_mem_cons.mpr ⟨h, List.forall_mem_append.mpr
        ⟨Kept.nodesOfEntries .component components hcomponents, List.forall_mem_append.mpr
          ⟨Kept.nodesOfEntries .choice choices hchoices, Kept.nodesOfUnits 0 units hunits⟩⟩⟩
theorem Kept.nodesOfEntries (place : String → Place) :
    ∀ entries : List (String × Entity), (∀ d ∈ entries.map Prod.snd, d.Kept) →
      ∀ x ∈ Entity.nodesOfEntries place entries, x.2.Kept
  | [] => fun _ => nofun
  | (key, e) :: rest => by
      intro h
      obtain ⟨hfirst, hrest⟩ := List.forall_mem_cons.mp h
      rw [Entity.nodesOfEntries]
      exact List.forall_mem_append.mpr
        ⟨Kept.nodes (some (place key)) e hfirst, Kept.nodesOfEntries place rest hrest⟩
theorem Kept.nodesOfUnits (index : Nat) :
    ∀ units : List Entity, (∀ d ∈ units, d.Kept) →
      ∀ x ∈ Entity.nodesOfUnits index units, x.2.Kept
  | [] => fun _ => nofun
  | e :: rest => by
      intro h
      obtain ⟨hfirst, hrest⟩ := List.forall_mem_cons.mp h
      rw [Entity.nodesOfUnits]
      exact List.forall_mem_append.mpr
        ⟨Kept.nodes (some (.unit index)) e hfirst, Kept.nodesOfUnits (index + 1) rest hrest⟩
end

/-- Every node of an entity that has been read from a text. -/
theorem kept_of_ofText {text : String} {e d : Entity} {place : Option Place}
    (h : ofText text = .ok e) (hd : (place, d) ∈ e.nodes none) : d.Kept := by
  have hwithin := within_ofText text.toList
  rw [ofText, readText] at h
  cases htext : Reading.ofText text.toList with
  | mk r clean =>
      rw [htext] at h hwithin
      obtain ⟨e', he', h⟩ := ok_of_bind h
      split at h
      case isTrue =>
        cases h
        have hkept := ((readKept r).node maxDepth e le_rfl hwithin he').1
        exact Kept.nodes none e hkept (place, d) hd
      case isFalse => cases h

end reading

/-- Every node of an entity that has been read is read again from its compact text, and written as
the same text, if this holds of the floating point numbers in it. -/
theorem text_is_read_again {text : String} {e d : Entity} {place : Option Place}
    (h : ofText text = .ok e) (hd : (place, d) ∈ e.nodes none)
    (hreals : ∀ x, .real x ∈ d.toJson.numbers →
      Json.ofText (Json.num (.real x)).compact = .ok (.num (.real x))) :
    ofText d.text = .ok d ∧ (ofText d.text).map Entity.text = .ok d.text := by
  have hkept := kept_of_ofText h hd
  have hnumbers : ∀ n ∈ d.toJson.numbers, n.Rereads := by
    intro n hn
    cases n with
    | int i => exact Number.rereads_int (hkept.within.fits _ hn)
    | real x => exact Number.rereads_of_ofText (hreals x hn)
  have htext : Reading.ofText d.text.toList = (written d.toJson, true) := by
    rw [Entity.text, Json.compact, String.toList_ofList]
    exact ofText_chars hnumbers hkept.within.depth
  have hstable : read (written d.toJson) = .ok d := hkept.stable
  have hread : ofText d.text = .ok d := by
    rw [ofText, readText, htext]
    change (read (written d.toJson) >>= fun e => if true then .ok e else .error .notJson) = _
    rw [hstable]
    rfl
  refine ⟨hread, ?_⟩
  rw [hread]
  rfl

/-- Whether the text of a number is read as that number. -/
def rereads (n : Number) : Bool :=
  (Json.ofText (Json.num n).compact).toOption.any fun
    | .num k => k == n
    | _ => false

theorem ofText_of_rereads {n : Number} (h : rereads n = true) :
    Json.ofText (Json.num n).compact = .ok (.num n) := by
  obtain ⟨v, hv, htest⟩ := exists_of_any h
  cases v with
  | num k =>
      rw [hv, eq_of_beq htest]
  | _ => cases htest

/-- The text of an entity with nodes of all kinds below it, a flag, a number with a fraction, and a
key that is not its own. -/
def sampleText : String :=
  "\x7b\"id\":\"m\",\"features\":\x7b\"flag\":[]\x7d,\"path\":2,\"components\":\x7b" ++
    "\"b\":\x7b\"id\":\"b\",\"minValue\":0.5,\"units\":[\x7b\"id\":\"u\"\x7d]\x7d," ++
    "\"a\":\x7b\"id\":\"a\"\x7d\x7d,\"choices\":\x7b\"c\":\x7b\"id\":\"c\"\x7d\x7d\x7d"

theorem sample_is_read_again :
    ∃ e, ofText sampleText = .ok e ∧ e.components.keys = ["b", "a"] ∧ ofText e.text = .ok e := by
  have hchecks : (ofText sampleText).toOption.any (fun e =>
      e.components.keys == ["b", "a"] && e.toJson.numbers.all rereads) = true := by decide +kernel
  obtain ⟨e, he, htest⟩ := exists_of_any hchecks
  obtain ⟨hkeys, hnumbers⟩ := (Bool.and_eq_true _ _).mp htest
  have hroot : (none, e) ∈ e.nodes none := by
    obtain ⟨facts, ⟨components⟩, ⟨choices⟩, units⟩ := e
    rw [nodes]
    exact List.mem_cons_self
  have hreals : ∀ x, .real x ∈ e.toJson.numbers →
      Json.ofText (Json.num (.real x)).compact = .ok (.num (.real x)) :=
    fun x hx => ofText_of_rereads (List.all_eq_true.mp hnumbers _ hx)
  exact ⟨e, he, eq_of_beq hkeys, (text_is_read_again he hroot hreals).1⟩

end Entity

end EntryForm
