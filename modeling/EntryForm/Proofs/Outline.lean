import EntryForm.Proofs.EntityKeys

/-!
# In which order the nodes of a specification come

An outline keeps the keys of components and choices in their order, and nothing else. A text has
an outline as it is written, and an entity has one as it is iterated. Reading a node keeps the
outline (`Entity.readInOrder`); taking a value out of a text sorts it (`Reading.sortedBy_toJson`).
-/

namespace EntryForm

/-- The keys of components and choices of a node and of all nodes below, in their order. -/
inductive Outline
  | node (components choices : List (String × Outline)) (units : List Outline)

namespace Outline

mutual
/-- The outline with the entries of every map in the order of their keys. -/
def sort : Outline → Outline
  | .node components choices units =>
    .node (Fields.ofList (sortEntries components)) (Fields.ofList (sortEntries choices))
      (sortAll units)
def sortEntries : List (String × Outline) → List (String × Outline)
  | [] => []
  | (key, o) :: rest => (key, sort o) :: sortEntries rest
def sortAll : List Outline → List Outline
  | [] => []
  | o :: rest => sort o :: sortAll rest
end

/-- Sorts a map and all maps below. -/
def sortMap (entries : List (String × Outline)) : List (String × Outline) :=
  Fields.ofList (sortEntries entries)

mutual
/-- The keys of every map increase. -/
def Sorted : Outline → Prop
  | .node components choices units =>
    (Fields.Sorted components ∧ EntriesSorted components) ∧
      (Fields.Sorted choices ∧ EntriesSorted choices) ∧ AllSorted units
def EntriesSorted : List (String × Outline) → Prop
  | [] => True
  | (_, o) :: rest => Sorted o ∧ EntriesSorted rest
def AllSorted : List Outline → Prop
  | [] => True
  | o :: rest => Sorted o ∧ AllSorted rest
end

/-- The keys of a map and of all maps below increase. -/
def MapSorted (entries : List (String × Outline)) : Prop :=
  Fields.Sorted entries ∧ EntriesSorted entries

/-- Tells whether the keys of one map increase. -/
def decideKeys (entries : List (String × Outline)) : Decidable (Fields.Sorted entries) :=
  inferInstanceAs (Decidable (List.Pairwise _ entries))

mutual
/-- Tells whether the keys of every map increase. -/
def decideSorted : (o : Outline) → Decidable o.Sorted
  | .node components choices units =>
    @instDecidableAnd _ _ (@instDecidableAnd _ _ (decideKeys components) (decideEntries components))
      (@instDecidableAnd _ _ (@instDecidableAnd _ _ (decideKeys choices) (decideEntries choices))
        (decideAll units))
def decideEntries : (entries : List (String × Outline)) → Decidable (EntriesSorted entries)
  | [] => .isTrue trivial
  | (_, o) :: rest => @instDecidableAnd _ _ (decideSorted o) (decideEntries rest)
def decideAll : (units : List Outline) → Decidable (AllSorted units)
  | [] => .isTrue trivial
  | o :: rest => @instDecidableAnd _ _ (decideSorted o) (decideAll rest)
end

instance (entries : List (String × Outline)) : Decidable (MapSorted entries) :=
  @instDecidableAnd _ _ (decideKeys entries) (decideEntries entries)

theorem sortEntries_eq_map (entries : List (String × Outline)) :
    sortEntries entries = entries.map fun entry => (entry.1, entry.2.sort) := by
  induction entries with
  | nil => rfl
  | cons entry rest ih => simp [sortEntries, ih]

end Outline

namespace Entity

mutual
/-- The outline of a node as its maps are iterated. -/
def outline : Entity → Outline
  | ⟨_, ⟨components⟩, ⟨choices⟩, units⟩ =>
    .node (outlineEntries components) (outlineEntries choices) (outlineAll units)
/-- The outlines of the nodes of a map, by their keys. -/
def outlineEntries : List (String × Entity) → List (String × Outline)
  | [] => []
  | (key, e) :: rest => (key, outline e) :: outlineEntries rest
def outlineAll : List Entity → List Outline
  | [] => []
  | e :: rest => outline e :: outlineAll rest
end

theorem outlineEntries_append (xs ys : List (String × Entity)) :
    outlineEntries (xs ++ ys) = outlineEntries xs ++ outlineEntries ys := by
  induction xs with
  | nil => rfl
  | cons x xs ih => simp [outlineEntries, ih]

end Entity

namespace Reading

mutual
/-- The outline of a node as it is written. -/
def outline : Reading → Outline
  | .obj fields _ =>
    .node (outlineAt "components" fields) (outlineAt "choices" fields) (outlineUnits fields)
  | _ => .node [] [] []
/-- The outlines of the map under the first key of a name. -/
def outlineAt (name : String) : List (Option String × Reading) → List (String × Outline)
  | [] => []
  | (key, value) :: rest => if key = some name then outlineMap value else outlineAt name rest
/-- The outlines of the first list of units. -/
def outlineUnits : List (Option String × Reading) → List Outline
  | [] => []
  | (key, value) :: rest => if key = some "units" then outlineList value else outlineUnits rest
/-- The outlines of a map of nodes as it is written. -/
def outlineMap : Reading → List (String × Outline)
  | .obj fields _ => outlineEntries fields
  | _ => []
/-- The outlines of a row of fields, by their keys. -/
def outlineEntries : List (Option String × Reading) → List (String × Outline)
  | [] => []
  | (key, value) :: rest => (key.getD "", outline value) :: outlineEntries rest
/-- The outlines of the items of an array. -/
def outlineList : Reading → List Outline
  | .arr items _ => outlineItems items
  | _ => []
def outlineItems : List Reading → List Outline
  | [] => []
  | item :: items => outline item :: outlineItems items
end

theorem outlineEntries_eq_map (fields : List (Option String × Reading)) :
    outlineEntries fields = fields.map fun field => (field.1.getD "", field.2.outline) := by
  induction fields with
  | nil => rfl
  | cons field rest ih => simp [outlineEntries, ih]

theorem outlineItems_eq_map (items : List Reading) :
    outlineItems items = items.map outline := by
  induction items with
  | nil => rfl
  | cons item rest ih => simp [outlineItems, ih]

/-- The map under a name is that of the value there, if there is one. -/
theorem outlineAt_eq (name : String) (fields : List (Option String × Reading)) :
    outlineAt name fields = ((valueAt? name fields).map outlineMap).getD [] := by
  induction fields with
  | nil => rfl
  | cons field rest ih =>
      simp only [outlineAt, valueAt?]
      split
      · rfl
      · exact ih

theorem outlineUnits_eq (fields : List (Option String × Reading)) :
    outlineUnits fields = ((valueAt? "units" fields).map outlineList).getD [] := by
  induction fields with
  | nil => rfl
  | cons field rest ih =>
      simp only [outlineUnits, valueAt?]
      split
      · rfl
      · exact ih

theorem outlineMap_ofJson_obj (fields : Fields Json) :
    outlineMap (ofJson (.obj fields)) =
      fields.map fun field => (field.1, (ofJson field.2).outline) := by
  simp [ofJson, outlineMap, outlineEntries_eq_map, ofFields_eq_map]

/-- The outlines of a reading and of the value taken out of it, read in the three places where a
reading may stand: as a node, as a map of nodes and as a list of units. -/
structure SortedBy (r : Reading) (v : Json) : Prop where
  node : (ofJson v).outline = r.outline.sort
  map : outlineMap (ofJson v) = Outline.sortMap r.outlineMap
  list : outlineList (ofJson v) = Outline.sortAll r.outlineList

/-- A value without parts has empty outlines. -/
theorem sortedBy_scalar {v : Json} (h : IsScalar v) : SortedBy (ofJson v) v := by
  cases v <;> first | exact ⟨rfl, rfl, rfl⟩ | exact h.elim

/-- The items of an array are read in their order. -/
theorem sortedBy_arr {items : List Reading} {values : List Json} {ending : Ending}
    (h : List.Forall₂ (fun item value => item.toJson = .ok value) items values)
    (ih : ∀ item ∈ items, ∀ v, item.toJson = .ok v → SortedBy item v) :
    SortedBy (.arr items ending) (.arr values) := by
  refine ⟨rfl, rfl, ?_⟩
  simp only [ofJson, outlineList, outlineItems_eq_map, ofItems_eq_map, List.map_map]
  induction h with
  | nil => rfl
  | @cons item value _ _ hfirst _ ihrest =>
      have hnode := (ih item (by simp) value hfirst).node
      have hrest := ihrest fun item hitem => ih item (List.mem_cons_of_mem _ hitem)
      simp [Outline.sortAll, hnode, hrest]

/-- The map under a name is read as it is written, but for the order of keys. -/
theorem outlineAt_ofFields (name : String) {fields : List (Option String × Reading)}
    {entries : List (String × Json)} (htaken : List.Forall₂ Taken fields entries)
    (hkeys : (fields.map Prod.fst).Nodup)
    (ih : ∀ r v, (some name, r) ∈ fields → r.toJson = .ok v → SortedBy r v) :
    outlineAt name (ofFields (Fields.ofList entries)) =
      Outline.sortMap (outlineAt name fields) := by
  rw [outlineAt_eq, outlineAt_eq, valueAt?_ofFields,
    Fields.get?_ofList (taken_nodup htaken hkeys)]
  rcases taken_valueAt? htaken name with ⟨hr, hv⟩ | ⟨r, v, hr, hv, hok⟩
  · rw [hr, hv]
    rfl
  · rw [hr, hv]
    exact (ih r v (mem_of_valueAt? hr) hok).map

theorem outlineUnits_ofFields {fields : List (Option String × Reading)}
    {entries : List (String × Json)} (htaken : List.Forall₂ Taken fields entries)
    (hkeys : (fields.map Prod.fst).Nodup)
    (ih : ∀ r v, (some "units", r) ∈ fields → r.toJson = .ok v → SortedBy r v) :
    outlineUnits (ofFields (Fields.ofList entries)) =
      Outline.sortAll (outlineUnits fields) := by
  rw [outlineUnits_eq, outlineUnits_eq, valueAt?_ofFields,
    Fields.get?_ofList (taken_nodup htaken hkeys)]
  rcases taken_valueAt? htaken "units" with ⟨hr, hv⟩ | ⟨r, v, hr, hv, hok⟩
  · rw [hr, hv]
    rfl
  · rw [hr, hv]
    exact (ih r v (mem_of_valueAt? hr) hok).list

theorem outlineEntries_ofFields {fields : List (Option String × Reading)}
    {entries : List (String × Json)} (htaken : List.Forall₂ Taken fields entries)
    (ih : ∀ field ∈ fields, ∀ v, field.2.toJson = .ok v → SortedBy field.2 v) :
    entries.map (fun entry => (entry.1, (ofJson entry.2).outline)) =
      Outline.sortEntries (outlineEntries fields) := by
  induction htaken with
  | nil => rfl
  | @cons field entry _ _ hfirst _ ihrest =>
      have hnode := (ih field (by simp) entry.2 hfirst.2).node
      have hrest := ihrest fun field hfield => ih field (List.mem_cons_of_mem _ hfield)
      simp [outlineEntries, Outline.sortEntries, hfirst.1, hnode, hrest]

/-- Taking the value out of a reading sorts its maps. -/
theorem sortedBy_toJson : ∀ r : Reading, r.Distinct → ∀ v, r.toJson = .ok v → SortedBy r v := by
  intro r
  induction r using parts_induction with
  | step r ih =>
      intro hd v hv
      have hparts : ∀ part ∈ r.parts, ∀ v, part.toJson = .ok v → SortedBy part v :=
        fun part hpart => ih part hpart (hd.part hpart)
      rcases toJson_cases hv with ⟨items, ending, values, rfl, rfl, hvalues⟩ |
        ⟨fields, ending, entries, rfl, rfl, htaken⟩ | ⟨rfl, hscalar⟩
      · exact sortedBy_arr hvalues hparts
      · have hfields : ∀ field ∈ fields, ∀ v, field.2.toJson = .ok v → SortedBy field.2 v :=
          fun field hfield => hparts field.2 (List.mem_map_of_mem hfield)
        constructor
        · have hat (name : String) := outlineAt_ofFields name htaken hd.1
            fun r v hr => hfields _ hr v
          have hunits := outlineUnits_ofFields htaken hd.1 fun r v hr => hfields _ hr v
          simp only [ofJson, outline, hat, hunits, Outline.sort, Outline.sortMap]
        · rw [outlineMap_ofJson_obj]
          exact (Fields.map_ofList (fun v => (ofJson v).outline) entries).trans
            (congrArg Fields.ofList (outlineEntries_ofFields htaken hfields))
        · rfl
      · exact sortedBy_scalar hscalar

end Reading

namespace Entity

theorem outline_eq (e : Entity) :
    e.outline = .node (outlineEntries e.components.entries) (outlineEntries e.choices.entries)
      (outlineAll e.units) := by
  obtain ⟨facts, ⟨components⟩, ⟨choices⟩, units⟩ := e
  rfl

/-- Reading a node, a map of nodes or a list of units keeps what is written. -/
structure ReadInOrder (r : Reading) : Prop where
  node : ∀ e, read r = .ok e → e.outline = r.outline
  map : ∀ m, readMap r = .ok m → outlineEntries m.entries = r.outlineMap
  list : ∀ l, readList r = .ok l → outlineAll l = r.outlineList

/-- What reading one field does to the nodes below. -/
theorem readFields_cons {seen : List String} {e e' : Entity} {key : Option String}
    {value : Reading} {rest : List (Option String × Reading)}
    (h : readFields seen e ((key, value) :: rest) = .ok e') :
    ∃ name seen' e₁, key = some name ∧ readFields seen' e₁ rest = .ok e' ∧
      ((name = "components" ∧ readMap value = .ok e₁.components ∧
          e₁.choices = e.choices ∧ e₁.units = e.units) ∨
        (name = "choices" ∧ readMap value = .ok e₁.choices ∧
          e₁.components = e.components ∧ e₁.units = e.units) ∨
        (name = "units" ∧ readList value = .ok e₁.units ∧
          e₁.components = e.components ∧ e₁.choices = e.choices) ∨
        ((name ≠ "components" ∧ name ≠ "choices" ∧ name ≠ "units") ∧
          e₁.components = e.components ∧ e₁.choices = e.choices ∧ e₁.units = e.units)) := by
  obtain ⟨name, value, seen', e₁, hfield, hread, hstep⟩ := readFields_ok h
  cases hfield
  refine ⟨name, seen', e₁, rfl, hread, ?_⟩
  rcases hstep with ⟨hother, v, _, rfl⟩ | ⟨_, hknown⟩
  · have hne : name ≠ "components" ∧ name ≠ "choices" ∧ name ≠ "units" := by
      refine ⟨?_, ?_, ?_⟩ <;> rintro rfl <;> exact absurd hother (by decide)
    exact Or.inr (Or.inr (Or.inr ⟨hne, rfl, rfl, rfl⟩))
  · unfold readKnown at hknown
    split at hknown
    case isTrue hname =>
      obtain ⟨m, hm, hknown⟩ := ok_of_bind hknown
      cases hknown
      exact Or.inl ⟨hname, hm, rfl, rfl⟩
    case isFalse hcomponents =>
      split at hknown
      case isTrue hname =>
        obtain ⟨m, hm, hknown⟩ := ok_of_bind hknown
        cases hknown
        exact Or.inr (Or.inl ⟨hname, hm, rfl, rfl⟩)
      case isFalse hchoices =>
        split at hknown
        case isTrue hname =>
          obtain ⟨units, hunits, hknown⟩ := ok_of_bind hknown
          cases hknown
          exact Or.inr (Or.inr (Or.inl ⟨hname, hunits, rfl, rfl⟩))
        case isFalse hunits =>
          obtain ⟨facts, _, hknown⟩ := ok_of_bind hknown
          cases hknown
          exact Or.inr (Or.inr (Or.inr ⟨⟨hcomponents, hchoices, hunits⟩, rfl, rfl, rfl⟩))

/-- Reading the fields of a node takes its maps and its units from their fields. -/
theorem readFields_outline {fields : List (Option String × Reading)}
    (hkeys : (fields.map Prod.fst).Nodup) (ih : ∀ field ∈ fields, ReadInOrder field.2)
    {seen : List String} {e e' : Entity} (h : readFields seen e fields = .ok e') :
    outlineEntries e'.components.entries =
        ((Reading.valueAt? "components" fields).map Reading.outlineMap).getD
          (outlineEntries e.components.entries) ∧
      outlineEntries e'.choices.entries =
        ((Reading.valueAt? "choices" fields).map Reading.outlineMap).getD
          (outlineEntries e.choices.entries) ∧
      outlineAll e'.units =
        ((Reading.valueAt? "units" fields).map Reading.outlineList).getD
          (outlineAll e.units) := by
  induction fields generalizing seen e with
  | nil =>
      cases h
      exact ⟨rfl, rfl, rfl⟩
  | cons field rest ihrest =>
      obtain ⟨key, value⟩ := field
      obtain ⟨hnew, hrest⟩ := List.nodup_cons.mp hkeys
      obtain ⟨name, seen', e₁, rfl, hread, hcase⟩ := readFields_cons h
      have hlast : Reading.valueAt? name rest = none := Reading.valueAt?_eq_none hnew
      have hvalue : ReadInOrder value := ih (some name, value) (by simp)
      have hgo := ihrest hrest (fun field hfield => ih field (List.mem_cons_of_mem _ hfield)) hread
      rcases hcase with ⟨rfl, hm, hch, hu⟩ | ⟨rfl, hm, hco, hu⟩ | ⟨rfl, hl, hco, hch⟩ |
        ⟨⟨hco', hch', hu'⟩, hco, hch, hu⟩
      · simpa [Reading.valueAt?, hlast, hvalue.map _ hm, hch, hu] using hgo
      · simpa [Reading.valueAt?, hlast, hvalue.map _ hm, hco, hu] using hgo
      · simpa [Reading.valueAt?, hlast, hvalue.list _ hl, hco, hch] using hgo
      · simpa [Reading.valueAt?, hco', hch', hu', hco, hch, hu] using hgo

theorem readEntries_outline {fields : List (Option String × Reading)}
    (ih : ∀ field ∈ fields, ReadInOrder field.2) {map map' : OrderedMap Entity}
    (hkeys : (map.keys.map some ++ fields.map Prod.fst).Nodup)
    (h : readEntries map fields = .ok map') :
    outlineEntries map'.entries =
      outlineEntries map.entries ++ Reading.outlineEntries fields := by
  induction fields generalizing map with
  | nil =>
      cases h
      simp [Reading.outlineEntries]
  | cons field rest ihrest =>
      obtain ⟨key, value⟩ := field
      cases key with
      | none => cases h
      | some name =>
          obtain ⟨e, he, h⟩ := ok_of_bind h
          have hnew : name ∉ map.entries.map Prod.fst := by
            intro hmem
            have hmem' : some name ∈ map.keys.map some := List.mem_map_of_mem hmem
            exact (List.nodup_append.mp hkeys).2.2 _ hmem' _ (by simp) rfl
          have hentries : (map.insert name e).entries = map.entries ++ [(name, e)] :=
            OrderedMap.put_eq_append e hnew
          have hgo := ihrest (fun field hfield => ih field (List.mem_cons_of_mem _ hfield))
            (by simpa [OrderedMap.keys, hentries] using hkeys) h
          have hnode := (ih (some name, value) (by simp)).node e he
          rw [hgo, hentries, outlineEntries_append]
          simp [Reading.outlineEntries, outlineEntries, hnode]

theorem readItems_outline {items : List Reading} (ih : ∀ item ∈ items, ReadInOrder item)
    {units : List Entity} (h : readItems items = .ok units) :
    outlineAll units = Reading.outlineItems items := by
  induction items generalizing units with
  | nil =>
      cases h
      rfl
  | cons item rest ihrest =>
      obtain ⟨e, he, h⟩ := ok_of_bind h
      obtain ⟨others, hothers, h⟩ := ok_of_bind h
      cases h
      have hnode := (ih item (by simp)).node e he
      have hrest := ihrest (fun item hitem => ih item (List.mem_cons_of_mem _ hitem)) hothers
      simp [outlineAll, Reading.outlineItems, hnode, hrest]

/-- Reading an entity keeps the order in which its nodes are written. Of a scalar nothing is
read. -/
theorem readInOrder : ∀ r : Reading, r.Distinct → ReadInOrder r := by
  intro r
  induction r using Reading.parts_induction with
  | step r ih =>
      intro hd
      have hparts : ∀ part ∈ r.parts, ReadInOrder part := fun part h => ih part h (hd.part h)
      cases r with
      | obj fields ending =>
          have hfields : ∀ field ∈ fields, ReadInOrder field.2 :=
            fun field hfield => hparts field.2 (List.mem_map_of_mem hfield)
          refine ⟨?_, ?_, ?_⟩
          · intro e h
            obtain ⟨e', he', h⟩ := ok_of_bind h
            obtain ⟨_, _, h⟩ := ok_of_bind h
            cases h
            obtain ⟨hco, hch, hu⟩ := readFields_outline hd.1 hfields he'
            rw [outline_eq, hco, hch, hu, Reading.outline, Reading.outlineAt_eq,
              Reading.outlineAt_eq, Reading.outlineUnits_eq]
            rfl
          · intro m h
            obtain ⟨m', hm', h⟩ := ok_of_bind h
            obtain ⟨_, _, h⟩ := ok_of_bind h
            cases h
            have hkeys : ((OrderedMap.empty : OrderedMap Entity).keys.map some ++
                fields.map Prod.fst).Nodup := by
              simpa [OrderedMap.keys, OrderedMap.empty] using hd.1
            exact readEntries_outline hfields hkeys hm'
          · intro l h
            cases h
      | arr items ending =>
          refine ⟨?_, ?_, ?_⟩
          · intro e h
            cases h
          · intro m h
            cases h
          · intro l h
            obtain ⟨l', hl', h⟩ := ok_of_bind h
            obtain ⟨_, _, h⟩ := ok_of_bind h
            cases h
            exact readItems_outline hparts hl'
      | _ =>
          constructor <;> intro _ h <;> cases h

end Entity

end EntryForm
