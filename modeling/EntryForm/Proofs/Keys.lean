import EntryForm.Instances
import EntryForm.Proofs.DocumentOrder

/-!
# Nodes and their keys

A node is found by keys and named by ids. In a document whose maps have every node under its id,
the path of ids of a node is the path of keys that leads to it, so it is found again by what its
field knows of it.
-/

namespace EntryForm

namespace Entity

mutual
/-- Whether the maps of a node and of all nodes below it have every node under its id. -/
def namedByIds : Entity → Bool
  | ⟨_, ⟨components⟩, ⟨choices⟩, _⟩ =>
    entriesNamedByIds components && entriesNamedByIds choices
/-- Whether the keys of a row are the ids of its nodes, and so all the way down. -/
def entriesNamedByIds : List (String × Entity) → Bool
  | [] => true
  | (key, e) :: rest => key == e.id && namedByIds e && entriesNamedByIds rest
end

/-- No key of the components of a node occurs twice, nor one of any node below it. -/
inductive Distinct : Entity → Prop
  | intro {e : Entity} (keys : e.components.keys.Nodup)
      (components : ∀ entry ∈ e.components.entries, Distinct entry.2)
      (choices : ∀ entry ∈ e.choices.entries, Distinct entry.2) : Distinct e

/-- Reading a node or a map of nodes yields distinct keys. -/
structure ReadDistinct (r : Reading) : Prop where
  node : ∀ e, read r = .ok e → e.Distinct
  map : ∀ m, readMap r = .ok m → m.keys.Nodup ∧ ∀ entry ∈ m.entries, entry.2.Distinct

theorem readFields_distinct {fields : List (Option String × Reading)}
    (ih : ∀ field ∈ fields, ReadDistinct field.2) {seen : List String} {e e' : Entity}
    (he : e.Distinct) (h : readFields seen e fields = .ok e') : e'.Distinct := by
  induction fields generalizing seen e with
  | nil =>
      cases h
      exact he
  | cons field rest ihrest =>
      obtain ⟨key, value⟩ := field
      obtain ⟨name, seen', e₁, rfl, hread, hcase⟩ := readFields_cons h
      obtain ⟨hkeys, hcomponents, hchoices⟩ := he
      refine ihrest (fun field hfield => ih field (List.mem_cons_of_mem _ hfield)) ?_ hread
      have hvalue : ReadDistinct value := ih (some name, value) List.mem_cons_self
      rcases hcase with ⟨_, hm, hch, _⟩ | ⟨_, hm, hco, _⟩ | ⟨_, _, hco, hch⟩ | ⟨_, hco, hch, _⟩
      · obtain ⟨hkeys', hbelow⟩ := hvalue.map _ hm
        exact ⟨hkeys', hbelow, hch ▸ hchoices⟩
      · obtain ⟨_, hbelow⟩ := hvalue.map _ hm
        exact ⟨hco ▸ hkeys, hco ▸ hcomponents, hbelow⟩
      · exact ⟨hco ▸ hkeys, hco ▸ hcomponents, hch ▸ hchoices⟩
      · exact ⟨hco ▸ hkeys, hco ▸ hcomponents, hch ▸ hchoices⟩

theorem readEntries_distinct {fields : List (Option String × Reading)}
    (ih : ∀ field ∈ fields, ReadDistinct field.2) {map map' : OrderedMap Entity}
    (hmap : map.keys.Nodup ∧ ∀ entry ∈ map.entries, entry.2.Distinct)
    (h : readEntries map fields = .ok map') :
    map'.keys.Nodup ∧ ∀ entry ∈ map'.entries, entry.2.Distinct := by
  induction fields generalizing map with
  | nil =>
      cases h
      exact hmap
  | cons field rest ihrest =>
      obtain ⟨key, value⟩ := field
      cases key with
      | none => cases h
      | some name =>
          obtain ⟨e, he, h⟩ := ok_of_bind h
          refine ihrest (fun field hfield => ih field (List.mem_cons_of_mem _ hfield)) ⟨?_, ?_⟩ h
          · exact OrderedMap.nodup_insert hmap.1 name e
          · intro entry hentry
            rcases OrderedMap.mem_insert hentry with rfl | hentry
            · exact (ih (some name, value) List.mem_cons_self).node e he
            · exact hmap.2 entry hentry

theorem distinct_default : ({} : Entity).Distinct :=
  .intro (by simp [OrderedMap.keys]) (by simp) (by simp)

/-- In an entity that is read, no map has a key twice. -/
theorem readDistinct : ∀ r : Reading, ReadDistinct r := by
  intro r
  induction r using Reading.parts_induction with
  | step r ih =>
      cases r with
      | obj fields ending =>
          have hfields : ∀ field ∈ fields, ReadDistinct field.2 :=
            fun field hfield => ih field.2 (List.mem_map_of_mem hfield)
          constructor
          · intro e h
            obtain ⟨e', he', h⟩ := ok_of_bind h
            obtain ⟨_, _, h⟩ := ok_of_bind h
            cases h
            exact readFields_distinct hfields distinct_default he'
          · intro m h
            obtain ⟨m', hm', h⟩ := ok_of_bind h
            obtain ⟨_, _, h⟩ := ok_of_bind h
            cases h
            exact readEntries_distinct hfields
              ⟨by simp [OrderedMap.keys, OrderedMap.empty], by simp [OrderedMap.empty]⟩ hm'
      | _ =>
          constructor <;> intro _ h <;> cases h

/-- What hangs below a node is found by its key, is called by that key, and knows the path to it. -/
inductive Keyed : Entity → Prop
  | intro {e : Entity} (keys : e.components.keys.Nodup)
      (child : ∀ key child, e.child? key = some child →
        child.id = key ∧ child.path = e.entityPath)
      (below : ∀ key child, e.child? key = some child → Keyed child) : Keyed e

/-- A node is keyed if its children are and sit under their ids. -/
theorem keyed_of_entries {e : Entity} (hkeys : e.components.keys.Nodup)
    (h : ∀ key child, (key, child) ∈ e.components.entries ∨ (key, child) ∈ e.choices.entries →
      child.id = key ∧ child.path = e.entityPath ∧ child.Keyed) : e.Keyed := by
  have hmem {key : String} {child : Entity} (hchild : e.child? key = some child) :
      (key, child) ∈ e.components.entries ∨ (key, child) ∈ e.choices.entries := by
    rcases Option.or_eq_some_iff.mp hchild with hfound | ⟨_, hfound⟩
    · exact Or.inl (OrderedMap.mem_of_find? hfound)
    · exact Or.inr (OrderedMap.mem_of_find? hfound)
  refine .intro hkeys ?_ ?_
  · intro key child hchild
    exact ⟨(h key child (hmem hchild)).1, (h key child (hmem hchild)).2.1⟩
  · intro key child hchild
    exact (h key child (hmem hchild)).2.2

/-- A component of a keyed node is the child of its key. -/
theorem Keyed.child?_of_mem {e child : Entity} {key : String} (h : e.Keyed)
    (hmem : (key, child) ∈ e.components.entries) : e.child? key = some child := by
  obtain ⟨hkeys, _, _⟩ := h
  exact Option.or_eq_some_iff.mpr (Or.inl (OrderedMap.find?_of_mem hkeys hmem))

theorem keys_placeEntries (depth : Nat) (path : List String) (entries : List (String × Entity)) :
    (placeEntries depth path entries).map Prod.fst = entries.map Prod.fst := by
  induction entries with
  | nil => rfl
  | cons entry rest ih => rw [placeEntries, List.map_cons, ih, List.map_cons]

theorem map_annotate (entries : List (String × Entity)) :
    entries.map (fun entry => (entry.1, entry.2.annotate)) = placeEntries 0 [] entries := by
  induction entries with
  | nil => rfl
  | cons entry rest ih => rw [List.map_cons, ih, placeEntries, annotate]

mutual
/-- Placing a node tells everything below it the path to it. -/
theorem keyed_placeAt (depth : Nat) (path : List String) :
    ∀ e : Entity, e.Distinct → (e.placeAt depth path).namedByIds = true →
      (e.placeAt depth path).Keyed
  | ⟨facts, ⟨components⟩, ⟨choices⟩, units⟩ => by
      rintro ⟨hkeys, hcomponents, hchoices⟩ hnamed
      rw [placeAt, namedByIds, Bool.and_eq_true] at hnamed
      rw [placeAt]
      apply keyed_of_entries
      · rw [OrderedMap.keys, keys_placeEntries]
        exact hkeys
      · rintro key child (hentry | hentry)
        · exact keyed_placeEntries _ _ components hcomponents hnamed.1 key child hentry
        · exact keyed_placeEntries _ _ choices hchoices hnamed.2 key child hentry
theorem keyed_placeEntries (depth : Nat) (path : List String) :
    ∀ entries : List (String × Entity), (∀ entry ∈ entries, entry.2.Distinct) →
      entriesNamedByIds (placeEntries depth path entries) = true →
        ∀ key child, (key, child) ∈ placeEntries depth path entries →
          child.id = key ∧ child.path = path ∧ child.Keyed
  | [] => by
      intro _ _ key child h
      cases h
  | (first, e) :: rest => by
      intro hdistinct hnamed key child h
      obtain ⟨hfirst, hrest⟩ := List.forall_mem_cons.mp hdistinct
      rw [placeEntries, entriesNamedByIds, Bool.and_eq_true, Bool.and_eq_true, beq_iff_eq] at hnamed
      obtain ⟨⟨hid, hbelow⟩, hnamed⟩ := hnamed
      rcases List.mem_cons.mp h with h | h
      · cases h
        obtain ⟨facts, ⟨components⟩, ⟨choices⟩, units⟩ := e
        exact ⟨hid.symm, rfl, keyed_placeAt depth path _ hfirst hbelow⟩
      · exact keyed_placeEntries depth path rest hrest hnamed key child h
end

end Entity

namespace Document

/-- Whether all maps of a document have every node under its id. -/
def namedByIds (d : Document) : Bool := Entity.entriesNamedByIds d.specifications.entries

/-- The node is in the document, where its path says, and so are all nodes below it. -/
structure Finds (d : Document) (e : Entity) : Prop where
  found : d.entityAt? e.entityPath = some e
  keyed : e.Keyed

/-- The specifications of a document have been read as a map. -/
theorem readNamed_specifications {ending : Ending} {seen : List String}
    {fields : List (Option String × Reading)} {d d' : Document}
    (h : shape.readNamed ending seen fields d = .ok d') :
    d'.specifications = d.specifications ∨
      ∃ value, Entity.readMap value = .ok d'.specifications := by
  induction fields generalizing seen d with
  | nil =>
      obtain ⟨_, _, h⟩ := ok_of_bind h
      obtain ⟨_, _, h⟩ := ok_of_bind h
      cases h
      exact Or.inl rfl
  | cons field rest ih =>
      obtain ⟨key, value⟩ := field
      cases key with
      | none => cases h
      | some name =>
          rw [RecordShape.readNamed] at h
          split at h
          · split at h
            · cases h
            · obtain ⟨d₁, hread, h⟩ := ok_of_bind h
              rcases ih h with hkeep | hmap
              · rcases shape_read_specifications hread with ⟨_, hmap⟩ | ⟨_, hsame⟩
                · exact Or.inr ⟨value, hkeep ▸ hmap⟩
                · exact Or.inl (hkeep.trans hsame)
              · exact Or.inr hmap
          · obtain ⟨_, _, h⟩ := ok_of_bind h
            exact ih h

/-- A document that has been read has distinct keys, and its nodes know where they are. -/
theorem specifications_ofText {text : String} {d : Document} (h : ofText text = .ok d) :
    ∃ entries : List (String × Entity), (∀ entry ∈ entries, entry.2.Distinct) ∧
      d.specifications.entries = Entity.placeEntries 0 [] entries := by
  obtain ⟨value, h⟩ : ∃ value, ofJson value = .ok d := by
    rw [ofText] at h
    split at h
    · exact ⟨_, h⟩
    · cases h
  rw [ofJson] at h
  split at h
  · cases h
  · split at h
    · split at h
      case _ d₀ hrecord =>
        cases h
        refine ⟨d₀.specifications.entries, ?_, ?_⟩
        · rcases readNamed_specifications hrecord with hnone | ⟨value, hmap⟩
          · rw [hnone]
            exact List.forall_mem_nil _
          · exact ((Entity.readDistinct value).map _ hmap).2
        · exact Entity.map_annotate d₀.specifications.entries
      · cases h
    · cases h

variable {d : Document}

/-- A root that is found under its key is found by its path. -/
theorem finds_root {text : String} (h : ofText text = .ok d) (hkeys : d.namedByIds = true)
    {key : String} {e : Entity} (he : d.root? key = some e) : d.Finds e := by
  obtain ⟨entries, hdistinct, hplaced⟩ := specifications_ofText h
  rw [namedByIds, hplaced] at hkeys
  have hentry : (key, e) ∈ d.specifications.entries := OrderedMap.mem_of_find? he
  rw [hplaced] at hentry
  obtain ⟨hid, hpath, hkeyed⟩ :=
    Entity.keyed_placeEntries 0 [] entries hdistinct hkeys key e hentry
  refine ⟨?_, hkeyed⟩
  rw [Facts.entityPath, hpath, hid]
  simp [entityAt?, he, Entity.descendant?]

/-- One key more leads to a child of what the others lead to. -/
theorem descendant?_append (e : Entity) (path : List String) (key : String) :
    e.descendant? (path ++ [key]) = (e.descendant? path).bind (Entity.child? key) := by
  induction path generalizing e with
  | nil => simp [Entity.descendant?]
  | cons first rest ih =>
      simp only [List.cons_append, Entity.descendant?]
      cases e.child? first with
      | none => rfl
      | some child => exact ih child

/-- One id more on a path leads to a child of what it led to. -/
theorem entityAt?_append {path : List String} (h : path ≠ []) (key : String) :
    d.entityAt? (path ++ [key]) = (d.entityAt? path).bind (Entity.child? key) := by
  cases path with
  | nil => exact absurd rfl h
  | cons root rest =>
      simp only [List.cons_append, entityAt?]
      cases d.root? root with
      | none => rfl
      | some e => exact descendant?_append e rest key

/-- The children of what is found are found. -/
theorem Finds.child {e child : Entity} {key : String} (h : d.Finds e)
    (hchild : e.child? key = some child) : d.Finds child := by
  obtain ⟨hfound, hkeyed⟩ := h
  obtain ⟨_, hnames, hbelow⟩ := hkeyed
  obtain ⟨hid, hpath⟩ := hnames key child hchild
  refine ⟨?_, hbelow key child hchild⟩
  rw [Facts.entityPath, hpath, hid, entityAt?_append (by simp [Facts.entityPath]), hfound]
  exact hchild

/-- What a walk comes to is found. -/
theorem Finds.walk {e : Entity} (h : d.Finds e) (steps : List String) :
    d.Finds (Document.walk e steps).1 := by
  induction steps generalizing e with
  | nil => exact h
  | cons key rest ih =>
      rw [Document.walk]
      split
      case _ child hchild => exact ih (h.child hchild)
      case _ => exact h

/-- A focus leads to a node that is found again by its path. -/
theorem finds_focus {text : String} (h : ofText text = .ok d) (hkeys : d.namedByIds = true)
    {focus : String} {e : Entity} {unresolved : Option String}
    (hfocus : d.focus focus = .found e unresolved) : d.Finds e := by
  rw [Document.focus] at hfocus
  split at hfocus
  · cases hfocus
  case _ root hroot =>
    cases hfocus
    exact (finds_root h hkeys hroot).walk _

end Document

end EntryForm
