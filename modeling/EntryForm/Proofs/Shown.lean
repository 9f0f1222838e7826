import EntryForm.Proofs.Nesting

/-!
# What a form shows

Whatever has been added to a form or removed from it, its fragments are still the fields of nodes
of the specification: inside the field of a node are the fields of the nodes inside it, and every
record of a node holds a body of that node. `Shows` says so without ids, counts and values.
-/

namespace EntryForm

/-- What of a field comes from its node alone. -/
def Field.fixed (f : Field) : Field :=
  { f with value := none, collapsed := false, repetition := none }

/-- Widgets that are alike as to whether they hold a value, a choice or a group. -/
structure Widget.Alike {φ ψ : Type} (w : Widget φ) (w' : Widget ψ) : Prop where
  input : w.isInput = w'.isInput
  select : w.isSelect = w'.isSelect
  group : w.isGroup = w'.isGroup

namespace Fragment

/-- What a fragment has from its node. A notice is shown in place of the field of a node. -/
structure Fits (f : Fragment) (e : Entity) (own : Bool) : Prop where
  entityId : f.entityId = e.id
  entityPath : f.entityPath = e.entityPath
  path : f.path = e.fieldPath
  depth : f.depth = e.depth
  cardinality :
    f.cardinality = Cardinality.ofBounds e.minCardinality e.maxCardinality f.widget.isSelect
  input : own = true → f.widget.isInput = e.kind.isInput
  select : own = true → f.widget.isSelect = (e.kind == .categorical)
  group : own = true → f.widget.isGroup = (e.kind == .grouping)
  label : own = true → e.kind = .grouping → e.displayLabel? ≠ some Facts.noLabel
  repeated : f.repetition ≠ none →
    f.cardinality.repeatable = true ∧ (own = true → e.hasTabs = false)
  records : f.instances ≠ [] → f.repetition ≠ none ∨ 1 < e.slots

/-- A fragment still fits its node if it takes records like before and its widget stays alike. -/
theorem Fits.of_alike {f g : Fragment} {e : Entity} {own : Bool} (h : f.Fits e own)
    (hfixed : g.toField.fixed = f.toField.fixed)
    (hrepetition : g.repetition = none ↔ f.repetition = none) (hwidget : g.widget.Alike f.widget)
    (hrecords : g.instances ≠ [] → f.instances ≠ [] ∨ f.repetition ≠ none ∨ 1 < e.slots) :
    g.Fits e own := by
  have hcardinality : g.cardinality = f.cardinality :=
    (congrArg Field.cardinality hfixed :)
  constructor
  · exact (congrArg Field.entityId hfixed :).trans h.entityId
  · exact (congrArg Field.entityPath hfixed :).trans h.entityPath
  · exact (congrArg Field.path hfixed :).trans h.path
  · exact (congrArg Field.depth hfixed :).trans h.depth
  · rw [hcardinality, hwidget.select]
    exact h.cardinality
  · rw [hwidget.input]
    exact h.input
  · rw [hwidget.select]
    exact h.select
  · rw [hwidget.group]
    exact h.group
  · exact h.label
  · rw [hcardinality, ne_eq, hrepetition]
    exact h.repeated
  · intro hinstances
    rw [ne_eq, hrepetition]
    rcases hrecords hinstances with hinstances | hrest
    · exact h.records hinstances
    · exact hrest

end Fragment

/-- What is shown: a row of nodes, a node with label and container or without, or the field of a
node, which may be its own or a notice. -/
inductive Subject
  | row (entries : List (String × Entity))
  | node (e : Entity) (wrapped : Bool)
  | field (e : Entity) (own : Bool)

/-- Which fragments show a subject. -/
inductive Shows : Subject → List Fragment → Prop
  | none : Shows (.row []) []
  | more {key : String} {e : Entity} {rest : List (String × Entity)} {fs gs : List Fragment} :
      Shows (.node e true) fs → Shows (.row rest) gs → Shows (.row ((key, e) :: rest)) (fs ++ gs)
  | bare {e : Entity} {wrapped : Bool} {fs : List Fragment} :
      e.kind = .grouping → fs = [] ∨ wrapped = false ∨ e.displayLabel? = some Facts.noLabel →
        Shows (.row e.components.entries) fs → Shows (.node e wrapped) fs
  | own {e : Entity} {wrapped : Bool} {f : Fragment} :
      (e.kind = .grouping → wrapped = true) → Shows (.field e true) [f] →
        Shows (.node e wrapped) [f]
  | field {e : Entity} {own : Bool} {f : Fragment} :
      f.Fits e own → Shows (.row (if own then e.nested else [])) f.widget.children →
        (∀ i ∈ f.instances, Shows (.node e false) i.fragments) → Shows (.field e own) [f]

/-- The nodes that a subject shows, each with the nodes that have a field around it, itself last. -/
def Subject.Reaches : Subject → List Entity → Entity → Prop
  | .row entries, way, x =>
    ∃ entry ∈ entries, ∃ rest, entry.2.Reaches rest x ∧ way = entry.2.container ++ rest
  | .node e wrapped, way, x =>
    ∃ rest, e.Reaches rest x ∧ way = (if wrapped then e.container else []) ++ rest
  | .field e _, way, x => ∃ rest, e.Reaches rest x ∧ way = e :: rest

/-- Whether a subject is no notice. -/
def Subject.isOwn : Subject → Bool
  | .field _ own => own
  | _ => true

/-- Which fragments show where a focus leads. If it leads nowhere from some node on, there is a
notice before the field of that node. -/
def Focus.Shown : Focus → List Fragment → Prop
  | .missing _, fs => fs = []
  | .found e none, fs => Shows (.node e true) fs
  | .found e (some _), fs =>
    ∃ notice rest, fs = notice :: rest ∧ Shows (.field e false) [notice] ∧
      Shows (.node e true) rest

/-- The nodes that are shown under a focus, each with the nodes that have a field around it. -/
def Focus.Displays : Focus → List Entity → Entity → Prop
  | .missing _, _, _ => False
  | .found e _, way, x => (Subject.node e true).Reaches way x

/-- What a source has yielded so far shows what has been compiled so far. -/
def Source.Shown : Source → List Fragment → Prop
  | .focus place, fs => place.Shown fs
  | .row entries, fs => Shows (.row entries) fs
  | .node e wrapped, fs => Shows (.node e wrapped) fs
  | .filling e wrapped numbers, fs =>
    (numbers ≠ [] → 1 < e.slots) ∧ (e.kind = .grouping → wrapped = true) ∧
      Shows (.field e true) fs
  | .branching e branches, fs =>
    e.kind = .disjunction → ∃ done f, fs = [f] ∧ e.components.entries = done ++ branches ∧
      f.Fits e true ∧ f.instances = [] ∧ Shows (.row done) f.widget.children

/-- A fragment that shows a node fits it. -/
theorem Shows.fits {e : Entity} {own : Bool} {f : Fragment} (h : Shows (.field e own) [f]) :
    f.Fits e own := by
  cases h with
  | field hfits _ _ => exact hfits

/-- Two rows of nodes are shown one after the other. -/
theorem Shows.append {xs ys : List (String × Entity)} {fs gs : List Fragment}
    (h : Shows (.row xs) fs) (h' : Shows (.row ys) gs) : Shows (.row (xs ++ ys)) (fs ++ gs) := by
  generalize hsubject : Subject.row xs = subject at h
  induction h generalizing xs with
  | none =>
      cases hsubject
      exact h'
  | more hfirst _ _ ih =>
      cases hsubject
      rw [List.append_assoc]
      exact .more hfirst (ih rfl)
  | bare => cases hsubject
  | own => cases hsubject
  | field => cases hsubject

theorem Shows.singleton {key : String} {e : Entity} {fs : List Fragment}
    (h : Shows (.node e true) fs) : Shows (.row [(key, e)]) fs := by
  rw [← List.append_nil fs]
  exact .more h .none

theorem Entity.reaches_of_nested {e x : Entity} {way : List Entity}
    (h : (Subject.row e.nested).Reaches way x) : e.Reaches way x := by
  obtain ⟨entry, hmem, rest, hrest, rfl⟩ := h
  exact .inside hmem hrest

theorem Entity.container_of_fits {f : Fragment} {e : Entity} (h : f.Fits e true) :
    e.container = [e] := by
  rw [container, if_neg]
  rintro ⟨hkind, hlabel⟩
  exact h.label rfl hkind hlabel

open Fragment in
/-- Every fragment is the field of a node that is shown, or a notice in place of one. -/
theorem Shows.mem {subject : Subject} {fs : List Fragment} (h : Shows subject fs) {f : Fragment}
    (hf : f ∈ allOf fs) :
    ∃ way x own, subject.Reaches way x ∧ Shows (.field x own) [f] ∧
      (subject.isOwn = true → own = true) := by
  induction h with
  | none => cases hf
  | @more key e rest fs gs _ _ ih ih' =>
      rw [allOf_append] at hf
      rcases List.mem_append.mp hf with hf | hf
      · obtain ⟨way, x, own, ⟨rest, hrest, hway⟩, hfield, hown⟩ := ih hf
        exact ⟨way, x, own, ⟨(key, e), List.mem_cons_self, rest, hrest, hway⟩, hfield, hown⟩
      · obtain ⟨way, x, own, ⟨entry, hmem, hrest⟩, hfield, hown⟩ := ih' hf
        exact ⟨way, x, own, ⟨entry, List.mem_cons_of_mem _ hmem, hrest⟩, hfield, hown⟩
  | @bare e wrapped fs hkind _ _ ih =>
      obtain ⟨way, x, own, hreaches, hfield, hown⟩ := ih hf
      rw [← Entity.nested_of_grouping hkind] at hreaches
      exact ⟨_, x, own, ⟨way, Entity.reaches_of_nested hreaches, rfl⟩, hfield, hown⟩
  | own _ _ ih =>
      obtain ⟨way, x, own, ⟨rest, hrest, _⟩, hfield, hown⟩ := ih hf
      exact ⟨_, x, own, ⟨rest, hrest, rfl⟩, hfield, hown⟩
  | @field e own f' hfits hwidget hinstances ih ihinstances =>
      rcases mem_allOf_singleton.mp hf with rfl | hf
      · exact ⟨[e], e, own, ⟨[], .self e, rfl⟩, .field hfits hwidget hinstances, id⟩
      rcases mem_allOf_children.mp hf with hf | ⟨i, hi, hf⟩
      · obtain ⟨way, x, own', hreaches, hfield, hown⟩ := ih hf
        cases own with
        | true => exact ⟨_, x, own', ⟨way, Entity.reaches_of_nested hreaches, rfl⟩, hfield, hown⟩
        | false =>
            obtain ⟨entry, hmem, _⟩ := hreaches
            cases hmem
      · obtain ⟨way, x, own', ⟨rest, hrest, _⟩, hfield, hown⟩ := ihinstances i hi hf
        exact ⟨_, x, own', ⟨rest, hrest, rfl⟩, hfield, fun _ => hown rfl⟩

open Fragment in
/-- Every fragment that is shown shows a node that the focus displays. -/
theorem Focus.Shown.mem {place : Focus} {fs : List Fragment} (h : place.Shown fs) {f : Fragment}
    (hf : f ∈ allOf fs) : ∃ way x own, place.Displays way x ∧ Shows (.field x own) [f] := by
  match place with
  | .missing _ =>
      obtain rfl : fs = [] := h
      cases hf
  | .found e none =>
      obtain ⟨way, x, own, hreaches, hfield, _⟩ := Shows.mem h hf
      exact ⟨way, x, own, hreaches, hfield⟩
  | .found e (some _) =>
      obtain ⟨notice, rest, rfl, hnotice, hrest⟩ := h
      rw [← List.singleton_append, allOf_append] at hf
      rcases List.mem_append.mp hf with hf | hf
      · obtain ⟨_, x, own, ⟨rest, hreaches, _⟩, hfield, _⟩ := hnotice.mem hf
        exact ⟨_, x, own, ⟨rest, hreaches, rfl⟩, hfield⟩
      · obtain ⟨way, x, own, hreaches, hfield, _⟩ := hrest.mem hf
        exact ⟨way, x, own, hreaches, hfield⟩

namespace Entity
variable {s : Settings}

/-- A fragment that was just made has everything from its node. -/
theorem fits_frame {e : Entity} {own wrapped t : Bool} {id : String} {widget : Widget Fragment}
    (hinput : own = true → widget.isInput = e.kind.isInput)
    (hselect : own = true → widget.isSelect = (e.kind == .categorical))
    (hgroup : own = true → widget.isGroup = (e.kind == .grouping))
    (hlabel : own = true → e.kind = .grouping → e.displayLabel? ≠ some Facts.noLabel)
    (htabs : own = true → e.hasTabs = false) :
    (frame s e.toFacts wrapped t id widget).Fits e own where
  entityId := rfl
  entityPath := rfl
  path := rfl
  depth := rfl
  cardinality := rfl
  input := hinput
  select := hselect
  group := hgroup
  label := hlabel
  repeated := by
    intro hrepetition
    refine ⟨?_, htabs⟩
    change (field s e.toFacts wrapped t id widget).repetition ≠ Option.none at hrepetition
    rw [field_repetition] at hrepetition
    split at hrepetition
    case isTrue h =>
      rw [Bool.and_eq_true] at h
      exact h.2
    case isFalse => exact absurd rfl hrepetition
  records := fun h => absurd rfl h

/-- The notice that an entity is at fault stands for it like a field. -/
theorem shows_fault {e : Entity} {message : String} (h : e.fault? = some message)
    {wrapped t : Bool} {id text : String} :
    Shows (.node e wrapped) [frame s e.toFacts true t id (.diagnostic text)] := by
  have hcases : (∃ tag, e.kind = .unrecognized tag) ∨
      (e.kind = .disjunction ∧ e.components.isEmpty = true) := by
    rw [fault?] at h
    split at h
    case _ tag hkind => exact Or.inl ⟨tag, hkind⟩
    case _ hkind =>
      split at h
      case isTrue hempty => exact Or.inr ⟨hkind, hempty⟩
      case isFalse => cases h
    case _ => cases h
  have hnested : e.nested = [] := by
    rcases hcases with ⟨tag, hkind⟩ | ⟨hkind, hempty⟩
    · simp only [nested, hkind]
    · simpa [nested, hkind, OrderedMap.isEmpty] using hempty
  refine .own ?_ (.field (fits_frame ?_ ?_ ?_ ?_ ?_) ?_ (fun i hi => absurd hi List.not_mem_nil))
  · rcases hcases with ⟨tag, hkind⟩ | ⟨hkind, _⟩ <;> simp [hkind]
  · rcases hcases with ⟨tag, hkind⟩ | ⟨hkind, _⟩ <;> simp [hkind, Widget.isInput, Kind.isInput]
  · rcases hcases with ⟨tag, hkind⟩ | ⟨hkind, _⟩ <;> simp [hkind, Widget.isSelect]
  · rcases hcases with ⟨tag, hkind⟩ | ⟨hkind, _⟩ <;> simp [hkind, Widget.isGroup]
  · rcases hcases with ⟨tag, hkind⟩ | ⟨hkind, _⟩ <;> simp [hkind]
  · rcases hcases with ⟨tag, hkind⟩ | ⟨hkind, hempty⟩ <;> simp [hasTabs, *]
  · rw [if_pos rfl, hnested]
    exact .none

/-- The kind of a leaf is told by its widget. -/
theorem leaf_kind {e : Entity} {id : String} {widget : Widget Fragment}
    (h : e.leaf? s id = some widget) :
    widget.isInput = e.kind.isInput ∧ widget.isSelect = (e.kind == .categorical) ∧
      widget.isGroup = false ∧ e.kind ≠ .grouping ∧ e.kind ≠ .disjunction := by
  rw [leaf?] at h
  split at h <;> cases h <;> rename_i hkind <;>
    simp [Widget.isSelect, Widget.isInput, Widget.isGroup, Kind.isInput, hkind]

/-- An input shows its node. -/
theorem shows_leaf {e : Entity} {id : String} {widget : Widget Fragment} {wrapped t : Bool}
    (h : e.leaf? s id = some widget) :
    Shows (.field e true) [frame s e.toFacts wrapped t id widget] := by
  obtain ⟨hinput, hselect, hgroup, hgrouping, hdisjunction⟩ := leaf_kind h
  have hnested : e.nested = [] := by
    rw [nested]
    split
    · contradiction
    · contradiction
    · rfl
  refine .field (fits_frame (fun _ => hinput) (fun _ => hselect) (fun _ => ?_) ?_ ?_) ?_
    (fun i hi => absurd hi List.not_mem_nil)
  · simp [hgroup, hgrouping]
  · intro _ hkind
    contradiction
  · simp [hasTabs, hdisjunction]
  · have hchildren : (frame s e.toFacts wrapped t id widget).widget.children = [] := (leaf_ids h).1
    rw [if_pos rfl, hnested, hchildren]
    exact .none

/-- Records are lacking only where the bounds fix more than one. -/
theorem slots_of_missingRecords {e : Facts} {wrapped t : Bool} {id : String}
    {widget : Widget Fragment} (h : isFillable widget = e.hasSlots)
    (hmissing : (frame s e wrapped t id widget).missingRecords ≠ []) : 1 < e.slots := by
  have hlength : (frame s e wrapped t id widget).missingRecords.length + 1 =
      if wrapped then e.slots else 1 := missingRecords_length h
  have hpos := List.length_pos_iff.mpr hmissing
  cases wrapped with
  | true =>
      rw [if_pos rfl] at hlength
      omega
  | false =>
      rw [if_neg Bool.false_ne_true] at hlength
      omega

/-- A tab set before it has tabs. -/
theorem fits_tabFrame {e : Entity} {t : Bool} {id : String} (h : e.kind = .disjunction) :
    (tabFrame s e.toFacts t id).Fits e true where
  entityId := rfl
  entityPath := rfl
  path := rfl
  depth := rfl
  cardinality := rfl
  input := fun _ => by rw [h]; rfl
  select := fun _ => by rw [h]; rfl
  group := fun _ => by rw [h]; rfl
  label := fun _ hkind => by rw [h] at hkind; cases hkind
  repeated := fun hrepetition => absurd rfl hrepetition
  records := fun hrecords => absurd rfl hrecords

end Entity

open Entity in
/-- What is derived from a source shows it. -/
theorem Derives.shown {s : Settings} {source : Source} {t : Bool} {n m : Nat}
    {fragments : List Fragment} (h : Derives s source t n fragments m) :
    source.Shown fragments := by
  induction h with
  | missing => exact rfl
  | found _ ih => exact ih
  | unresolved _ ih =>
      refine ⟨_, _, rfl, ?_, ih⟩
      refine .field ?_ ?_ fun i hi => absurd hi List.not_mem_nil
      · apply fits_frame <;> exact fun hown => absurd hown Bool.false_ne_true
      · exact .none
  | none => exact .none
  | more _ _ ih ih' => exact .more ih ih'
  | fault hfault => exact shows_fault hfault
  | bare hkind hbare _ ih => exact .bare hkind hbare ih
  | leaf hleaf =>
      refine ⟨slots_of_missingRecords (leaf_paths hleaf).1, ?_, shows_leaf hleaf⟩
      exact fun hkind => absurd hkind (leaf_kind hleaf).2.2.2.1
  | @group e t n m children hkind _ hlabel _ ih =>
      have hslots : isFillable (Widget.group children) = e.hasSlots := by
        simp [isFillable, Widget.isSelect, Widget.isGroup, Facts.hasSlots, hkind, hlabel]
      refine ⟨slots_of_missingRecords hslots, fun _ => rfl, ?_⟩
      refine .field (fits_frame ?_ ?_ ?_ ?_ ?_) ?_ fun i hi => absurd hi List.not_mem_nil
      · simp [hkind, Widget.isInput, Kind.isInput]
      · simp [hkind, Widget.isSelect]
      · simp [hkind, Widget.isGroup]
      · exact fun _ _ => hlabel
      · simp [hasTabs, hkind]
      · rw [if_pos rfl, nested_of_grouping hkind]
        exact ih
  | @record e field widget instances body number numbers wrapped t n m k _ _ ih ihbody =>
      obtain ⟨hslots, hwrapped, hfield⟩ := ih
      have hmany := hslots (List.cons_ne_nil number numbers)
      cases hfield with
      | field hfits hwidget hinstances =>
          refine ⟨fun _ => hmany, hwrapped, .field ?_ hwidget ?_⟩
          · exact hfits.of_alike rfl Iff.rfl ⟨rfl, rfl, rfl⟩ fun _ => Or.inr (Or.inr hmany)
          intro i hi
          rcases List.mem_append.mp hi with hi | hi
          · exact hinstances i hi
          · rw [List.mem_singleton.mp hi]
            exact ihbody
  | @filled e wrapped t n m fs _ ih =>
      obtain ⟨_, hwrapped, hfield⟩ := ih
      cases hfield with
      | field hfits hwidget hinstances =>
          exact .own hwrapped (.field hfits hwidget hinstances)
  | tabSet =>
      intro hkind
      exact ⟨[], _, rfl, rfl, fits_tabFrame hkind, rfl, .none⟩
  | @tab e branch key branches field row fs t n m k _ _ ih ihbranch =>
      intro hkind
      obtain ⟨done, f, hf, hdone, hfits, _, hrow⟩ := ih hkind
      cases hf
      refine ⟨done ++ [(key, branch)], _, rfl, ?_, ?_, rfl, ?_⟩
      · rw [hdone, List.append_assoc, List.singleton_append]
      · exact hfits.of_alike rfl Iff.rfl ⟨rfl, rfl, rfl⟩ fun h => absurd rfl h
      · simp only [Widget.children, List.flatMap_append, List.flatMap_singleton]
        exact hrow.append ihbranch.singleton
  | @tabbed e wrapped t n m fs hkind htabs _ ih =>
      obtain ⟨done, f, rfl, hdone, hfits, hinstances, hrow⟩ := ih hkind
      refine .own (fun hgrouping => ?_) (.field hfits ?_ ?_)
      · rw [hkind] at hgrouping
        cases hgrouping
      · have htabs' : e.hasTabs = true := by simp [hasTabs, hkind, htabs]
        rw [if_pos rfl, nested_of_hasTabs htabs', hdone, List.append_nil]
        exact hrow
      · rw [hinstances]
        exact List.forall_mem_nil _

end EntryForm
