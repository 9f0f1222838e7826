import EntryForm.Proofs.Derivation
import EntryForm.Proofs.Ids

/-!
# Which fields a form has

The input fields of an entity can be told from the entity alone: inputs have their path, and
groupings and disjunctions the paths of their components, repeated as often as the bounds fix.
Compiling neither loses nor duplicates one of them, and keeps their order.
-/

namespace EntryForm

namespace Fragment

/-- The paths of the input fields in a row of fragments, in the order of `all`. -/
def inputPaths (fragments : List Fragment) : List String :=
  ((allOf fragments).filter (·.widget.isInput)).map (·.path)

@[simp] theorem inputPaths_nil : inputPaths [] = [] := rfl

theorem inputPaths_append (xs ys : List Fragment) :
    inputPaths (xs ++ ys) = inputPaths xs ++ inputPaths ys := by
  simp [inputPaths, allOf_append]

/-- A fragment has its own path, if it is an input, and those of what is inside it. -/
theorem inputPaths_singleton (f : Fragment) :
    inputPaths [f] = (if f.widget.isInput then [f.path] else []) ++ inputPaths f.children := by
  simp only [inputPaths, allOf, all_eq, List.append_nil, List.filter_cons]
  split <;> rfl

theorem inputPaths_cons (f : Fragment) (rest : List Fragment) :
    inputPaths (f :: rest) = inputPaths [f] ++ inputPaths rest :=
  inputPaths_append [f] rest

/-- An instance comes after everything that was there. -/
theorem inputPaths_addInstance (field : Field) (widget : Widget Fragment)
    (instances : List (Instance Fragment)) (i : Instance Fragment) :
    inputPaths [⟨field, widget, instances ++ [i]⟩] =
      inputPaths [⟨field, widget, instances⟩] ++ inputPaths i.fragments := by
  simp only [inputPaths_singleton, children, List.flatMap_append, List.flatMap_singleton,
    inputPaths_append, List.append_assoc]

/-- A tab more adds the paths of what is in it. -/
theorem inputPaths_addTab (field : Field) (row : List (Tab Fragment)) (tab : Tab Fragment) :
    inputPaths [⟨field, .tabs (row ++ [tab]), []⟩] =
      inputPaths [⟨field, .tabs row, []⟩] ++ inputPaths tab.fragments := by
  simp only [inputPaths_singleton, children, Widget.children, Widget.isInput,
    List.flatMap_append, List.flatMap_singleton, List.flatMap_nil, inputPaths_append,
    List.append_nil, Bool.false_eq_true, if_false, List.nil_append]

end Fragment

namespace Facts

/-- Whether all records that the bounds of a node fix are shown from the start. A grouping that is
not to be wrapped has no field to show them in. -/
def hasSlots (e : Facts) : Bool :=
  match e.kind with
  | .grouping => e.displayLabel? != some noLabel
  | .categorical => false
  | kind => kind.isInput

/-- How many records of a node are shown from the start. -/
def slots (e : Facts) : Nat :=
  match e.minCardinality, e.maxCardinality with
  | some min, some max => if min = max ∧ 1 < min ∧ e.hasSlots then min else 1
  | _, _ => 1

/-- A node without slots is compiled once. -/
theorem slots_of_not_hasSlots {e : Facts} (h : e.hasSlots = false) : e.slots = 1 := by
  rw [slots]
  split <;> simp [h]

/-- Where records are shown from the start, there are as many as the bounds fix. -/
theorem slots_of_hasSlots {e : Facts} (h : e.hasSlots = true) (categorical : Bool) :
    e.slots = ((Cardinality.ofBounds e.minCardinality e.maxCardinality categorical).fixedSlots).getD
      1 := by
  rw [slots, Cardinality.fixedSlots, Cardinality.ofBounds]
  cases e.minCardinality with
  | none => rfl
  | some min =>
      cases e.maxCardinality with
      | none => rfl
      | some max =>
          simp only [h, and_true]
          split <;> rfl

end Facts

/-- There are fixed slots only for more than one record. -/
theorem Cardinality.one_lt_of_fixedSlots {c : Cardinality} {n : Nat}
    (h : c.fixedSlots = some n) : 1 < n := by
  rw [fixedSlots] at h
  split at h
  case _ =>
    split at h
    case isTrue hfixed =>
      cases h
      exact hfixed.2
    case isFalse => cases h
  case _ => cases h

namespace Entity

/-- The paths of one record of a node, given those of its components. -/
def recordPaths (e : Facts) (components : List String) : List String :=
  match e.kind with
  | .grouping => components
  | .disjunction => components
  | .unspecified => []
  | .unrecognized _ => []
  | _ => [e.fieldPath]

mutual
/-- The paths of the input fields of a node, in the order of its components. -/
def fieldPaths : Entity → List String
  | ⟨facts, ⟨components⟩, _, _⟩ =>
    (List.replicate facts.slots (recordPaths facts (fieldPathsOf components))).flatten
/-- The paths of the fields that the nodes of a row are compiled to. -/
def fieldPathsOf : List (String × Entity) → List String
  | [] => []
  | (_, e) :: rest => fieldPaths e ++ fieldPathsOf rest
end

/-- The paths of one record of a node. -/
def bodyPaths (e : Entity) : List String :=
  recordPaths e.toFacts (fieldPathsOf e.components.entries)

/-- The paths of a node are those of its body, once for each slot. -/
theorem fieldPaths_eq (e : Entity) :
    e.fieldPaths = (List.replicate e.slots e.bodyPaths).flatten := by
  obtain ⟨facts, ⟨components⟩, choices, units⟩ := e
  rfl

/-- A node without slots has the paths of its body. -/
theorem fieldPaths_of_not_hasSlots {e : Entity} (h : e.hasSlots = false) :
    e.fieldPaths = e.bodyPaths := by
  simp [fieldPaths_eq, Facts.slots_of_not_hasSlots h]

theorem fieldPaths_of_bodyPaths {e : Entity} (h : e.bodyPaths = []) : e.fieldPaths = [] := by
  simp [fieldPaths_eq, h]

end Entity

namespace Source

/-- The paths that a source yields once nothing is lacking. -/
def fieldPaths : Source → List String
  | .focus (.missing _) => []
  | .focus (.found e _) => e.fieldPaths
  | .node e wrapped => if wrapped then e.fieldPaths else e.bodyPaths
  | .row entries => Entity.fieldPathsOf entries
  | .filling e wrapped _ => if wrapped then e.fieldPaths else e.bodyPaths
  | .branching e _ => Entity.fieldPathsOf e.components.entries

/-- The paths that are still lacking. -/
def lackingPaths : Source → List String
  | .filling e _ numbers => (List.replicate numbers.length e.bodyPaths).flatten
  | .branching _ branches => Entity.fieldPathsOf branches
  | _ => []

end Source

namespace Entity
variable {s : Settings}

open Fragment

/-- A fragment that is to be filled lacks all records but the first. -/
theorem missingRecords_length {e : Facts} {wrapped t : Bool} {id : String}
    {widget : Widget Fragment} (h : isFillable widget = e.hasSlots) :
    (frame s e wrapped t id widget).missingRecords.length + 1 = if wrapped then e.slots else 1 := by
  have hwrapped : (frame s e wrapped t id widget).wrapped = wrapped := rfl
  have hcardinality : (frame s e wrapped t id widget).cardinality =
      Cardinality.ofBounds e.minCardinality e.maxCardinality widget.isSelect := rfl
  have hwidget : (frame s e wrapped t id widget).widget = widget := rfl
  rw [Fragment.missingRecords, hwrapped, hcardinality, hwidget, h]
  cases wrapped with
  | false => rfl
  | true =>
      cases hslots : e.hasSlots with
      | false => simp [Facts.slots_of_not_hasSlots hslots]
      | true =>
          rw [Facts.slots_of_hasSlots hslots widget.isSelect]
          cases hfixed : (Cardinality.ofBounds e.minCardinality e.maxCardinality
              widget.isSelect).fixedSlots with
          | none => rfl
          | some n =>
              have hpos := Cardinality.one_lt_of_fixedSlots hfixed
              simp only [List.length_range', if_true, Option.getD_some]
              omega

/-- What a leaf shows is one record: a field if it is an input, and nothing else. -/
theorem leaf_paths {e : Entity} {id : String} {widget : Widget Fragment}
    (h : e.leaf? s id = some widget) :
    isFillable widget = e.hasSlots ∧ widget.children = [] ∧
      e.bodyPaths = if widget.isInput then [e.fieldPath] else [] := by
  rw [leaf?] at h
  split at h <;> cases h <;> rename_i hkind <;>
    simp [isFillable, Widget.isSelect, Widget.isInput, Widget.isGroup, Widget.children,
      Facts.hasSlots, bodyPaths, recordPaths, Kind.isInput, hkind]

/-- What cannot be shown has no fields. -/
theorem fault_paths {e : Entity} {message : String} (h : e.fault? = some message) :
    e.bodyPaths = [] := by
  rw [fault?] at h
  split at h
  case _ tag hkind => simp only [bodyPaths, recordPaths, hkind]
  case _ hkind =>
    split at h
    case isTrue hempty =>
      have hnone : e.components.entries = [] := by simpa [OrderedMap.isEmpty] using hempty
      simp only [bodyPaths, recordPaths, hkind, hnone, fieldPathsOf]
    case isFalse => cases h
  case _ => cases h

theorem inputPaths_frame (e : Facts) (wrapped t : Bool) (id : String)
    (widget : Widget Fragment) :
    inputPaths [frame s e wrapped t id widget] =
      (if widget.isInput then [e.fieldPath] else []) ++ inputPaths widget.children := by
  rw [inputPaths_singleton]
  simp only [frame, children, List.flatMap_nil, List.append_nil]
  rfl

/-- A frame and the records that it lacks make up the paths of its node. -/
theorem frame_paths {e : Entity} {wrapped t : Bool} {id : String} {widget : Widget Fragment}
    (hslots : isFillable widget = e.hasSlots)
    (hbody : inputPaths [frame s e.toFacts wrapped t id widget] = e.bodyPaths) :
    let f := frame s e.toFacts wrapped t id widget
    inputPaths [f] ++ (Source.filling e wrapped f.missingRecords).lackingPaths =
      (Source.filling e wrapped f.missingRecords).fieldPaths := by
  intro f
  have hlength : f.missingRecords.length + 1 = if wrapped then e.slots else 1 :=
    missingRecords_length hslots
  simp only [Source.lackingPaths, Source.fieldPaths, f, hbody]
  cases wrapped with
  | false =>
      have hnone : (frame s e.toFacts false t id widget).missingRecords = [] := rfl
      simp [hnone]
  | true =>
      simp only [if_true] at hlength ⊢
      rw [fieldPaths_eq, ← hlength, List.replicate_succ, List.flatten_cons]

end Entity

open Fragment Entity in
/-- What a source has yielded and what it lacks are the paths of the source. -/
theorem Derives.inputPaths {s : Settings} {source : Source} {t : Bool} {n m : Nat}
    {fragments : List Fragment} (h : Derives s source t n fragments m) :
    Fragment.inputPaths fragments ++ source.lackingPaths = source.fieldPaths := by
  induction h with
  | missing => rfl
  | found _ ih => exact ih
  | unresolved _ ih =>
      rw [inputPaths_cons, inputPaths_frame]
      exact ih
  | none => rfl
  | more _ _ ih ih' =>
      simp only [Source.lackingPaths, Source.fieldPaths, List.append_nil, if_true] at ih ih' ⊢
      rw [inputPaths_append, ih, ih', fieldPathsOf]
  | @fault e message wrapped t n hfault =>
      have hbody := fault_paths hfault
      rw [inputPaths_frame]
      cases wrapped with
      | false => exact hbody.symm
      | true => exact (fieldPaths_of_bodyPaths hbody).symm
  | @bare e wrapped t n m fs hkind hbare _ ih =>
      have hbody : e.bodyPaths = Fragment.inputPaths fs := by
        simp only [Source.lackingPaths, Source.fieldPaths, List.append_nil] at ih
        simp only [bodyPaths, recordPaths, hkind, ih]
      simp only [Source.lackingPaths, Source.fieldPaths, List.append_nil]
      cases wrapped with
      | false => exact hbody.symm
      | true =>
          rcases hbare with rfl | hwrapped | hlabel
          · exact (fieldPaths_of_bodyPaths hbody).symm
          · cases hwrapped
          · have hslots : e.hasSlots = false := by simp [Facts.hasSlots, hkind, hlabel]
            rw [if_pos rfl, fieldPaths_of_not_hasSlots hslots, hbody]
  | @leaf e widget wrapped t n hleaf =>
      obtain ⟨hslots, hchildren, hbody⟩ := leaf_paths hleaf
      apply frame_paths hslots
      rw [inputPaths_frame, hchildren, hbody, inputPaths_nil, List.append_nil]
  | @group e t n m children hkind _ hlabel _ ih =>
      apply frame_paths
      · simp [isFillable, Widget.isSelect, Widget.isGroup, Facts.hasSlots, hkind, hlabel]
      · simp only [Source.lackingPaths, Source.fieldPaths, List.append_nil] at ih
        simp only [inputPaths_frame, Widget.isInput, Widget.children, ih, bodyPaths, recordPaths,
          hkind, Bool.false_eq_true, if_false, List.nil_append]
  | @record e field widget instances body number numbers wrapped t n m k _ _ ih ihbody =>
      simp only [Source.lackingPaths, Source.fieldPaths, List.append_nil, Bool.false_eq_true,
        if_false] at ihbody
      rw [inputPaths_addInstance, ihbody, List.append_assoc]
      exact ih
  | filled _ ih =>
      simp only [Source.lackingPaths, List.length_nil, List.replicate_zero, List.flatten_nil] at ih
      exact ih
  | @tabSet e t n =>
      rw [tabFrame, inputPaths_singleton]
      rfl
  | @tab e branch key branches field row fs t n m k _ _ ih ihbranch =>
      simp only [Source.lackingPaths, Source.fieldPaths, List.append_nil, if_true] at ihbranch
      rw [inputPaths_addTab, List.append_assoc, tabOf, ihbranch]
      exact ih
  | @tabbed e wrapped t n m fs hkind _ _ ih =>
      have hslots : e.hasSlots = false := by simp [Facts.hasSlots, hkind, Kind.isInput]
      have hbody : e.bodyPaths = Fragment.inputPaths fs := by
        simp only [Source.lackingPaths, Source.fieldPaths, fieldPathsOf, List.append_nil] at ih
        simp only [bodyPaths, recordPaths, hkind, ih]
      simp only [Source.lackingPaths, Source.fieldPaths, List.append_nil,
        fieldPaths_of_not_hasSlots hslots, hbody, ite_self]

namespace Entity

/-- Compiling an entity yields an input field for each of its paths, in their order. -/
theorem inputPaths_compile (s : Settings) (e : Entity) (p : Pass) :
    Fragment.inputPaths ((compile s e).run p).1 = e.fieldPaths := by
  have hpaths := (compile_derives s e p _ rfl).2.inputPaths
  simpa [Source.lackingPaths, Source.fieldPaths] using hpaths

end Entity

end EntryForm
