import EntryForm.Proofs.FieldPaths
import EntryForm.Proofs.Keys
import EntryForm.Proofs.Repetition

/-!
# Which nodes lie inside which

The field of a node lies inside the fields of the nodes above it, except that a grouping which is
not to be wrapped has none. What lies around a node decides whether its values form a list and
whether it can be shown more than once.
-/

namespace EntryForm

namespace Facts

/-- What the bounds of a node mean for its field. -/
def cardinality (e : Facts) : Cardinality :=
  Cardinality.ofBounds e.minCardinality e.maxCardinality (e.kind == .categorical)

/-- Whether the values of a node and of the nodes inside it form lists. -/
def makesList (e : Facts) : Bool := e.cardinality.arrayLike && e.kind != .categorical

/-- Whether a node has a minimum of zero and no maximum. -/
def isOpen (e : Facts) : Bool := e.minCardinality == some 0 && e.maxCardinality.isNone

end Facts

namespace Entity

/-- Whether a node is shown as a tab set. -/
def hasTabs (e : Entity) : Bool := e.kind == .disjunction && !e.components.isEmpty

/-- Whether the field of a node can have more records than the first. A tab set has none. -/
def takesRecords (e : Entity) : Bool :=
  (!e.hasTabs && e.cardinality.repeatable) || decide (1 < e.slots)

/-- The nodes right below a node whose fields lie inside its own. -/
def nested (e : Entity) : List (String × Entity) :=
  match e.kind with
  | .grouping => e.components.entries
  | .disjunction => e.components.entries
  | _ => []

/-- The node, if it has a field for what lies inside it. -/
def container (e : Entity) : List Entity :=
  if e.kind = .grouping ∧ e.displayLabel? = some Facts.noLabel then [] else [e]

/-- How a node lies inside another, with the nodes that have a field on the way. The way ends at
the inner node and leaves the outer one out. -/
inductive Reaches : Entity → List Entity → Entity → Prop
  | self (e : Entity) : Reaches e [] e
  | inside {e child x : Entity} {key : String} {way : List Entity} :
      (key, child) ∈ e.nested → Reaches child way x → Reaches e (child.container ++ way) x

theorem nested_eq (e : Entity) : e.nested = e.components.entries ∨ e.nested = [] := by
  rw [nested]
  split
  · exact Or.inl rfl
  · exact Or.inl rfl
  · exact Or.inr rfl

theorem nested_of_grouping {e : Entity} (h : e.kind = .grouping) :
    e.nested = e.components.entries := by
  simp only [nested, h]

theorem nested_of_hasTabs {e : Entity} (h : e.hasTabs = true) :
    e.nested = e.components.entries := by
  simp only [hasTabs, Bool.and_eq_true, beq_iff_eq] at h
  simp only [nested, h.1]

theorem nested_of_isInput {e : Entity} (h : e.kind.isInput = true) : e.nested = [] := by
  rw [nested]
  split
  case _ hkind => rw [hkind] at h; cases h
  case _ hkind => rw [hkind] at h; cases h
  case _ => rfl

theorem container_of_isInput {e : Entity} (h : e.kind.isInput = true) : e.container = [e] := by
  rw [container, if_neg]
  rintro ⟨hkind, _⟩
  rw [hkind] at h
  cases h

/-- Bounds that leave room for more instances make a list, unless they are zero and none. -/
theorem makesList_of_repeatable {e : Facts} (h : e.cardinality.repeatable = true)
    (hopen : e.isOpen = false) : e.makesList = true := by
  simp only [Facts.cardinality, Cardinality.ofBounds, Bool.and_eq_true] at h
  obtain ⟨⟨hconstrained, hkind⟩, hroom⟩ := h
  have harray : Cardinality.isArrayLike e.minCardinality e.maxCardinality = true := by
    cases hmax : e.maxCardinality with
    | some max =>
        have hlt := RepeatState.start_room hroom max hmax
        simp [Cardinality.isArrayLike, hlt]
    | none =>
        cases hmin : e.minCardinality with
        | none => simp [hmin, hmax] at hconstrained
        | some min =>
            have hne : min ≠ 0 := by
              rintro rfl
              simp [Facts.isOpen, hmin, hmax] at hopen
            simp [Cardinality.isArrayLike, Nat.pos_of_ne_zero hne]
  simpa [Facts.makesList, Facts.cardinality, Cardinality.ofBounds, harray] using hkind

theorem makesList_of_slots {e : Facts} (h : 1 < e.slots) : e.makesList = true := by
  have hslots : e.hasSlots = true := by
    cases hslots : e.hasSlots with
    | true => rfl
    | false => simp [Facts.slots_of_not_hasSlots hslots] at h
  have hkind : e.kind ≠ .categorical := by
    intro hkind
    simp [Facts.hasSlots, hkind] at hslots
  rw [Facts.slots] at h
  split at h
  case _ min max hmin hmax =>
    split at h
    case isTrue hfixed =>
      have hmax' : 1 < max := hfixed.1 ▸ hfixed.2.1
      simp [Facts.makesList, Facts.cardinality, Cardinality.ofBounds, Cardinality.isArrayLike,
        hmax, hmax', hkind]
    case isFalse => omega
  case _ => omega

/-- A node that can have more records than the first has a list of values, unless its bounds are
zero and none. -/
theorem makesList_of_takesRecords {e : Entity} (h : e.takesRecords = true)
    (hopen : e.hasTabs = true ∨ e.isOpen = false) : e.makesList = true := by
  rw [takesRecords, Bool.or_eq_true, Bool.and_eq_true, decide_eq_true_eq] at h
  rcases h with ⟨htabs, hrepeatable⟩ | hslots
  · apply makesList_of_repeatable hrepeatable
    exact hopen.resolve_left (by simpa using htabs)
  · exact makesList_of_slots hslots

/-- What is reached from a node that is reached is reached, on both ways. -/
theorem Reaches.trans {e x y : Entity} {way way' : List Entity} (h : e.Reaches way x)
    (h' : x.Reaches way' y) : e.Reaches (way ++ way') y := by
  induction h with
  | self => exact h'
  | inside hmem _ ih =>
      rw [List.append_assoc]
      exact .inside hmem (ih h')

/-- The way ends at the inner node. -/
theorem Reaches.eq_or_subset {e x : Entity} {way : List Entity} (h : e.Reaches way x) :
    (x = e ∧ way = []) ∨ x.container ⊆ way := by
  induction h with
  | self => exact Or.inl ⟨rfl, rfl⟩
  | inside _ _ ih =>
      rcases ih with ⟨rfl, rfl⟩ | hsub
      · exact Or.inr (List.subset_append_left _ _)
      · exact Or.inr (List.Subset.trans hsub (List.subset_append_right _ _))

theorem Keyed.keys {e : Entity} (h : e.Keyed) : e.components.keys.Nodup := by
  obtain ⟨hkeys, _, _⟩ := h
  exact hkeys

/-- A component of a keyed node is its child, has its key on the path and is keyed itself. -/
theorem Keyed.component {e : Entity} (h : e.Keyed) {entry : String × Entity}
    (hmem : entry ∈ e.components.entries) :
    e.child? entry.1 = some entry.2 ∧ entry.2.entityPath = e.entityPath ++ [entry.1] ∧
      entry.2.Keyed := by
  have hchild := h.child?_of_mem hmem
  obtain ⟨_, hnames, hbelow⟩ := h
  obtain ⟨hid, hpath⟩ := hnames _ _ hchild
  refine ⟨hchild, ?_, hbelow _ _ hchild⟩
  rw [Facts.entityPath, hpath, hid]

theorem Keyed.nested {e child : Entity} {key : String} (h : e.Keyed)
    (hmem : (key, child) ∈ e.nested) :
    e.child? key = some child ∧ child.entityPath = e.entityPath ++ [key] ∧ child.Keyed := by
  rcases e.nested_eq with hnested | hnested
  · exact h.component (hnested ▸ hmem)
  · rw [hnested] at hmem
    cases hmem

/-- The path of a node begins with that of every node it is reached from. -/
theorem Reaches.entityPath_prefix {e x : Entity} {way : List Entity} (h : e.Reaches way x)
    (hkeyed : e.Keyed) : e.entityPath <+: x.entityPath := by
  induction h with
  | self => exact List.prefix_refl _
  | @inside e child x key way hmem _ ih =>
      obtain ⟨_, hpath, hbelow⟩ := hkeyed.nested hmem
      have hchild := ih hbelow
      rw [hpath] at hchild
      exact (List.prefix_append _ _).trans hchild

/-- Below a node no path of ids leads to two nodes, nor on two ways to one, since a node right below
has a longer path than the node itself. -/
theorem Reaches.unique {e x y : Entity} {way way' : List Entity} (h : e.Reaches way x)
    (h' : e.Reaches way' y) (hkeyed : e.Keyed) (hpath : x.entityPath = y.entityPath) :
    x = y ∧ way = way' := by
  have hbelow {e child z : Entity} {key : String} {way : List Entity} (hkeyed : e.Keyed)
      (hmem : (key, child) ∈ e.nested) (h : child.Reaches way z) :
      e.entityPath ++ [key] <+: z.entityPath := by
    obtain ⟨_, hchild, hkeyed'⟩ := hkeyed.nested hmem
    exact hchild ▸ h.entityPath_prefix hkeyed'
  have hlong {e z : Entity} {key : String} (h : e.entityPath ++ [key] <+: z.entityPath)
      (hz : z.entityPath = e.entityPath) : False := by
    have hlength := h.length_le
    rw [hz, List.length_append, List.length_singleton] at hlength
    omega
  induction h generalizing way' with
  | self e =>
      cases h' with
      | self => exact ⟨rfl, rfl⟩
      | inside hmem h' => exact (hlong (hbelow hkeyed hmem h') hpath.symm).elim
  | @inside e child x key way hmem h ih =>
      have hx := hbelow hkeyed hmem h
      cases h' with
      | self => exact (hlong hx hpath).elim
      | @inside _ child' _ key' way'' hmem' h' =>
          have hy := hbelow hkeyed hmem' h'
          rw [← hpath] at hy
          have hkey : key = key' := by
            have heq := (List.prefix_of_prefix_length_le hx hy (by simp)).eq_of_length (by simp)
            simpa using heq
          subst hkey
          obtain ⟨hchild, _, hkeyed'⟩ := hkeyed.nested hmem
          obtain ⟨hchild', _, _⟩ := hkeyed.nested hmem'
          cases hchild.symm.trans hchild'
          obtain ⟨hsame, hway⟩ := ih h' hkeyed' hpath
          exact ⟨hsame, congrArg (child.container ++ ·) hway⟩

end Entity

/-- What is reached from a node that a document finds is found, too. -/
theorem Document.Finds.reaches {d : Document} {e x : Entity} {way : List Entity} (h : d.Finds e)
    (hreaches : e.Reaches way x) : d.Finds x := by
  induction hreaches with
  | self => exact h
  | inside hmem _ ih => exact ih (h.child (h.keyed.nested hmem).1)

/-- The nodes of a document are told by their paths of ids. -/
theorem Document.Finds.eq {d : Document} {x y : Entity} (h : d.Finds x) (h' : d.Finds y)
    (hpath : x.entityPath = y.entityPath) : x = y := by
  have hfound := h.found
  rw [hpath, h'.found] at hfound
  exact (Option.some.inj hfound).symm

end EntryForm
