import EntryForm.Proofs.FocusPaths

/-!
# Where the nodes of a specification are

A specification is annotated from its root down: every node below is told how deep it is, and the
ids of the nodes above it. Whatever the nodes have been told before, afterwards the place of each
follows from the one above it, and nothing else of them has changed. A node is named by its address
among the components, choices and units below the root.
-/

namespace EntryForm

namespace Entity

/-- The nodes right below a node, each with how it hangs there. -/
def daughters (e : Entity) : List (Place × Entity) :=
  e.components.entries.map (fun entry => (.component entry.1, entry.2)) ++
    (e.choices.entries.map (fun entry => (.choice entry.1, entry.2)) ++
      e.units.zipIdx.map fun unit => (.unit unit.2, unit.1))

/-- The node at an address, which tells step by step which of the nodes right below is next. -/
def nodeAt? : List Nat → Entity → Option Entity
  | [], e => some e
  | i :: address, e => e.daughters[i]?.bind fun child => nodeAt? address child.2

/-- What a node says but for where it is, and how the nodes right below hang on it. -/
def unplaced (e : Entity) : Facts × List Place :=
  ({ e.toFacts with depth := 0, path := [] }, e.daughters.map Prod.fst)

section placing
variable (depth : Nat) (path : List String)

theorem placeEntries_eq_map (entries : List (String × Entity)) :
    placeEntries depth path entries =
      entries.map fun entry => (entry.1, entry.2.placeAt depth path) := by
  induction entries with
  | nil => rfl
  | cons entry rest ih => rw [placeEntries, ih, List.map_cons]

theorem placeAll_eq_map (units : List Entity) :
    placeAll depth path units = units.map (placeAt depth path) := by
  induction units with
  | nil => rfl
  | cons e rest ih => rw [placeAll, ih, List.map_cons]

/-- Placing a node sets its depth and its path, and nothing else. -/
theorem placeAt_toFacts (e : Entity) :
    (e.placeAt depth path).toFacts = { e.toFacts with depth, path } := by
  obtain ⟨facts, ⟨components⟩, ⟨choices⟩, units⟩ := e
  rfl

/-- All nodes right below a node are placed one level further down. -/
theorem daughters_placeAt (e : Entity) :
    (e.placeAt depth path).daughters =
      e.daughters.map fun child => (child.1, child.2.placeAt (depth + 1) (path ++ [e.id])) := by
  obtain ⟨facts, ⟨components⟩, ⟨choices⟩, units⟩ := e
  simp only [placeAt, daughters, placeEntries_eq_map, placeAll_eq_map, List.map_append,
    List.map_map, List.zipIdx_map]
  rfl

/-- Without their places, a tree and the placed tree are the same. -/
theorem unplaced_placeAt (e : Entity) : (e.placeAt depth path).unplaced = e.unplaced := by
  rw [unplaced, unplaced, placeAt_toFacts, daughters_placeAt, List.map_map]
  rfl

end placing

mutual
/-- Only the last placing counts. -/
theorem placeAt_placeAt (depth depth' : Nat) (path path' : List String) : ∀ e : Entity,
    (e.placeAt depth path).placeAt depth' path' = e.placeAt depth' path'
  | ⟨facts, ⟨components⟩, ⟨choices⟩, units⟩ => by
      simp only [placeAt, placeEntries_placeEntries (depth + 1) (depth' + 1) _ _ components,
        placeEntries_placeEntries (depth + 1) (depth' + 1) _ _ choices,
        placeAll_placeAll (depth + 1) (depth' + 1) _ _ units]
theorem placeEntries_placeEntries (depth depth' : Nat) (path path' : List String) :
    ∀ entries : List (String × Entity),
    placeEntries depth' path' (placeEntries depth path entries) = placeEntries depth' path' entries
  | [] => rfl
  | (_, e) :: rest => by
      rw [placeEntries, placeEntries, placeEntries, placeAt_placeAt _ _ _ _ e,
        placeEntries_placeEntries _ _ _ _ rest]
theorem placeAll_placeAll (depth depth' : Nat) (path path' : List String) : ∀ units : List Entity,
    placeAll depth' path' (placeAll depth path units) = placeAll depth' path' units
  | [] => rfl
  | e :: rest => by
      rw [placeAll, placeAll, placeAll, placeAt_placeAt _ _ _ _ e, placeAll_placeAll _ _ _ _ rest]
end

/-- Every node of a tree that is placed from its root down is placed, as deep as its path is long.
The nodes below it start from this depth. -/
theorem placed_of_nodeAt? {address : List Nat} (path : List String) {e n : Entity}
    (h : (e.placeAt path.length path).nodeAt? address = some n) :
    ∃ (n₀ : Entity) (way : List String), n = n₀.placeAt way.length way := by
  induction address generalizing path e with
  | nil =>
      cases h
      exact ⟨e, path, rfl⟩
  | cons i address ih =>
      obtain ⟨child, hchild, h⟩ := Option.bind_eq_some_iff.mp h
      rw [daughters_placeAt, List.getElem?_map] at hchild
      obtain ⟨child₀, _, rfl⟩ := Option.map_eq_some_iff.mp hchild
      have hlength : path.length + 1 = (path ++ [e.id]).length := by simp
      rw [hlength] at h
      exact ih _ h

/-- Wherever a tree is placed, there are nodes at the same addresses, and they say the same. -/
theorem unplaced_nodeAt?_placeAt (address : List Nat) (depth : Nat) (path : List String)
    (e : Entity) :
    ((e.placeAt depth path).nodeAt? address).map unplaced = (e.nodeAt? address).map unplaced := by
  induction address generalizing depth path e with
  | nil => exact congrArg some (unplaced_placeAt depth path e)
  | cons i address ih =>
      rw [nodeAt?, nodeAt?, daughters_placeAt, List.getElem?_map]
      cases e.daughters[i]? with
      | none => rfl
      | some child => exact ih _ _ child.2

/-- Annotating a tree puts its root on top. The path of each other node is that of the node above it
with the id of that node, and its depth is one more and the length of the path. All nodes say what
they have said but for that, and are where they were in the tree. Annotating it again changes
nothing. -/
theorem annotate_places_every_node (e : Entity) :
    e.annotate.depth = 0 ∧ e.annotate.path = [] ∧
      (∀ address n, e.annotate.nodeAt? address = some n → ∀ child ∈ n.daughters,
        child.2.path = n.path ++ [n.id] ∧ child.2.depth = n.depth + 1 ∧
          child.2.depth = child.2.path.length) ∧
      (∀ address, (e.annotate.nodeAt? address).map unplaced = (e.nodeAt? address).map unplaced) ∧
      e.annotate.annotate = e.annotate := by
  refine ⟨placeAt_depth 0 [] e, ?_, ?_, ?_, placeAt_placeAt 0 0 [] [] e⟩
  · rw [annotate, placeAt_toFacts]
  · intro address n hn child hchild
    obtain ⟨n₀, way, rfl⟩ := placed_of_nodeAt? [] hn
    rw [daughters_placeAt] at hchild
    obtain ⟨child₀, _, rfl⟩ := List.mem_map.mp hchild
    simp only [placeAt_toFacts, List.length_append, List.length_singleton, and_self]
  · exact fun address => unplaced_nodeAt?_placeAt address 0 [] e

end Entity

end EntryForm
