import EntryForm.Proofs.Run
import EntryForm.Proofs.Serial
import Mathlib.Data.List.Nodup
import Mathlib.Data.List.Pairwise
import Mathlib.Data.List.Perm.Basic

/-!
# The ids of a form

Every fragment, instance and tab of a form has an id, and so has every control for units. All of
them come from one counter. So no two are the same, and none comes back after it is gone.
-/

namespace EntryForm

/-- If nothing is twice in some rows together, no two of them share anything. -/
theorem eq_of_mem_flatMap {α β : Type} {row : α → List β} {xs : List α}
    (h : (xs.flatMap row).Nodup) {x y : α} (hx : x ∈ xs) (hy : y ∈ xs) {b : β} (hbx : b ∈ row x)
    (hby : b ∈ row y) : x = y := by
  by_contra hne
  rw [List.nodup_flatMap] at h
  have hsymm : Std.Symm (Function.onFun List.Disjoint row) :=
    ⟨fun _ _ hdisjoint _ hb hb' => hdisjoint hb' hb⟩
  exact h.2.forall hx hy hne hbx hby

namespace UnitSelector

/-- The id of the control, if there is one. -/
def ids : UnitSelector → List String
  | .choice id _ => [id]
  | _ => []

end UnitSelector

namespace Widget
variable {φ : Type}

/-- The ids of a widget itself: those of its tabs, or that of its control for units. -/
def ids : Widget φ → List String
  | .tabs row => row.map (·.id)
  | .text input => input.units.ids
  | .number input => input.units.ids
  | .moment input => input.units.ids
  | _ => []

theorem ids_map {ψ : Type} (f : φ → ψ) (w : Widget φ) : (w.map f).ids = w.ids := by
  cases w <;> simp [map, ids, Tab.map]

theorem ids_hideTabs (w : Widget φ) : w.hideTabs.ids = w.ids := by
  cases w <;> simp [hideTabs, ids]

end Widget

/-- All ids that a node carries. -/
def Node.ids (n : Node) : List String := n.id :: (n.widget.ids ++ n.instances.map (·.id))

namespace Fragment

/-- All ids in a row of fragments. -/
def idsOf (fragments : List Fragment) : List String := (nodesOf fragments).flatMap Node.ids

end Fragment

/-- All ids in a form. -/
def Form.ids (form : Form) : List String := form.nodes.flatMap Node.ids

namespace Form

/-- The ids of all fragments are distinct if all ids are. -/
theorem fragment_ids_nodup {a : Form} (h : a.ids.Nodup) : (a.all.map (·.id)).Nodup := by
  have hall : a.ids = a.all.flatMap fun f => f.node.ids := by
    rw [ids, nodes, Fragment.nodesOf, List.flatMap_map]
    rfl
  have hsublist (row : List Fragment) :
      (row.map (·.id)).Sublist (row.flatMap fun f => f.node.ids) := by
    induction row with
    | nil => exact List.Sublist.slnil
    | cons f rest ih =>
        have hself : [f.id].Sublist f.node.ids := List.singleton_sublist.mpr List.mem_cons_self
        exact hself.append ih
  rw [hall] at h
  exact h.sublist (hsublist a.all)

/-- Nodes of distinct ids are distinct. -/
theorem nodes_nodup {a : Form} (h : a.ids.Nodup) : a.nodes.Nodup := by
  have hids : (a.nodes.map (·.id)).Nodup := by
    rw [nodes, Fragment.nodesOf, List.map_map]
    exact fragment_ids_nodup h
  exact hids.of_map _

end Form

/-- Ids that have been handed out between two counts, each of them once. -/
structure Issued (first last : Nat) (ids : List String) : Prop where
  le : first ≤ last
  nodup : (ids.map serial).Nodup
  bounds : ∀ id ∈ ids, first ≤ (serial id).1 ∧ (serial id).1 < last

theorem issued_nil (n : Nat) : Issued n n [] := ⟨Nat.le_refl n, List.nodup_nil, nofun⟩

/-- Ids handed out first and ids handed out then are distinct. -/
theorem Issued.append {a b c : Nat} {xs ys : List String} (h : Issued a b xs)
    (h' : Issued b c ys) : Issued a c (xs ++ ys) := by
  refine ⟨Nat.le_trans h.le h'.le, ?_, ?_⟩
  · rw [List.map_append]
    refine List.nodup_append.mpr ⟨h.nodup, h'.nodup, ?_⟩
    intro mark hmark other hother heq
    obtain ⟨x, hx, hxmark⟩ := List.mem_map.mp hmark
    obtain ⟨y, hy, hymark⟩ := List.mem_map.mp hother
    have hbefore := (h.bounds x hx).2
    have hafter := (h'.bounds y hy).1
    rw [hxmark, heq] at hbefore
    rw [hymark] at hafter
    omega
  · intro id hid
    have hle := h.le
    have hle' := h'.le
    rcases List.mem_append.mp hid with hid | hid
    · have hbounds := h.bounds id hid
      omega
    · have hbounds := h'.bounds id hid
      omega

/-- The order in which ids are listed does not matter. -/
theorem Issued.perm {a b : Nat} {xs ys : List String} (h : Issued a b xs) (hperm : ys.Perm xs) :
    Issued a b ys := by
  refine ⟨h.le, (hperm.map serial).nodup_iff.mpr h.nodup, ?_⟩
  intro id hid
  exact h.bounds id (hperm.mem_iff.mp hid)

/-- What is left of issued ids is still issued. -/
theorem Issued.sublist {a b : Nat} {xs ys : List String} (h : Issued a b (xs ++ ys)) :
    Issued a b xs := by
  have hnodup := h.nodup
  rw [List.map_append] at hnodup
  refine ⟨h.le, (List.nodup_append.mp hnodup).1, ?_⟩
  intro id hid
  exact h.bounds id (List.mem_append_left _ hid)

theorem Issued.ids_nodup {a b : Nat} {ids : List String} (h : Issued a b ids) : ids.Nodup :=
  List.Nodup.of_map serial h.nodup

/-- An id that carries the next number has been handed out with it. -/
theorem issued_singleton {id : String} {n : Nat} (h : serial id = (n, false)) :
    Issued n (n + 1) [id] := by
  refine ⟨Nat.le_succ n, by simp, ?_⟩
  intro other hother
  rw [List.mem_singleton.mp hother, h]
  omega

namespace Fragment

theorem idsOf_append (xs ys : List Fragment) : idsOf (xs ++ ys) = idsOf xs ++ idsOf ys := by
  simp [idsOf, nodesOf_append]

theorem idsOf_flatMap {α : Type} (xs : List α) (inside : α → List Fragment) :
    idsOf (xs.flatMap inside) = xs.flatMap fun x => idsOf (inside x) := by
  induction xs with
  | nil => rfl
  | cons x rest ih => rw [List.flatMap_cons, List.flatMap_cons, idsOf_append, ih]

/-- The ids that an instance brings with it. -/
def idsOfInstance (i : Instance Fragment) : List String := i.id :: idsOf i.fragments

/-- The ids that a tab brings with it. -/
def idsOfTab (tab : Tab Fragment) : List String := tab.id :: idsOf tab.fragments

open scoped List

/-- The ids of a fragment, grouped by what brings them. -/
theorem idsOf_singleton (f : Fragment) :
    (idsOf [f]).Perm
      (f.id :: (f.widget.ids ++ idsOf f.widget.children) ++ f.instances.flatMap idsOfInstance) := by
  have hids : idsOf [f] =
      f.id :: (f.widget.ids ++ (f.instances.map (·.id) ++ idsOf f.widget.children) ++
        f.instances.flatMap fun i => idsOf i.fragments) := by
    rw [← idsOf_flatMap]
    simp [idsOf, nodesOf_singleton, Node.ids, Widget.ids_map, children, nodesOf_append, node,
      Instance.map, Function.comp_def]
  rw [hids]
  calc
    _ ~ f.id :: (f.widget.ids ++ (idsOf f.widget.children ++ f.instances.map (·.id)) ++
        f.instances.flatMap fun i => idsOf i.fragments) :=
      ((List.perm_append_comm.append_left _).append_right _).cons _
    _ = f.id :: (f.widget.ids ++ idsOf f.widget.children) ++ (f.instances.map (·.id) ++
        f.instances.flatMap fun i => idsOf i.fragments) := by simp
    _ ~ _ := by
      apply List.Perm.append_left
      exact List.map_append_flatMap_perm f.instances (·.id) fun i => idsOf i.fragments

/-- A field with one record more has the ids of the record, too. -/
theorem idsOf_addInstance {f f' : Fragment} {i : Instance Fragment} (hid : f'.id = f.id)
    (hwidget : f'.widget = f.widget) (hinstances : f'.instances = f.instances ++ [i]) :
    (idsOf [f']).Perm (idsOf [f] ++ idsOfInstance i) := by
  calc
    _ ~ f.id :: (f.widget.ids ++ idsOf f.widget.children) ++
        f.instances.flatMap idsOfInstance ++ idsOfInstance i := by
      rw [List.append_assoc, ← List.flatMap_singleton (f := idsOfInstance), ← List.flatMap_append,
        ← hinstances, ← hid, ← hwidget]
      exact idsOf_singleton f'
    _ ~ _ := (idsOf_singleton f).symm.append_right _

/-- Removing an instance removes the ids that it brought. -/
theorem idsOf_removeInstance {f f' : Fragment} {i : Instance Fragment}
    {left right : List (Instance Fragment)} (hid : f'.id = f.id) (hwidget : f'.widget = f.widget)
    (hbefore : f.instances = left ++ i :: right)
    (hafter : f'.instances.flatMap idsOfInstance = (left ++ right).flatMap idsOfInstance) :
    (idsOf [f]).Perm (idsOf [f'] ++ idsOfInstance i) := by
  calc
    _ ~ f.id :: (f.widget.ids ++ idsOf f.widget.children) ++
        (left ++ i :: right).flatMap idsOfInstance := hbefore ▸ idsOf_singleton f
    _ ~ f.id :: (f.widget.ids ++ idsOf f.widget.children) ++
        (idsOfInstance i ++ (left ++ right).flatMap idsOfInstance) :=
      (List.perm_middle.flatMap_right idsOfInstance).append_left _
    _ ~ f.id :: (f.widget.ids ++ idsOf f.widget.children) ++
        (left ++ right).flatMap idsOfInstance ++ idsOfInstance i := by
      rw [List.append_assoc]
      exact List.perm_append_comm.append_left _
    _ ~ _ := by
      rw [← hafter, ← hid, ← hwidget]
      exact (idsOf_singleton f').symm.append_right _

/-- A tab set has its own id and those of its tabs. -/
theorem idsOf_tabSet (field : Field) (row : List (Tab Fragment)) :
    (idsOf [⟨field, .tabs row, []⟩]).Perm (field.id :: row.flatMap idsOfTab) := by
  calc
    _ ~ field.id :: (row.map (·.id) ++ idsOf (row.flatMap Tab.fragments)) ++ [] :=
      idsOf_singleton ⟨field, .tabs row, []⟩
    _ = field.id :: (row.map (·.id) ++ row.flatMap fun tab => idsOf tab.fragments) := by
      rw [List.append_nil, idsOf_flatMap]
    _ ~ _ := (List.map_append_flatMap_perm row (·.id) fun tab => idsOf tab.fragments).cons _

theorem idsOf_addTab (field : Field) (row : List (Tab Fragment)) (tab : Tab Fragment) :
    (idsOf [⟨field, .tabs (row ++ [tab]), []⟩]).Perm
      (idsOf [⟨field, .tabs row, []⟩] ++ idsOfTab tab) := by
  calc
    _ ~ field.id :: (row ++ [tab]).flatMap idsOfTab := idsOf_tabSet field (row ++ [tab])
    _ = field.id :: row.flatMap idsOfTab ++ idsOfTab tab := by simp
    _ ~ _ := (idsOf_tabSet field row).symm.append_right _

theorem idsOf_group (field : Field) (children : List Fragment) :
    idsOf [⟨field, .group children, []⟩] = field.id :: idsOf children := by
  simp [idsOf, nodesOf_singleton, Node.ids, node, Widget.map, Widget.ids, Fragment.children,
    Widget.children]

end Fragment

namespace Entity
variable {s : Settings}

open Fragment

theorem field_id (e : Facts) (wrapped t : Bool) (id : String) (widget : Widget Fragment) :
    (field s e wrapped t id widget).id = id := rfl

theorem nodesOf_frame (e : Facts) (wrapped t : Bool) (id : String) {widget : Widget Fragment}
    (h : widget.children = []) :
    nodesOf [frame s e wrapped t id widget] = [(frame s e wrapped t id widget).node] := by
  simp [nodesOf_singleton, frame, Fragment.children, h]

/-- A fragment with nothing inside has its own ids. -/
theorem idsOf_frame (e : Facts) (wrapped t : Bool) (id : String) {widget : Widget Fragment}
    (h : widget.children = []) : idsOf [frame s e wrapped t id widget] = id :: widget.ids := by
  rw [idsOf, nodesOf_frame e wrapped t id h]
  simp [frame, Node.ids, Fragment.node, Widget.ids_map, field_id]

/-- The control for units is the only other part of a leaf that has an id. -/
theorem leaf_ids {e : Entity} {id : String} {widget : Widget Fragment}
    (h : e.leaf? s id = some widget) :
    widget.children = [] ∧ (widget.ids = [] ∨ widget.ids = [id ++ UnitSelector.idSuffix]) := by
  have hunits : (UnitSelector.ofEntity e id).ids = [] ∨
      (UnitSelector.ofEntity e id).ids = [id ++ UnitSelector.idSuffix] := by
    rw [UnitSelector.ofEntity]
    split
    · exact Or.inl rfl
    · exact Or.inl rfl
    · exact Or.inr rfl
  rw [leaf?] at h
  split at h <;> cases h
  · exact ⟨rfl, Or.inl rfl⟩
  · exact ⟨rfl, hunits⟩
  · exact ⟨rfl, hunits⟩
  · exact ⟨rfl, hunits⟩
  · exact ⟨rfl, Or.inl rfl⟩
  · exact ⟨rfl, Or.inl rfl⟩

/-- A frame takes one number for its own id and that of its units. -/
theorem issued_frame (e : Facts) (wrapped t : Bool) (n : Nat) {widget : Widget Fragment}
    (hchildren : widget.children = [])
    (hids : widget.ids = [] ∨ widget.ids = [idAt e.id n ++ UnitSelector.idSuffix]) :
    Issued n (n + 1) (idsOf [frame s e wrapped t (idAt e.id n) widget]) := by
  rw [idsOf_frame e wrapped t _ hchildren]
  rcases hids with hids | hids
  · rw [hids]
    exact issued_singleton (serial_idAt e.id n)
  · rw [hids]
    refine ⟨Nat.le_succ n, by simp [serial_idAt, serial_unitId], ?_⟩
    intro id hid
    rcases List.mem_cons.mp hid with rfl | hid
    · rw [serial_idAt]
      omega
    · rw [List.mem_singleton.mp hid, serial_unitId]
      omega

end Entity

open Fragment Entity in
/-- What is compiled has the ids that the counter passes over. -/
theorem Derives.issued {s : Settings} {source : Source} {t : Bool} {n m : Nat}
    {fragments : List Fragment} (h : Derives s source t n fragments m) :
    Issued n m (idsOf fragments) := by
  induction h with
  | missing => exact issued_nil _
  | found _ ih => exact ih
  | unresolved _ ih =>
      rw [← List.singleton_append, idsOf_append]
      exact (issued_frame _ _ _ _ rfl (Or.inl rfl)).append ih
  | none => exact issued_nil _
  | more _ _ ih ih' =>
      rw [idsOf_append]
      exact ih.append ih'
  | fault _ => exact issued_frame _ _ _ _ rfl (Or.inl rfl)
  | bare _ _ _ ih => exact ih
  | leaf hleaf => exact issued_frame _ _ _ _ (leaf_ids hleaf).1 (leaf_ids hleaf).2
  | @group e t n m children _ _ _ _ ih =>
      rw [frame, idsOf_group]
      exact (ih.append (issued_singleton (serial_idAt e.id m))).perm
        (List.perm_append_singleton _ _).symm
  | @record e field widget instances body number numbers wrapped t n m k _ _ ih ihbody =>
      have hbody := (issued_singleton (serial_idAt (e.id ++ "_record") m)).append ihbody
      refine (ih.append hbody).perm ?_
      exact idsOf_addInstance (f := ⟨field, widget, instances⟩)
        (i := ⟨idAt (e.id ++ "_record") m, recordHeader number, false, body⟩) rfl rfl rfl
  | filled _ ih => exact ih
  | tabSet => exact issued_singleton (serial_idAt _ _)
  | @tab e branch key branches field row fs t n m k _ _ ih ihbranch =>
      have hbranch := (issued_singleton (serial_panelIdAt field.id key m)).append ihbranch
      exact (ih.append hbranch).perm
        (idsOf_addTab field row (tabOf s branch.toFacts (panelIdAt field.id key m) _ fs))
  | tabbed _ _ _ ih => exact ih

end EntryForm
