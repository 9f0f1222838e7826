import EntryForm.Proofs.Freshness

/-!
# Repeated fields along a run

A repeated field counts its instances, numbers them in their headers and offers another one while
there is room. Adding and removing keep the three in step. A field that is not repeated keeps the
instances it was compiled with.
-/

namespace EntryForm

/-- The count of a repeated field agrees with its instances and its bound. -/
structure Node.Counted (n : Node) (r : RepeatState) : Prop where
  count : r.count = 1 + n.instances.length
  headers : n.instances.map (·.header) = (List.range' 2 n.instances.length).map recordHeader
  removable : ∀ i ∈ n.instances, i.removable = true
  max : ∀ max ∈ r.max, r.count ≤ max
  addEnabled : r.addEnabled = true ↔ ∀ max ∈ r.max, r.count < max

/-- Every repeated field is counted, and has at most so many instances besides the first. -/
def Node.Tidy (limit : Nat) (n : Node) : Prop :=
  ∀ r ∈ n.repetition, n.Counted r ∧ r.count ≤ limit + 1

theorem Node.Tidy.mono {limit limit' : Nat} {n : Node} (h : n.Tidy limit) (hle : limit ≤ limit') :
    n.Tidy limit' := by
  intro r hr
  obtain ⟨hcounted, hcount⟩ := h r hr
  exact ⟨hcounted, by omega⟩

namespace RepeatState

/-- A field that can be repeated has room for a second instance. -/
theorem start_room {min max : Option Nat} (h : Cardinality.hasRoom min max = true) :
    ∀ m ∈ max, 1 < m := by
  rintro m rfl
  cases min <;> simp_all [Cardinality.hasRoom]

/-- Adding counts one more, and may be repeated unless the upper bound has been reached. -/
theorem add?_eq {r : RepeatState} (h : r.addEnabled = true) (hlimit : r.count + 1 ≤ countLimit) :
    r.add? = some { r with count := r.count + 1, addEnabled := r.max != some (r.count + 1) } := by
  have hmin : Nat.min (r.count + 1) countLimit = r.count + 1 := Nat.min_eq_left hlimit
  simp only [add?, h, if_true, hmin]

/-- Removing counts one less, and may be followed by adding if that leaves room. -/
theorem remove?_eq {r : RepeatState} (h : 1 < r.count) :
    r.remove? = some { r with
      count := r.count - 1, addEnabled := r.addEnabled || r.max.all (r.count - 1 ≤ ·) } := by
  simp only [remove?, Nat.not_le.mpr h, if_false]

end RepeatState

namespace Cardinality

/-- Bounds that fix the number of instances leave no room for more. -/
theorem not_repeatable_of_fixedSlots {min max : Option Nat} {categorical : Bool} {slots : Nat}
    (h : (ofBounds min max categorical).fixedSlots = some slots) :
    (ofBounds min max categorical).repeatable = false := by
  cases min with
  | none => simp [fixedSlots, ofBounds] at h
  | some min =>
      cases max with
      | none => simp [fixedSlots, ofBounds] at h
      | some max =>
          simp only [fixedSlots, ofBounds] at h
          split at h
          case isTrue heq =>
            obtain ⟨rfl, _⟩ := heq
            simp [ofBounds, hasRoom]
          case isFalse => cases h

end Cardinality

/-- A field that was just compiled: if it is repeated, it has its first instance only. -/
def Node.Unrepeated (n : Node) : Prop :=
  ∀ r ∈ n.repetition, r.count = 1 ∧ r.addEnabled = true ∧ n.instances = [] ∧ ∀ m ∈ r.max, 1 < m

/-- A field that has not been repeated is tidy. -/
theorem Node.Unrepeated.tidy {n : Node} (h : n.Unrepeated) (limit : Nat) : n.Tidy limit := by
  intro r hr
  obtain ⟨hcount, henabled, hinstances, hroom⟩ := h r hr
  refine ⟨⟨?_, ?_, ?_, ?_, ?_⟩, by omega⟩
  · rw [hcount, hinstances]
    rfl
  · rw [hinstances]
    rfl
  · rw [hinstances]
    exact nofun
  · intro max hmax
    have hlt := hroom max hmax
    omega
  · rw [henabled, hcount]
    constructor
    · intro _
      exact hroom
    · intro _
      rfl

namespace Entity
variable {s : Settings}

/-- A field counts its records if it has a container and its bounds allow several. -/
theorem field_repetition (e : Facts) (wrapped t : Bool) (id : String) (widget : Widget Fragment) :
    (field s e wrapped t id widget).repetition =
      if wrapped &&
          (Cardinality.ofBounds e.minCardinality e.maxCardinality widget.isSelect).repeatable
        then some (RepeatState.start e.minCardinality e.maxCardinality) else none := rfl

theorem field_unrepeated {e : Facts} {wrapped t : Bool} {id : String} {widget : Widget Fragment}
    {r : RepeatState} (h : (field s e wrapped t id widget).repetition = some r) :
    r.count = 1 ∧ r.addEnabled = true ∧ ∀ m ∈ r.max, 1 < m := by
  rw [field_repetition] at h
  split at h
  case isTrue hrepeatable =>
    cases h
    have hroom : Cardinality.hasRoom e.minCardinality e.maxCardinality = true := by
      simp only [Cardinality.ofBounds, Bool.and_eq_true] at hrepeatable
      exact hrepeatable.2.2
    have hlt := RepeatState.start_room hroom
    refine ⟨rfl, ?_, hlt⟩
    cases hmax : e.maxCardinality with
    | none => rfl
    | some max => exact decide_eq_true (hlt max hmax)
  case isFalse => cases h

/-- What is filled from the start cannot be repeated. -/
theorem missingRecords_unrepeated {e : Facts} {wrapped t : Bool} {id : String}
    {widget : Widget Fragment} (h : (frame s e wrapped t id widget).missingRecords ≠ []) :
    (frame s e wrapped t id widget).repetition = Option.none := by
  rw [Fragment.missingRecords] at h
  split at h
  case _ slots _ _ hslots =>
    have hfixed := Cardinality.not_repeatable_of_fixedSlots hslots
    change (field s e wrapped t id widget).repetition = none
    rw [field_repetition, hfixed, Bool.and_false]
    rfl
  case _ => exact absurd rfl h

end Entity

/-- Whether a source is a field that still lacks records. -/
def Source.lacksRecords : Source → Bool
  | .filling _ _ (_ :: _) => true
  | _ => false

open Entity in
/-- How a node comes out of the compiler: as a field that has instances only if it lacked records
from the start, or as a tab set that has none. -/
inductive Node.Compiled (s : Settings) (n : Node) : Prop
  | field {e : Facts} {wrapped t : Bool} {id : String} {widget : Widget Fragment} :
      n.toField = field s e wrapped t id widget →
        (n.instances = [] ∨ (frame s e wrapped t id widget).missingRecords ≠ []) → n.Compiled s
  | tabSet {e : Facts} {t : Bool} {id : String} :
      n.toField = (tabFrame s e t id).toField → n.instances = [] → n.Compiled s

open Fragment Entity in
/-- All nodes come out of the compiler so, and a field that lacks records is one. Only a field that
is being filled can lack them. -/
theorem Derives.compiled {s : Settings} {source : Source} {t : Bool} {n m : Nat}
    {fragments : List Fragment} (h : Derives s source t n fragments m) :
    (∀ node ∈ nodesOf fragments, node.Compiled s) ∧
      (source.lacksRecords = true → ∀ f ∈ fragments, ∃ e wrapped t id widget,
        f.toField = Entity.field s e wrapped t id widget ∧
          (frame s e wrapped t id widget).missingRecords ≠ []) := by
  have hnode {e : Facts} {wrapped t : Bool} {id : String} {widget : Widget Fragment} :
      (frame s e wrapped t id widget).node.Compiled s := .field rfl (Or.inl rfl)
  have hframe {e : Facts} {wrapped t : Bool} {id : String} {widget : Widget Fragment}
      (hchildren : widget.children = []) :
      ∀ node ∈ nodesOf [frame s e wrapped t id widget], node.Compiled s := by
    rw [nodesOf_frame _ _ _ _ hchildren]
    exact List.forall_mem_singleton.mpr hnode
  have hlacks {e : Facts} {wrapped t : Bool} {id : String} {widget : Widget Fragment} {e' : Entity}
      (hsource : (Source.filling e' wrapped
        (frame s e wrapped t id widget).missingRecords).lacksRecords = true) :
      ∀ f ∈ [frame s e wrapped t id widget], ∃ e wrapped t id widget,
        f.toField = Entity.field s e wrapped t id widget ∧
          (frame s e wrapped t id widget).missingRecords ≠ [] := by
    have hmissing : (frame s e wrapped t id widget).missingRecords ≠ [] := by
      intro hnone
      rw [hnone] at hsource
      cases hsource
    exact List.forall_mem_singleton.mpr ⟨e, wrapped, t, id, widget, rfl, hmissing⟩
  have hfull {P : Prop} (hno : false = true) : P := absurd hno Bool.false_ne_true
  induction h with
  | missing => exact ⟨by simp, hfull⟩
  | found _ ih => exact ⟨ih.1, hfull⟩
  | unresolved _ ih =>
      refine ⟨?_, hfull⟩
      rw [nodesOf_cons]
      exact List.forall_mem_append.mpr ⟨hframe rfl, ih.1⟩
  | none => exact ⟨by simp, hfull⟩
  | more _ _ ih ih' =>
      refine ⟨?_, hfull⟩
      rw [nodesOf_append]
      exact List.forall_mem_append.mpr ⟨ih.1, ih'.1⟩
  | fault _ => exact ⟨hframe rfl, hfull⟩
  | bare _ _ _ ih => exact ⟨ih.1, hfull⟩
  | leaf hleaf => exact ⟨hframe (leaf_ids hleaf).1, hlacks⟩
  | @group e t n m children _ _ _ _ ih =>
      refine ⟨?_, hlacks⟩
      rw [nodesOf_singleton]
      refine List.forall_mem_cons.mpr ⟨hnode, ?_⟩
      simpa [Fragment.children, frame, Widget.children] using ih.1
  | @record e field widget instances body number numbers wrapped t n m k _ _ ih ihbody =>
      have hfield := ih.2 rfl ⟨field, widget, instances⟩ (by simp)
      refine ⟨?_, fun _ => List.forall_mem_singleton.mpr hfield⟩
      obtain ⟨_, hinside⟩ := List.forall_mem_cons.mp (nodesOf_singleton _ ▸ ih.1)
      obtain ⟨_, _, _, _, _, hfield, hmissing⟩ := hfield
      rw [nodesOf_singleton]
      refine List.forall_mem_cons.mpr ⟨.field hfield (Or.inr hmissing), ?_⟩
      simp only [Fragment.children, List.flatMap_append, List.flatMap_singleton,
        ← List.append_assoc, nodesOf_append]
      refine List.forall_mem_append.mpr ⟨?_, ihbody.1⟩
      simpa [Fragment.children, nodesOf_append] using hinside
  | filled _ ih => exact ⟨ih.1, hfull⟩
  | tabSet =>
      refine ⟨?_, hfull⟩
      rw [nodesOf_singleton]
      exact List.forall_mem_cons.mpr
        ⟨.tabSet rfl rfl, by simp [Fragment.children, tabFrame, Widget.children]⟩
  | @tab e branch key branches field row fs t n m k _ _ ih ihbranch =>
      refine ⟨?_, hfull⟩
      obtain ⟨hself, hinside⟩ := List.forall_mem_cons.mp (nodesOf_singleton _ ▸ ih.1)
      rw [nodesOf_singleton]
      refine List.forall_mem_cons.mpr ⟨?_, ?_⟩
      · cases hself with
        | field hfield hinstances => exact .field hfield hinstances
        | tabSet hfield hnone => exact .tabSet hfield hnone
      · simp only [Fragment.children, Widget.children, List.flatMap_append, List.flatMap_singleton,
          List.flatMap_nil, List.append_nil, nodesOf_append] at hinside ⊢
        exact List.forall_mem_append.mpr ⟨hinside, ihbranch.1⟩
  | tabbed _ _ _ ih => exact ⟨ih.1, hfull⟩

/-- Nothing is repeated from the start. -/
theorem Node.Compiled.unrepeated {s : Settings} {n : Node} (h : n.Compiled s) : n.Unrepeated := by
  intro r hr
  have hr : n.toField.repetition = some r := hr
  cases h with
  | field hfield hinstances =>
      rw [hfield] at hr
      obtain ⟨hcount, henabled, hroom⟩ := Entity.field_unrepeated hr
      refine ⟨hcount, henabled, hinstances.resolve_right ?_, hroom⟩
      intro hmissing
      exact absurd (hr.symm.trans (Entity.missingRecords_unrepeated hmissing)) nofun
  | tabSet hfield _ =>
      rw [hfield] at hr
      cases hr

theorem Derives.unrepeated {s : Settings} {source : Source} {t : Bool} {n m : Nat}
    {fragments : List Fragment} (h : Derives s source t n fragments m) :
    ∀ node ∈ Fragment.nodesOf fragments, node.Unrepeated :=
  fun node hnode => (h.compiled.1 node hnode).unrepeated

namespace Form
variable {s : Settings} {d : Document} {a b : Form}

/-- Records are numbered one after the other. -/
theorem renumber_headers (number : Nat) (instances : List (Instance Fragment)) :
    (renumber number instances).map (·.header) =
      (List.range' number instances.length).map recordHeader := by
  induction instances generalizing number with
  | nil => rfl
  | cons i rest ih => simp [renumber, List.range'_succ, ih]

theorem renumber_removable (number : Nat) {instances : List (Instance Fragment)}
    (h : ∀ i ∈ instances, i.removable = true) :
    ∀ i ∈ renumber number instances, i.removable = true := by
  induction instances generalizing number with
  | nil => exact h
  | cons i rest ih =>
      obtain ⟨hfirst, hrest⟩ := List.forall_mem_cons.mp h
      exact List.forall_mem_cons.mpr ⟨hfirst, ih (number + 1) hrest⟩

theorem renumber_length (number : Nat) (instances : List (Instance Fragment)) :
    (renumber number instances).length = instances.length := by
  induction instances generalizing number with
  | nil => rfl
  | cons i rest ih => simp [renumber, ih]

/-- Renumbering keeps what is in the records. -/
theorem renumber_fragments (number : Nat) (instances : List (Instance Fragment)) :
    (renumber number instances).flatMap Instance.fragments =
      instances.flatMap Instance.fragments := by
  induction instances generalizing number with
  | nil => rfl
  | cons i rest ih => simp [renumber, ih]

/-- Being counted is a matter of the headers and of what can be removed. -/
theorem counted_iff (f : Fragment) (r : RepeatState) :
    f.node.Counted r ↔
      r.count = 1 + f.instances.length ∧
        f.instances.map (·.header) = (List.range' 2 f.instances.length).map recordHeader ∧
        (∀ i ∈ f.instances, i.removable = true) ∧ (∀ max ∈ r.max, r.count ≤ max) ∧
        (r.addEnabled = true ↔ ∀ max ∈ r.max, r.count < max) := by
  have hheaders : f.node.instances.map (·.header) = f.instances.map (·.header) := by
    simp [Fragment.node, Instance.map, Function.comp_def]
  have hlength : f.node.instances.length = f.instances.length := by simp [Fragment.node]
  have hremovable : (∀ i ∈ f.node.instances, i.removable = true) ↔
      ∀ i ∈ f.instances, i.removable = true := by
    simp [Fragment.node, Instance.map]
  constructor
  · intro h
    have hcount := h.count
    have hhead := h.headers
    rw [hlength] at hcount
    rw [hlength, hheaders] at hhead
    exact ⟨hcount, hhead, hremovable.mp h.removable, h.max, h.addEnabled⟩
  · rintro ⟨hcount, hhead, hrem, hmax, henabled⟩
    exact ⟨by rw [hlength]; exact hcount, by rw [hlength, hheaders]; exact hhead,
      hremovable.mpr hrem, hmax, henabled⟩

/-- Adding an instance keeps a field counted, as long as the count can grow. -/
theorem counted_append {f : Fragment} {r : RepeatState} {i : Instance Fragment}
    (h : f.node.Counted r) (henabled : r.addEnabled = true)
    (hlimit : r.count + 1 ≤ RepeatState.countLimit)
    (hheader : i.header = recordHeader (r.count + 1)) (hremovable : i.removable = true) :
    (appendInstance i f).node.Counted (r.add?.getD r) ∧ (r.add?.getD r).count = r.count + 1 := by
  rw [RepeatState.add?_eq henabled hlimit, Option.getD_some]
  refine ⟨(counted_iff _ _).mpr ?_, rfl⟩
  obtain ⟨hcount, hheaders, hall, hmax, hroom⟩ := (counted_iff f r).mp h
  have hlength : (appendInstance i f).instances.length = f.instances.length + 1 := by
    simp [appendInstance]
  refine ⟨?_, ?_, ?_, ?_, ?_⟩
  · rw [hlength]
    simp only
    omega
  · have hnumber : r.count + 1 = 2 + f.instances.length := by omega
    rw [hlength, List.range'_1_concat, List.map_append, ← hheaders]
    simp [appendInstance, hheader, hnumber]
  · exact List.forall_mem_append.mpr ⟨hall, List.forall_mem_singleton.mpr hremovable⟩
  · intro max hm
    exact hroom.mp henabled max hm
  · cases hm : r.max with
    | none => simp
    | some max =>
        have hlt := hroom.mp henabled max hm
        simp only [Option.mem_def, Option.some.injEq, forall_eq', bne_iff_ne, ne_eq]
        omega

/-- Removing an instance keeps a field counted. -/
theorem counted_drop {f : Fragment} {r : RepeatState} {id : String} (h : f.node.Counted r)
    (hany : f.instances.any (isRemovable id) = true) :
    (dropInstance id f).node.Counted (r.remove?.getD r) ∧
      (r.remove?.getD r).count + 1 = r.count := by
  obtain ⟨hcount, hheaders, hall, hmax, hroom⟩ := (counted_iff f r).mp h
  obtain ⟨i, hi, hmatch⟩ := List.any_eq_true.mp hany
  have hpos : 0 < f.instances.length := List.length_pos_of_mem hi
  have hdrop : (f.instances.eraseP (isRemovable id)).length = f.instances.length - 1 :=
    List.length_eraseP_of_mem hi hmatch
  have hlength : (dropInstance id f).instances.length = f.instances.length - 1 := by
    rw [dropInstance, renumber_length, hdrop]
  rw [RepeatState.remove?_eq (by omega), Option.getD_some]
  refine ⟨(counted_iff _ _).mpr ⟨?_, ?_, ?_, ?_, ?_⟩, ?_⟩
  · rw [hlength]
    simp only
    omega
  · rw [dropInstance, renumber_headers, renumber_length]
  · rw [dropInstance]
    exact renumber_removable 2 fun j hj => hall j (List.mem_of_mem_eraseP hj)
  · intro max hm
    have hle := hmax max hm
    simp only
    omega
  · cases hm : r.max with
    | none => simp
    | some max =>
        have hle := hmax max hm
        simp only [Option.mem_def, Option.some.injEq, forall_eq', Option.all_some, Bool.or_eq_true,
          decide_eq_true_eq]
        omega
  · simp only
    omega

/-- The nodes after a record came to a field: those before, the field and those of the record. -/
theorem nodes_of_appendInstance {f : Fragment} {i : Instance Fragment} {before after : List Node}
    (h : Fragment.Replaces f (appendInstance i f) before after) {n : Node} (hn : n ∈ after) :
    n ∈ before ∨ n = (appendInstance i f).node ∨ n ∈ Fragment.nodesOf i.fragments := by
  rcases h.mem hn with hold | hnew
  · exact Or.inl hold
  · rw [Fragment.nodesOf_singleton] at hnew
    rcases List.mem_cons.mp hnew with hself | hinside
    · exact Or.inr (Or.inl hself)
    · simp only [Fragment.children, appendInstance, List.flatMap_append, List.flatMap_singleton,
        ← List.append_assoc] at hinside
      rw [Fragment.nodesOf_append] at hinside
      rcases List.mem_append.mp hinside with hold | hbody
      · refine Or.inl (h.mem_old ?_)
        rw [Fragment.nodesOf_singleton]
        exact List.mem_cons_of_mem _ hold
      · exact Or.inr (Or.inr hbody)

/-- The nodes after an addition: those before, the repeated field and what was compiled. -/
theorem addInstance_nodes {wrapper id : String}
    (h : a.addInstance s d wrapper = .ok (some (id, b))) :
    ∃ f r i e, f.repetition = some r ∧ r.addEnabled = true ∧
      i.header = recordHeader (r.count + 1) ∧ i.removable = true ∧
      Derives s (.node e false) false (a.counter + 1) i.fragments b.counter ∧ f.node ∈ a.nodes ∧
      ∀ n ∈ b.nodes, n ∈ a.nodes ∨ n = (appendInstance i f).node ∨
        n ∈ Fragment.nodesOf i.fragments := by
  obtain ⟨f, r, e, body, hfind, _, hr, henabled, _, _, hbody, hreplaces⟩ := addInstance_ok h
  exact ⟨f, r, ⟨id, recordHeader (r.count + 1), true, body⟩, e, hr, henabled, rfl, rfl, hbody,
    mem_nodes (List.mem_of_find?_eq_some hfind), fun n hn => nodes_of_appendInstance hreplaces hn⟩

/-- The nodes after a removal: some of those before, and the repeated field. -/
theorem removeInstance_nodes {wrapper id : String} (h : a.removeInstance wrapper id = .ok b) :
    ∃ f r, f.repetition = some r ∧ f.instances.any (isRemovable id) = true ∧ f.node ∈ a.nodes ∧
      ∀ n ∈ b.nodes, n ∈ a.nodes ∨ n = (dropInstance id f).node := by
  obtain ⟨f, r, hfind, hr, hany, _, hreplaces⟩ := removeInstance_ok h
  refine ⟨f, r, hr, hany, mem_nodes (List.mem_of_find?_eq_some hfind), ?_⟩
  intro n hn
  rcases hreplaces.mem hn with hold | hnew
  · exact Or.inl hold
  · rw [Fragment.nodesOf_singleton] at hnew
    rcases List.mem_cons.mp hnew with hself | hinside
    · exact Or.inr hself
    · have hsubset : (dropInstance id f).children ⊆ f.children := by
        simp only [Fragment.children, dropInstance, renumber_fragments]
        refine List.append_subset.mpr ⟨List.subset_append_left _ _, ?_⟩
        intro g hg
        obtain ⟨i, hi, hgi⟩ := List.mem_flatMap.mp hg
        exact List.mem_append_right _ (List.mem_flatMap.mpr ⟨i, List.mem_of_mem_eraseP hi, hgi⟩)
      refine Or.inl (hreplaces.mem_old ?_)
      rw [Fragment.nodesOf_singleton]
      exact List.mem_cons_of_mem _ (Fragment.nodesOf_subset hsubset hinside)

/-- Every node after an edit has the shape of one before. -/
theorem edit_shape {test : Fragment → Bool} {change : Fragment → Fragment}
    (hedit : Fragment.Edit change) (h : a.updateFirst? test change = some b) {n' : Node}
    (hn : n' ∈ b.nodes) : ∃ n ∈ a.nodes, n.shape = n'.shape := by
  obtain ⟨_, _, _, hreplaces⟩ := updateFirst?_replaces hedit.id h
  have hmem : n'.shape ∈ a.nodes.map Node.shape := by
    rw [← hedit.shapes hreplaces]
    exact List.mem_map_of_mem hn
  exact List.mem_map.mp hmem

/-- An edit leaves every node its id, its repetition and its instances. -/
theorem edit_nodes {test : Fragment → Bool} {change : Fragment → Fragment}
    (hedit : Fragment.Edit change) (h : a.updateFirst? test change = some b) {n' : Node}
    (hn : n' ∈ b.nodes) :
    ∃ n ∈ a.nodes, n.id = n'.id ∧ n.repetition = n'.repetition ∧ n.instances = n'.instances := by
  obtain ⟨n, hn, hshape⟩ := edit_shape hedit h hn
  exact ⟨n, hn, congrArg (·.id) hshape, congrArg (·.repetition) hshape,
    congrArg (·.instances) hshape⟩

/-- A property of nodes that compiling brings about and no event breaks: it is told by the shape of
a node, and a repeated field keeps it when its instances change. -/
structure Lasting (s : Settings) (P : Node → Prop) : Prop where
  compiled : ∀ {source : Source} {t : Bool} {n m : Nat} {fragments : List Fragment},
    Derives s source t n fragments m → ∀ node ∈ Fragment.nodesOf fragments, P node
  shape : ∀ {node node' : Node}, node.shape = node'.shape → P node → P node'
  append : ∀ {f : Fragment} {i : Instance Fragment}, f.repetition.isSome = true →
    i.removable = true → P f.node → P (appendInstance i f).node
  drop : ∀ {f : Fragment} {id : String}, f.repetition.isSome = true → P f.node →
    P (dropInstance id f).node

/-- What lasts of the nodes of a form holds of all that it evolves to. -/
theorem Evolves.lasting {P : Node → Prop} (hP : Lasting s P) {k : Nat} (h : Evolves s d a k b)
    (ha : ∀ n ∈ a.nodes, P n) : ∀ n ∈ b.nodes, P n := by
  induction h with
  | refl => exact ha
  | edit _ hedit hchange ih =>
      intro n' hn'
      obtain ⟨n, hn, hshape⟩ := edit_shape hedit hchange hn'
      exact hP.shape hshape (ih n hn)
  | add _ hadd ih =>
      obtain ⟨f, r, i, e, hr, _, _, hremovable, hderives, hf, hnodes⟩ := addInstance_nodes hadd
      intro n hn
      rcases hnodes n hn with hold | rfl | hnew
      · exact ih n hold
      · exact hP.append (Option.isSome_of_eq_some hr) hremovable (ih f.node hf)
      · exact hP.compiled hderives n hnew
  | remove _ hremove ih =>
      obtain ⟨f, r, hr, _, hf, hnodes⟩ := removeInstance_nodes hremove
      intro n hn
      rcases hnodes n hn with hold | rfl
      · exact ih n hold
      · exact hP.drop (Option.isSome_of_eq_some hr) (ih f.node hf)

/-- What lasts holds of every node in every form of a session. -/
theorem Lasting.run {P : Node → Prop} (hP : Lasting s P) {history : List Event} {form : Form}
    (h : ((Session.start d s).run history).form = some form) : ∀ n ∈ form.nodes, P n := by
  obtain ⟨focus, generation, _, _, hevolves⟩ := (Session.reached_run d s history).form form h
  exact hevolves.lasting hP (hP.compiled (compile_derives s d focus generation))

/-- A record more is counted if it can be. -/
theorem appendInstance_repetition {f : Fragment} {r : RepeatState} (h : f.repetition = some r)
    (i : Instance Fragment) :
    (appendInstance i f).node.repetition = some (r.add?.getD r) := by
  change f.repetition.map (fun r => r.add?.getD r) = some (r.add?.getD r)
  rw [h]
  rfl

theorem dropInstance_repetition {f : Fragment} {r : RepeatState} (h : f.repetition = some r)
    (id : String) : (dropInstance id f).node.repetition = some (r.remove?.getD r) := by
  change f.repetition.map (fun r => r.remove?.getD r) = some (r.remove?.getD r)
  rw [h]
  rfl

/-- Repeated fields stay counted along a run that adds less than can be counted. -/
theorem Evolves.tidy {k m : Nat} (ha : ∀ n ∈ a.nodes, n.Tidy m) (h : Evolves s d a k b)
    (hk : m + k < RepeatState.countLimit) : ∀ n ∈ b.nodes, n.Tidy (m + k) := by
  induction h with
  | refl => exact ha
  | edit _ hedit hchange ih =>
      intro n' hn' r hr
      obtain ⟨n, hn, _, hrepetition, hinstances⟩ := edit_nodes hedit hchange hn'
      rw [← hrepetition] at hr
      obtain ⟨⟨hcount, hheaders, hremovable, hmax, henabled⟩, hle⟩ := ih hk n hn r hr
      rw [hinstances] at hcount hheaders hremovable
      exact ⟨⟨hcount, hheaders, hremovable, hmax, henabled⟩, hle⟩
  | @add k b c wrapper id _ hadd ih =>
      obtain ⟨f, r, i, e, hr, henabled, hheader, hremovable, hderives, hf, hnodes⟩ :=
        addInstance_nodes hadd
      have hbefore := ih (by omega)
      obtain ⟨hcounted, hle⟩ := hbefore f.node hf r hr
      obtain ⟨hcounted', hcount'⟩ :=
        counted_append hcounted henabled (by omega) hheader hremovable
      intro n hn
      rcases hnodes n hn with hold | rfl | hnew
      · exact (hbefore n hold).mono (by omega)
      · intro r' hr'
        cases (appendInstance_repetition hr i).symm.trans hr'
        exact ⟨hcounted', by omega⟩
      · exact (hderives.unrepeated n hnew).tidy _
  | @remove k b c wrapper id _ hremove ih =>
      obtain ⟨f, r, hr, hany, hf, hnodes⟩ := removeInstance_nodes hremove
      have hbefore := ih hk
      obtain ⟨hcounted, hle⟩ := hbefore f.node hf r hr
      obtain ⟨hcounted', hcount'⟩ := counted_drop hcounted hany
      intro n hn
      rcases hnodes n hn with hold | rfl
      · exact hbefore n hold
      · intro r' hr'
        cases (dropInstance_repetition hr id).symm.trans hr'
        exact ⟨hcounted', by omega⟩

end Form

/-- What stays of a node along a run: whether it is repeated, and the instances if it is not. -/
structure Node.Keeps (n n' : Node) : Prop where
  id : n'.id = n.id
  repeated : n'.repetition = none ↔ n.repetition = none
  instances : n.repetition = none → n'.instances = n.instances

theorem Node.keeps_refl (n : Node) : n.Keeps n := ⟨rfl, Iff.rfl, fun _ => rfl⟩

theorem Node.Keeps.trans {n₁ n₂ n₃ : Node} (h : n₁.Keeps n₂) (h' : n₂.Keeps n₃) :
    n₁.Keeps n₃ := by
  refine ⟨h'.id.trans h.id, h'.repeated.trans h.repeated, ?_⟩
  intro hnone
  exact (h'.instances (h.repeated.mpr hnone)).trans (h.instances hnone)

/-- A repeated field keeps nothing but its id and being repeated. -/
theorem keeps_of_repeated {n n' : Node} {r r' : RepeatState} (hid : n'.id = n.id)
    (hr : n.repetition = some r) (hr' : n'.repetition = some r') : n.Keeps n' := by
  refine ⟨hid, ?_, ?_⟩
  · rw [hr, hr']
    simp
  · intro hnone
    exact absurd (hr.symm.trans hnone) nofun

namespace Form
variable {s : Settings} {d : Document} {a b c : Form}

/-- Every node of a form was there before, up to what may change along a run, or is new. -/
def Inherits (a b : Form) : Prop :=
  ∀ n' ∈ b.nodes, (∃ n ∈ a.nodes, n.Keeps n') ∨ a.counter ≤ (serial n'.id).1

theorem Inherits.trans (h : Inherits a b) (h' : Inherits b c) (hcounter : a.counter ≤ b.counter) :
    Inherits a c := by
  intro n₃ hn₃
  rcases h' n₃ hn₃ with ⟨n₂, hn₂, hkeeps'⟩ | hnew
  · rcases h n₂ hn₂ with ⟨n₁, hn₁, hkeeps⟩ | hnew
    · exact Or.inl ⟨n₁, hn₁, hkeeps.trans hkeeps'⟩
    · rw [← hkeeps'.id] at hnew
      exact Or.inr hnew
  · exact Or.inr (Nat.le_trans hcounter hnew)

/-- Editing keeps the records of all fields. -/
theorem inherits_edit {test : Fragment → Bool} {change : Fragment → Fragment}
    (hedit : Fragment.Edit change) (h : a.updateFirst? test change = some b) : Inherits a b := by
  intro n' hn'
  obtain ⟨n, hn, hid, hrepetition, hinstances⟩ := edit_nodes hedit h hn'
  exact Or.inl ⟨n, hn, hid.symm, by rw [hrepetition], fun _ => hinstances.symm⟩

/-- Adding a record keeps those of the other fields. -/
theorem inherits_add {wrapper id : String}
    (h : a.addInstance s d wrapper = .ok (some (id, b))) : Inherits a b := by
  obtain ⟨f, r, i, e, hr, _, _, _, hderives, hf, hnodes⟩ := addInstance_nodes h
  intro n hn
  rcases hnodes n hn with hold | rfl | hnew
  · exact Or.inl ⟨n, hold, n.keeps_refl⟩
  · exact Or.inl ⟨f.node, hf, keeps_of_repeated rfl hr (appendInstance_repetition hr i)⟩
  · have hid : n.id ∈ Fragment.idsOf i.fragments :=
      List.mem_flatMap.mpr ⟨n, hnew, List.mem_cons_self⟩
    have hbounds := hderives.issued.bounds n.id hid
    exact Or.inr (by omega)

theorem inherits_remove {wrapper id : String} (h : a.removeInstance wrapper id = .ok b) :
    Inherits a b := by
  obtain ⟨f, r, hr, _, hf, hnodes⟩ := removeInstance_nodes h
  intro n hn
  rcases hnodes n hn with hold | rfl
  · exact Or.inl ⟨n, hold, n.keeps_refl⟩
  · exact Or.inl ⟨f.node, hf, keeps_of_repeated rfl hr (dropInstance_repetition hr id)⟩

/-- A form inherits the records of the form it evolved from. -/
theorem Evolves.inherits {k : Nat} (ha : Issued 0 a.counter a.ids) (h : Evolves s d a k b) :
    Inherits a b := by
  induction h with
  | refl =>
      intro n hn
      exact Or.inl ⟨n, hn, n.keeps_refl⟩
  | edit hbefore hedit hchange ih =>
      exact ih.trans (inherits_edit hedit hchange) (hbefore.advances ha).counter
  | add hbefore hadd ih => exact ih.trans (inherits_add hadd) (hbefore.advances ha).counter
  | remove hbefore hremove ih =>
      exact ih.trans (inherits_remove hremove) (hbefore.advances ha).counter

/-- A node is told by its id. -/
theorem node_eq_of_id (h : a.ids.Nodup) {n n' : Node} (hn : n ∈ a.nodes) (hn' : n' ∈ a.nodes)
    (hid : n.id = n'.id) : n = n' := by
  have hn'id : n.id ∈ n'.ids := hid ▸ List.mem_cons_self
  exact eq_of_mem_flatMap h hn hn' List.mem_cons_self hn'id

end Form

namespace Session

/-- In every form that a session can show after fewer additions than can be counted, a repeated
field counts its instances, which are numbered from the second on and can be removed, and offers
another one while there is room. Until the next selection, a field that is not repeated keeps its
instances. -/
theorem repeated_fields_stay_counted {d : Document} {c : Settings} {history : List Event}
    {form : Form} (h : ((start d c).run history).form = some form)
    (hadds : adds history < RepeatState.countLimit) :
    (∀ f ∈ form.all, ∀ r, f.repetition = some r →
      r.count = 1 + f.instances.length ∧
      f.instances.map (·.header) = (List.range' 2 (r.count - 1)).map recordHeader ∧
      (∀ i ∈ f.instances, i.removable = true) ∧
      (∀ max, r.max = some max → r.count ≤ max) ∧
      (r.addEnabled = true ↔ ∀ max, r.max = some max → r.count < max)) ∧
    ∀ events : List Event, (∀ e ∈ events, e.isSelect = false) → ∀ later : Form,
      ((start d c).run (history ++ events)).form = some later →
      ∀ f ∈ form.all, ∀ f' ∈ later.all, f'.id = f.id → f.repetition = none →
        f'.repetition = none ∧
          f'.instances.map (Instance.map (·.id)) = f.instances.map (Instance.map (·.id)) := by
  obtain ⟨focus, generation, n, hn, hevolves⟩ := (reached_run d c history).form form h
  constructor
  · have hcompiled := (Form.compile_derives c d focus generation).unrepeated
    have htidy := hevolves.tidy (m := 0) (fun node hnode => (hcompiled node hnode).tidy 0)
      (by omega)
    intro f hf r hr
    obtain ⟨hcounted, _⟩ := htidy f.node (Form.mem_nodes hf) r hr
    obtain ⟨hcount, hheaders, hremovable, hmax, henabled⟩ := (Form.counted_iff f r).mp hcounted
    have hlength : r.count - 1 = f.instances.length := by omega
    exact ⟨hcount, hlength ▸ hheaders, hremovable, hmax, henabled⟩
  · intro events hevents later hlater f hf f' hf' hid hnone
    obtain ⟨m, _, hlater⟩ := evolves_run hevents h hlater
    have hissued := issued_run h
    rcases hlater.inherits hissued f'.node (Form.mem_nodes hf') with ⟨node, hnode, hkeeps⟩ | hnew
    · have hsame : node = f.node := Form.node_eq_of_id hissued.ids_nodup hnode
        (Form.mem_nodes hf) (hkeeps.id.symm.trans hid)
      subst hsame
      exact ⟨hkeeps.repeated.mpr hnone, hkeeps.instances hnone⟩
    · have hmem : f.id ∈ form.ids :=
        List.mem_flatMap.mpr ⟨f.node, Form.mem_nodes hf, List.mem_cons_self⟩
      have hold := (hissued.bounds f.id hmem).2
      rw [show f'.node.id = f.id from hid] at hnew
      omega

theorem note_stays_counted :
    let history := [Event.select "note", .add "note_0", .add "note_0"]
    ∃ form, ((start note {}).run history).form = some form ∧ adds history < RepeatState.countLimit ∧
      ∀ f ∈ form.all, ∀ r, f.repetition = some r →
        f.instances.map (·.header) = (List.range' 2 (r.count - 1)).map recordHeader ∧
          (r.addEnabled = true ↔ ∀ max, r.max = some max → r.count < max) := by
  intro history
  have hform : ((start note {}).run history).form.isSome := by decide +kernel
  have hadds : adds history < RepeatState.countLimit := by decide
  obtain ⟨form, hform⟩ := Option.isSome_iff_exists.mp hform
  refine ⟨form, hform, hadds, ?_⟩
  intro f hf r hr
  obtain ⟨_, hheaders, _, _, henabled⟩ := (repeated_fields_stay_counted hform hadds).1 f hf r hr
  exact ⟨hheaders, henabled⟩

end Session

end EntryForm
