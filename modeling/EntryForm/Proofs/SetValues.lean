import EntryForm.Proofs.AddAndRemove
import EntryForm.Proofs.TabSets

/-!
# Setting a value

A search that comes back with a place to write to goes through the tree in its own way, and leads to
the fragment that the search by id finds (`Form.hold?_held`). Whatever is changed by its id is
changed at that place. So a value that is set is held by the field that is found, and no other node
of the form is another than before.
-/

namespace EntryForm

/-- Two searches of a row find the same if they do in each item. -/
theorem findSome?_congr {α β : Type} {p q : α → Option β} {row : List α}
    (h : ∀ a ∈ row, p a = q a) : row.findSome? p = row.findSome? q := by
  induction row with
  | nil => rfl
  | cons a rest ih =>
      obtain ⟨hfirst, hrest⟩ := List.forall_mem_cons.mp h
      rw [List.findSome?_cons, List.findSome?_cons, hfirst, ih hrest]

/-- A place inside something: what is held there, and what the whole becomes when something else is
put there. -/
structure Slot (α κ : Type) where
  held : α
  put : α → κ

namespace Slot
variable {α β κ κ' : Type}

/-- A place inside a part, seen from the whole. -/
def into (whole : κ → κ') (s : Slot α κ) : Slot α κ' := ⟨s.held, fun a => whole (s.put a)⟩

/-- The places inside the items of a row. -/
def inRow (inside : β → List (Slot α β)) : List β → List (Slot α (List β))
  | [] => []
  | b :: rest => (inside b).map (into (· :: rest)) ++ (inRow inside rest).map (into (b :: ·))

/-- The places of the items of a row. -/
def ofRow : List α → List (Slot α (List α)) := inRow fun a => [⟨a, fun b => b⟩]

/-- What the whole becomes when what is held is changed, if it can be. -/
def write? (change : α → Option α) (s : Slot α κ) : Option κ := (change s.held).map s.put

theorem held_into (whole : κ → κ') (slots : List (Slot α κ)) :
    (slots.map (into whole)).map held = slots.map held := by
  rw [List.map_map]
  rfl

/-- The slots in a row hold what the slots of its members hold. -/
theorem held_inRow (inside : β → List (Slot α β)) (row : List β) :
    (inRow inside row).map held = row.flatMap fun b => (inside b).map held := by
  induction row with
  | nil => rfl
  | cons b rest ih => rw [inRow, List.map_append, held_into, held_into, ih, List.flatMap_cons]

theorem held_ofRow (row : List α) : (ofRow row).map held = row := by
  rw [ofRow, held_inRow]
  exact List.flatMap_singleton' row

section write
variable {change : α → Option α}

/-- A change through a slot is put into the whole. -/
theorem write?_into (whole : κ → κ') (slots : List (Slot α κ)) :
    (slots.map (into whole)).findSome? (write? change) =
      (slots.findSome? (write? change)).map whole := by
  rw [List.findSome?_map, List.map_findSome?]
  congr 1
  funext s
  rw [Function.comp_apply, Function.comp_apply, write?, write?, Option.map_map]
  rfl

/-- In a row, the first item inside which something can be changed is changed. -/
theorem write?_inRow_cons (inside : β → List (Slot α β)) (b : β) (rest : List β) :
    (inRow inside (b :: rest)).findSome? (write? change) =
      (((inside b).findSome? (write? change)).map (· :: rest)).or
        (((inRow inside rest).findSome? (write? change)).map (b :: ·)) := by
  rw [inRow, List.findSome?_append, write?_into, write?_into]

/-- A change in a row is in its first member or in the rest. -/
theorem write?_ofRow_cons (a : α) (rest : List α) :
    (ofRow (a :: rest)).findSome? (write? change) =
      ((change a).map (· :: rest)).or (((ofRow rest).findSome? (write? change)).map (a :: ·)) := by
  have hone : List.findSome? (write? change) [(⟨a, fun b => b⟩ : Slot α α)] = change a := by
    cases h : change a <;> simp [write?, h]
  rw [ofRow, write?_inRow_cons, hone]

end write

end Slot

namespace Fragment

/-- The places of the fragments of a tab. -/
def tabSlots (tab : Tab Fragment) : List (Slot Fragment (Tab Fragment)) :=
  (Slot.ofRow tab.fragments).map (Slot.into fun fragments => { tab with fragments })

/-- The places of the fragments of an instance. -/
def instanceSlots (i : Instance Fragment) : List (Slot Fragment (Instance Fragment)) :=
  (Slot.ofRow i.fragments).map (Slot.into fun fragments => { i with fragments })

/-- The places of the fragments of a widget. -/
def widgetSlots : Widget Fragment → List (Slot Fragment (Widget Fragment))
  | .group children => (Slot.ofRow children).map (Slot.into .group)
  | .tabs row => (Slot.inRow tabSlots row).map (Slot.into .tabs)
  | _ => []

/-- The places right inside a fragment: those of its widget, then those of its instances. -/
def slots (f : Fragment) : List (Slot Fragment Fragment) :=
  (widgetSlots f.widget).map (Slot.into fun widget => { f with widget }) ++
    (Slot.inRow instanceSlots f.instances).map (Slot.into fun instances => { f with instances })

/-- The slots of a fragment hold what is right inside it. -/
theorem held_slots (f : Fragment) : f.slots.map Slot.held = f.children := by
  have hwidget : (widgetSlots f.widget).map Slot.held = f.widget.children := by
    cases f.widget with
    | group children => rw [widgetSlots, Slot.held_into, Slot.held_ofRow, Widget.children]
    | tabs row =>
        rw [widgetSlots, Slot.held_into, Slot.held_inRow, Widget.children]
        congr 1
        funext tab
        rw [tabSlots, Slot.held_into, Slot.held_ofRow]
    | _ => rfl
  rw [slots, List.map_append, Slot.held_into, Slot.held_into, Slot.held_inRow, hwidget, children]
  congr 2
  funext i
  rw [instanceSlots, Slot.held_into, Slot.held_ofRow]

theorem held_mem_children {f : Fragment} {s : Slot Fragment Fragment} (h : s ∈ f.slots) :
    s.held ∈ f.children :=
  held_slots f ▸ List.mem_map_of_mem h

/-- What is right inside a fragment is smaller, so that the search ends. -/
theorem sizeOf_child {f child : Fragment} (h : child ∈ f.children) : sizeOf child < sizeOf f := by
  obtain ⟨field, widget, instances⟩ := f
  have hwidget : child ∈ widget.children → sizeOf child < sizeOf widget := by
    intro hchild
    cases widget with
    | group children =>
        have hlt : sizeOf child < sizeOf children := List.sizeOf_lt_of_mem hchild
        simp only [Widget.group.sizeOf_spec]
        omega
    | tabs row =>
        obtain ⟨tab, htab, hchild⟩ := List.mem_flatMap.mp hchild
        have hrow := List.sizeOf_lt_of_mem htab
        obtain ⟨_, _, _, _, fragments⟩ := tab
        have hlt : sizeOf child < sizeOf fragments := List.sizeOf_lt_of_mem hchild
        simp only [Tab.mk.sizeOf_spec] at hrow
        simp only [Widget.tabs.sizeOf_spec]
        omega
    | _ => cases hchild
  have hinstances : child ∈ instances.flatMap Instance.fragments →
      sizeOf child < sizeOf instances := by
    intro hchild
    obtain ⟨i, hi, hchild⟩ := List.mem_flatMap.mp hchild
    have hrow := List.sizeOf_lt_of_mem hi
    obtain ⟨_, _, _, fragments⟩ := i
    have hlt : sizeOf child < sizeOf fragments := List.sizeOf_lt_of_mem hchild
    simp only [Instance.mk.sizeOf_spec] at hrow
    omega
  simp only [Fragment.mk.sizeOf_spec]
  rcases List.mem_append.mp h with hchild | hchild
  · have hlt := hwidget hchild
    omega
  · have hlt := hinstances hchild
    omega

/-- Looks for the first fragment with an id, and comes back with its place. -/
def hold? (id : String) (f : Fragment) : Option (Slot Fragment Fragment) :=
  if f.id == id then some ⟨f, fun g => g⟩
  else f.slots.attach.findSome? fun ⟨s, _⟩ => (hold? id s.held).map (Slot.into s.put)
termination_by sizeOf f
decreasing_by exact sizeOf_child (held_mem_children ‹_›)

/-- A fragment is held itself, or through one of its slots. -/
theorem hold?_eq (id : String) (f : Fragment) :
    hold? id f = if f.id == id then some ⟨f, fun g => g⟩
      else f.slots.findSome? fun s => (hold? id s.held).map (Slot.into s.put) := by
  rw [hold?]
  congr 1
  conv_rhs => rw [← List.attach_map_subtype_val f.slots, List.findSome?_map]
  rfl

/-- The search by id looks at a fragment, and then through what is right inside it. -/
theorem find?_all (test : Fragment → Bool) (f : Fragment) :
    f.all.find? test =
      if test f then some f else f.children.findSome? fun child => child.all.find? test := by
  rw [all_eq, List.find?_cons, allOf_eq_flatMap, List.find?_flatMap]
  cases test f <;> rfl

/-- The search for a place leads to the fragment that the search by id finds. -/
theorem hold?_held (id : String) (f : Fragment) :
    (hold? id f).map Slot.held = f.all.find? (·.id == id) := by
  induction f using children_induction with
  | step f ih =>
      rw [hold?_eq, find?_all]
      split
      · rfl
      · rw [← held_slots, List.findSome?_map, List.map_findSome?]
        apply findSome?_congr
        intro s hs
        rw [Function.comp_apply, Function.comp_apply, ← ih s.held (held_mem_children hs),
          Option.map_map]
        rfl

section update
variable {test : Fragment → Bool} {change : Fragment → Fragment}

theorem updateRow?_eq_slots (row : List Fragment) :
    updateRow? test change row =
      (Slot.ofRow row).findSome? (Slot.write? (updateFirst? test change)) := by
  induction row with
  | nil => rfl
  | cons f rest ih =>
      rw [updateRow?, Slot.write?_ofRow_cons, ih]
      cases updateFirst? test change f <;> rfl

theorem updateTabs?_eq_slots (row : List (Tab Fragment)) :
    updateTabs? test change row =
      (Slot.inRow tabSlots row).findSome? (Slot.write? (updateFirst? test change)) := by
  induction row with
  | nil => rfl
  | cons tab rest ih =>
      rw [updateTabs?, Slot.write?_inRow_cons, tabSlots, Slot.write?_into, ih, updateRow?_eq_slots]
      cases (Slot.ofRow tab.fragments).findSome? _ <;> rfl

theorem updateInstances?_eq_slots (instances : List (Instance Fragment)) :
    updateInstances? test change instances =
      (Slot.inRow instanceSlots instances).findSome?
        (Slot.write? (updateFirst? test change)) := by
  induction instances with
  | nil => rfl
  | cons i rest ih =>
      rw [updateInstances?, Slot.write?_inRow_cons, instanceSlots, Slot.write?_into, ih,
        updateRow?_eq_slots]
      cases (Slot.ofRow i.fragments).findSome? _ <;> rfl

theorem updateWidget?_eq_slots (widget : Widget Fragment) :
    updateWidget? test change widget =
      (widgetSlots widget).findSome? (Slot.write? (updateFirst? test change)) := by
  cases widget with
  | group children => rw [updateWidget?, widgetSlots, Slot.write?_into, updateRow?_eq_slots]
  | tabs row => rw [updateWidget?, widgetSlots, Slot.write?_into, updateTabs?_eq_slots]
  | _ => rfl

/-- Changing the first fragment is changing itself, or what one of its slots holds. -/
theorem updateFirst?_eq_slots (f : Fragment) :
    updateFirst? test change f =
      if test f then some (change f)
      else f.slots.findSome? (Slot.write? (updateFirst? test change)) := by
  split
  case isTrue htest => exact updateFirst?_self htest
  case isFalse htest =>
    rw [updateFirst?_below (Bool.eq_false_iff.mpr htest), slots, List.findSome?_append,
      Slot.write?_into, Slot.write?_into, updateWidget?_eq_slots, updateInstances?_eq_slots]

end update

/-- What is changed by its id is changed at the place that is found. -/
theorem updateFirst?_eq_put (id : String) (change : Fragment → Fragment) (f : Fragment) :
    updateFirst? (·.id == id) change f =
      (hold? id f).map fun s => s.put (change s.held) := by
  induction f using children_induction with
  | step f ih =>
      rw [updateFirst?_eq_slots, hold?_eq]
      split
      · rfl
      · rw [List.map_findSome?]
        apply findSome?_congr
        intro s hs
        rw [Slot.write?, ih s.held (held_mem_children hs), Function.comp_apply, Option.map_map,
          Option.map_map]
        rfl

end Fragment

namespace Form

/-- Looks for the first fragment with an id, and comes back with its place in the form. -/
def hold? (id : String) (form : Form) : Option (Slot Fragment Form) :=
  (Slot.ofRow form.fragments).findSome? fun s =>
    (s.held.hold? id).map (Slot.into fun f => { form with state := .fields (s.put f) })

variable {form : Form}

/-- What is held is what is found. -/
theorem hold?_held (id : String) (form : Form) :
    (form.hold? id).map Slot.held = form.find? id := by
  rw [hold?, find?, all, Fragment.allOf_eq_flatMap, List.find?_flatMap, List.map_findSome?]
  conv_rhs => rw [← Slot.held_ofRow form.fragments, List.findSome?_map]
  congr 1
  funext s
  rw [Function.comp_apply, Function.comp_apply, ← Fragment.hold?_held, Option.map_map]
  rfl

theorem updateFirst?_eq_put (id : String) (change : Fragment → Fragment) (form : Form) :
    form.updateFirst? (·.id == id) change =
      (form.hold? id).map fun s => s.put (change s.held) := by
  rw [updateFirst?, Fragment.updateRow?_eq_slots, hold?, List.map_findSome?, List.map_findSome?]
  congr 1
  funext s
  rw [Function.comp_apply, Function.comp_apply, Slot.write?, Fragment.updateFirst?_eq_put,
    Option.map_map, Option.map_map, Option.map_map]
  rfl

/-- A value is put in its place, if there is a field with the id that holds one. -/
theorem setValue?_eq_put (id : String) (value : Json) (form : Form) :
    form.setValue? id value =
      (form.hold? id).bind fun s =>
        if s.held.widget.isInput then some (s.put { s.held with value := some value })
        else none := by
  have hupdate := updateFirst?_eq_put id (fun f => { f with value := some value }) form
  rw [setValue?, ← hold?_held]
  cases hhold : form.hold? id with
  | none => rfl
  | some s =>
      rw [hhold] at hupdate
      rw [update, hupdate]
      rfl

/-- The field that is set is found with its value, and all other nodes are as they were. The ids
stay distinct, so that the search afterwards comes to the same place. -/
theorem setValue?_replaces_node {id : String} {value : Json} {after : Form}
    (hissued : Issued 0 form.counter form.ids) (h : form.setValue? id value = some after) :
    ∃ f fragments before rest, form.find? id = some f ∧
      after = { form with state := .fields fragments } ∧
      after.find? id = some { f with value := some value } ∧
      form.nodes = before ++ f.node :: rest ∧
      after.nodes = before ++ { f.node with value := some value } :: rest := by
  obtain ⟨f, hfind, rfl⟩ := setValue?_some h
  let change : Fragment → Fragment := fun f => { f with value := some value }
  have hid : ∀ f, (change f).id = f.id := fun _ => rfl
  have hevolves : Evolves {} {} form 0 (form.update id change) := evolves_setValue h
  have hnodup := (hevolves.advances hissued).issued.ids_nodup
  obtain ⟨left, right, hbefore, hafter⟩ := update_replaces change hid hfind
  rw [Fragment.nodesOf_singleton, List.append_assoc, List.cons_append] at hbefore hafter
  exact ⟨f, (form.update id change).fragments, left, _, hfind, update_fields hid hfind,
    find?_update hid hfind hnodup, hbefore, hafter⟩

/-- A value is set exactly if the id leads to an input. -/
theorem setValue?_isSome (id : String) (value : Json) (form : Form) :
    (form.setValue? id value).isSome ↔ ∃ f, form.find? id = some f ∧ f.widget.isInput = true := by
  rw [setValue?]
  cases form.find? id with
  | none => simp
  | some f => cases hinput : f.widget.isInput <;> simp [hinput]

end Form

namespace Session

/-- A search that comes back with a place to write to leads to the fragment that is found by the id,
and a value is written there. It is taken exactly if a field that holds values is found. Then the
field is found with this value, and nothing else of the session is another than before: in the row
of all nodes, only the value of the node of the field is new. -/
theorem set_value_changes_one_node (d : Document) (c : Settings) (history : List Event) :
    let s := (start d c).run history
    (∀ (form : Form) (id : String), (form.hold? id).map Slot.held = form.find? id ∧
      ∀ value, form.setValue? id value =
        (form.hold? id).bind fun place =>
          if place.held.widget.isInput then some (place.put { place.held with value := some value })
          else none) ∧
    ∀ (id : String) (value : Json),
      ((s.setValue? id value).isSome ↔
        ∃ form f, s.form = some form ∧ form.find? id = some f ∧ f.widget.isInput = true) ∧
      ∀ after, s.setValue? id value = some after →
        ∃ form f fragments before rest, s.form = some form ∧ form.find? id = some f ∧
          after = { s with form := some { form with state := .fields fragments } } ∧
          ({ form with state := .fields fragments } : Form).find? id =
            some { f with value := some value } ∧
          form.nodes = before ++ f.node :: rest ∧
          Fragment.nodesOf fragments = before ++ { f.node with value := some value } :: rest := by
  intro s
  refine ⟨?_, fun id value => ⟨?_, ?_⟩⟩
  · intro form id
    exact ⟨Form.hold?_held id form, fun value => Form.setValue?_eq_put id value form⟩
  · cases hform : s.form with
    | none => simp [setValue?, change?, hform]
    | some form =>
        rw [setValue?, change?, hform, Option.isSome_map, Option.bind_some, Form.setValue?_isSome]
        simp
  · intro after hafter
    obtain ⟨form', hset, rfl⟩ := Option.map_eq_some_iff.mp hafter
    obtain ⟨form, hform, hset⟩ := Option.bind_eq_some_iff.mp hset
    obtain ⟨f, fragments, before, rest, hfind, rfl, hfound, hbefore, hrest⟩ :=
      Form.setValue?_replaces_node (issued_run hform) hset
    exact ⟨form, f, fragments, before, rest, hform, hfind, rfl, hfound, hbefore, hrest⟩

/-- The field of a tab that is not shown takes a value. -/
theorem hidden_tab_takes_value :
    let s := (start choice {}).run [.select "d"]
    ∃ form f fragments before rest, s.form = some form ∧ form.find? "b_4" = some f ∧
      s.setValue? "b_4" (.str "x") =
        some { s with form := some { form with state := .fields fragments } } ∧
      ({ form with state := .fields fragments } : Form).find? "b_4" =
        some { f with value := some (.str "x") } ∧
      form.nodes = before ++ f.node :: rest ∧
      Fragment.nodesOf fragments = before ++ { f.node with value := some (.str "x") } :: rest := by
  intro s
  obtain ⟨_, hset⟩ := set_value_changes_one_node choice {} [.select "d"]
  obtain ⟨_, hdone⟩ := hset "b_4" (.str "x")
  have hsome : (s.setValue? "b_4" (.str "x")).isSome := by decide +kernel
  obtain ⟨after, hafter⟩ := Option.isSome_iff_exists.mp hsome
  obtain ⟨form, f, fragments, before, rest, hform, hfind, rfl, hfound, hbefore, hrest⟩ :=
    hdone after hafter
  exact ⟨form, f, fragments, before, rest, hform, hfind, hafter, hfound, hbefore, hrest⟩

end Session

end EntryForm
