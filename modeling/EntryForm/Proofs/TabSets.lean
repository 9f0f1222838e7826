import EntryForm.Proofs.HiddenFields
import EntryForm.Proofs.OwnRecords

/-!
# Tab sets

One tab of a tab set is active, and showing a tab makes it the active one of its set and changes
nothing else. What is compiled inside a tab is not collapsible. A record that is added later is
compiled as if no tab lay around it, so it may hold closed fields even there.
-/

namespace EntryForm

/-- A tab that is not shown. -/
def Tab.hide {φ : Type} (tab : Tab φ) : Tab φ := { tab with active := false }

namespace Widget
variable {φ : Type}

/-- Showing one tab of a row with distinct ids hides the tabs before and after it. -/
theorem exists_split_of_ownsTab {row : List (Tab φ)} (hnodup : (row.map (·.id)).Nodup)
    {id : String} (howns : (tabs row).ownsTab id = true) :
    ∃ left tab right, row = left ++ tab :: right ∧ tab.id = id ∧
      (tabs row).showTab id =
        tabs (left.map Tab.hide ++ { tab with active := true } :: right.map Tab.hide) := by
  obtain ⟨tab, htab, hid⟩ := List.any_eq_true.mp howns
  obtain rfl : tab.id = id := by simpa using hid
  obtain ⟨left, right, rfl⟩ := List.append_of_mem htab
  refine ⟨left, tab, right, rfl, rfl, ?_⟩
  simp only [List.map_append, List.map_cons] at hnodup
  have hother : ∀ other ∈ left ++ right, other.id ≠ tab.id := by
    intro other hmem heq
    have hnotMem := (List.nodup_cons.mp (List.nodup_middle.mp hnodup)).1
    apply hnotMem
    rw [← List.map_append, ← heq]
    exact List.mem_map_of_mem hmem
  have hhide : ∀ other ∈ left ++ right,
      { other with active := other.id == tab.id } = other.hide := by
    intro other hmem
    simp [Tab.hide, hother other hmem]
  simp only [showTab, List.map_append, List.map_cons, beq_self_eq_true]
  rw [List.map_congr_left fun other h => hhide other (List.mem_append_left _ h),
    List.map_congr_left fun other h => hhide other (List.mem_append_right _ h)]

theorem countP_hide (row : List (Tab φ)) : (row.map Tab.hide).countP (·.active) = 0 := by
  rw [List.countP_eq_zero]
  intro tab htab
  obtain ⟨shown, _, rfl⟩ := List.mem_map.mp htab
  simp [Tab.hide]

end Widget

/-- If a node is a tab set, its tabs have distinct ids, and one of them is active. -/
def Node.ShowsOneTab (n : Node) : Prop :=
  ∀ row, n.widget = .tabs row → (row.map (·.id)).Nodup ∧ row.countP (·.active) = 1

/-- The compiler shows one tab of each set, and every change keeps it so. -/
theorem steady_showsOneTab (s : Settings) : Steady s fun _ n => n.ShowsOneTab where
  frame := by
    intro e wrapped t id widget htabs row hrow
    have hmap : (widget.map (·.id)).isTabs = true := congrArg Widget.isTabs hrow
    rw [Widget.isTabs_map, htabs] at hmap
    cases hmap
  record := fun _ _ _ h => h
  tabs := by
    intro e t id row hnodup hone row' hrow
    obtain rfl : row.map (Tab.map (·.id)) = row' := Widget.tabs.inj hrow
    rw [List.map_map, List.countP_map]
    exact ⟨hnodup, hone⟩
  like := by
    intro t n n' hlike h row hrow
    exact h row (hlike.widget.symm.trans hrow)
  activate := by
    intro t n id howns h row hrow
    cases hwidget : n.widget with
    | tabs shown =>
        obtain ⟨hnodup, _⟩ := h shown hwidget
        simp only [hwidget] at howns hrow
        obtain ⟨left, tab, right, rfl, _, hshow⟩ :=
          Widget.exists_split_of_ownsTab hnodup howns
        rw [hshow] at hrow
        obtain rfl := Widget.tabs.inj hrow
        constructor
        · simpa [Tab.hide, Function.comp_def] using hnodup
        · rw [List.countP_append, List.countP_cons, Widget.countP_hide, Widget.countP_hide]
          rfl
    | _ => rw [hwidget] at howns; cases howns

namespace Form
variable {s : Settings} {a b : Form}

/-- Whether a tab of some tab set has an id. -/
def HasTab (form : Form) (id : String) : Prop :=
  ∃ g ∈ form.all, ∃ row, g.widget = .tabs row ∧ ∃ tab ∈ row, tab.id = id

/-- The tab with an id, which only one set has, is shown in place of the others of its set. The node
of the set is the only one that changes, and `Fragment.nodesOf_injective` tells that nodes leave
nothing out. -/
inductive Activates (id : String) (a : Form) : Form → Prop
  | intro {fragments : List Fragment} {g : Fragment} {left right : List (Tab Fragment)}
      {tab : Tab Fragment} {before after : List Node} :
      g ∈ a.all → (∀ g' ∈ a.all, g'.widget.ownsTab id = true → g' = g) →
        g.widget = .tabs (left ++ tab :: right) → tab.id = id →
        a.nodes = before ++ g.node :: after →
          Fragment.nodesOf fragments = before ++
            { g with
              widget := .tabs (left.map Tab.hide ++
                { tab with active := true } :: right.map Tab.hide) }.node :: after →
            Activates id a { a with state := .fields fragments }

theorem ownsTab_iff {g : Fragment} {id : String} :
    g.widget.ownsTab id = true ↔ ∃ row, g.widget = .tabs row ∧ ∃ tab ∈ row, tab.id = id := by
  cases g.widget <;> simp [Widget.ownsTab]

/-- A tab is shown exactly if there is one of the id. -/
theorem activateTab?_isSome {id : String} : (a.activateTab? id).isSome ↔ a.HasTab id := by
  let owns (g : Fragment) : Bool := g.widget.ownsTab id
  have hnone : Fragment.updateRow? owns (fun g => { g with widget := g.widget.showTab id })
      a.fragments = none ↔ a.all.find? owns = none :=
    Fragment.updateRow?_eq_none_iff (Fragment.edit_showTab id).id a.fragments
  calc (a.activateTab? id).isSome
      ↔ (a.all.find? owns).isSome := by
        rw [activateTab?, updateFirst?, Option.isSome_map, Option.isSome_iff_ne_none,
          Option.isSome_iff_ne_none]
        exact not_congr hnone
    _ ↔ a.HasTab id := by
        rw [List.find?_isSome]
        exact exists_congr fun g => and_congr_right fun _ => ownsTab_iff

/-- The tabs of a set have distinct ids and one of them is active. -/
theorem Placed.showsOneTab (h : a.Placed fun _ n => n.ShowsOneTab) {g : Fragment} (hg : g ∈ a.all)
    {row : List (Tab Fragment)} (hwidget : g.widget = .tabs row) :
    (row.map (·.id)).Nodup ∧ row.countP (·.active) = 1 := by
  obtain ⟨_, hshows⟩ := nodes_of_placed h g.node (mem_nodes hg)
  have hnode : g.node.widget = .tabs (row.map (Tab.map (·.id))) := by
    rw [Fragment.node, hwidget, Widget.map]
  have hrow := hshows _ hnode
  rw [List.map_map, List.countP_map] at hrow
  exact hrow

/-- No two tab sets have a tab with the same id. -/
theorem eq_of_ownsTab (h : a.ids.Nodup) {id : String} {g g' : Fragment} (hg : g ∈ a.all)
    (hg' : g' ∈ a.all) (howns : g.widget.ownsTab id = true) (howns' : g'.widget.ownsTab id = true) :
    g = g' := by
  have hmem {f : Fragment} (hf : f.widget.ownsTab id = true) : id ∈ f.node.ids := by
    obtain ⟨row, hwidget, tab, htab, rfl⟩ := ownsTab_iff.mp hf
    have hids : f.node.widget.ids = row.map (·.id) := by
      rw [Fragment.node, Widget.ids_map, hwidget, Widget.ids]
    refine List.mem_cons_of_mem _ (List.mem_append_left _ ?_)
    rw [hids]
    exact List.mem_map_of_mem htab
  rw [ids, nodes, Fragment.nodesOf, List.flatMap_map] at h
  exact eq_of_mem_flatMap h hg hg' (hmem howns) (hmem howns')

/-- Showing a tab hides the others of its set and leaves the other sets. -/
theorem Activates.of_activateTab (hids : a.ids.Nodup)
    (hone : a.Placed fun _ n => n.ShowsOneTab) {id : String}
    (h : a.activateTab? id = some b) : a.Activates id b := by
  have hedit := Fragment.edit_showTab id
  obtain ⟨fragments, hrow, rfl⟩ := Option.map_eq_some_iff.mp h
  obtain ⟨g, hfind, before, after, ha, hb⟩ := Fragment.updateRow?_eq_some hedit.id hrow
  have hg : g ∈ a.all := List.mem_of_find?_eq_some hfind
  have howns : g.widget.ownsTab id = true := by simpa using List.find?_some hfind
  obtain ⟨row, hwidget, _⟩ := ownsTab_iff.mp howns
  have honly : ∀ g' ∈ a.all, g'.widget.ownsTab id = true → g' = g := by
    intro g' hg' howns'
    exact eq_of_ownsTab hids hg' hg howns' howns
  have hnodup := (hone.showsOneTab hg hwidget).1
  rw [hwidget] at howns
  obtain ⟨left, tab, right, rfl, hid, hshow⟩ := Widget.exists_split_of_ownsTab hnodup howns
  rw [Fragment.nodesOf_singleton, List.append_assoc, List.cons_append] at ha hb
  refine .intro hg honly hwidget hid ha ?_
  rw [← hshow, ← hwidget, ← hedit.children g]
  exact hb

end Form

namespace Session

/-- One tab of every tab set is active. A tab is activated whenever there is one with the id, and
that changes its set only. -/
theorem one_tab_is_active (d : Document) (c : Settings) (history : List Event) :
    let s := (start d c).run history
    (∀ form, s.form = some form → ∀ g ∈ form.all, ∀ row, g.widget = .tabs row →
      row ≠ [] ∧ row.countP (·.active) = 1) ∧
    ∀ id,
      ((s.activateTab? id).isSome ↔ ∃ form, s.form = some form ∧ form.HasTab id) ∧
      (∀ after, s.activateTab? id = some after →
        ∃ form form', s.form = some form ∧ form.Activates id form' ∧
          after = { s with form := some form' }) ∧
      (s.activateTab? id = none → s.step (.activate id) = s) := by
  intro s
  have hplaced (form : Form) (hform : s.form = some form) :
      form.Placed fun _ n => n.ShowsOneTab := placed_run (steady_showsOneTab c) hform
  constructor
  · intro form hform g hg row hwidget
    have hone := ((hplaced form hform).showsOneTab hg hwidget).2
    constructor
    · rintro rfl
      cases hone
    · exact hone
  · intro id
    refine ⟨?_, ?_, ?_⟩
    · cases hform : s.form with
      | none => simp [activateTab?, change?, hform]
      | some form =>
          rw [activateTab?, change?, hform, Option.isSome_map, Option.bind_some,
            Form.activateTab?_isSome]
          simp
    · intro after hafter
      obtain ⟨form', hform', rfl⟩ := Option.map_eq_some_iff.mp hafter
      obtain ⟨form, hform, hactivate⟩ := Option.bind_eq_some_iff.mp hform'
      have hids := (issued_run hform).ids_nodup
      exact ⟨form, form', hform, .of_activateTab hids (hplaced form hform) hactivate, rfl⟩
    · intro hnone
      rw [step, hnone]
      rfl

/-- A document with a field of one of two kinds. -/
def choice : Document :=
  let text (id : String) : Entity := { id, datatype := some "xmls:string" }
  { specifications :=
      ⟨[("d",
        { id := "d", datatype := some "disjunction",
          components := ⟨[("a", text "a"), ("b", text "b")]⟩ })]⟩ }

/-- The second tab can be shown. -/
theorem second_tab_is_activated :
    let s := (start choice {}).run [.select "d"]
    ∃ form form', s.form = some form ∧ form.Activates "panel_d_0_b_3" form' ∧
      s.activateTab? "panel_d_0_b_3" = some { s with form := some form' } := by
  intro s
  obtain ⟨_, hactivate⟩ := one_tab_is_active choice {} [.select "d"]
  obtain ⟨_, hdone, _⟩ := hactivate "panel_d_0_b_3"
  have hsome : (s.activateTab? "panel_d_0_b_3").isSome := by decide +kernel
  obtain ⟨after, hafter⟩ := Option.isSome_iff_exists.mp hsome
  obtain ⟨form, form', hform, hactivates, rfl⟩ := hdone after hafter
  exact ⟨form, form', hform, hactivates, hafter⟩

end Session

open Fragment in
/-- A property for what lies in a tab and is not part of a record that was added. -/
theorem Fragment.Placed.of_unadded {P : Bool → Node → Prop} {t : Bool} {f x : Fragment}
    (h : Fragment.Placed P t x) (ht : t = true) (hf : f ∈ allOf [x])
    (hadded : ∀ w ∈ allOf [x], ∀ i ∈ w.instances, i.removable = true → f ∉ allOf i.fragments) :
    P true f.node := by
  induction h with
  | @intro t x hnode hwidget hinstances ih ihinstances =>
      subst ht
      have hbelow {y : Fragment} (hy : y ∈ x.children) :
          ∀ w ∈ allOf [y], ∀ i ∈ w.instances, i.removable = true → f ∉ allOf i.fragments := by
        intro w hw
        apply hadded w
        exact mem_allOf_singleton.mpr (Or.inr (mem_allOf.mpr ⟨y, hy, hw⟩))
      rcases mem_allOf_singleton.mp hf with rfl | hf
      · exact hnode
      rcases mem_allOf_children.mp hf with hf | ⟨i, hi, hf⟩
      · obtain ⟨y, hy, hfy⟩ := mem_allOf.mp hf
        exact ih y hy rfl hfy (hbelow (List.mem_append_left _ hy))
      · have hkept : i.removable = false := by
          rw [Bool.eq_false_iff]
          intro hremovable
          exact hadded x (mem_allOf_singleton.mpr (Or.inl rfl)) i hi hremovable hf
        obtain ⟨y, hy, hfy⟩ := mem_allOf.mp hf
        apply ihinstances i hi y hy (by rw [hkept]; rfl) hfy
        exact hbelow (List.mem_append_right _ (List.mem_flatMap.mpr ⟨i, hi, hy⟩))

namespace Session

/-- What lies in a tab is neither collapsible nor closed, unless it is part of a record that was
added in the tab. -/
theorem shown_in_tabs {d : Document} {c : Settings} {history : List Event} {form : Form}
    (h : ((start d c).run history).form = some form) {g : Fragment} (hg : g ∈ form.all)
    (htabs : g.widget.isTabs = true) {f : Fragment} (hf : f ∈ Fragment.allOf g.widget.children)
    (hadded : ∀ w ∈ Fragment.allOf g.widget.children, ∀ i ∈ w.instances, i.removable = true →
      f ∉ Fragment.allOf i.fragments) :
    f.collapsible = false ∧ f.collapsed = false := by
  obtain ⟨top, htop, hgtop⟩ := Fragment.mem_allOf.mp hg
  obtain ⟨t, hset⟩ := (placed_run (steady_foldsBy c) h top htop).mem hgtop
  obtain ⟨x, hx, hfx⟩ := Fragment.mem_allOf.mp hf
  have hinside := hset.filled.widget x hx
  rw [htabs, Bool.or_true] at hinside
  have hfolds : f.node.FoldsBy c true := by
    apply hinside.of_unadded rfl hfx
    intro w hw
    exact hadded w (Fragment.mem_allOf.mpr ⟨x, hx, hw⟩)
  have hcollapsible : f.node.collapsible = false := by simpa [Node.FoldsBy] using hfolds
  have hform : f ∈ form.all := by
    apply Fragment.mem_allOf_trans _ hg
    exact Fragment.mem_allOf_singleton.mpr (Or.inr (Fragment.mem_allOf_children.mpr (Or.inl hf)))
  refine ⟨hcollapsible, ?_⟩
  rw [Bool.eq_false_iff]
  intro hcollapsed
  have hclosed := ((agrees_run d c history).some form h).closed f.node (Form.mem_nodes hform)
    hcollapsed
  rw [hcollapsible] at hclosed
  cases hclosed

/-- The text of a document with a field that takes records in a tab. A record is one optional
field. -/
def tabbedText : String :=
  "\x7b\"specifications\":\x7b\"d\":\x7b\"id\":\"d\",\"datatype\":\"disjunction\"," ++
    "\"components\":\x7b\"g\":\x7b\"id\":\"g\",\"datatype\":\"model\",\"maxCardinality\":3," ++
    "\"components\":\x7b\"x\":\x7b\"id\":\"x\",\"datatype\":\"xmls:string\"," ++
    "\"maxCardinality\":1\x7d\x7d\x7d\x7d\x7d\x7d\x7d"

/-- A record that is added to `tabbedText` holds a closed field beside the one that was there. -/
theorem tabbedText_run :
    (Document.ofText tabbedText).toOption.any (fun d =>
      ((start d { minimalForm := true }).run [.select "d", .add "g_3"]).form.any fun form =>
        decide (∃ g ∈ form.all, g.widget.isTabs = true ∧
          (∃ f ∈ Fragment.allOf g.widget.children, f.id = "x_2" ∧
            ∀ w ∈ Fragment.allOf g.widget.children, ∀ i ∈ w.instances, i.removable = true →
              ∀ y ∈ Fragment.allOf i.fragments, y.id ≠ f.id) ∧
          ∃ f ∈ Fragment.allOf g.widget.children, f.id = "x_5" ∧
            f.collapsible = true ∧ f.collapsed = true)) = true := by
  decide +kernel

/-- The field that a tab holds from the start stays in sight when a record is added. -/
theorem first_record_is_shown :
    ∃ d form g f, Document.ofText tabbedText = .ok d ∧
      ((start d { minimalForm := true }).run [.select "d", .add "g_3"]).form = some form ∧
      g ∈ form.all ∧ g.widget.isTabs = true ∧ f ∈ Fragment.allOf g.widget.children ∧
      f.id = "x_2" ∧ f.collapsible = false ∧ f.collapsed = false := by
  obtain ⟨d, hd, hrun⟩ := exists_of_reads tabbedText_run
  obtain ⟨form, hform, hfound⟩ := (Option.any_eq_true _ _).mp hrun
  obtain ⟨g, hg, htabs, ⟨f, hf, hid, hapart⟩, _⟩ := of_decide_eq_true hfound
  refine ⟨d, form, g, f, hd, hform, hg, htabs, hf, hid, ?_⟩
  apply shown_in_tabs hform hg htabs hf
  intro w hw i hi hremovable hmem
  exact hapart w hw i hi hremovable f hmem rfl

/-- A field of a record that is added in a tab can be closed. -/
theorem added_record_is_hidden :
    ∃ d form g f, Document.ofText tabbedText = .ok d ∧
      ((start d { minimalForm := true }).run [.select "d", .add "g_3"]).form = some form ∧
      g ∈ form.all ∧ g.widget.isTabs = true ∧ f ∈ Fragment.allOf g.widget.children ∧
      f.id = "x_5" ∧ f.collapsible = true ∧ f.collapsed = true := by
  obtain ⟨d, hd, hrun⟩ := exists_of_reads tabbedText_run
  obtain ⟨form, hform, hfound⟩ := (Option.any_eq_true _ _).mp hrun
  obtain ⟨g, hg, htabs, _, f, hf, hhidden⟩ := of_decide_eq_true hfound
  exact ⟨d, form, g, f, hd, hform, hg, htabs, hf, hhidden⟩

end Session

end EntryForm
