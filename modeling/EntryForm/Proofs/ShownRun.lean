import EntryForm.Proofs.Shown

/-!
# What stays shown along a run

Edits leave what is shown as it is, a removal takes a body of a node out of the field of that node,
and an addition puts one in: the node is found again by the path that its field has from it. So
every form of a session shows where its focus leads.
-/

namespace EntryForm

namespace Widget

/-- Widgets of the same shape are alike. -/
theorem alike_of_shape {w w' : Widget Fragment}
    (h : (w.map (·.id)).hideTabs = (w'.map (·.id)).hideTabs) : w.Alike w' := by
  have hshape (w : Widget Fragment) : (w.map (·.id)).hideTabs.Alike w := by
    cases w <;> exact ⟨rfl, rfl, rfl⟩
  refine ⟨?_, ?_, ?_⟩
  · rw [← (hshape w).input, h, (hshape w').input]
  · rw [← (hshape w).select, h, (hshape w').select]
  · rw [← (hshape w).group, h, (hshape w').group]

/-- What is inside a widget can be told from its shape but for the fragments themselves. -/
theorem children_of_shape (w : Widget Fragment) :
    (w.map (·.id)).hideTabs.children = w.children.map (·.id) := by
  cases w with
  | tabs row =>
      simp [map, hideTabs, children, List.flatMap_map, List.map_flatMap, Tab.map, Function.comp_def]
  | _ => rfl

end Widget

namespace Fragment

/-- An edit keeps what is inside a fragment where it is. -/
theorem Edit.inside {change : Fragment → Fragment} (h : Edit change) (f : Fragment) :
    (change f).widget.children = f.widget.children ∧
      (change f).instances.map Instance.fragments = f.instances.map Instance.fragments := by
  have hwidget : ((change f).widget.map (·.id)).hideTabs = (f.widget.map (·.id)).hideTabs :=
    congrArg Node.widget (h.shape f)
  have hinstances : (change f).instances.map (Instance.map (·.id)) =
      f.instances.map (Instance.map (·.id)) := congrArg Node.instances (h.shape f)
  have hlength : (change f).widget.children.length = f.widget.children.length := by
    have hids := congrArg (fun w => w.children.length) hwidget
    simpa [Widget.children_of_shape] using hids
  obtain ⟨hfirst, hrest⟩ := List.append_inj (h.children f) hlength
  refine ⟨hfirst, List.eq_iff_flatten_eq.mpr ⟨?_, ?_⟩⟩
  · rw [← List.flatMap_def, ← List.flatMap_def]
    exact hrest
  · have hlengths := congrArg (List.map fun i => i.fragments.length) hinstances
    simpa [Instance.map, Function.comp_def] using hlengths

section update
variable {test : Fragment → Bool} {change : Fragment → Fragment}

/-- A change in two rows is in the first or else in the second. -/
theorem updateRow?_append (xs ys : List Fragment) :
    updateRow? test change (xs ++ ys) =
      ((updateRow? test change xs).map (· ++ ys)).or
        ((updateRow? test change ys).map (xs ++ ·)) := by
  induction xs with
  | nil => simp [updateRow?]
  | cons f rest ih =>
      rw [List.cons_append, updateRow?, updateRow?]
      cases updateFirst? test change f with
      | some g => rfl
      | none =>
          rw [ih]
          cases updateRow? test change rest with
          | some fs => rfl
          | none => simp [Function.comp_def]

theorem updateRow?_append_some {xs ys zs : List Fragment}
    (h : updateRow? test change (xs ++ ys) = some zs) :
    (∃ xs', updateRow? test change xs = some xs' ∧ zs = xs' ++ ys) ∨
      ∃ ys', updateRow? test change ys = some ys' ∧ zs = xs ++ ys' := by
  rw [updateRow?_append, Option.or_eq_some_iff] at h
  rcases h with h | ⟨_, h⟩
  · obtain ⟨xs', hxs, rfl⟩ := Option.map_eq_some_iff.mp h
    exact Or.inl ⟨xs', hxs, rfl⟩
  · obtain ⟨ys', hys, rfl⟩ := Option.map_eq_some_iff.mp h
    exact Or.inr ⟨ys', hys, rfl⟩

theorem updateTabs?_some {row row' : List (Tab Fragment)}
    (h : updateTabs? test change row = some row') :
    updateRow? test change (row.flatMap Tab.fragments) = some (row'.flatMap Tab.fragments) := by
  induction row generalizing row' with
  | nil => cases h
  | cons tab rest ih =>
      rw [updateTabs?] at h
      rw [List.flatMap_cons, updateRow?_append]
      split at h
      case _ fragments hfragments =>
        cases h
        rw [hfragments]
        rfl
      case _ hnone =>
        obtain ⟨rest', hrest, rfl⟩ := Option.map_eq_some_iff.mp h
        rw [hnone, ih hrest]
        rfl

/-- A change in a widget is one in the row of its children, and leaves its sort. -/
theorem updateWidget?_some {w w' : Widget Fragment} (h : updateWidget? test change w = some w') :
    updateRow? test change w.children = some w'.children ∧ w'.Alike w := by
  cases w with
  | group fragments =>
      obtain ⟨fragments', hrow, rfl⟩ := Option.map_eq_some_iff.mp h
      exact ⟨hrow, rfl, rfl, rfl⟩
  | tabs row =>
      obtain ⟨row', hrow, rfl⟩ := Option.map_eq_some_iff.mp h
      exact ⟨updateTabs?_some hrow, rfl, rfl, rfl⟩
  | _ => cases h

/-- A change in a row of records is one in the fragments of one of them. -/
theorem updateInstances?_some {instances instances' : List (Instance Fragment)}
    (h : updateInstances? test change instances = some instances') :
    ∃ left i right fragments, instances = left ++ i :: right ∧
      updateRow? test change i.fragments = some fragments ∧
      instances' = left ++ { i with fragments } :: right := by
  induction instances generalizing instances' with
  | nil => cases h
  | cons i rest ih =>
      rw [updateInstances?] at h
      split at h
      case _ fragments hfragments =>
        cases h
        exact ⟨[], i, rest, fragments, rfl, hfragments, rfl⟩
      case _ =>
        obtain ⟨rest', hrest, rfl⟩ := Option.map_eq_some_iff.mp h
        obtain ⟨left, j, right, fragments, rfl, hrow, rfl⟩ := ih hrest
        exact ⟨i :: left, j, right, fragments, rfl, hrow, rfl⟩

/-- A fragment is changed itself, or inside its widget, or inside one of its instances. -/
theorem updateRow?_singleton {f : Fragment} {fs : List Fragment}
    (h : updateRow? test change [f] = some fs) :
    (test f = true ∧ fs = [change f]) ∨
      (∃ widget, updateWidget? test change f.widget = some widget ∧ fs = [{ f with widget }]) ∨
        ∃ instances, updateInstances? test change f.instances = some instances ∧
          fs = [{ f with instances }] := by
  rw [updateRow?] at h
  split at h
  case _ g hg =>
    cases h
    cases htest : test f with
    | true =>
        rw [updateFirst?_self htest] at hg
        cases hg
        exact Or.inl ⟨rfl, rfl⟩
    | false =>
        rw [updateFirst?_below htest, Option.or_eq_some_iff] at hg
        rcases hg with hg | ⟨_, hg⟩
        · obtain ⟨widget, hwidget, rfl⟩ := Option.map_eq_some_iff.mp hg
          exact Or.inr (Or.inl ⟨widget, hwidget, rfl⟩)
        · obtain ⟨instances, hinstances, rfl⟩ := Option.map_eq_some_iff.mp hg
          exact Or.inr (Or.inr ⟨instances, hinstances, rfl⟩)
  case _ => cases h

end update

end Fragment

/-- Whether the nodes of a subject are found again by their paths. Those of a row differ in the
last id. -/
def Subject.Finds (d : Document) : Subject → Prop
  | .row entries =>
    (entries.map Prod.fst).Nodup ∧
      ∃ path, ∀ entry ∈ entries, d.Finds entry.2 ∧ entry.2.entityPath = path ++ [entry.1]
  | .node e _ => d.Finds e
  | .field e _ => d.Finds e

/-- What a focus has found is a node of the document. -/
def Focus.Finds (d : Document) : Focus → Prop
  | .missing _ => True
  | .found e _ => d.Finds e

/-- What a focus displays is found in the document. -/
theorem Focus.Displays.finds {d : Document} {place : Focus} {way : List Entity} {x : Entity}
    (h : place.Displays way x) (hfinds : place.Finds d) : d.Finds x := by
  cases place with
  | missing id => exact h.elim
  | found e unresolved =>
      obtain ⟨rest, hreaches, _⟩ := h
      exact Document.Finds.reaches hfinds hreaches

/-- What a focus path leads to is found in the document. -/
theorem Document.finds_place {text : String} {d : Document} (h : ofText text = .ok d)
    (hkeys : d.namedByIds = true) (focus : String) : (d.focus focus).Finds d := by
  cases hplace : d.focus focus with
  | missing id => trivial
  | found e unresolved => exact finds_focus h hkeys hplace

theorem Document.Finds.components {d : Document} {e : Entity} (h : d.Finds e) :
    (Subject.row e.components.entries).Finds d := by
  obtain ⟨hfound, hkeyed⟩ := h
  refine ⟨hkeyed.keys, e.entityPath, ?_⟩
  intro entry hentry
  obtain ⟨hchild, hpath, _⟩ := hkeyed.component hentry
  exact ⟨Document.Finds.child ⟨hfound, hkeyed⟩ hchild, hpath⟩

theorem Document.Finds.nested {d : Document} {e : Entity} (h : d.Finds e) :
    (Subject.row e.nested).Finds d := by
  rcases e.nested_eq with hnested | hnested
  · rw [hnested]
    exact h.components
  · rw [hnested]
    exact ⟨List.nodup_nil, [], nofun⟩

theorem Document.Finds.inside {d : Document} {e : Entity} (h : d.Finds e) (own : Bool) :
    (Subject.row (if own then e.nested else [])).Finds d := by
  cases own with
  | true => exact h.nested
  | false => exact ⟨List.nodup_nil, [], nofun⟩

theorem Subject.Finds.cons {d : Document} {key : String} {e : Entity}
    {rest : List (String × Entity)} (h : (Subject.row ((key, e) :: rest)).Finds d) :
    d.Finds e ∧ (Subject.row rest).Finds d := by
  obtain ⟨hkeys, path, hentries⟩ := h
  obtain ⟨hfirst, hrest⟩ := List.forall_mem_cons.mp hentries
  exact ⟨hfirst.1, (List.nodup_cons.mp hkeys).2, path, hrest⟩

open Fragment in
/-- Changing the first fragment that passes a test changes nothing of what is shown, if it does
not for the fragments that pass it. -/
theorem Shows.updateRow? {d : Document} {test : Fragment → Bool} {change : Fragment → Fragment}
    {subject : Subject} {fs fs' : List Fragment} (h : Shows subject fs) (hfinds : subject.Finds d)
    (hchange : ∀ f ∈ allOf fs, test f = true → ∀ e own, d.Finds e →
      Shows (.field e own) [f] → Shows (.field e own) [change f])
    (hupdate : Fragment.updateRow? test change fs = some fs') : Shows subject fs' := by
  induction h generalizing fs' with
  | none => cases hupdate
  | more _ _ ih ih' =>
      obtain ⟨hfirst, hrest⟩ := hfinds.cons
      rw [allOf_append] at hchange
      rcases updateRow?_append_some hupdate with ⟨xs, hxs, rfl⟩ | ⟨ys, hys, rfl⟩
      · exact .more (ih hfirst (fun f hf => hchange f (List.mem_append_left _ hf)) hxs) ‹_›
      · exact .more ‹_› (ih' hrest (fun f hf => hchange f (List.mem_append_right _ hf)) hys)
  | bare hkind hbare _ ih =>
      refine .bare hkind ?_ (ih hfinds.components hchange hupdate)
      rcases hbare with rfl | hbare
      · cases hupdate
      · exact Or.inr hbare
  | own hwrapped _ ih =>
      have hfield := ih hfinds hchange hupdate
      cases hfield with
      | field hfits hwidget hinstances => exact .own hwrapped (.field hfits hwidget hinstances)
  | @field e own f hfits hwidget hinstances ih ihinstances =>
      have hinside {g : Fragment} (hg : g ∈ allOf f.children) : g ∈ allOf [f] :=
        mem_allOf_singleton.mpr (Or.inr hg)
      rcases updateRow?_singleton hupdate with ⟨htest, rfl⟩ | ⟨widget, hw, rfl⟩ |
        ⟨instances, hi, rfl⟩
      · exact hchange f (mem_allOf_singleton.mpr (Or.inl rfl)) htest e own hfinds
          (.field hfits hwidget hinstances)
      · obtain ⟨hrow, halike⟩ := updateWidget?_some hw
        refine .field (hfits.of_alike rfl Iff.rfl halike Or.inl) ?_ hinstances
        exact ih (hfinds.inside own)
          (fun g hg => hchange g (hinside (mem_allOf_children.mpr (Or.inl hg)))) hrow
      · obtain ⟨left, i, right, fragments, hsplit, hrow, rfl⟩ := updateInstances?_some hi
        have hi : i ∈ f.instances := by simp [hsplit]
        have hbody : Shows (.node e false) fragments := ihinstances i hi hfinds
          (fun g hg => hchange g (hinside (mem_allOf_children.mpr (Or.inr ⟨i, hi, hg⟩)))) hrow
        refine .field (hfits.of_alike rfl Iff.rfl ⟨rfl, rfl, rfl⟩ fun _ => Or.inl ?_) hwidget ?_
        · exact List.ne_nil_of_mem hi
        · intro j hj
          rw [hsplit] at hinstances
          simp only [List.mem_append, List.mem_cons] at hj hinstances
          rcases hj with hj | rfl | hj
          · exact hinstances j (Or.inl hj)
          · exact hbody
          · exact hinstances j (Or.inr (Or.inr hj))

/-- An edited field goes on showing its node. -/
theorem Shows.edit {change : Fragment → Fragment} (hedit : Fragment.Edit change) {f : Fragment}
    {e : Entity} {own : Bool} (h : Shows (.field e own) [f]) :
    Shows (.field e own) [change f] := by
  cases h with
  | field hfits hwidget hinstances =>
      have hshape := hedit.shape f
      obtain ⟨hchildren, hbodies⟩ := hedit.inside f
      have hrepetition : (change f).repetition = f.repetition :=
        (congrArg (fun n => n.repetition) hshape :)
      have hfixed : (change f).toField.fixed = f.toField.fixed :=
        (congrArg (fun n => n.toField.fixed) hshape :)
      refine .field (hfits.of_alike hfixed (by rw [hrepetition]) ?_ ?_) ?_ ?_
      · exact Widget.alike_of_shape (congrArg Node.widget hshape)
      · intro hsome
        refine Or.inl fun hnone => hsome ?_
        rw [hnone] at hbodies
        exact List.map_eq_nil_iff.mp hbodies
      · rw [hchildren]
        exact hwidget
      · intro i hi
        have hbody : i.fragments ∈ f.instances.map Instance.fragments :=
          hbodies ▸ List.mem_map_of_mem hi
        obtain ⟨j, hj, hsame⟩ := List.mem_map.mp hbody
        rw [← hsame]
        exact hinstances j hj

/-- A body of the node may come to the records of a repeated field. -/
theorem Shows.appendInstance {f : Fragment} {e : Entity} {own : Bool} {i : Instance Fragment}
    (h : Shows (.field e own) [f]) (hrepeated : f.repetition ≠ Option.none)
    (hbody : Shows (.node e false) i.fragments) :
    Shows (.field e own) [Form.appendInstance i f] := by
  cases h with
  | field hfits hwidget hinstances =>
      refine .field (hfits.of_alike rfl ?_ ⟨rfl, rfl, rfl⟩ ?_) hwidget ?_
      · exact Option.map_eq_none_iff
      · exact fun _ => Or.inr (Or.inl hrepeated)
      · exact List.forall_mem_append.mpr ⟨hinstances, List.forall_mem_singleton.mpr hbody⟩

theorem Shows.dropInstance {f : Fragment} {e : Entity} {own : Bool} {id : String}
    (h : Shows (.field e own) [f]) : Shows (.field e own) [Form.dropInstance id f] := by
  have hmem (number : Nat) (instances : List (Instance Fragment)) :
      ∀ i ∈ Form.renumber number instances, ∃ j ∈ instances, j.fragments = i.fragments := by
    induction instances generalizing number with
    | nil => exact nofun
    | cons first rest ih =>
        refine List.forall_mem_cons.mpr ⟨⟨first, List.mem_cons_self, rfl⟩, ?_⟩
        intro i hi
        obtain ⟨j, hj, hsame⟩ := ih (number + 1) i hi
        exact ⟨j, List.mem_cons_of_mem _ hj, hsame⟩
  cases h with
  | field hfits hwidget hinstances =>
      refine .field (hfits.of_alike rfl ?_ ⟨rfl, rfl, rfl⟩ ?_) hwidget ?_
      · exact Option.map_eq_none_iff
      · intro hsome
        obtain ⟨i, hi⟩ := List.exists_mem_of_ne_nil _ hsome
        obtain ⟨j, hj, _⟩ := hmem 2 _ i hi
        exact Or.inl (List.ne_nil_of_mem (List.mem_of_mem_eraseP hj))
      · intro i hi
        obtain ⟨j, hj, hsame⟩ := hmem 2 _ i hi
        rw [← hsame]
        exact hinstances j (List.mem_of_mem_eraseP hj)

open Fragment in
theorem Focus.Shown.updateRow? {d : Document} {test : Fragment → Bool}
    {change : Fragment → Fragment} {place : Focus} {fs fs' : List Fragment} (h : place.Shown fs)
    (hfinds : place.Finds d)
    (hchange : ∀ f ∈ allOf fs, test f = true → ∀ e own, d.Finds e →
      Shows (.field e own) [f] → Shows (.field e own) [change f])
    (hupdate : Fragment.updateRow? test change fs = some fs') : place.Shown fs' := by
  match place with
  | .missing _ =>
      obtain rfl : fs = [] := h
      cases hupdate
  | .found e none => exact Shows.updateRow? h hfinds hchange hupdate
  | .found e (some _) =>
      obtain ⟨notice, rest, rfl, hnotice, hrest⟩ := h
      have hsplit : Fragment.updateRow? test change ([notice] ++ rest) = some fs' := hupdate
      rw [← List.singleton_append, allOf_append] at hchange
      rcases updateRow?_append_some hsplit with ⟨xs, hxs, rfl⟩ | ⟨ys, hys, rfl⟩
      · have hnotice := Shows.updateRow? hnotice hfinds
          (fun f hf => hchange f (List.mem_append_left _ hf)) hxs
        cases hnotice with
        | @field _ _ f hfits hwidget hinstances =>
            exact ⟨f, rest, rfl, .field hfits hwidget hinstances, hrest⟩
      · refine ⟨notice, ys, rfl, hnotice, Shows.updateRow? hrest hfinds ?_ hys⟩
        exact fun f hf => hchange f (List.mem_append_right _ hf)

namespace Form
variable {s : Settings} {d : Document} {a b : Form}

/-- A form goes on showing what it shows if the changed field does. -/
theorem update_shown {place : Focus} {id : String} {change : Fragment → Fragment}
    (h : place.Shown a.fragments) (hfinds : place.Finds d)
    (hchange : ∀ f ∈ a.all, f.id = id → ∀ e own, d.Finds e →
      Shows (.field e own) [f] → Shows (.field e own) [change f]) :
    place.Shown (a.update id change).fragments := by
  rw [update, updateFirst?]
  cases hrow : Fragment.updateRow? (·.id == id) change a.fragments with
  | none => exact h
  | some fragments =>
      refine h.updateRow? hfinds ?_ hrow
      intro f hf htest
      exact hchange f hf (by simpa using htest)

theorem update_focus (id : String) (change : Fragment → Fragment) (form : Form) :
    (form.update id change).focus = form.focus := by
  rw [update_eq]

/-- A fragment is told by its id. -/
theorem eq_of_id (h : a.ids.Nodup) {f g : Fragment} (hf : f ∈ a.all) (hg : g ∈ a.all)
    (hid : f.id = g.id) : f = g := by
  rw [ids, nodes, Fragment.nodesOf, List.flatMap_map] at h
  have hgid : f.id ∈ g.node.ids := hid ▸ List.mem_cons_self
  exact eq_of_mem_flatMap h hf hg List.mem_cons_self hgid

/-- With distinct ids the fragment of an id is the one that is found. -/
theorem eq_of_find? (h : a.ids.Nodup) {id : String} {f g : Fragment} (hfind : a.find? id = some f)
    (hg : g ∈ a.all) (hid : g.id = id) : g = f := by
  have hfid : (f.id == id) = true := by simpa using List.find?_some hfind
  exact eq_of_id h hg (List.mem_of_find?_eq_some hfind) (hid.trans (beq_iff_eq.mp hfid).symm)

/-- When an instance is added, and which. -/
theorem addInstance_eq {wrapper : String} {f : Fragment} {r : RepeatState} {e : Entity}
    (hfind : a.find? wrapper = some f) (hselect : f.widget.isSelect = false)
    (hr : f.repetition = some r) (henabled : r.addEnabled = true)
    (he : d.entityAt? f.entityPath = some e) :
    a.addInstance s d wrapper =
      let body := (e.compileBody s).run { counter := a.counter + 1 }
      let id := idAt (e.id ++ "_record") a.counter
      .ok (some (id, { a.update wrapper
        (appendInstance ⟨id, recordHeader (r.count + 1), true, body.1⟩) with
          counter := body.2.counter })) := by
  simp only [addInstance, hfind, hselect, hr, henabled, he, Bool.not_true, Bool.false_eq_true,
    if_false]
  rfl

/-- A record that is there and removable is removed. -/
theorem removeInstance_eq {wrapper id : String} {f : Fragment} {r : RepeatState}
    (hfind : a.find? wrapper = some f) (hr : f.repetition = some r)
    (hany : f.instances.any (isRemovable id) = true) :
    a.removeInstance wrapper id = .ok (a.update wrapper (dropInstance id)) := by
  simp [removeInstance, hfind, hr, hany]

/-- An instance that is added is compiled from the node at the path of its field. -/
theorem addInstance_some {wrapper id : String}
    (h : a.addInstance s d wrapper = .ok (some (id, b))) :
    ∃ f r e, a.find? wrapper = some f ∧ f.repetition = some r ∧
      d.entityAt? f.entityPath = some e ∧
      let body := (e.compileBody s).run { counter := a.counter + 1 }
      b = { a.update wrapper (appendInstance ⟨id, recordHeader (r.count + 1), true, body.1⟩) with
        counter := body.2.counter } := by
  obtain ⟨f, r, e, _, hfind, hselect, hr, henabled, he, _⟩ := addInstance_ok h
  rw [addInstance_eq hfind hselect hr henabled he] at h
  cases h
  exact ⟨f, r, e, hfind, hr, he, rfl⟩

theorem removeInstance_some {wrapper id : String} (h : a.removeInstance wrapper id = .ok b) :
    b = a.update wrapper (dropInstance id) := by
  obtain ⟨f, r, hfind, hr, hany, _⟩ := removeInstance_ok h
  rw [removeInstance_eq hfind hr hany] at h
  exact (Except.ok.inj h).symm

theorem compile_focus (s : Settings) (d : Document) (focus : String) (generation : Nat) :
    (compile s d focus generation).1.focus = focus := rfl

/-- A form that evolves goes on showing where its focus leads. Since ids are distinct, the fragment
that is changed is the one that was found. -/
theorem Evolves.shown {place : Focus} {n : Nat} (hissued : Issued 0 a.counter a.ids)
    (h : Evolves s d a n b) (hfinds : place.Finds d) (ha : place.Shown a.fragments) :
    b.focus = a.focus ∧ place.Shown b.fragments := by
  induction h with
  | refl => exact ⟨rfl, ha⟩
  | edit _ hedit hchange ih =>
      obtain ⟨hfocus, hshown⟩ := ih
      obtain ⟨fragments, hrow, rfl⟩ := Option.map_eq_some_iff.mp hchange
      exact ⟨hfocus, hshown.updateRow? hfinds (fun f _ _ e own _ hf => hf.edit hedit) hrow⟩
  | @add n b c wrapper id hbefore hadd ih =>
      obtain ⟨hfocus, hshown⟩ := ih
      obtain ⟨f, r, e, hfind, hr, he, rfl⟩ := addInstance_some hadd
      refine ⟨(update_focus _ _ _).trans hfocus, update_shown hshown hfinds ?_⟩
      intro g hg hid e' own he' hgshown
      obtain rfl := eq_of_find? (hbefore.advances hissued).issued.ids_nodup hfind hg hid
      have hbody := (Entity.compileBody_derives s e { counter := b.counter + 1 } false rfl).2.shown
      refine hgshown.appendInstance (by simp [hr]) ?_
      have hfound := he'.found
      rw [← hgshown.fits.entityPath, he] at hfound
      cases hfound
      exact hbody
  | @remove n b c wrapper id _ hremove ih =>
      obtain ⟨hfocus, hshown⟩ := ih
      obtain rfl := removeInstance_some hremove
      exact ⟨(update_focus _ _ _).trans hfocus,
        update_shown hshown hfinds fun g _ _ e own _ hg => hg.dropInstance⟩

end Form

namespace Session

/-- Every form of a session shows where its focus leads. -/
theorem shown_run {text : String} {d : Document} {c : Settings} {history : List Event}
    {form : Form} (hd : Document.ofText text = .ok d) (hkeys : d.namedByIds = true)
    (h : ((start d c).run history).form = some form) :
    (d.focus form.focus).Finds d ∧ (d.focus form.focus).Shown form.fragments := by
  obtain ⟨focus, generation, n, _, hevolves⟩ := (reached_run d c history).form form h
  have hfinds := Document.finds_place hd hkeys focus
  obtain ⟨hfocus, hshown⟩ := hevolves.shown (Form.compile_issued c d focus generation) hfinds
    (Form.compile_derives c d focus generation).shown
  rw [Form.compile_focus] at hfocus
  rw [hfocus]
  exact ⟨hfinds, hshown⟩

end Session

end EntryForm
