import EntryForm.Proofs.ShownRun

/-!
# How often a node is shown

The fragments of a node are told by its path of ids. There is one of them, unless the node or a
node around it has records; and inside a field that has none around it there are all.
-/

namespace EntryForm

namespace Fragment

/-- The fragments of the node with a path of ids, in the order of `all`. -/
def ofPath (path : List String) (fragments : List Fragment) : List Fragment :=
  (allOf fragments).filter fun f => f.entityPath = path

theorem ofPath_append (path : List String) (xs ys : List Fragment) :
    ofPath path (xs ++ ys) = ofPath path xs ++ ofPath path ys := by
  simp [ofPath, allOf_append]

theorem ofPath_flatMap {α : Type} (path : List String) (xs : List α) (inside : α → List Fragment) :
    ofPath path (xs.flatMap inside) = xs.flatMap fun x => ofPath path (inside x) := by
  induction xs with
  | nil => rfl
  | cons x rest ih => rw [List.flatMap_cons, List.flatMap_cons, ofPath_append, ih]

/-- What is inside a fragment is spread over its records. -/
theorem ofPath_children (path : List String) (f : Fragment) :
    ofPath path f.children =
      (f.widget.children :: f.instances.map Instance.fragments).flatMap (ofPath path) := by
  rw [children, ofPath_append, ofPath_flatMap, List.flatMap_cons, List.flatMap_map]

/-- A fragment of a path is the first of those of the path in it. -/
theorem ofPath_self {path : List String} {f : Fragment} (h : f.entityPath = path) :
    ofPath path [f] = f :: ofPath path f.children := by
  simp [ofPath, allOf, all_eq, h]

theorem ofPath_other {path : List String} {f : Fragment} (h : f.entityPath ≠ path) :
    ofPath path [f] = ofPath path f.children := by
  simp [ofPath, allOf, all_eq, h]

/-- A fragment takes records where its node does. -/
theorem Fits.isFillable {f : Fragment} {e : Entity} (h : f.Fits e true) :
    Entity.isFillable f.widget = e.hasSlots := by
  rw [Entity.isFillable, h.input rfl, h.select rfl, h.group rfl, Facts.hasSlots]
  cases hkind : e.kind with
  | grouping =>
      have hlabel : (e.displayLabel? != some Facts.noLabel) = true := by
        simpa using h.label rfl hkind
      rw [hlabel]
      rfl
  | _ => simp [Kind.isInput]

/-- Whether a node has more than one record from the start is told by its field. -/
theorem Fits.not_filled {f : Fragment} {e : Entity} (h : f.Fits e true)
    (hfixed : Entity.isFillable f.widget = true → f.cardinality.fixedSlots = none) :
    ¬ 1 < e.slots := by
  cases hslots : e.hasSlots with
  | false => simp [Facts.slots_of_not_hasSlots hslots]
  | true =>
      have hnone := hfixed (h.isFillable.trans hslots)
      rw [h.cardinality] at hnone
      simp [Facts.slots_of_hasSlots hslots f.widget.isSelect, hnone]

/-- A field that is neither repeated nor filled from the start has no records. -/
theorem Fits.instances_eq_nil {f : Fragment} {e : Entity} (h : f.Fits e true)
    (hrepetition : f.repetition = none) (hslots : ¬ 1 < e.slots) : f.instances = [] := by
  apply Classical.byContradiction
  intro hsome
  rcases h.records hsome with hrepeated | hmany
  · exact hrepeated hrepetition
  · exact hslots hmany

/-- The field of a node that takes no records has no instances. -/
theorem Fits.unrecorded {f : Fragment} {e : Entity} (h : f.Fits e true)
    (hrecords : e.takesRecords = false) : f.instances = [] := by
  simp only [Entity.takesRecords, Bool.or_eq_false_iff, Bool.and_eq_false_iff,
    decide_eq_false_iff_not] at hrecords
  obtain ⟨hrepeatable, hslots⟩ := hrecords
  apply h.instances_eq_nil _ hslots
  apply Classical.byContradiction
  intro hrepetition
  obtain ⟨hroom, htabs⟩ := h.repeated hrepetition
  rcases hrepeatable with hnot | hnot
  · simp [htabs rfl] at hnot
  · rw [h.cardinality, h.select rfl] at hroom
    exact Bool.false_ne_true (hnot.symm.trans hroom)

end Fragment

open Fragment

variable {d : Document}

/-- What is below a node has a longer path. -/
theorem Document.Finds.below {e x : Entity} {way : List Entity} (h : d.Finds e)
    (hreaches : (Subject.row e.nested).Reaches way x) : e.entityPath ≠ x.entityPath := by
  obtain ⟨entry, hmem, rest, hrest, _⟩ := hreaches
  obtain ⟨_, hpath, hkeyed⟩ := h.keyed.nested hmem
  have hprefix := (hrest.entityPath_prefix hkeyed).length_le
  intro heq
  rw [hpath, ← heq, List.length_append, List.length_singleton] at hprefix
  omega

/-- The nodes of a row have nothing in common. -/
theorem Subject.Finds.apart {key : String} {e x y : Entity} {rest : List (String × Entity)}
    {way way' : List Entity} (h : (Subject.row ((key, e) :: rest)).Finds d)
    (hx : e.Reaches way x) (hy : (Subject.row rest).Reaches way' y) :
    x.entityPath ≠ y.entityPath := by
  obtain ⟨hkeys, path, hentries⟩ := h
  obtain ⟨hfirst, hrest⟩ := List.forall_mem_cons.mp hentries
  obtain ⟨entry, hmem, _, hreaches, _⟩ := hy
  have hprefix := hx.entityPath_prefix hfirst.1.keyed
  have hprefix' := hreaches.entityPath_prefix (hrest entry hmem).1.keyed
  rw [hfirst.2] at hprefix
  rw [(hrest entry hmem).2] at hprefix'
  intro heq
  rw [← heq] at hprefix'
  have hsame := (List.prefix_of_prefix_length_le hprefix hprefix' (by simp)).eq_of_length (by simp)
  have hkey : key = entry.1 := by simpa using hsame
  exact (List.nodup_cons.mp hkeys).1 (List.mem_map.mpr ⟨entry, hmem, hkey.symm⟩)

/-- A node that is not shown has no fragments. -/
theorem Shows.ofPath_eq_nil {subject : Subject} {fs : List Fragment} (h : Shows subject fs)
    {path : List String} (hpath : ∀ way x, subject.Reaches way x → x.entityPath ≠ path) :
    ofPath path fs = [] := by
  rw [ofPath, List.filter_eq_nil_iff]
  intro f hf hsame
  obtain ⟨way, x, own, hreaches, hfield, _⟩ := h.mem hf
  exact hpath way x hreaches (hfield.fits.entityPath.symm.trans (by simpa using hsame))

/-- Whether what is shown is not part of a field around it. -/
def Subject.IsWhole : Subject → Prop
  | .row _ => True
  | .node e wrapped => wrapped = true ∨ e.kind = .grouping
  | .field _ own => own = true

/-- The first fragment of a node is there from the start, and there are no others unless the node or
a node around it has records. -/
theorem Shows.ofPath_eq_cons {subject : Subject} {fs : List Fragment} (h : Shows subject fs)
    (hwhole : subject.IsWhole) (hfinds : subject.Finds d) {way : List Entity} {x : Entity}
    (hreaches : subject.Reaches way x) (hinput : x.kind.isInput = true) :
    ∃ f rest, ofPath x.entityPath fs = f :: rest ∧
      ((∀ y ∈ way, y.takesRecords = false) → rest = []) := by
  induction h generalizing way with
  | none =>
      obtain ⟨entry, hmem, _⟩ := hreaches
      cases hmem
  | @more key e rest fs gs hfirst hrest ih ih' =>
      obtain ⟨he, hothers⟩ := hfinds.cons
      obtain ⟨entry, hmem, inner, hinner, rfl⟩ := hreaches
      rw [ofPath_append]
      rcases List.mem_cons.mp hmem with rfl | hmem
      · have hnone : ofPath x.entityPath gs = [] := hrest.ofPath_eq_nil fun way y hy heq =>
          hfinds.apart hinner hy heq.symm
        obtain ⟨f, more, hf, hsingle⟩ := ih (Or.inl rfl) he ⟨inner, hinner, rfl⟩
        exact ⟨f, more, by rw [hf, hnone, List.append_nil], hsingle⟩
      · have hx : (Subject.row rest).Reaches (entry.2.container ++ inner) x :=
          ⟨entry, hmem, inner, hinner, rfl⟩
        have hnone : ofPath x.entityPath fs = [] := hfirst.ofPath_eq_nil fun way y hy heq => by
          obtain ⟨_, hy, _⟩ := hy
          exact hfinds.apart hy hx heq
        rw [hnone, List.nil_append]
        exact ih' trivial hothers hx
  | @bare e wrapped fs hkind _ _ ih =>
      obtain ⟨inner, hinner, rfl⟩ := hreaches
      cases hinner with
      | self =>
          rw [hkind] at hinput
          cases hinput
      | inside hmem hbelow =>
          rw [Entity.nested_of_grouping hkind] at hmem
          obtain ⟨f, more, hf, hsingle⟩ := ih trivial hfinds.components ⟨_, hmem, _, hbelow, rfl⟩
          exact ⟨f, more, hf, fun h => hsingle fun y hy => h y (List.mem_append_right _ hy)⟩
  | own hwrapped hfield ih =>
      obtain ⟨inner, hinner, rfl⟩ := hreaches
      obtain ⟨f, more, hf, hsingle⟩ := ih rfl hfinds ⟨inner, hinner, rfl⟩
      refine ⟨f, more, hf, fun h => hsingle ?_⟩
      rw [hwhole.elim id hwrapped, if_pos rfl, Entity.container_of_fits hfield.fits] at h
      exact h
  | @field e own f hfits hwidget hinstances ih ihinstances =>
      obtain rfl : own = true := hwhole
      obtain ⟨inner, hinner, rfl⟩ := hreaches
      have hrecords (h : ∀ y ∈ e :: inner, y.takesRecords = false) : f.instances = [] :=
        hfits.unrecorded (h e List.mem_cons_self)
      cases hinner with
      | self =>
          refine ⟨f, _, ofPath_self hfits.entityPath, fun h => ?_⟩
          rw [if_pos rfl, Entity.nested_of_isInput hinput] at hwidget
          have hnone : ofPath x.entityPath f.widget.children = [] :=
            hwidget.ofPath_eq_nil fun way y hy => by
              obtain ⟨entry, hmem, _⟩ := hy
              cases hmem
          rw [children, hrecords h, ofPath_append, hnone]
          rfl
      | inside hmem hbelow =>
          have hx : (Subject.row e.nested).Reaches _ x := ⟨_, hmem, _, hbelow, rfl⟩
          have hne : f.entityPath ≠ x.entityPath := by
            rw [hfits.entityPath]
            exact Document.Finds.below hfinds hx
          obtain ⟨g, more, hg, hsingle⟩ := ih trivial (Document.Finds.inside hfinds true) hx
          rw [ofPath_other hne, children, ofPath_append, hg]
          refine ⟨g, _, rfl, fun h => ?_⟩
          rw [hrecords h, hsingle fun y hy => h y (List.mem_cons_of_mem _ hy)]
          rfl

theorem Subject.Reaches.trans {subject : Subject} {way way' : List Entity} {x y : Entity}
    (h : subject.Reaches way x) (h' : x.Reaches way' y) : subject.Reaches (way ++ way') y := by
  cases subject with
  | row entries =>
      obtain ⟨entry, hmem, rest, hrest, rfl⟩ := h
      exact ⟨entry, hmem, rest ++ way', hrest.trans h', List.append_assoc _ _ _⟩
  | node e wrapped =>
      obtain ⟨rest, hrest, rfl⟩ := h
      exact ⟨rest ++ way', hrest.trans h', List.append_assoc _ _ _⟩
  | field e own =>
      obtain ⟨rest, hrest, rfl⟩ := h
      exact ⟨rest ++ way', hrest.trans h', rfl⟩

theorem Focus.Displays.trans {place : Focus} {way way' : List Entity} {x y : Entity}
    (h : place.Displays way x) (h' : x.Reaches way' y) : place.Displays (way ++ way') y := by
  cases place with
  | missing id => exact h.elim
  | found e unresolved =>
      have hnode : (Subject.node e true).Reaches way x := h
      exact hnode.trans h'

/-- What a subject reaches is found in the document. -/
theorem Subject.Finds.reaches {subject : Subject} {way : List Entity} {x : Entity}
    (h : subject.Finds d) (hreaches : subject.Reaches way x) : d.Finds x := by
  cases subject with
  | row entries =>
      obtain ⟨_, _, hentries⟩ := h
      obtain ⟨entry, hmem, rest, hrest, _⟩ := hreaches
      exact (hentries entry hmem).1.reaches hrest
  | node e wrapped =>
      obtain ⟨rest, hrest, _⟩ := hreaches
      exact Document.Finds.reaches h hrest
  | field e own =>
      obtain ⟨rest, hrest, _⟩ := hreaches
      exact Document.Finds.reaches h hrest

/-- A fragment with the path of a node is shown with it. -/
theorem Shows.reaches_of_mem {subject : Subject} {fs : List Fragment} (h : Shows subject fs)
    (hfinds : subject.Finds d) {f : Fragment} (hf : f ∈ allOf fs) {e : Entity} (he : d.Finds e)
    (hpath : f.entityPath = e.entityPath) :
    ∃ way own, subject.Reaches way e ∧ Shows (.field e own) [f] ∧
      (subject.isOwn = true → own = true) := by
  obtain ⟨way, x, own, hreaches, hfield, hown⟩ := h.mem hf
  have hsame : x = e :=
    (hfinds.reaches hreaches).eq he (hfield.fits.entityPath.symm.trans hpath)
  subst hsame
  exact ⟨way, own, hreaches, hfield, hown⟩

/-- If no field around a fragment has records, all fragments of what is below its node are inside
it. -/
theorem Shows.ofPath_inside {subject : Subject} {fs : List Fragment} (h : Shows subject fs)
    (hown : subject.isOwn = true) (hfinds : subject.Finds d) {g : Fragment} (hg : g ∈ allOf fs)
    (halone : ∀ f ∈ allOf fs, g ∈ allOf f.children → f.instances = []) {e x : Entity}
    {way : List Entity} (he : d.Finds e) (hpath : g.entityPath = e.entityPath)
    (hreaches : e.Reaches way x) (hne : x ≠ e) :
    ofPath x.entityPath fs = ofPath x.entityPath g.children := by
  induction h with
  | none => cases hg
  | @more key first rest fs gs hfirst hrest ih ih' =>
      obtain ⟨hfinds₁, hfinds₂⟩ := hfinds.cons
      rw [allOf_append] at hg halone
      obtain ⟨halone₁, halone₂⟩ := List.forall_mem_append.mp halone
      rw [ofPath_append]
      rcases List.mem_append.mp hg with hg | hg
      · obtain ⟨_, _, ⟨inner, hinner, _⟩, _⟩ := hfirst.reaches_of_mem hfinds₁ hg he hpath
        have hnone : ofPath x.entityPath gs = [] := hrest.ofPath_eq_nil fun way y hy heq =>
          hfinds.apart (hinner.trans hreaches) hy heq.symm
        rw [hnone, List.append_nil]
        exact ih rfl hfinds₁ hg halone₁
      · obtain ⟨_, _, hinner, _⟩ := hrest.reaches_of_mem hfinds₂ hg he hpath
        have hnone : ofPath x.entityPath fs = [] := hfirst.ofPath_eq_nil fun way y hy heq => by
          obtain ⟨_, hy, _⟩ := hy
          exact hfinds.apart hy (hinner.trans hreaches) heq
        rw [hnone, List.nil_append]
        exact ih' rfl hfinds₂ hg halone₂
  | bare _ _ _ ih => exact ih rfl hfinds.components hg halone
  | own _ _ ih => exact ih rfl hfinds hg halone
  | @field e' own f hfits hwidget hinstances ih ihinstances =>
      obtain rfl : own = true := hown
      rcases mem_allOf_singleton.mp hg with rfl | hg
      · apply ofPath_other
        rw [hpath]
        intro heq
        exact hne ((he.reaches hreaches).eq he heq.symm)
      · have hnone : f.instances = [] := halone f (mem_allOf_singleton.mpr (Or.inl rfl)) hg
        have hsame : f.children = f.widget.children := by
          rw [children, hnone, List.flatMap_nil, List.append_nil]
        rw [hsame] at hg
        have hnested := Document.Finds.inside hfinds true
        obtain ⟨_, _, hinner, _⟩ := hwidget.reaches_of_mem hnested hg he hpath
        have hother : f.entityPath ≠ x.entityPath := by
          rw [hfits.entityPath]
          exact Document.Finds.below hfinds (hinner.trans hreaches)
        rw [ofPath_other hother, hsame]
        refine ih rfl hnested hg fun f' hf' => halone f' (mem_allOf_singleton.mpr (Or.inr ?_))
        rw [hsame]
        exact hf'

/-- A node below a grouping is shown once in each record of the grouping, if there are no records
in between. -/
theorem Shows.ofPath_records {e x : Entity} {g : Fragment} {way : List Entity}
    (h : Shows (.field e true) [g]) (he : d.Finds e) (hkind : e.kind = .grouping)
    (hreaches : e.Reaches way x) (hinput : x.kind.isInput = true)
    (hsingle : ∀ y ∈ way, y.takesRecords = false) :
    ∀ record ∈ g.widget.children :: g.instances.map Instance.fragments,
      ∃ f, ofPath x.entityPath record = [f] := by
  have hbelow : (Subject.row e.nested).Reaches way x := by
    cases hreaches with
    | self =>
        rw [hkind] at hinput
        cases hinput
    | inside hmem hrest => exact ⟨_, hmem, _, hrest, rfl⟩
  cases h with
  | field hfits hwidget hinstances =>
      intro record hrecord
      rcases List.mem_cons.mp hrecord with rfl | hrecord
      · obtain ⟨f, rest, hf, hnone⟩ := hwidget.ofPath_eq_cons trivial he.nested hbelow hinput
        rw [hnone hsingle] at hf
        exact ⟨f, hf⟩
      · obtain ⟨i, hi, rfl⟩ := List.mem_map.mp hrecord
        obtain ⟨f, rest, hf, hnone⟩ := (hinstances i hi).ofPath_eq_cons (Or.inr hkind) he
          ⟨way, hreaches, rfl⟩ hinput
        rw [hnone hsingle] at hf
        exact ⟨f, hf⟩

end EntryForm
