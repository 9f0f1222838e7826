import EntryForm.Proofs.OwnRecords
import EntryForm.Proofs.Places

/-!
# The fields of records

A record of a field holds the body of its node, so it should show no second field of that node:
what it holds for the node itself has no label, no container and no control to add records. That is
so unless the node is a disjunction or of an unknown kind. Their bodies are a tab set or a notice,
which are made in the same way wherever they stand.
-/

namespace EntryForm

/-- Whether a field has neither label nor container and takes no records. -/
def Field.isBare (f : Field) : Bool := f.label.isNone && !f.wrapped && f.repetition.isNone

/-- A bare field has no label, no container and no count of records. -/
theorem Field.isBare_iff {f : Field} :
    f.isBare = true ↔ f.label = none ∧ f.wrapped = false ∧ f.repetition = none := by
  simp [isBare, and_assoc]

/-- Whether the body of a node of a kind leaves out its label and container. -/
def Kind.hasBareBody : Kind → Bool
  | .disjunction => false
  | .unrecognized _ => false
  | _ => true

/-- All nodes but disjunctions and those of an unknown kind have a bare body. -/
theorem Kind.hasBareBody_iff {kind : Kind} :
    kind.hasBareBody = true ↔ kind ≠ .disjunction ∧ ∀ tag, kind ≠ .unrecognized tag := by
  cases kind <;> simp [hasBareBody]

/-- If a fragment is a field of the node at a path, it is bare exactly if bodies of the node are. -/
def Document.Bares (d : Document) (path : List String) (g : Fragment) : Prop :=
  g.entityPath = path → ∀ e, d.entityAt? path = some e → g.isBare = e.kind.hasBareBody

/-- All fields that stand in records of their own node are bare exactly if bodies of it are. -/
inductive Fragment.BareRecords (d : Document) : Fragment → Prop
  | intro {f : Fragment} : (∀ g ∈ f.widget.children, BareRecords d g) →
      (∀ i ∈ f.instances, ∀ g ∈ i.fragments, d.Bares f.entityPath g) →
        (∀ i ∈ f.instances, ∀ g ∈ i.fragments, BareRecords d g) → BareRecords d f

namespace Entity
variable {s : Settings}

/-- What a node shows inside its field lies deeper than the node. -/
theorem entityPath_ne_of_inside {e : Entity} {fs : List Fragment} (hkeyed : e.Keyed)
    (h : Shows (.row e.nested) fs) {g : Fragment} (hg : g ∈ Fragment.allOf fs) :
    g.entityPath ≠ e.entityPath := by
  obtain ⟨_, x, own, ⟨entry, hmem, rest, hreaches, _⟩, hfield, _⟩ := h.mem hg
  obtain ⟨_, hpath, hbelow⟩ := hkeyed.nested hmem
  have hlength := (hreaches.entityPath_prefix hbelow).length_le
  rw [hpath, List.length_append, List.length_singleton, ← hfield.fits.entityPath] at hlength
  intro heq
  rw [heq] at hlength
  omega

/-- A node that is compiled to an input has a bare body. -/
theorem hasBareBody_of_leaf {e : Entity} {id : String} {widget : Widget Fragment}
    (h : e.leaf? s id = some widget) : e.kind.hasBareBody = true := by
  rw [leaf?] at h
  split at h <;> cases h <;> rename_i hkind <;> rw [hkind] <;> rfl

theorem hasBareBody_of_fault {e : Entity} {message : String} (h : e.fault? = some message) :
    e.kind.hasBareBody = false := by
  rw [fault?] at h
  split at h
  case _ tag hkind => rw [hkind]; rfl
  case _ hkind => rw [hkind]; rfl
  case _ => cases h

end Entity

open Entity in
/-- A field that is being filled: it is the one that was made at first, but for its records, and
without label and container it is no group. -/
theorem Derives.filling {s : Settings} {e : Entity} {wrapped t : Bool} {numbers : List Nat}
    {n m : Nat} {fs : List Fragment} (h : Derives s (.filling e wrapped numbers) t n fs m) :
    ∃ (id : String) (widget : Widget Fragment) (instances : List (Instance Fragment)),
      fs = [⟨field s e.toFacts wrapped t id widget, widget, instances⟩] ∧
      (wrapped = false → e.leaf? s id = some widget) := by
  generalize hsource : Source.filling e wrapped numbers = source at h
  induction h generalizing numbers with
  | leaf hleaf =>
      cases hsource
      exact ⟨_, _, [], rfl, fun _ => hleaf⟩
  | group =>
      cases hsource
      exact ⟨_, _, [], rfl, nofun⟩
  | record _ _ ih =>
      cases hsource
      obtain ⟨_, _, _, hfs, hleaf⟩ := ih rfl
      cases hfs
      exact ⟨_, _, _, rfl, hleaf⟩
  | _ => cases hsource

open Entity in
/-- What the body of a node holds for the node itself is bare unless it is a notice or a tab set. -/
theorem Derives.isBare {s : Settings} {e : Entity} {t : Bool} {n m : Nat} {fs : List Fragment}
    (h : Derives s (.node e false) t n fs m) (hkeyed : e.Keyed) {g : Fragment} (hg : g ∈ fs)
    (hpath : g.entityPath = e.entityPath) : g.isBare = e.kind.hasBareBody := by
  cases h with
  | fault hfault =>
      obtain rfl := List.mem_singleton.mp hg
      rw [hasBareBody_of_fault hfault]
      rfl
  | bare hkind _ hrow =>
      have hshown : Shows (.row e.nested) fs := by
        rw [nested_of_grouping hkind]
        exact hrow.shown
      have hall : g ∈ Fragment.allOf fs :=
        Fragment.mem_allOf.mpr ⟨g, hg, Fragment.mem_allOf_singleton.mpr (Or.inl rfl)⟩
      exact absurd hpath (entityPath_ne_of_inside hkeyed hshown hall)
  | filled hfilling =>
      obtain ⟨id, widget, instances, rfl, hleaf⟩ := hfilling.filling
      obtain rfl := List.mem_singleton.mp hg
      rw [hasBareBody_of_leaf (hleaf rfl)]
      rfl
  | tabbed hkind _ htabs =>
      obtain ⟨row, rfl, _⟩ := htabs.branching
      obtain rfl := List.mem_singleton.mp hg
      rw [hkind]
      rfl

/-- The nodes of a source are in the document. -/
def Source.Finds (d : Document) : Source → Prop
  | .focus place => place.Finds d
  | .row entries => ∀ entry ∈ entries, d.Finds entry.2
  | .node e _ => d.Finds e
  | .filling e _ _ => d.Finds e
  | .branching e _ => e.kind = .disjunction ∧ d.Finds e

/-- What the body of a node holds for the node itself is bare exactly if bodies of the node are. -/
theorem Derives.bares {s : Settings} {d : Document} {e : Entity} {t : Bool} {n m : Nat}
    {fs : List Fragment} (h : Derives s (.node e false) t n fs m) (hfinds : d.Finds e) :
    ∀ g ∈ fs, d.Bares e.entityPath g := by
  intro g hg hpath x hx
  rw [hfinds.found] at hx
  cases hx
  exact h.isBare hfinds.keyed hg hpath

theorem Document.Finds.component {d : Document} {e : Entity} (h : d.Finds e) :
    ∀ entry ∈ e.components.entries, d.Finds entry.2 := by
  obtain ⟨_, path, hentries⟩ := h.components
  exact fun entry hentry => (hentries entry hentry).1

namespace Fragment
variable {d : Document} {f : Fragment}

theorem BareRecords.children (h : f.BareRecords d) : ∀ g ∈ f.widget.children, g.BareRecords d := by
  cases h with
  | intro hwidget _ _ => exact hwidget

/-- What is inside the widget and the records decides whether a fragment has bare records. -/
theorem BareRecords.of_records (hwidget : ∀ g ∈ f.widget.children, g.BareRecords d)
    (h : ∀ i ∈ f.instances, ∀ g ∈ i.fragments, d.Bares f.entityPath g ∧ g.BareRecords d) :
    f.BareRecords d :=
  .intro hwidget (fun i hi g hg => (h i hi g hg).1) fun i hi g hg => (h i hi g hg).2

theorem BareRecords.records (h : f.BareRecords d) : ∀ i ∈ f.instances, ∀ g ∈ i.fragments,
    d.Bares f.entityPath g ∧ g.BareRecords d := by
  cases h with
  | intro _ hbare hinside => exact fun i hi g hg => ⟨hbare i hi g hg, hinside i hi g hg⟩

theorem BareRecords.mem (h : f.BareRecords d) {g : Fragment} (hg : g ∈ allOf [f]) :
    g.BareRecords d := by
  induction h with
  | @intro f hwidget hbare hinside ih ihinside =>
      rcases mem_allOf_singleton.mp hg with rfl | hg
      · exact .intro hwidget hbare hinside
      rcases mem_allOf_children.mp hg with hg | ⟨i, hi, hg⟩
      · obtain ⟨x, hx, hg⟩ := mem_allOf.mp hg
        exact ih x hx hg
      · obtain ⟨x, hx, hg⟩ := mem_allOf.mp hg
        exact ihinside i hi x hx hg

end Fragment

open Fragment Entity in
/-- All fragments come out of the compiler with bare records. -/
theorem Derives.bareRecords {s : Settings} {d : Document} {source : Source} {t : Bool} {n m : Nat}
    {fs : List Fragment} (h : Derives s source t n fs m) (hfinds : source.Finds d) :
    ∀ f ∈ fs, f.BareRecords d := by
  have hframe {e : Facts} {wrapped t : Bool} {id : String} {widget : Widget Fragment}
      (hchildren : ∀ g ∈ widget.children, g.BareRecords d) :
      (frame s e wrapped t id widget).BareRecords d :=
    .intro hchildren (List.forall_mem_nil _) (List.forall_mem_nil _)
  induction h with
  | missing => exact List.forall_mem_nil _
  | found _ ih => exact ih hfinds
  | unresolved _ ih => exact List.forall_mem_cons.mpr ⟨hframe (List.forall_mem_nil _), ih hfinds⟩
  | none => exact List.forall_mem_nil _
  | more _ _ ih ih' =>
      obtain ⟨hfirst, hrest⟩ := List.forall_mem_cons.mp hfinds
      exact List.forall_mem_append.mpr ⟨ih hfirst, ih' hrest⟩
  | fault _ => exact List.forall_mem_singleton.mpr (hframe (List.forall_mem_nil _))
  | bare _ _ _ ih => exact ih (Document.Finds.component hfinds)
  | leaf hleaf =>
      refine List.forall_mem_singleton.mpr (hframe ?_)
      rw [(leaf_ids hleaf).1]
      exact List.forall_mem_nil _
  | @group e t n m children _ _ _ _ ih =>
      have hchildren : ∀ g ∈ (Widget.group children).children, g.BareRecords d :=
        ih (Document.Finds.component hfinds)
      exact List.forall_mem_singleton.mpr (hframe hchildren)
  | @record e field widget instances body number numbers wrapped t n m k hfilling hbody ih ihbody =>
      have hfield : BareRecords d ⟨field, widget, instances⟩ :=
        List.forall_mem_singleton.mp (ih hfinds)
      have hpath : field.entityPath = e.entityPath := hfilling.shown.2.2.fits.entityPath
      have hbares : ∀ g ∈ body, d.Bares field.entityPath g := by
        rw [hpath]
        exact hbody.bares hfinds
      refine List.forall_mem_singleton.mpr (.of_records hfield.children ?_)
      exact List.forall_mem_append.mpr ⟨hfield.records,
        List.forall_mem_singleton.mpr fun g hg => ⟨hbares g hg, ihbody hfinds g hg⟩⟩
  | filled _ ih => exact ih hfinds
  | tabSet =>
      exact List.forall_mem_singleton.mpr
        (.intro (List.forall_mem_nil _) (List.forall_mem_nil _) (List.forall_mem_nil _))
  | @tab e branch key branches field row fs t n m k htabs _ ih ihbranch =>
      obtain ⟨hkind, he⟩ := hfinds
      have hrow : BareRecords d ⟨field, .tabs row, []⟩ :=
        List.forall_mem_singleton.mp (ih ⟨hkind, he⟩)
      obtain ⟨done, _, _, hdone, _⟩ := htabs.shown hkind
      have hbranch : d.Finds branch :=
        he.component (key, branch) (by rw [hdone]; exact List.mem_append_right _ List.mem_cons_self)
      refine List.forall_mem_singleton.mpr
        (.intro ?_ (List.forall_mem_nil _) (List.forall_mem_nil _))
      simp only [Widget.children, List.flatMap_append, List.flatMap_singleton]
      exact List.forall_mem_append.mpr ⟨hrow.children, ihbranch hbranch⟩
  | tabbed hkind _ _ ih => exact ih ⟨hkind, hfinds⟩

/-- A change that keeps where a field stands, and whether it is bare. -/
def Fragment.KeepsBare (change : Fragment → Fragment) : Prop :=
  ∀ f, (change f).entityPath = f.entityPath ∧ (change f).isBare = f.isBare

namespace Fragment
variable {d : Document} {test : Fragment → Bool} {change : Fragment → Fragment} {f : Fragment}

/-- Editing a field leaves it as bare as it was. -/
theorem Edit.keepsBare (h : Edit change) : KeepsBare change := by
  intro f
  have hshape := h.shape f
  have hpath : (change f).entityPath = f.entityPath := (congrArg (fun n => n.entityPath) hshape :)
  have hlabel : (change f).label = f.label := (congrArg (fun n => n.label) hshape :)
  have hwrapped : (change f).wrapped = f.wrapped := (congrArg (fun n => n.wrapped) hshape :)
  have hrepetition : (change f).repetition = f.repetition :=
    (congrArg (fun n => n.repetition) hshape :)
  exact ⟨hpath, by rw [Field.isBare, Field.isBare, hlabel, hwrapped, hrepetition]⟩

theorem keepsBare_appendInstance (i : Instance Fragment) : KeepsBare (Form.appendInstance i) :=
  fun f => ⟨rfl, by simp [Field.isBare, Form.appendInstance]⟩

theorem keepsBare_dropInstance (id : String) : KeepsBare (Form.dropInstance id) :=
  fun f => ⟨rfl, by simp [Field.isBare, Form.dropInstance]⟩

/-- Whether a fragment is bare where it should be can be told from its path and what is around
it. -/
theorem bares_congr {g g' : Fragment} {path : List String}
    (h : g'.entityPath = g.entityPath ∧ g'.isBare = g.isBare) (hbares : d.Bares path g) :
    d.Bares path g' := by
  intro hpath e he
  rw [h.2]
  exact hbares (h.1 ▸ hpath) e he

/-- Wherever a change takes place, a fragment around it stays where it is. -/
theorem KeepsBare.update (hkeeps : KeepsBare change) {g g' : Fragment}
    (h : updateRow? test change [g] = some [g']) :
    g'.entityPath = g.entityPath ∧ g'.isBare = g.isBare := by
  rcases updateRow?_singleton h with ⟨_, hg⟩ | ⟨_, _, hg⟩ | ⟨_, _, hg⟩ <;> cases hg
  · exact hkeeps g
  · exact ⟨rfl, rfl⟩
  · exact ⟨rfl, rfl⟩

/-- Changing the first fragment that passes a test keeps the records bare, if it does for the
fragments that pass it. The field keeps its path, so its records are measured by the same node as
before. -/
theorem BareRecords.update (h : f.BareRecords d) (hkeeps : KeepsBare change)
    (hchange : ∀ g ∈ allOf [f], test g = true → g.BareRecords d → (change g).BareRecords d)
    {f' : Fragment} (hupdate : updateRow? test change [f] = some [f']) : f'.BareRecords d := by
  induction h generalizing f' with
  | @intro f hwidget hbare hinside ih ihinside =>
      have hbelow {x : Fragment} (hx : x ∈ f.children) : ∀ g ∈ allOf [x], test g = true →
          g.BareRecords d → (change g).BareRecords d := fun g hg =>
        hchange g (mem_allOf_singleton.mpr (Or.inr (mem_allOf.mpr ⟨x, hx, hg⟩)))
      rcases updateRow?_singleton hupdate with ⟨htest, hf⟩ | ⟨widget, hw, hf⟩ | ⟨instances, hi, hf⟩
      · cases hf
        exact hchange f (mem_allOf_singleton.mpr (Or.inl rfl)) htest
          (.intro hwidget hbare hinside)
      · cases hf
        refine .intro ?_ hbare hinside
        exact forall_updateRow? hwidget (updateWidget?_some hw).1 fun g hg g' hg' =>
          ih g hg (hbelow (List.mem_append_left _ hg)) hg'
      · cases hf
        obtain ⟨left, i, right, fragments, hsplit, hrow, rfl⟩ := updateInstances?_some hi
        have hmem : i ∈ f.instances := by simp [hsplit]
        have hbody : ∀ g ∈ fragments, d.Bares f.entityPath g ∧ g.BareRecords d := by
          refine forall_updateRow? (fun g hg => ⟨hbare i hmem g hg, hinside i hmem g hg⟩) hrow ?_
          intro g hg g' hg'
          have hplace : g ∈ f.children :=
            List.mem_append_right _ (List.mem_flatMap.mpr ⟨i, hmem, hg⟩)
          exact ⟨bares_congr (hkeeps.update hg') (hbare i hmem g hg),
            ihinside i hmem g hg (hbelow hplace) hg'⟩
        have hrecords := (BareRecords.intro hwidget hbare hinside).records
        rw [hsplit] at hrecords
        simp only [List.forall_mem_append, List.forall_mem_cons] at hrecords
        refine .of_records hwidget ?_
        simp only [List.forall_mem_append, List.forall_mem_cons]
        exact ⟨hrecords.1, hbody, hrecords.2.2⟩

theorem BareRecords.edit (h : f.BareRecords d) (hedit : Edit change) :
    (change f).BareRecords d := by
  have hpath := (hedit.keepsBare f).1
  obtain ⟨hchildren, hbodies⟩ := hedit.inside f
  refine .of_records (hchildren ▸ h.children) ?_
  intro i hi
  obtain ⟨j, hj, hsame⟩ : ∃ j ∈ f.instances, j.fragments = i.fragments :=
    List.mem_map.mp (hbodies ▸ List.mem_map_of_mem hi)
  rw [hpath, ← hsame]
  exact h.records j hj

/-- A record whose fragments are bare may be added. -/
theorem BareRecords.appendInstance (h : f.BareRecords d) {i : Instance Fragment}
    (hbody : ∀ g ∈ i.fragments, d.Bares f.entityPath g ∧ g.BareRecords d) :
    (Form.appendInstance i f).BareRecords d :=
  .of_records h.children
    (List.forall_mem_append.mpr ⟨h.records, List.forall_mem_singleton.mpr hbody⟩)

theorem BareRecords.dropInstance (h : f.BareRecords d) (id : String) :
    (Form.dropInstance id f).BareRecords d := by
  refine .of_records h.children ?_
  intro i hi
  obtain ⟨j, hj, _, hsame⟩ := mem_renumber hi
  rw [← hsame]
  exact h.records j (List.mem_of_mem_eraseP hj)

end Fragment

namespace Form
variable {s : Settings} {d : Document} {a b : Form}

theorem bareRecords_updateFirst? (h : ∀ f ∈ a.fragments, f.BareRecords d)
    {test : Fragment → Bool} {change : Fragment → Fragment} (hkeeps : Fragment.KeepsBare change)
    (hchange : ∀ g ∈ a.all, test g = true → g.BareRecords d → (change g).BareRecords d)
    (hupdate : a.updateFirst? test change = some b) : ∀ f ∈ b.fragments, f.BareRecords d := by
  obtain ⟨fragments, hrow, rfl⟩ := Option.map_eq_some_iff.mp hupdate
  refine Fragment.forall_updateRow? h hrow fun f hf f' hf' => (h f hf).update hkeeps ?_ hf'
  exact fun g hg => hchange g (Fragment.mem_allOf.mpr ⟨f, hf, hg⟩)

theorem bareRecords_update (h : ∀ f ∈ a.fragments, f.BareRecords d) {id : String}
    {change : Fragment → Fragment} (hkeeps : Fragment.KeepsBare change)
    (hchange : ∀ g ∈ a.all, g.id = id → g.BareRecords d → (change g).BareRecords d) :
    ∀ f ∈ (a.update id change).fragments, f.BareRecords d := by
  rw [update]
  cases hupdate : a.updateFirst? (·.id == id) change with
  | none => exact h
  | some b =>
      exact bareRecords_updateFirst? h hkeeps
        (fun g hg htest => hchange g hg (by simpa using htest)) hupdate

/-- The records of a form that evolves stay bare: the node that a record is compiled from is the one
that the field shows. -/
theorem Evolves.bareRecords {place : Focus} {n : Nat} (hissued : Issued 0 a.counter a.ids)
    (h : Evolves s d a n b) (hfinds : place.Finds d) (hshown : place.Shown a.fragments)
    (ha : ∀ f ∈ a.fragments, f.BareRecords d) : ∀ f ∈ b.fragments, f.BareRecords d := by
  induction h with
  | refl => exact ha
  | edit _ hedit hchange ih =>
      exact bareRecords_updateFirst? ih hedit.keepsBare (fun g _ _ hg => hg.edit hedit) hchange
  | @add n b c wrapper id hbefore hadd ih =>
      obtain ⟨f, r, e, hfind, hr, he, rfl⟩ := addInstance_some hadd
      have hf : f ∈ b.all := List.mem_of_find?_eq_some hfind
      obtain ⟨way, x, own, hdisplays, hfield⟩ := (hbefore.shown hissued hfinds hshown).2.mem hf
      have hx := hdisplays.finds hfinds
      rw [hfield.fits.entityPath, hx.found] at he
      cases he
      have hbody := (Entity.compileBody_derives s e { counter := b.counter + 1 } false rfl).2
      refine bareRecords_update ih (Fragment.keepsBare_appendInstance _) ?_
      intro g hg hid hbare
      obtain rfl := eq_of_find? (hbefore.advances hissued).issued.ids_nodup hfind hg hid
      refine hbare.appendInstance fun y hy => ⟨?_, hbody.bareRecords hx y hy⟩
      rw [hfield.fits.entityPath]
      exact hbody.bares hx y hy
  | remove _ hremove ih =>
      obtain rfl := removeInstance_some hremove
      exact bareRecords_update ih (Fragment.keepsBare_dropInstance _)
        fun g _ _ hg => hg.dropInstance _

end Form

open Fragment in
/-- Wherever a field of a node stands in a record of the node, it is bare exactly if bodies of the
node are. -/
theorem Fragment.BareRecords.isBare {d : Document} {w : Fragment} (h : w.BareRecords d)
    {e : Entity} {own : Bool} (he : d.Finds e) (hshows : Shows (.field e own) [w])
    {i : Instance Fragment} (hi : i ∈ w.instances) {g : Fragment} (hg : g ∈ allOf i.fragments)
    (hpath : g.entityPath = e.entityPath) : g.isBare = e.kind.hasBareBody := by
  induction h generalizing own i with
  | @intro w _ hbare _ _ ih =>
      have hwpath := hshows.fits.entityPath
      have hrecords : ∀ i ∈ w.instances, Shows (.node e false) i.fragments := by
        cases hshows with
        | field _ _ hrecords => exact hrecords
      have hrecord := hrecords i hi
      generalize hfs : i.fragments = fs at hrecord hg
      cases hrecord with
      | bare hkind _ hrow =>
          rw [← Entity.nested_of_grouping hkind] at hrow
          exact absurd hpath (Entity.entityPath_ne_of_inside he.keyed hrow hg)
      | @own _ _ f _ hfield =>
          have hf : f ∈ i.fragments := by rw [hfs]; exact List.mem_cons_self
          rcases mem_allOf_singleton.mp hg with rfl | hg
          · exact hbare i hi g hf (hpath.trans hwpath.symm) e (hwpath ▸ he.found)
          rcases mem_allOf_children.mp hg with hg | ⟨j, hj, hg⟩
          · cases hfield with
            | field _ hwidget _ =>
                rw [if_pos rfl] at hwidget
                exact absurd hpath (Entity.entityPath_ne_of_inside he.keyed hwidget hg)
          · exact ih i hi f hf hfield hj hg

namespace Session

/-- All forms of a session have bare records. -/
theorem bareRecords_run {text : String} {d : Document} {c : Settings} {history : List Event}
    {form : Form} (hd : Document.ofText text = .ok d) (hkeys : d.namedByIds = true)
    (h : ((start d c).run history).form = some form) :
    ∀ f ∈ form.fragments, f.BareRecords d := by
  obtain ⟨focus, generation, n, _, hevolves⟩ := (reached_run d c history).form form h
  have hfinds := Document.finds_place hd hkeys focus
  have hderives := Form.compile_derives c d focus generation
  exact hevolves.bareRecords (Form.compile_issued c d focus generation) hfinds hderives.shown
    (hderives.bareRecords hfinds)

/-- If all nodes of a document stand under their ids, then in a record of a field whatever is a
field of the same node again has neither label nor container nor a control to add records. The
exceptions are the nodes that are disjunctions or of an unknown kind, of which it never holds. -/
theorem records_are_bare_iff {text : String} {d : Document} {c : Settings} {history : List Event}
    {form : Form} (hd : Document.ofText text = .ok d) (hkeys : d.namedByIds = true)
    (h : ((start d c).run history).form = some form) {w : Fragment} (hw : w ∈ form.all) :
    ∃ e, d.entityAt? w.entityPath = some e ∧
      ∀ i ∈ w.instances, ∀ g ∈ Fragment.allOf i.fragments, g.entityPath = w.entityPath →
        ((g.label = none ∧ g.wrapped = false ∧ g.repetition = none) ↔
          e.kind ≠ .disjunction ∧ ∀ tag, e.kind ≠ .unrecognized tag) := by
  obtain ⟨hfinds, hshown⟩ := shown_run hd hkeys h
  obtain ⟨way, e, own, hdisplays, hfield⟩ := hshown.mem hw
  have he := hdisplays.finds hfinds
  have hpath := hfield.fits.entityPath
  obtain ⟨top, htop, hwtop⟩ := Fragment.mem_allOf.mp hw
  have hbare := (bareRecords_run hd hkeys h top htop).mem hwtop
  refine ⟨e, hpath ▸ he.found, fun i hi g hg hsame => ?_⟩
  rw [← Field.isBare_iff, ← Kind.hasBareBody_iff,
    hbare.isBare he hfield hi hg (hsame.trans hpath)]

/-- The record that is added to `keyedText` is a bare field. -/
theorem note_record_is_bare :
    ∃ d form w i g, Document.ofText keyedText = .ok d ∧ d.namedByIds = true ∧
      ((start d {}).run [.select "note", .add "note_0"]).form = some form ∧
      w ∈ form.all ∧ i ∈ w.instances ∧ g ∈ Fragment.allOf i.fragments ∧
      g.entityPath = w.entityPath ∧ g.label = none ∧ g.wrapped = false ∧ g.repetition = none := by
  have hchecks : checks keyedText [.select "note", .add "note_0"] (fun d form _ =>
      d.namedByIds && decide (∃ w ∈ form.all,
        (d.entityAt? w.entityPath).all (·.kind.hasBareBody) = true ∧
          ∃ i ∈ w.instances, ∃ g ∈ Fragment.allOf i.fragments, g.entityPath = w.entityPath)) =
      true := by decide +kernel
  obtain ⟨d, form, _, hd, hform, _, htest⟩ := exists_of_checks hchecks
  simp only [Bool.and_eq_true, decide_eq_true_eq] at htest
  obtain ⟨hkeys, w, hw, hkind, i, hi, g, hg, hpath⟩ := htest
  obtain ⟨e, he, hbare⟩ := records_are_bare_iff hd hkeys hform hw
  rw [he, Option.all_some, Kind.hasBareBody_iff] at hkind
  exact ⟨d, form, w, i, g, hd, hkeys, hform, hw, hi, hg, hpath, (hbare i hi g hg hpath).mpr hkind⟩

/-- The text of a document with one field, of an unknown kind, that takes up to three records. -/
def yearText : String :=
  "\x7b\"specifications\":\x7b\"x\":\x7b\"id\":\"x\",\"datatype\":\"xmls:gYear\"," ++
    "\"maxCardinality\":3\x7d\x7d\x7d"

/-- The record that is added to `yearText` is a notice with a label, a container and a control to
add records of its own. -/
theorem year_record_is_not_bare :
    ∃ d form w i g, Document.ofText yearText = .ok d ∧ d.namedByIds = true ∧
      ((start d {}).run [.select "x", .add "x_0"]).form = some form ∧
      w ∈ form.all ∧ i ∈ w.instances ∧ g ∈ Fragment.allOf i.fragments ∧
      g.entityPath = w.entityPath ∧ g.label ≠ none ∧ g.wrapped = true ∧ g.repetition ≠ none := by
  have hchecks : checks yearText [.select "x", .add "x_0"] (fun d form _ =>
      d.namedByIds && decide (∃ w ∈ form.all, ∃ i ∈ w.instances,
        ∃ g ∈ Fragment.allOf i.fragments, g.entityPath = w.entityPath ∧ g.label.isSome = true ∧
          g.wrapped = true ∧ g.repetition.isSome = true)) = true := by decide +kernel
  obtain ⟨d, form, _, hd, hform, _, htest⟩ := exists_of_checks hchecks
  simp only [Bool.and_eq_true, decide_eq_true_eq] at htest
  obtain ⟨hkeys, w, hw, i, hi, g, hg, hpath, hlabel, hwrapped, hrepetition⟩ := htest
  exact ⟨d, form, w, i, g, hd, hkeys, hform, hw, hi, hg, hpath, Option.isSome_iff_ne_none.mp hlabel,
    hwrapped, Option.isSome_iff_ne_none.mp hrepetition⟩

end Session

end EntryForm
