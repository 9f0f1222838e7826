import EntryForm.Proofs.OwnRecords
import EntryForm.Proofs.Refusals

/-!
# Adding a record and removing it

Removing a record right after it was added gives back the form as it was, except that the ids of the
record are not handed out again. This needs that the field was counted before, that the id is new,
and that both changes are made at the same place. Any removal takes one record out and numbers the
others anew, and nothing else of the form changes.
-/

namespace EntryForm

namespace RepeatState

/-- Counting one less undoes counting one more. -/
theorem remove?_add? {r : RepeatState} (hcount : 1 ≤ r.count) (hlimit : r.count < countLimit)
    (henabled : r.addEnabled = true) (hmax : ∀ max ∈ r.max, r.count ≤ max) :
    (r.add?.getD r).remove?.getD (r.add?.getD r) = r := by
  rw [add?_eq henabled hlimit, Option.getD_some, remove?_eq (Nat.lt_succ_of_le hcount),
    Option.getD_some]
  have hroom : r.max.all (r.count ≤ ·) = true := by
    rw [Option.all_eq_true]
    simpa using hmax
  obtain ⟨count, min, max, addEnabled⟩ := r
  simp_all

end RepeatState

namespace Form

section instances
variable {instances before rest : List (Instance Fragment)} {i : Instance Fragment}

/-- Renumbering writes the number of its place into the header of each record. -/
theorem renumber_eq_zipIdx (number : Nat) (instances : List (Instance Fragment)) :
    renumber number instances =
      (instances.zipIdx number).map fun p => { p.1 with header := recordHeader p.2 } := by
  induction instances generalizing number with
  | nil => rfl
  | cons i rest ih => rw [renumber, ih, List.zipIdx_cons, List.map_cons]

/-- Instances that are numbered stay as they are when they are numbered again. -/
theorem renumber_of_headers {number : Nat}
    (h : instances.map (·.header) = (List.range' number instances.length).map recordHeader) :
    renumber number instances = instances := by
  induction instances generalizing number with
  | nil => rfl
  | cons i rest ih =>
      rw [List.length_cons, List.range'_succ, List.map_cons, List.map_cons] at h
      obtain ⟨hfirst, hrest⟩ := List.cons_eq_cons.mp h
      rw [renumber, ih hrest, ← hfirst]

/-- The instance that is taken out by its id. -/
theorem eraseP_isRemovable (hremovable : i.removable = true) (hid : i.id ∉ before.map (·.id)) :
    (before ++ i :: rest).eraseP (isRemovable i.id) = before ++ rest := by
  have hbefore : ∀ j ∈ before, ¬ isRemovable i.id j = true := by
    intro j hj hmatch
    rw [isRemovable, Bool.and_eq_true, beq_iff_eq] at hmatch
    exact hid (List.mem_map.mpr ⟨j, hj, hmatch.1⟩)
  have hself : isRemovable i.id i = true := by simp [isRemovable, hremovable]
  rw [List.eraseP_append_right _ hbefore, List.eraseP_cons_of_pos hself]

/-- A removable record is found among the records around it. -/
theorem any_isRemovable (hremovable : i.removable = true) :
    (before ++ i :: rest).any (isRemovable i.id) = true := by
  simp [isRemovable, hremovable]

/-- Taking out a new instance that was appended to a counted field gives back the field. -/
theorem dropInstance_appendInstance {f : Fragment} {r : RepeatState} (hr : f.repetition = some r)
    (hcounted : f.node.Counted r) (henabled : r.addEnabled = true)
    (hlimit : r.count < RepeatState.countLimit) (hremovable : i.removable = true)
    (hid : i.id ∉ f.instances.map (·.id)) : dropInstance i.id (appendInstance i f) = f := by
  obtain ⟨hcount, hheaders, _, hmax, _⟩ := (counted_iff f r).mp hcounted
  have hstate := RepeatState.remove?_add? (by omega) hlimit henabled hmax
  have hrow : renumber 2 ((f.instances ++ [i]).eraseP (isRemovable i.id)) = f.instances := by
    rw [eraseP_isRemovable hremovable hid, List.append_nil, renumber_of_headers hheaders]
  obtain ⟨field, widget, instances⟩ := f
  cases field
  simp only at hr hrow
  subst hr
  simp only [dropInstance, appendInstance, hrow, Option.map_some, hstate]

end instances

end Form

namespace Fragment
variable {f g g' h : Fragment} {before middle after : List Node}

/-- Where no node is twice, a fragment is told by its node, and so is its place. -/
theorem eq_of_place {left left' right right' : List Node}
    (hnodup : (left ++ nodesOf [g] ++ right).Nodup) (hnode : g.node = g'.node)
    (hrow : left ++ nodesOf [g] ++ right = left' ++ nodesOf [g'] ++ right') :
    left = left' ∧ g = g' ∧ right = right' := by
  rw [List.append_assoc, List.append_assoc, nodesOf_singleton, nodesOf_singleton g',
    List.cons_append, List.cons_append, hnode] at hrow
  rw [List.append_assoc, nodesOf_singleton, List.cons_append, hnode] at hnodup
  obtain ⟨_, hrest, hapart⟩ := List.nodup_append.mp hnodup
  have hleft : g'.node ∉ left := fun hmem => hapart _ hmem _ List.mem_cons_self rfl
  obtain ⟨rfl, _, hinside⟩ :=
    (List.append_cons_inj_of_notMem hleft (List.nodup_cons.mp hrest).1).mp hrow
  have hself : nodesOf [g] ++ right = nodesOf [g'] ++ right' := by
    rw [nodesOf_singleton, nodesOf_singleton g', List.cons_append, List.cons_append, hnode, hinside]
  exact ⟨rfl, eq_of_nodesOf_append g g' right right' hself⟩

/-- Two replacements at one place are one. -/
theorem Replaces.trans (hfirst : Replaces f g before middle) (hsecond : Replaces g h middle after)
    (hnodup : middle.Nodup) : Replaces f h before after := by
  obtain ⟨left, right, rfl, rfl⟩ := hfirst
  obtain ⟨left', right', hmiddle, rfl⟩ := hsecond
  obtain ⟨rfl, _, rfl⟩ := eq_of_place hnodup rfl hmiddle
  exact ⟨left, right, rfl, rfl⟩

/-- Putting a fragment in its own place changes nothing. -/
theorem eq_of_replaces_self (hself : Replaces f f before after) : after = before := by
  obtain ⟨left, right, rfl, rfl⟩ := hself
  rfl

end Fragment

namespace Form
variable {s : Settings} {d : Document} {a b : Form} {wrapper id : String}

/-- A fragment that was changed is found under its id: what is found is at the place of the change,
since its node is nowhere else. -/
theorem find?_update {change : Fragment → Fragment} (hid : ∀ f, (change f).id = f.id)
    {f : Fragment} (hfind : a.find? id = some f) (hnodup : (a.update id change).ids.Nodup) :
    (a.update id change).find? id = some (change f) := by
  have hreplaces := update_replaces change hid hfind
  have hself : (change f).node ∈ Fragment.nodesOf [change f] := by
    rw [Fragment.nodesOf_singleton]
    exact List.mem_cons_self
  obtain ⟨g, hg, hnode⟩ := List.mem_map.mp (hreplaces.symm.mem_old hself)
  have hfound : f.id = id := by simpa using List.find?_some hfind
  have hchanged : g.id = (change f).id := congrArg (fun n : Node => n.id) hnode
  have hgid : g.id = id := hchanged.trans ((hid f).trans hfound)
  have hfindg : (a.update id change).find? id = some g := hgid ▸ find?_of_mem hnodup hg
  obtain ⟨left, right, hrow, _⟩ := update_replaces (fun x => x) (fun _ => rfl) hfindg
  obtain ⟨left', right', _, hrow'⟩ := hreplaces
  have hnodes := nodes_nodup hnodup
  rw [hrow] at hnodes hrow'
  obtain ⟨_, rfl, _⟩ := Fragment.eq_of_place hnodes hnode hrow'
  exact hfindg

/-- Every repeated field is counted, as far as can be counted. -/
def Tidy (a : Form) : Prop := ∀ n ∈ a.nodes, n.Tidy (RepeatState.countLimit - 1)

theorem Tidy.counted (h : a.Tidy) {f : Fragment} (hf : f ∈ a.all) {r : RepeatState}
    (hr : f.repetition = some r) : f.node.Counted r :=
  (h f.node (mem_nodes hf) r hr).1

theorem instance_id_mem {f : Fragment} (hf : f ∈ a.all) {i : Instance Fragment}
    (hi : i ∈ f.instances) : i.id ∈ a.ids := by
  refine List.mem_flatMap.mpr ⟨f.node, mem_nodes hf, List.mem_cons_of_mem _ ?_⟩
  refine List.mem_append_right _ (List.mem_map.mpr ⟨i.map (·.id), ?_, rfl⟩)
  exact List.mem_map_of_mem hi

/-- The records of one field have distinct ids if all nodes of the form have. -/
theorem instance_ids_nodup (h : a.ids.Nodup) {f : Fragment} (hf : f ∈ a.all) :
    (f.instances.map (·.id)).Nodup := by
  have hids : f.node.ids.Nodup := (List.nodup_flatMap.mp h).1 f.node (mem_nodes hf)
  have hinstances : f.node.instances.map (·.id) = f.instances.map (·.id) := by
    simp [Fragment.node, Instance.map, Function.comp_def]
  rw [← hinstances]
  exact (List.nodup_append.mp (List.nodup_cons.mp hids).2).2.1

/-- Two changes of a fragment that together change nothing leave the form as it was. -/
theorem update_update_self {change back : Fragment → Fragment} (hid : ∀ f, (change f).id = f.id)
    (hback : ∀ f, (back f).id = f.id) {f : Fragment} (hfind : a.find? id = some f)
    (hnodup : (a.update id change).ids.Nodup) (hself : back (change f) = f) :
    (a.update id change).update id back = a := by
  have hfirst := update_replaces change hid hfind
  have hsecond := update_replaces back hback (find?_update hid hfind hnodup)
  rw [hself] at hsecond
  have hnodes := Fragment.eq_of_replaces_self (hfirst.trans hsecond (nodes_nodup hnodup))
  calc (a.update id change).update id back
      = { a.update id change with
          state := .fields ((a.update id change).update id back).fragments } :=
        update_fields hback (find?_update hid hfind hnodup)
    _ = { a.update id change with state := .fields a.fragments } := by
        rw [Fragment.nodesOf_injective hnodes]
    _ = { a with state := .fields a.fragments } := by rw [update_eq id change a]
    _ = a := by rw [← state_of_find? hfind]

/-- The id of a record that is added is new, and so the counter goes on. -/
theorem added_id_is_new (hissued : Issued 0 a.counter a.ids)
    (hadd : a.addInstance s d wrapper = .ok (some (id, b))) :
    id ∉ a.ids ∧ a.counter < b.counter := by
  obtain ⟨new, hnew, _⟩ := addInstance_ids hadd
  have hfresh := hnew.bounds id List.mem_cons_self
  refine ⟨?_, by omega⟩
  intro hold
  have hbounds := hissued.bounds id hold
  omega

/-- A record that has just been added can be removed, and what is left is the form as it was, but
for the ids that have been handed out. With distinct ids, the removal comes to the field that the
record was added to. -/
theorem removeInstance_added (hissued : Issued 0 a.counter a.ids) (htidy : a.Tidy)
    (hadd : a.addInstance s d wrapper = .ok (some (id, b)))
    (hcounts : ∀ f ∈ a.find? wrapper, ∀ r ∈ f.repetition, r.count < RepeatState.countLimit) :
    a.counter < b.counter ∧ b.removeInstance wrapper id = .ok { a with counter := b.counter } := by
  obtain ⟨f, r, e, hfind, hr, _, hb⟩ := addInstance_some hadd
  obtain ⟨f', r', _, _, hfind', _, hr', henabled, _⟩ := addInstance_ok hadd
  cases hfind.symm.trans hfind'
  cases hr.symm.trans hr'
  let i : Instance Fragment := ⟨id, recordHeader (r.count + 1), true,
    ((e.compileBody s).run { counter := a.counter + 1 }).1⟩
  have hb : b = { a.update wrapper (appendInstance i) with counter := b.counter } := by
    rw [hb]
  have hf : f ∈ a.all := List.mem_of_find?_eq_some hfind
  obtain ⟨hnew, hcounter⟩ := added_id_is_new hissued hadd
  have hid : i.id ∉ f.instances.map (·.id) := by
    intro hmem
    obtain ⟨j, hj, hsame⟩ := List.mem_map.mp hmem
    have hold : j.id ∈ a.ids := instance_id_mem hf hj
    rw [hsame] at hold
    exact hnew hold
  have hundone : dropInstance i.id (appendInstance i f) = f :=
    dropInstance_appendInstance hr (htidy.counted hf hr) henabled
      (hcounts f hfind r hr) rfl hid
  have hnodup : (a.update wrapper (appendInstance i)).ids.Nodup := by
    have hissued' := ((Evolves.add .refl hadd).advances hissued).issued
    rw [hb] at hissued'
    exact hissued'.ids_nodup
  refine ⟨hcounter, ?_⟩
  have hkeeps : ∀ g, (appendInstance i g).id = g.id := fun _ => rfl
  have hfound : b.find? wrapper = some (appendInstance i f) := by
    rw [hb]
    exact find?_update hkeeps hfind hnodup
  have hrepeated : (appendInstance i f).repetition = some (r.add?.getD r) :=
    appendInstance_repetition hr i
  have hany : (appendInstance i f).instances.any (isRemovable id) = true :=
    any_isRemovable rfl
  rw [removeInstance_eq hfound hrepeated hany, hb, update_recount]
  have hback : (a.update wrapper (appendInstance i)).update wrapper (dropInstance id) = a :=
    update_update_self hkeeps (fun _ => rfl) hfind hnodup hundone
  rw [hback]

/-- What is left of a field when one of its records is taken out, the others being numbered anew. -/
def withoutRecord (before rest : List (Instance Fragment)) (f : Fragment) : Fragment :=
  { f with
    repetition := f.repetition.map fun r => r.remove?.getD r
    instances := ((before ++ rest).zipIdx 2).map fun p => { p.1 with header := recordHeader p.2 } }

/-- A record is taken out of its field alone. -/
theorem removeInstance_of_mem (hnodup : a.ids.Nodup) {f : Fragment} (hf : f ∈ a.all)
    {r : RepeatState} (hr : f.repetition = some r) {before rest : List (Instance Fragment)}
    {i : Instance Fragment} (hinstances : f.instances = before ++ i :: rest)
    (hremovable : i.removable = true) :
    ∃ fragments, a.removeInstance f.id i.id = .ok { a with state := .fields fragments } ∧
      Fragment.Replaces f (withoutRecord before rest f) a.nodes (Fragment.nodesOf fragments) := by
  have hid : i.id ∉ before.map (·.id) := by
    have hids := instance_ids_nodup hnodup hf
    rw [hinstances, List.map_append, List.map_cons] at hids
    obtain ⟨_, _, hapart⟩ := List.nodup_append.mp hids
    exact fun hmem => hapart _ hmem _ List.mem_cons_self rfl
  have hany : f.instances.any (isRemovable i.id) = true := hinstances ▸ any_isRemovable hremovable
  have hdrop : dropInstance i.id f = withoutRecord before rest f := by
    rw [dropInstance, withoutRecord, hinstances, eraseP_isRemovable hremovable hid,
      renumber_eq_zipIdx]
  have hfind := find?_of_mem hnodup hf
  have hkeeps : ∀ g, (dropInstance i.id g).id = g.id := fun _ => rfl
  refine ⟨(a.update f.id (dropInstance i.id)).fragments, ?_, ?_⟩
  · rw [removeInstance_eq hfind hr hany, ← update_fields hkeeps hfind]
  · rw [← hdrop]
    exact update_replaces (dropInstance i.id) hkeeps hfind

/-- Whether all records of a node can be removed if it is a repeated field. -/
def Releases (n : Node) : Prop :=
  n.repetition.isSome = true → ∀ i ∈ n.instances, i.removable = true

theorem forall_removable_iff (f : Fragment) :
    (∀ i ∈ f.node.instances, i.removable = true) ↔ ∀ i ∈ f.instances, i.removable = true := by
  simp [Fragment.node, Instance.map]

/-- Every form releases its removable records: compiling makes none, and adding and removing keeps
them so. -/
theorem releases_lasting (s : Settings) : Lasting s Releases where
  compiled h n hn hrepeated := by
    obtain ⟨r, hr⟩ := Option.isSome_iff_exists.mp hrepeated
    rw [(h.unrepeated n hn r hr).2.2.1]
    exact List.forall_mem_nil _
  shape {n n'} hshape h hrepeated := by
    have hrepetition : n.repetition = n'.repetition := congrArg (·.repetition) hshape
    have hinstances : n.instances = n'.instances := congrArg (·.instances) hshape
    rw [← hrepetition] at hrepeated
    rw [← hinstances]
    exact h hrepeated
  append {f i} hrepeated hremovable h _ := by
    have hbefore := (forall_removable_iff f).mp (h hrepeated)
    apply (forall_removable_iff _).mpr
    exact List.forall_mem_append.mpr ⟨hbefore, List.forall_mem_singleton.mpr hremovable⟩
  drop {f id} hrepeated h _ := by
    have hbefore := (forall_removable_iff f).mp (h hrepeated)
    apply (forall_removable_iff _).mpr
    exact renumber_removable 2 fun i hi => hbefore i (List.mem_of_mem_eraseP hi)

/-- A field stays counted when it gets another record, as long as the count can grow. -/
theorem Tidy.add (h : a.Tidy) (hadd : a.addInstance s d wrapper = .ok (some (id, b)))
    (hcounts : ∀ f ∈ a.find? wrapper, ∀ r ∈ f.repetition, r.count < RepeatState.countLimit) :
    b.Tidy := by
  obtain ⟨f, r, e, body, hfind, _, hr, henabled, _, _, hbody, hreplaces⟩ := addInstance_ok hadd
  have hlimit := hcounts f hfind r hr
  have hbefore := h.counted (List.mem_of_find?_eq_some hfind) hr
  let i : Instance Fragment := ⟨id, recordHeader (r.count + 1), true, body⟩
  have hafter := @counted_append f r i hbefore henabled hlimit rfl rfl
  intro n hn
  rcases nodes_of_appendInstance hreplaces hn with hold | rfl | hnew
  · exact h n hold
  · intro r' hr'
    cases (appendInstance_repetition hr i).symm.trans hr'
    exact ⟨hafter.1, by omega⟩
  · exact (hbody.unrepeated n hnew).tidy _

end Form

namespace Session

/-- Whether the count of a field can still grow when a record is to be added to it. -/
def canCount (s : Session) : Event → Bool
  | .add wrapper =>
    ((s.form.bind (·.find? wrapper)).bind (·.repetition)).all fun r =>
      !r.addEnabled || decide (r.count < RepeatState.countLimit)
  | _ => true

/-- Whether all additions of a run find a count that can still grow. -/
def countsAll (s : Session) : List Event → Bool
  | [] => true
  | e :: rest => s.canCount e && (s.step e).countsAll rest

variable {s : Session}

/-- All additions of a history can be counted if those of its parts can. -/
theorem countsAll_append (before after : List Event) :
    s.countsAll (before ++ after) = (s.countsAll before && (s.run before).countsAll after) := by
  induction before generalizing s with
  | nil => rfl
  | cons e rest ih => rw [List.cons_append, countsAll, countsAll, ih, run_cons, Bool.and_assoc]

/-- An addition that can be counted finds the count below the limit. -/
theorem count_lt {wrapper id : String} {a b : Form} (hform : s.form = some a)
    (hcount : s.canCount (.add wrapper) = true)
    (hadd : a.addInstance s.settings s.document wrapper = .ok (some (id, b))) :
    ∀ f ∈ a.find? wrapper, ∀ r ∈ f.repetition, r.count < RepeatState.countLimit := by
  obtain ⟨f, r, _, _, hfind, _, hr, henabled, _⟩ := Form.addInstance_ok hadd
  have hlimit : r.count < RepeatState.countLimit := by
    simpa [canCount, hform, hfind, hr, henabled] using hcount
  intro f' hf' r' hr'
  cases hfind.symm.trans hf'
  cases hr.symm.trans hr'
  exact hlimit

/-- Every event keeps fields counted, if it adds no record that cannot be. -/
theorem tidy_step {e : Event} (hcount : s.canCount e = true) (h : ∀ a ∈ s.form, a.Tidy) :
    ∀ b ∈ (s.step e).form, b.Tidy := by
  intro b hb
  cases hselect : e.isSelect with
  | true =>
      cases e with
      | select focus =>
          cases hb
          exact fun n hn => ((Form.compile_derives _ _ _ _).unrepeated n hn).tidy _
      | _ => cases hselect
  | false =>
      cases hform : s.form with
      | none =>
          rw [step_of_no_form hform hselect, hform] at hb
          cases hb
      | some a =>
          cases hadd : e.isAdd with
          | true =>
              cases e with
              | add wrapper =>
                  rcases step_add hform wrapper with hsame | ⟨id, b', hb', hstep⟩
                  · rw [hsame] at hb
                    exact h b hb
                  · rw [hstep] at hb
                    cases hb
                    exact (h a hform).add hb' (count_lt hform hcount hb')
              | _ => cases hadd
          | false =>
              obtain ⟨b', n, hb', hn, hevolves⟩ := (continues_step hselect).some a hform
              cases hb'.symm.trans hb
              obtain rfl : n = 0 := by simpa [cost, hadd] using hn
              exact hevolves.tidy (h a hform) (by decide)

/-- Forms stay tidy as long as all additions can be counted. -/
theorem tidy_run {events : List Event} (hcounts : s.countsAll events = true)
    (h : ∀ a ∈ s.form, a.Tidy) : ∀ b ∈ (s.run events).form, b.Tidy := by
  induction events generalizing s with
  | nil => exact h
  | cons e rest ih =>
      obtain ⟨hfirst, hrest⟩ := Bool.and_eq_true_iff.mp hcounts
      exact ih hrest (tidy_step hfirst h)

/-- As long as records can be counted, removing the one that was just added gives back the session
as it was, but for the ids that have been handed out. Removing any record of a repeated field leaves
the others in their order and as they are but for their headers, which are numbered from the second
record on, and nothing else of the form is changed. -/
theorem remove_undoes_add (d : Document) (c : Settings) (history : List Event) :
    let s := (start d c).run history
    (∀ wrapper id after, (start d c).countsAll (history ++ [.add wrapper]) = true →
      s.addInstance wrapper = .ok (some (id, after)) →
        ∃ form counter, s.form = some form ∧ form.counter < counter ∧
          after.removeInstance wrapper id = .ok { s with form := some { form with counter } }) ∧
    ∀ form, s.form = some form → ∀ f ∈ form.all, f.repetition.isSome = true →
      ∀ before i rest, f.instances = before ++ i :: rest →
        ∃ fragments,
          s.removeInstance f.id i.id =
            .ok { s with form := some { form with state := .fields fragments } } ∧
          Fragment.Replaces f (Form.withoutRecord before rest f) form.nodes
            (Fragment.nodesOf fragments) := by
  intro s
  constructor
  · intro wrapper id after hcounts hadd
    rw [countsAll_append] at hcounts
    obtain ⟨hbefore, hlast⟩ := Bool.and_eq_true_iff.mp hcounts
    obtain ⟨hlast, _⟩ := Bool.and_eq_true_iff.mp hlast
    rw [addInstance] at hadd
    split at hadd
    · cases hadd
    case _ form hform =>
      split at hadd
      · cases hadd
      · cases hadd
      case _ id b hadded =>
        cases hadd
        have hstart : ∀ a ∈ (start d c).form, a.Tidy := by
          intro a ha
          cases ha
        have htidy : form.Tidy := tidy_run hbefore hstart form hform
        obtain ⟨hcounter, hremove⟩ := Form.removeInstance_added (issued_run hform) htidy hadded
          (count_lt hform hlast hadded)
        refine ⟨form, b.counter, hform, hcounter, ?_⟩
        simp only [removeInstance, hremove]
  · intro form hform f hf hrepeated before i rest hinstances
    obtain ⟨r, hr⟩ := Option.isSome_iff_exists.mp hrepeated
    have hall := (Form.releases_lasting c).run hform f.node (Form.mem_nodes hf) hrepeated
    have hremovable : i.removable = true :=
      (Form.forall_removable_iff f).mp hall i (by simp [hinstances])
    obtain ⟨fragments, hremove, hreplaces⟩ :=
      Form.removeInstance_of_mem (issued_run hform).ids_nodup hf hr hinstances hremovable
    refine ⟨fragments, ?_, hreplaces⟩
    simp only [removeInstance, hform, hremove]

/-- A second note is taken back, and the first of two notes is taken out from before the other. -/
theorem note_is_taken_back :
    let once := [Event.select "note", .add "note_0"]
    let twice := once ++ [.add "note_0"]
    (∃ id after form counter, (start note {}).countsAll twice = true ∧
      ((start note {}).run once).addInstance "note_0" = .ok (some (id, after)) ∧
      ((start note {}).run once).form = some form ∧ form.counter < counter ∧
      after.removeInstance "note_0" id =
        .ok { (start note {}).run once with form := some { form with counter } }) ∧
    ∃ form f i j fragments, ((start note {}).run twice).form = some form ∧ f ∈ form.all ∧
      f.repetition.isSome = true ∧ f.instances = [i, j] ∧ j.header = "Record 3" ∧
      ((start note {}).run twice).removeInstance f.id i.id =
        .ok { (start note {}).run twice with
          form := some { form with state := .fields fragments } } ∧
      (Form.withoutRecord [] [j] f).instances = [{ j with header := "Record 2" }] := by
  intro once twice
  constructor
  · have hcounts : (start note {}).countsAll twice = true := by decide +kernel
    have hadd : (((start note {}).run once).addInstance "note_0").toOption.any
        (·.isSome) = true := by
      decide +kernel
    obtain ⟨added, hadded, hsome⟩ := exists_of_any hadd
    obtain ⟨⟨id, after⟩, rfl⟩ := Option.isSome_iff_exists.mp hsome
    obtain ⟨form, counter, hform, hcounter, hremove⟩ :=
      (remove_undoes_add note {} once).1 "note_0" id after hcounts hadded
    exact ⟨id, after, form, counter, hcounts, hadded, hform, hcounter, hremove⟩
  · have hchecks : ((start note {}).run twice).form.any (fun form => form.all.any fun f =>
        f.repetition.isSome && f.instances.map (·.header) == ["Record 2", "Record 3"]) = true := by
      decide +kernel
    obtain ⟨form, hform, hfield⟩ := (Option.any_eq_true _ _).mp hchecks
    obtain ⟨f, hf, hfield⟩ := List.any_eq_true.mp hfield
    obtain ⟨hrepeated, hheaders⟩ := Bool.and_eq_true_iff.mp hfield
    obtain ⟨i, more, hrow, _, hmore⟩ := List.map_eq_cons_iff.mp (eq_of_beq hheaders)
    obtain ⟨j, rest, rfl, hheader, hrest⟩ := List.map_eq_cons_iff.mp hmore
    obtain rfl := List.map_eq_nil_iff.mp hrest
    obtain ⟨fragments, hremove, _⟩ :=
      (remove_undoes_add note {} twice).2 form hform f hf hrepeated [] i [j] hrow
    have hsecond : recordHeader 2 = "Record 2" := by decide
    refine ⟨form, f, i, j, fragments, hform, hf, hrepeated, hrow, hheader, hremove, ?_⟩
    rw [← hsecond]
    rfl

end Session

end EntryForm
