import EntryForm.Proofs.Ids

/-!
# Ids along a run

An edit keeps the ids of a form, a removal takes some away, and an addition brings new ones. So
the ids of a form stay distinct, and an id that is gone is below the counter for good.
-/

namespace EntryForm

namespace Fragment
open scoped List

/-- What replacing a fragment does to all ids, if the new one brings some with it. -/
theorem Replaces.ids_add {g g' : Fragment} {before after : List Node} {new : List String}
    (h : Replaces g g' before after) (hg : (idsOf [g']).Perm (idsOf [g] ++ new)) :
    (after.flatMap Node.ids).Perm (before.flatMap Node.ids ++ new) := by
  obtain ⟨left, right, rfl, rfl⟩ := h
  simp only [List.flatMap_append]
  calc
    _ ~ left.flatMap Node.ids ++ (idsOf [g] ++ new) ++ right.flatMap Node.ids :=
      (hg.append_left _).append_right _
    _ = left.flatMap Node.ids ++ (idsOf [g] ++ (new ++ right.flatMap Node.ids)) := by simp
    _ ~ left.flatMap Node.ids ++ (idsOf [g] ++ (right.flatMap Node.ids ++ new)) :=
      (List.perm_append_comm.append_left _).append_left _
    _ = left.flatMap Node.ids ++ idsOf [g] ++ right.flatMap Node.ids ++ new := by simp
    _ ~ _ := List.Perm.refl _

/-- What has been replaced can be put back. -/
theorem Replaces.symm {g g' : Fragment} {before after : List Node}
    (h : Replaces g g' before after) : Replaces g' g after before := by
  obtain ⟨left, right, hbefore, hafter⟩ := h
  exact ⟨left, right, hafter, hbefore⟩

end Fragment

namespace Form
variable {s : Settings} {d : Document} {a b : Form}

/-- Forms of the same shapes have the same ids. -/
theorem ids_eq_of_shapes (h : b.nodes.map Node.shape = a.nodes.map Node.shape) :
    b.ids = a.ids := by
  have hids (form : Form) : form.ids = (form.nodes.map Node.shape).flatMap Node.ids := by
    rw [ids, List.flatMap_map]
    congr 1
    ext n : 1
    simp only [Node.ids, Node.shape, Widget.ids_hideTabs]
  rw [hids b, hids a, h]

/-- Renumbering records keeps their ids. -/
theorem renumber_ids (number : Nat) (instances : List (Instance Fragment)) :
    (renumber number instances).flatMap Fragment.idsOfInstance =
      instances.flatMap Fragment.idsOfInstance := by
  induction instances generalizing number with
  | nil => rfl
  | cons i rest ih =>
      rw [renumber, List.flatMap_cons, List.flatMap_cons, ih]
      rfl

/-- An addition hands out the ids of the new instance. -/
theorem addInstance_ids {wrapper id : String} (h : a.addInstance s d wrapper = .ok (some (id, b))) :
    ∃ new, Issued a.counter b.counter (id :: new) ∧ b.ids.Perm (a.ids ++ (id :: new)) := by
  obtain ⟨f, r, e, body, _, _, _, _, _, rfl, hbody, hreplaces⟩ := addInstance_ok h
  refine ⟨Fragment.idsOf body, ?_, ?_⟩
  · exact (issued_singleton (serial_idAt _ _)).append hbody.issued
  · exact hreplaces.ids_add (Fragment.idsOf_addInstance
      (i := ⟨_, recordHeader (r.count + 1), true, body⟩) rfl rfl rfl)

/-- A removal takes away the ids of the instance. -/
theorem removeInstance_ids {wrapper id : String} (h : a.removeInstance wrapper id = .ok b) :
    b.counter = a.counter ∧ ∃ old, a.ids.Perm (b.ids ++ (id :: old)) := by
  obtain ⟨f, r, _, _, hany, hcounter, hreplaces⟩ := removeInstance_ok h
  obtain ⟨i, hi, hremovable⟩ := List.any_eq_true.mp hany
  obtain ⟨i, left, right, _, hmatch, hbefore, hafter⟩ :=
    List.exists_of_eraseP hi hremovable
  have hid : i.id = id := by
    simp only [isRemovable, Bool.and_eq_true, beq_iff_eq] at hmatch
    exact hmatch.1
  have hrest : (dropInstance id f).instances.flatMap Fragment.idsOfInstance =
      (left ++ right).flatMap Fragment.idsOfInstance := by
    rw [dropInstance, renumber_ids, hafter]
  refine ⟨hcounter, Fragment.idsOf i.fragments, ?_⟩
  rw [← hid]
  exact hreplaces.symm.ids_add (Fragment.idsOf_removeInstance rfl rfl hbefore hrest)

/-- The ids of a form and how many have been handed out, before and after a part of a run. -/
structure Advances (a b : Form) : Prop where
  counter : a.counter ≤ b.counter
  issued : Issued 0 b.counter b.ids
  fresh : ∀ id ∈ b.ids, id ∈ a.ids ∨ a.counter ≤ (serial id).1

/-- A form that evolves only hands out new ids. -/
theorem Evolves.advances {n : Nat} (ha : Issued 0 a.counter a.ids) (h : Evolves s d a n b) :
    Advances a b := by
  induction h with
  | refl => exact ⟨Nat.le_refl _, ha, fun id hid => Or.inl hid⟩
  | edit _ hedit hchange ih =>
      obtain ⟨hcounter, _, _, hreplaces⟩ := updateFirst?_replaces hedit.id hchange
      have hids := ids_eq_of_shapes (hedit.shapes hreplaces)
      constructor
      · rw [hcounter]
        exact ih.counter
      · rw [hcounter, hids]
        exact ih.issued
      · rw [hids]
        exact ih.fresh
  | add _ hadd ih =>
      obtain ⟨new, hnew, hperm⟩ := addInstance_ids hadd
      refine ⟨Nat.le_trans ih.counter hnew.le, (ih.issued.append hnew).perm hperm, ?_⟩
      intro other hother
      rcases List.mem_append.mp (hperm.mem_iff.mp hother) with hother | hother
      · exact ih.fresh other hother
      · exact Or.inr (Nat.le_trans ih.counter (hnew.bounds other hother).1)
  | remove _ hremove ih =>
      obtain ⟨hcounter, old, hperm⟩ := removeInstance_ids hremove
      constructor
      · rw [hcounter]
        exact ih.counter
      · rw [hcounter]
        exact (ih.issued.perm hperm.symm).sublist
      · intro other hother
        exact ih.fresh other (hperm.mem_iff.mpr (List.mem_append_left _ hother))

/-- A compiled form has the ids that have been handed out for it, each once. -/
theorem compile_issued (s : Settings) (d : Document) (focus : String) (generation : Nat) :
    Issued 0 (compile s d focus generation).1.counter (compile s d focus generation).1.ids :=
  (compile_derives s d focus generation).issued

end Form

namespace Session

/-- The ids of a form that a session can show have been handed out, each of them once. -/
theorem issued_run {d : Document} {c : Settings} {events : List Event} {form : Form}
    (h : ((start d c).run events).form = Option.some form) :
    Issued 0 form.counter form.ids := by
  obtain ⟨focus, generation, n, _, hevolves⟩ := (reached_run d c events).form form h
  exact (hevolves.advances (Form.compile_issued c d focus generation)).issued

/-- Between two selections every later form evolves from an earlier one. -/
theorem evolves_run {d : Document} {c : Settings} {history events : List Event} {a b : Form}
    (hevents : ∀ e ∈ events, e.isSelect = false)
    (ha : ((start d c).run history).form = some a)
    (hb : ((start d c).run (history ++ events)).form = some b) :
    ∃ n ≤ adds events, Form.Evolves c d a n b := by
  have hreached := reached_run d c history
  rw [run_append] at hb
  obtain ⟨b', n, hb', hn, hevolves⟩ :=
    (continues_run hevents ((start d c).run history)).some a ha
  rw [hreached.document, hreached.settings] at hevolves
  cases hb.symm.trans hb'
  exact ⟨n, hn, hevolves⟩

/-- In every form that a session can show, all ids are distinct. Until the next selection, an id
that is gone does not come back, since it is below every later count. -/
theorem ids_distinct_and_never_reissued {d : Document} {c : Settings} {history : List Event}
    {form : Form} (h : ((start d c).run history).form = some form) :
    form.ids.Nodup ∧
      ∀ before after : List Event, (∀ e ∈ before ++ after, e.isSelect = false) →
        ∀ middle last : Form,
          ((start d c).run (history ++ before)).form = some middle →
          ((start d c).run (history ++ before ++ after)).form = some last →
            ∀ id ∈ form.ids, id ∉ middle.ids → id ∉ last.ids := by
  have hissued := issued_run h
  refine ⟨hissued.ids_nodup, ?_⟩
  intro before after hevents middle last hmiddle hlast id hid hgone hback
  obtain ⟨n, _, hbefore⟩ := evolves_run
    (fun e he => hevents e (List.mem_append_left _ he)) h hmiddle
  obtain ⟨m, _, hafter⟩ := evolves_run
    (fun e he => hevents e (List.mem_append_right _ he)) hmiddle hlast
  have hfirst := hbefore.advances hissued
  have hsecond := hafter.advances hfirst.issued
  rcases hsecond.fresh id hback with hstays | hnew
  · exact hgone hstays
  · have hold := (hissued.bounds id hid).2
    have hcounter := hfirst.counter
    omega

/-- A document with one text field that takes up to three records. -/
def note : Document :=
  { specifications :=
      ⟨[("note", { id := "note", datatype := some "xmls:string", maxCardinality := some 3 })]⟩ }

/-- A record that is removed keeps its id from the record that is added next. -/
theorem removed_record_id_is_not_reissued :
    let history := [Event.select "note", .add "note_0"]
    let before := [Event.remove "note_0" "note_record_1"]
    ∃ form middle last, ((start note {}).run history).form = some form ∧
      ((start note {}).run (history ++ before)).form = some middle ∧
      ((start note {}).run (history ++ before ++ [.add "note_0"])).form = some last ∧
      form.ids.Nodup ∧ "note_record_1" ∈ form.ids ∧ "note_record_1" ∉ last.ids := by
  intro history before
  have hform : ((start note {}).run history).form.map Form.ids =
      some ["note_0", "note_record_1", "note_2"] := by decide +kernel
  have hmiddle : ((start note {}).run (history ++ before)).form.map Form.ids =
      some ["note_0"] := by decide +kernel
  have hlast : ((start note {}).run (history ++ before ++ [.add "note_0"])).form.isSome := by
    decide +kernel
  obtain ⟨form, hform, hids⟩ := Option.map_eq_some_iff.mp hform
  obtain ⟨middle, hmiddle, hgone⟩ := Option.map_eq_some_iff.mp hmiddle
  obtain ⟨last, hlast⟩ := Option.isSome_iff_exists.mp hlast
  have hmem : "note_record_1" ∈ form.ids := by simp [hids]
  obtain ⟨hnodup, hnever⟩ := ids_distinct_and_never_reissued hform
  exact ⟨form, middle, last, hform, hmiddle, hlast, hnodup, hmem,
    hnever before [.add "note_0"] (by simp [before, Event.isSelect]) middle last hmiddle hlast
      "note_record_1" hmem (by simp [hgone])⟩

end Session

end EntryForm
