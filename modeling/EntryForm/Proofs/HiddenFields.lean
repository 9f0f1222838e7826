import EntryForm.Proofs.Maps
import EntryForm.Proofs.Places

/-!
# Which fields are hidden

A field is collapsible by its node and its place, and only collapsible fields are ever closed. A
session remembers fields by their ids, which fields are about to open and which are open. Such an id
stands for a collapsible field or for none as long as it is remembered, since no id is handed out
twice.
-/

namespace EntryForm

/-- A field is collapsible if forms are minimal, its node is an optional input with a container, and
no tab lies around it. -/
def Node.FoldsBy (s : Settings) (t : Bool) (n : Node) : Prop :=
  n.collapsible =
    (s.minimalForm && n.wrapped && n.cardinality.isOptional && !t && n.widget.isInput)

/-- Only a collapsible field is closed. -/
def Node.Coverable (n : Node) : Prop := n.collapsed = true → n.collapsible = true

theorem Widget.isInput_map {φ ψ : Type} (f : φ → ψ) (w : Widget φ) :
    (w.map f).isInput = w.isInput := by
  cases w <;> rfl

theorem Widget.isInput_showTab {φ : Type} (id : String) (w : Widget φ) :
    (w.showTab id).isInput = w.isInput := by
  cases w <;> rfl

namespace Entity
variable {s : Settings}

/-- What can be closed: optional inputs with a container outside tabs, in a minimal form. -/
theorem field_collapsible (e : Facts) (wrapped t : Bool) (id : String) (widget : Widget Fragment) :
    (field s e wrapped t id widget).collapsible =
      (s.minimalForm && wrapped && (field s e wrapped t id widget).cardinality.isOptional && !t &&
        widget.isInput) := rfl

/-- Only what can be closed is closed. -/
theorem field_collapsed (e : Facts) (wrapped t : Bool) (id : String) (widget : Widget Fragment)
    (h : (field s e wrapped t id widget).collapsed = true) :
    (field s e wrapped t id widget).collapsible = true := by
  exact ((Bool.and_eq_true _ _).mp h).1

end Entity

/-- The compiler closes every field as the settings say. -/
theorem steady_foldsBy (s : Settings) : Steady s (Node.FoldsBy s) where
  frame := by
    intro e wrapped t id widget _
    change (Entity.field s e wrapped t id widget).collapsible = _
    rw [Entity.field_collapsible, ← Widget.isInput_map (·.id) widget]
    rfl
  record := fun _ _ _ h => h
  tabs := by
    intro e t id row _ _
    change (Entity.field s e true t id (.tabs [])).collapsible = _
    rw [Entity.field_collapsible]
    exact (Bool.and_false _).trans (Bool.and_false _).symm
  like := by
    intro t n n' hlike h
    have hcollapsible : n'.collapsible = n.collapsible := (congrArg Field.collapsible hlike.fixed :)
    have hwrapped : n'.wrapped = n.wrapped := (congrArg Field.wrapped hlike.fixed :)
    have hcardinality : n'.cardinality = n.cardinality := (congrArg Field.cardinality hlike.fixed :)
    rw [Node.FoldsBy, hcollapsible, hwrapped, hcardinality, hlike.widget]
    exact h
  activate := by
    intro t n id _ h
    rw [Node.FoldsBy, Widget.isInput_showTab]
    exact h

/-- No field is closed from the start that is not collapsible. -/
theorem compiled_coverable (s : Settings) : Compiled s fun _ n => n.Coverable where
  frame := fun e wrapped t id widget _ => Entity.field_collapsed e wrapped t id widget
  record := fun _ _ _ h => h
  tabs := fun e t id _ _ _ => Entity.field_collapsed e true t id (.tabs [])

/-- A node that is the same field as another one, and as open. -/
structure Node.Twin (n n' : Node) : Prop where
  id : n'.id = n.id
  collapsible : n'.collapsible = n.collapsible
  collapsed : n'.collapsed = n.collapsed

namespace Fragment

/-- An edit replaces one node and keeps the others. -/
theorem Replaces.edit {change : Fragment → Fragment} (hedit : Edit change) {g : Fragment}
    {before after : List Node} (h : Replaces g (change g) before after) :
    g.node ∈ before ∧ (change g).node ∈ after ∧
      ∀ n ∈ after, n ∈ before ∨ n = (change g).node := by
  obtain ⟨left, right, rfl, rfl⟩ := h
  simp only [nodesOf_singleton, hedit.children, List.mem_append, List.mem_cons]
  refine ⟨by simp, by simp, ?_⟩
  rintro n ((hn | hn | hn) | hn)
  · exact Or.inl (Or.inl (Or.inl hn))
  · exact Or.inr hn
  · exact Or.inl (Or.inl (Or.inr (Or.inr hn)))
  · exact Or.inl (Or.inr hn)

end Fragment

namespace Form
variable {s : Settings} {d : Document} {a b : Form}

/-- What has become of the nodes of a form: each is the twin of an earlier one, or new. -/
def Renews (a b : Form) : Prop :=
  ∀ n' ∈ b.nodes, (∃ n ∈ a.nodes, n.Twin n') ∨ (a.counter ≤ (serial n'.id).1 ∧ n'.Coverable)

theorem renews_edit {change : Fragment → Fragment} (hedit : Fragment.Edit change)
    (hcollapsed : ∀ f, (change f).collapsed = f.collapsed) {g : Fragment}
    (hreplaces : Fragment.Replaces g (change g) a.nodes b.nodes) : a.Renews b := by
  obtain ⟨hg, _, hnodes⟩ := hreplaces.edit hedit
  intro n hn
  rcases hnodes n hn with hold | rfl
  · exact Or.inl ⟨n, hold, rfl, rfl, rfl⟩
  · have hcollapsible : (change g).collapsible = g.collapsible :=
      (congrArg (fun n => n.collapsible) (hedit.shape g) :)
    exact Or.inl ⟨g.node, hg, hedit.id g, hcollapsible, hcollapsed g⟩

/-- Whatever alters a form, its nodes are twins of earlier ones or new. -/
theorem Alters.renews (h : a.Alters s d b) : a.Renews b := by
  cases h with
  | @set id value hset =>
      obtain ⟨f, hfind, rfl⟩ := setValue?_some hset
      have hedit := Fragment.edit_value value
      exact renews_edit hedit (fun _ => rfl) (update_replaces _ hedit.id hfind)
  | @activate id hactivate =>
      have hedit := Fragment.edit_showTab id
      obtain ⟨_, g, _, hreplaces⟩ := updateFirst?_replaces hedit.id hactivate
      exact renews_edit hedit (fun _ => rfl) hreplaces
  | add hadd =>
      obtain ⟨f, r, i, e, _, _, _, _, hbody, hf, hnodes⟩ := addInstance_nodes hadd
      intro n hn
      rcases hnodes n hn with hold | rfl | hnew
      · exact Or.inl ⟨n, hold, rfl, rfl, rfl⟩
      · exact Or.inl ⟨f.node, hf, rfl, rfl, rfl⟩
      · have hid : n.id ∈ Fragment.idsOf i.fragments :=
          List.mem_flatMap.mpr ⟨n, hnew, List.mem_cons_self⟩
        have hbounds := hbody.issued.bounds n.id hid
        obtain ⟨_, hcoverable⟩ := nodes_of_placed (hbody.placed (compiled_coverable s)) n hnew
        exact Or.inr ⟨by omega, hcoverable⟩
  | remove hremove =>
      obtain ⟨f, r, _, _, hf, hnodes⟩ := removeInstance_nodes hremove
      intro n hn
      rcases hnodes n hn with hold | rfl
      · exact Or.inl ⟨n, hold, rfl, rfl, rfl⟩
      · exact Or.inl ⟨f.node, hf, rfl, rfl, rfl⟩

/-- Whatever alters a form lets it evolve. -/
theorem Alters.evolves (h : a.Alters s d b) : ∃ n, Evolves s d a n b := by
  cases h with
  | set hset => exact ⟨0, evolves_setValue hset⟩
  | activate hactivate => exact ⟨0, .edit .refl (Fragment.edit_showTab _) hactivate⟩
  | add hadd => exact ⟨1, .add .refl hadd⟩
  | remove hremove => exact ⟨0, .remove .refl hremove⟩

/-- Opening or closing the field with an id changes its node at most, and that as told. -/
theorem update_nodes {change : Fragment → Fragment} (hedit : Fragment.Edit change) (id : String)
    (a : Form) : ∀ n' ∈ (a.update id change).nodes,
      n' ∈ a.nodes ∨ ∃ g, a.find? id = some g ∧ n' = (change g).node := by
  intro n' hn'
  cases hfind : a.find? id with
  | none =>
      rw [update_of_find?_eq_none hedit.id hfind] at hn'
      exact Or.inl hn'
  | some g =>
      obtain ⟨_, _, hnodes⟩ := (update_replaces change hedit.id hfind).edit hedit
      rcases hnodes n' hn' with hold | hnew
      · exact Or.inl hold
      · exact Or.inr ⟨g, rfl, hnew⟩

/-- An id that has been handed out, to a collapsible field or to one that is gone. -/
structure Foldable (form : Form) (id : String) : Prop where
  issued : (serial id).1 < form.counter
  collapsible : ∀ n ∈ form.nodes, n.id = id → n.collapsible = true

/-- Folding any field keeps what is known of the id. -/
theorem Foldable.fold {change : Fragment → Fragment} (hfolds : Fragment.Folds change) {id : String}
    (h : a.Foldable id) (other : String) : (a.update other change).Foldable id := by
  refine ⟨?_, ?_⟩
  · rw [update_counter]
    exact h.issued
  · intro n' hn' hid
    rcases update_nodes hfolds.edit other a n' hn' with hold | ⟨g, hg, rfl⟩
    · exact h.collapsible n' hold hid
    · obtain ⟨collapsed, hchange⟩ := hfolds g
      rw [hchange] at hid ⊢
      exact h.collapsible g.node (mem_nodes (List.mem_of_find?_eq_some hg)) hid

end Form

namespace Disclosure
variable {s : Settings} {d : Document} {k : Disclosure} {a b : Form}

/-- The fields that are about to open or open are remembered rightly. -/
structure Agrees (k : Disclosure) (form : Form) : Prop where
  issued : Issued 0 form.counter form.ids
  closed : ∀ n ∈ form.nodes, n.Coverable
  pending : ∀ id, Fields.contains id k.pending = true → form.Foldable id
  opened : ∀ id ∈ k.opened, form.Foldable id
  apart : ∀ id ∈ k.opened, Fields.contains id k.pending = false
  shown : ∀ id ∈ k.opened, ∀ n ∈ form.nodes, n.id = id → n.collapsed = false

/-- What is remembered stays right when the form is altered. A new node has an id that had not been
handed out, so it is none of those remembered. -/
theorem Agrees.alters (h : k.Agrees a) (halters : a.Alters s d b) : k.Agrees b := by
  obtain ⟨_, hevolves⟩ := halters.evolves
  have hadvances := hevolves.advances h.issued
  have hnodes := halters.renews
  have hfoldable {id : String} (hid : a.Foldable id) : b.Foldable id := by
    refine ⟨Nat.lt_of_lt_of_le hid.issued hadvances.counter, ?_⟩
    rintro n' hn' rfl
    rcases hnodes n' hn' with ⟨n, hn, htwin⟩ | ⟨hnew, _⟩
    · rw [htwin.collapsible]
      exact hid.collapsible n hn htwin.id.symm
    · exact absurd hid.issued (Nat.not_lt.mpr hnew)
  constructor
  · exact hadvances.issued
  · intro n' hn'
    rcases hnodes n' hn' with ⟨n, hn, htwin⟩ | ⟨_, hcoverable⟩
    · rw [Node.Coverable, htwin.collapsed, htwin.collapsible]
      exact h.closed n hn
    · exact hcoverable
  · exact fun id hid => hfoldable (h.pending id hid)
  · exact fun id hid => hfoldable (h.opened id hid)
  · exact h.apart
  · rintro id hid n' hn' rfl
    rcases hnodes n' hn' with ⟨n, hn, htwin⟩ | ⟨hnew, _⟩
    · rw [htwin.collapsed]
      exact h.shown n'.id hid n hn htwin.id.symm
    · exact absurd (h.opened n'.id hid).issued (Nat.not_lt.mpr hnew)

/-- What is remembered stays right when the pointer comes to a field. -/
theorem Agrees.enter (h : k.Agrees a) {id : String} {now : Nat} {k' : Disclosure}
    (henter : k.enter? a id now = some k') : k'.Agrees a := by
  rw [enter?] at henter
  split at henter
  case isFalse => cases henter
  case isTrue hmay =>
    cases henter
    simp only [mayOpen, Bool.and_eq_true, Bool.not_eq_true'] at hmay
    obtain ⟨⟨⟨_, hclosed⟩, _⟩, hcollapsible⟩ := hmay
    have hnew : a.Foldable id := by
      cases hfind : a.find? id with
      | none => simp [hfind] at hcollapsible
      | some f =>
          have hf := Form.mem_nodes (List.mem_of_find?_eq_some hfind)
          have hfid : f.id = id := by simpa using List.find?_some hfind
          refine ⟨?_, ?_⟩
          · have hmem : id ∈ a.ids := List.mem_flatMap.mpr ⟨f.node, hf, hfid ▸ List.mem_cons_self⟩
            exact (h.issued.bounds id hmem).2
          · intro n hn hid
            rw [Form.node_eq_of_id h.issued.ids_nodup hn hf (hid.trans hfid.symm)]
            have hf : f.collapsible = true := by simpa [hfind] using hcollapsible
            exact hf
    refine ⟨h.issued, h.closed, ?_, h.opened, ?_, h.shown⟩
    · intro other hother
      rw [Fields.contains_insert, Bool.or_eq_true, decide_eq_true_iff] at hother
      rcases hother with rfl | hother
      · exact hnew
      · exact h.pending other hother
    · intro other hother
      have hne : id ≠ other := by
        rintro rfl
        simp [isOpen, hother] at hclosed
      simp [hne, h.apart other hother]

/-- An opening that is no longer ahead is forgotten. -/
theorem Agrees.erase (h : k.Agrees a) (id : String) :
    ({ k with pending := Fields.erase id k.pending } : Disclosure).Agrees a := by
  refine ⟨h.issued, h.closed, ?_, h.opened, ?_, h.shown⟩
  · intro other hother
    rw [Fields.contains_erase, Bool.and_eq_true] at hother
    exact h.pending other hother.2
  · intro other hother
    rw [Fields.contains_erase, h.apart other hother, Bool.and_false]

/-- Opening or closing the field with an id keeps what is remembered, if that field is collapsible
and those that are open are not closed. -/
theorem Agrees.fold (h : k.Agrees a) {id : String} {change : Fragment → Fragment}
    (hfolds : Fragment.Folds change) (hfoldable : a.Foldable id)
    (hopen : id ∈ k.opened → ∀ g, (change g).collapsed = false) :
    k.Agrees (a.update id change) := by
  have hedit := hfolds.edit
  have hnodes := Form.update_nodes hedit id a
  have hfound {g : Fragment} (hg : a.find? id = some g) :
      (change g).id = id ∧ (change g).collapsible = true := by
    have hid : g.id = id := by simpa using List.find?_some hg
    have hcollapsible := hfoldable.collapsible g.node
      (Form.mem_nodes (List.mem_of_find?_eq_some hg)) hid
    obtain ⟨collapsed, hchange⟩ := hfolds g
    rw [hchange]
    exact ⟨hid, hcollapsible⟩
  constructor
  · rw [Form.ids_eq_of_shapes (Form.update_shapes hedit id a), Form.update_counter]
    exact h.issued
  · intro n' hn'
    rcases hnodes n' hn' with hold | ⟨g, hg, rfl⟩
    · exact h.closed n' hold
    · exact fun _ => (hfound hg).2
  · exact fun other hother => (h.pending other hother).fold hfolds id
  · exact fun other hother => (h.opened other hother).fold hfolds id
  · exact h.apart
  · intro other hother n' hn' hid'
    rcases hnodes n' hn' with hold | ⟨g, hg, rfl⟩
    · exact h.shown other hother n' hold hid'
    · obtain rfl : id = other := (hfound hg).1.symm.trans hid'
      exact hopen hother g

theorem Agrees.leave (h : k.Agrees a) (id : String) : (k.leave a id).1.Agrees (k.leave a id).2 := by
  simp only [Disclosure.leave]
  split
  · exact h.erase id
  split
  case isFalse => exact h
  case isTrue hisOpen =>
    have hopened : id ∈ k.opened := by simpa [isOpen] using hisOpen
    let k' : Disclosure := { k with opened := k.opened.filter (· != id) }
    have hsub {other : String} (hother : other ∈ k'.opened) : other ∈ k.opened ∧ other ≠ id := by
      simpa [k'] using hother
    have hclosed : k'.Agrees a := by
      refine ⟨h.issued, h.closed, h.pending, ?_, ?_, ?_⟩
      · exact fun other hother => h.opened other (hsub hother).1
      · exact fun other hother => h.apart other (hsub hother).1
      · exact fun other hother => h.shown other (hsub hother).1
    split
    · refine hclosed.fold Fragment.folds_close (h.opened id hopened) ?_
      exact fun hid => absurd rfl (hsub hid).2
    · exact hclosed

theorem Agrees.fire (h : k.Agrees a) {id : String} (task : PendingOpen) (hid : a.Foldable id) :
    (fire id task k a).1.Agrees (fire id task k a).2.1 := by
  have herased := h.erase id
  simp only [Disclosure.fire]
  split
  case isFalse => exact herased
  case isTrue hfires =>
    rw [Bool.and_eq_true] at hfires
    obtain ⟨g, hfind⟩ := Option.isSome_iff_exists.mp hfires.2
    have hgid : g.id = id := by simpa using List.find?_some hfind
    have hfold := herased.fold Fragment.folds_open hid fun _ _ => rfl
    have hopened {other : String}
        (hother : other ∈ if k.isOpen id then k.opened else k.opened ++ [id]) :
        other ∈ k.opened ∨ other = id := by
      split at hother
      · exact Or.inl hother
      · simpa using hother
    refine ⟨hfold.issued, hfold.closed, hfold.pending, ?_, ?_, ?_⟩
    · intro other hother
      rcases hopened hother with hold | rfl
      · exact hfold.opened other hold
      · exact hid.fold Fragment.folds_open other
    · intro other hother
      rcases hopened hother with hold | rfl
      · exact hfold.apart other hold
      · simp
    · intro other hother n hn hnid
      rcases hopened hother with hold | rfl
      · exact hfold.shown other hold n hn hnid
      · obtain ⟨_, hg, _⟩ := (Form.update_replaces _ Fragment.folds_open.edit.id hfind).edit
          Fragment.folds_open.edit
        rw [Form.node_eq_of_id hfold.issued.ids_nodup hn hg (hnid.trans hgid.symm)]
        rfl

theorem Agrees.fireAll (h : k.Agrees a) {tasks : List (String × PendingOpen)}
    (htasks : ∀ task ∈ tasks, a.Foldable task.1) :
    (fireAll tasks k a).1.Agrees (fireAll tasks k a).2.1 := by
  induction tasks generalizing k a with
  | nil => exact h
  | cons task rest ih =>
      obtain ⟨hfirst, hrest⟩ := List.forall_mem_cons.mp htasks
      have hkept : ∀ other ∈ rest, (Disclosure.fire task.1 task.2 k a).2.1.Foldable other.1 := by
        intro other hother
        rcases fire_form task.1 task.2 k a with hsame | hopen
        · rw [hsame]
          exact hrest other hother
        · rw [hopen]
          exact (hrest other hother).fold Fragment.folds_open task.1
      exact ih (h.fire task.2 hfirst) hkept

theorem Agrees.advance (h : k.Agrees a) (now : Nat) :
    (k.advance a now).1.Agrees (k.advance a now).2.1 := by
  refine h.fireAll fun task htask => h.pending task.1 (Fields.contains_of_mem ?_)
  exact (List.mem_filter.mp htask).1

/-- A new form has nothing that is about to open or open. -/
theorem agrees_compile (c : Settings) (focus : String) (generation : Nat) (k : Disclosure) :
    (k.reset generation).Agrees (Form.compile c d focus generation).1 := by
  have hderives := Form.compile_derives c d focus generation
  have hnone {p : String → Prop} : ∀ id ∈ (k.reset generation).opened, p id :=
    List.forall_mem_nil p
  constructor
  case issued => exact Form.compile_issued c d focus generation
  case closed =>
    intro n hn
    obtain ⟨_, hcoverable⟩ := nodes_of_placed (hderives.placed (compiled_coverable c)) n hn
    exact hcoverable
  case pending =>
    intro id hpending
    cases hpending
  case opened => exact hnone
  case apart => exact hnone
  case shown => exact hnone

end Disclosure

namespace Session

/-- What a session remembers of its fields is right. -/
structure Agrees (s : Session) : Prop where
  none : s.form = none → s.disclosure.pending = [] ∧ s.disclosure.opened = []
  some : ∀ a, s.form = some a → s.disclosure.Agrees a

theorem agrees_of_form {s : Session} {a : Form} (hform : s.form = Option.some a)
    (h : s.disclosure.Agrees a) : s.Agrees := by
  refine ⟨fun hnone => absurd (hform.symm.trans hnone) nofun, ?_⟩
  intro a' ha'
  cases hform.symm.trans ha'
  exact h

theorem Agrees.stepped {s s' : Session} {e : Event} (h : s.Agrees) (hstepped : Stepped s e s') :
    s'.Agrees := by
  cases hstepped with
  | select focus => exact agrees_of_form rfl (Disclosure.agrees_compile _ focus _ _)
  | idle _ => exact h
  | alter _ _ hform halters => exact agrees_of_form rfl ((h.some _ hform).alters halters)
  | enter hform henter => exact agrees_of_form hform ((h.some _ hform).enter henter)
  | leave id hform => exact agrees_of_form rfl ((h.some _ hform).leave id)
  | advance now hform => exact agrees_of_form rfl ((h.some _ hform).advance now)

/-- In every session what is remembered is right. -/
theorem agrees_run (d : Document) (c : Settings) (history : List Event) :
    ((start d c).run history).Agrees :=
  run_invariant ⟨fun _ => ⟨rfl, rfl⟩, nofun⟩ (fun _ _ _ hstepped h => h.stepped hstepped) history

/-- No required field is ever hidden, and no field that the pointer has opened. A field is about to
open or open, not both. -/
theorem hidden_fields_are_optional (d : Document) (c : Settings) (history : List Event) :
    (∀ form, ((start d c).run history).form = some form → ∀ f ∈ form.all,
      (f.collapsed = true →
        f.collapsible = true ∧ f.wrapped = true ∧ f.widget.isInput = true ∧
          f.cardinality.constrained = true ∧ f.cardinality.required = false ∧
          c.minimalForm = true) ∧
      (((start d c).run history).disclosure.isOpen f.id = true → f.collapsed = false)) ∧
    ∀ id, ¬ (((start d c).run history).disclosure.isOpen id = true ∧
      Fields.contains id ((start d c).run history).disclosure.pending = true) := by
  have hagrees := agrees_run d c history
  constructor
  · intro form hform f hf
    have hnode := Form.mem_nodes hf
    constructor
    · intro hcollapsed
      have hcollapsible : f.collapsible = true :=
        (hagrees.some form hform).closed f.node hnode hcollapsed
      obtain ⟨t, hfolds⟩ := nodes_of_placed (placed_run (steady_foldsBy c) hform) f.node hnode
      have hall : (c.minimalForm && f.wrapped && f.cardinality.isOptional && !t &&
          (f.widget.map (·.id)).isInput) = true := hfolds.symm.trans hcollapsible
      simp only [Widget.isInput_map, Cardinality.isOptional, Bool.and_eq_true,
        Bool.not_eq_true'] at hall
      obtain ⟨⟨⟨⟨hminimal, hwrapped⟩, hconstrained, hrequired⟩, _⟩, hinput⟩ := hall
      exact ⟨hcollapsible, hwrapped, hinput, hconstrained, hrequired, hminimal⟩
    · intro hisOpen
      have hopened : f.id ∈ ((start d c).run history).disclosure.opened := by
        simpa [Disclosure.isOpen] using hisOpen
      exact (hagrees.some form hform).shown f.id hopened f.node hnode rfl
  · rintro id ⟨hisOpen, hpending⟩
    have hopened : id ∈ ((start d c).run history).disclosure.opened := by
      simpa [Disclosure.isOpen] using hisOpen
    have hapart : Fields.contains id ((start d c).run history).disclosure.pending = false := by
      cases hform : ((start d c).run history).form with
      | none => simp [(hagrees.none hform).1, Fields.contains, Fields.get?]
      | some form => exact (hagrees.some form hform).apart id hopened
    rw [hapart] at hpending
    cases hpending

/-- A document with two optional fields. -/
def memo : Document :=
  let note (id : String) : Entity :=
    { id, datatype := some "xmls:string", maxCardinality := some 1 }
  { specifications :=
      ⟨[("memo",
        { id := "memo", datatype := some "model",
          components := ⟨[("title", note "title"), ("text", note "text")]⟩ })]⟩ }

/-- The pointer has rested on the first of two fields of a minimal form, and only the other one is
hidden. -/
theorem title_is_shown_and_text_is_hidden :
    let s := (start memo { minimalForm := true }).run
      [.select "memo", .enter "title_0" 0, .advance 500]
    ∃ form title text, s.form = some form ∧ title ∈ form.all ∧ text ∈ form.all ∧
      s.disclosure.isOpen title.id = true ∧ title.collapsed = false ∧
      text.collapsed = true ∧ text.cardinality.required = false ∧
      Fields.contains title.id s.disclosure.pending = false := by
  intro s
  obtain ⟨hfields, hnot⟩ := hidden_fields_are_optional memo { minimalForm := true }
    [.select "memo", .enter "title_0" 0, .advance 500]
  have hopened : s.disclosure.isOpen "title_0" = true := by decide +kernel
  have hrun : s.form.map (fun form => decide (∃ title ∈ form.all, ∃ text ∈ form.all,
      title.id = "title_0" ∧ text.collapsed = true)) = some true := by decide +kernel
  obtain ⟨form, hform, hfound⟩ := Option.map_eq_some_iff.mp hrun
  obtain ⟨title, htitle, text, htext, hid, hcollapsed⟩ := of_decide_eq_true hfound
  have hisOpen : s.disclosure.isOpen title.id = true := hid ▸ hopened
  refine ⟨form, title, text, hform, htitle, htext, hisOpen, ?_, hcollapsed, ?_, ?_⟩
  · exact (hfields form hform title htitle).2 hisOpen
  · exact ((hfields form hform text htext).1 hcollapsed).2.2.2.2.1
  · exact Bool.eq_false_iff.mpr fun hpending => hnot title.id ⟨hisOpen, hpending⟩

end Session

end EntryForm
