import EntryForm.Proofs.Occurrences
import EntryForm.Proofs.OwnRecords
import EntryForm.Proofs.PathValues

/-!
# How records are submitted

Whether the values of a field form a list is decided by its node and the nodes around it, so all
fragments of a node agree on it. If the path of a node lies apart from those of all others, its
values are submitted there: as a list, in the order of the records, or as a single value.
-/

namespace EntryForm

open Fragment Submission

namespace Fragment

/-- The path and the value of an input field. -/
def input (f : Fragment) : String × Json := (f.path, f.value.getD .null)

/-- The entries of a fragment are the paths and values of the inputs in it, in their order. -/
theorem entries_inputs (f : Fragment) (listed : Bool) :
    (f.entries listed).map (fun e => (e.path, e.value)) =
      (f.all.filter (·.widget.isInput)).map input := by
  induction f using children_induction generalizing listed with
  | step f ih =>
      have hchildren (listed : Bool) :
          (f.children.flatMap (entries listed)).map (fun e => (e.path, e.value)) =
            ((allOf f.children).filter (·.widget.isInput)).map input := by
        rw [allOf_eq_flatMap, List.filter_flatMap, List.map_flatMap, List.map_flatMap]
        exact List.flatMap_congr fun g hg => ih g hg listed
      rw [entries_eq, List.map_append, hchildren, all_eq, List.filter_cons]
      split <;> rfl

/-- The entries of a row are its input fields. -/
theorem entriesOf_inputs (fs : List Fragment) (listed : Bool) :
    (entriesOf listed fs).map (fun e => (e.path, e.value)) =
      ((allOf fs).filter (·.widget.isInput)).map input := by
  rw [entriesOf_eq_flatMap, allOf_eq_flatMap, List.filter_flatMap, List.map_flatMap,
    List.map_flatMap]
  exact List.flatMap_congr fun f _ => entries_inputs f listed

/-- What is inside a fragment comes from its widget or from one of its instances. -/
theorem mem_entriesOf_children {f : Fragment} {listed : Bool} {entry : Entry} :
    entry ∈ f.children.flatMap (entries listed) ↔
      entry ∈ entriesOf listed f.widget.children ∨
        ∃ i ∈ f.instances, entry ∈ entriesOf listed i.fragments := by
  simp only [children, List.flatMap_append, List.mem_append, entriesOf_eq_flatMap,
    List.flatMap_assoc, List.mem_flatMap]

/-- A field makes a list exactly if its node does. -/
theorem Fits.makesList {f : Fragment} {e : Entity} (h : f.Fits e true) :
    Fragment.makesList f.toField f.widget = e.makesList := by
  rw [Fragment.makesList, h.cardinality, h.select rfl]
  rfl

end Fragment

/-- Whether the field around a body makes lists. -/
def Subject.outerList : Subject → Bool
  | .node e false => e.makesList
  | _ => false

/-- The values of a node form a list if those of a node on the way to it do, or those of all that is
shown. The field around a body makes a list already, if the node does. -/
theorem Shows.entries {subject : Subject} {fs : List Fragment} (h : Shows subject fs)
    (hown : subject.isOwn = true) {listed : Bool}
    (houter : subject.outerList = true → listed = true) :
    ∀ entry ∈ entriesOf listed fs, ∃ way x, subject.Reaches way x ∧ x.kind.isInput = true ∧
      entry.path = x.fieldPath ∧ entry.listed = (listed || way.any fun y => y.makesList) := by
  have houtside {p : Prop} : false = true → p := fun hfalse => absurd hfalse Bool.false_ne_true
  induction h generalizing listed with
  | none => exact List.forall_mem_nil _
  | @more key e rest fs gs _ _ ih ih' =>
      rw [entriesOf_eq_flatMap, List.flatMap_append, ← entriesOf_eq_flatMap,
        ← entriesOf_eq_flatMap]
      intro entry hentry
      rcases List.mem_append.mp hentry with hentry | hentry
      · obtain ⟨way, x, ⟨inner, hinner, hway⟩, hx⟩ := ih rfl houtside entry hentry
        exact ⟨way, x, ⟨(key, e), List.mem_cons_self, inner, hinner, hway⟩, hx⟩
      · obtain ⟨way, x, ⟨other, hmem, hinner⟩, hx⟩ := ih' rfl houtside entry hentry
        exact ⟨way, x, ⟨other, List.mem_cons_of_mem _ hmem, hinner⟩, hx⟩
  | @bare e wrapped fs hkind hbare _ ih =>
      intro entry hentry
      obtain ⟨way, x, hreaches, hinput, hpath, hlisted⟩ := ih rfl houtside entry hentry
      rw [← Entity.nested_of_grouping hkind] at hreaches
      refine ⟨_, x, ⟨way, Entity.reaches_of_nested hreaches, rfl⟩, hinput, hpath, ?_⟩
      have hnone : (if wrapped then e.container else []) = [] := by
        rcases hbare with rfl | rfl | hlabel
        · cases hentry
        · rfl
        · have hcontainer : e.container = [] := by rw [Entity.container, if_pos ⟨hkind, hlabel⟩]
          rw [hcontainer, ite_self]
      rw [hnone]
      exact hlisted
  | @own e wrapped f hwrapped hfield ih =>
      intro entry hentry
      obtain ⟨way, x, ⟨inner, hinner, rfl⟩, hinput, hpath, hlisted⟩ := ih rfl houtside entry hentry
      refine ⟨_, x, ⟨inner, hinner, rfl⟩, hinput, hpath, ?_⟩
      rw [hlisted]
      cases wrapped with
      | true => rw [if_pos rfl, Entity.container_of_fits hfield.fits, List.singleton_append]
      | false =>
          have hsame : (listed || e.makesList) = listed := by
            cases hmakes : e.makesList with
            | true => rw [houter hmakes]; rfl
            | false => rw [Bool.or_false]
          rw [List.any_cons, ← Bool.or_assoc, hsame]
          rfl
  | @field e own f hfits hwidget hinstances ih ihinstances =>
      obtain rfl : own = true := hown
      intro entry hentry
      rw [entriesOf_eq_flatMap, List.flatMap_singleton, entries_eq, hfits.makesList,
        List.mem_append] at hentry
      rcases hentry with hentry | hentry
      · split at hentry
        case isTrue hinput =>
          rw [List.mem_singleton.mp hentry]
          refine ⟨[e], e, ⟨[], .self e, rfl⟩, (hfits.input rfl).symm.trans hinput, hfits.path, ?_⟩
          simp
        case isFalse => cases hentry
      · rcases mem_entriesOf_children.mp hentry with hentry | ⟨i, hi, hentry⟩
        · obtain ⟨way, x, hreaches, hinput, hpath, hlisted⟩ := ih rfl houtside entry hentry
          refine ⟨_, x, ⟨way, Entity.reaches_of_nested hreaches, rfl⟩, hinput, hpath, ?_⟩
          rw [hlisted, List.any_cons, Bool.or_assoc]
        · have hlist : e.makesList = true → (listed || e.makesList) = true := by
            intro hmakes
            rw [hmakes, Bool.or_true]
          obtain ⟨way, x, ⟨_, hinner, rfl⟩, hinput, hpath, hlisted⟩ :=
            ihinstances i hi rfl hlist entry hentry
          refine ⟨_, x, ⟨way, hinner, rfl⟩, hinput, hpath, ?_⟩
          rw [hlisted, List.any_cons, Bool.or_assoc]

/-- A node is an input that is shown, its path has no empty step, and that path lies apart from the
paths of all other inputs that are shown. -/
structure Focus.StandsApart (place : Focus) (way : List Entity) (x : Entity) : Prop where
  displayed : place.Displays way x
  input : x.kind.isInput = true
  steps : "" ∉ steps x.fieldPath
  others : ∀ way' y, place.Displays way' y → y.kind.isInput = true → y.entityPath ≠ x.entityPath →
    Apart (Submission.steps y.fieldPath) (Submission.steps x.fieldPath)

/-- An input shows nothing but itself. -/
theorem Focus.standsApart_input {x : Entity} {unresolved : Option String}
    (hinput : x.kind.isInput = true) (hsteps : "" ∉ Submission.steps x.fieldPath) :
    (Focus.found x unresolved).StandsApart [x] x where
  displayed := ⟨[], .self x, by rw [if_pos rfl, Entity.container_of_isInput hinput]; rfl⟩
  input := hinput
  steps := hsteps
  others := by
    rintro way y ⟨inner, hinner, rfl⟩ _ hne
    cases hinner with
    | self => exact absurd rfl hne
    | inside hmem _ =>
        rw [Entity.nested_of_isInput hinput] at hmem
        cases hmem

/-- A group of inputs whose paths lie apart. -/
def Entity.HoldsInputs (e : Entity) : Prop :=
  e.kind = .grouping ∧ ∀ entry ∈ e.nested, entry.2.kind.isInput = true ∧
    "" ∉ Submission.steps entry.2.fieldPath ∧
    ∀ other ∈ e.nested, other.2.entityPath ≠ entry.2.entityPath →
      Apart (Submission.steps other.2.fieldPath) (Submission.steps entry.2.fieldPath)

instance (e : Entity) : Decidable e.HoldsInputs := inferInstanceAs (Decidable (_ ∧ _))

/-- A group of inputs shows nothing else. -/
theorem Entity.HoldsInputs.standsApart {e : Entity} (h : e.HoldsInputs) {entry : String × Entity}
    (hentry : entry ∈ e.nested) (unresolved : Option String) :
    (Focus.found e unresolved).StandsApart (e.container ++ [entry.2]) entry.2 := by
  obtain ⟨hkind, hentries⟩ := h
  obtain ⟨hinput, hsteps, hothers⟩ := hentries entry hentry
  refine ⟨⟨entry.2.container ++ [], .inside hentry (.self entry.2), ?_⟩, hinput, hsteps, ?_⟩
  · rw [if_pos rfl, Entity.container_of_isInput hinput, List.append_nil]
  · rintro way y ⟨inner, hinner, rfl⟩ hy hne
    cases hinner with
    | self =>
        rw [hkind] at hy
        cases hy
    | @inside _ child _ key _ hmem hbelow =>
        obtain ⟨hchild, _, _⟩ := hentries (key, child) hmem
        have hapart := hothers (key, child) hmem
        cases hbelow with
        | self => exact hapart hne
        | inside hmem' _ =>
            rw [Entity.nested_of_isInput hchild] at hmem'
            cases hmem'

/-- The values of the node with a path of ids, in the order of its fragments. -/
def Form.valuesOf (path : List String) (form : Form) : List Json :=
  (ofPath path form.fragments).map fun f => f.value.getD .null

variable {d : Document} {e x : Entity} {way : List Entity} {form : Form}
  {unresolved : Option String}

/-- No path of ids leads to two nodes that are shown, nor on two ways to one. -/
theorem Focus.Displays.unique {y : Entity} {way' : List Entity}
    (h : (Focus.found e unresolved).Displays way x)
    (h' : (Focus.found e unresolved).Displays way' y) (hfinds : d.Finds e)
    (hpath : x.entityPath = y.entityPath) : x = y ∧ way = way' := by
  obtain ⟨inner, hinner, rfl⟩ := h
  obtain ⟨inner', hinner', rfl⟩ := h'
  obtain ⟨hsame, hway⟩ := hinner.unique hinner' hfinds.keyed hpath
  exact ⟨hsame, congrArg _ hway⟩

/-- The way to a node that is shown ends at the node. -/
theorem Focus.Displays.container_subset (h : (Focus.found e unresolved).Displays way x) :
    x.container ⊆ way := by
  obtain ⟨inner, hinner, rfl⟩ := h
  rcases hinner.eq_or_subset with ⟨rfl, rfl⟩ | hsub
  · exact List.subset_append_left _ _
  · exact List.Subset.trans hsub (List.subset_append_right _ _)

/-- An entry comes from the node, or lies apart from its path. -/
theorem Focus.StandsApart.entry_cases (hx : (Focus.found e unresolved).StandsApart way x)
    (hfinds : d.Finds e) (hshown : Shows (.node e true) form.fragments) :
    ∀ entry ∈ entriesOf false form.fragments,
      (entry.path = x.fieldPath ∧ entry.listed = way.any fun y => y.makesList) ∨
        Apart (Submission.steps entry.path) (Submission.steps x.fieldPath) := by
  intro entry hentry
  obtain ⟨way', y, hy, hinput, hpath, hlisted⟩ := hshown.entries rfl nofun entry hentry
  by_cases hsame : y.entityPath = x.entityPath
  · obtain ⟨rfl, rfl⟩ := hx.displayed.unique hy hfinds hsame.symm
    exact Or.inl ⟨hpath, by rw [hlisted, Bool.false_or]⟩
  · rw [hpath]
    exact Or.inr (hx.others way' y hy hinput hsame)

/-- The fragments of the node are the input fields with its path. -/
theorem Focus.StandsApart.fragment_iff (hx : (Focus.found e unresolved).StandsApart way x)
    (hfinds : d.Finds e) (hshown : Shows (.node e true) form.fragments) {f : Fragment}
    (hf : f ∈ allOf form.fragments) :
    (f.path = x.fieldPath ∧ f.widget.isInput = true) ↔ f.entityPath = x.entityPath := by
  obtain ⟨way', y, own, hy, hfield, hown⟩ := hshown.mem hf
  obtain rfl : own = true := hown rfl
  have hfits := hfield.fits
  rw [hfits.path, hfits.input rfl, hfits.entityPath]
  constructor
  · rintro ⟨hpath, hinput⟩
    apply Classical.byContradiction
    intro hne
    have hapart := hx.others way' y hy hinput hne
    rw [hpath] at hapart
    exact not_apart_self _ hapart
  · intro hsame
    have hdisplayed : (Focus.found e unresolved).Displays way' y := hy
    rw [(hdisplayed.finds hfinds).eq (hx.displayed.finds hfinds) hsame]
    exact ⟨rfl, hx.input⟩

/-- What is gathered at the path of the node are its values. -/
theorem Focus.StandsApart.gathered_eq (hx : (Focus.found e unresolved).StandsApart way x)
    (hfinds : d.Finds e) (hshown : Shows (.node e true) form.fragments) (entry : Entry)
    (hpath : entry.path = x.fieldPath) :
    gathered (entriesOf false form.fragments) entry = form.valuesOf x.entityPath := by
  have hinputs := entriesOf_inputs form.fragments false
  calc
    _ = (((entriesOf false form.fragments).map fun e => (e.path, e.value)).filter
          (fun pair => pair.1 = entry.path)).map Prod.snd := by
      rw [gathered, List.filter_map, List.map_map]
      rfl
    _ = (((allOf form.fragments).filter (·.widget.isInput)).filter
          (fun f => f.path = entry.path)).map fun f => f.value.getD .null := by
      rw [hinputs, List.filter_map, List.map_map]
      rfl
    _ = _ := by
      rw [Form.valuesOf, ofPath, List.filter_filter, hpath]
      congr 1
      apply List.filter_congr
      intro f hf
      have hiff := hx.fragment_iff hfinds hshown hf
      rw [Bool.eq_iff_iff]
      simpa using hiff

/-- The node is shown, so one of the entries is its own. -/
theorem Focus.StandsApart.exists_entry (hx : (Focus.found e unresolved).StandsApart way x)
    (hfinds : d.Finds e) (hshown : Shows (.node e true) form.fragments) :
    ∃ entry ∈ entriesOf false form.fragments, entry.path = x.fieldPath ∧
      entry.listed = way.any fun y => y.makesList := by
  obtain ⟨f, rest, hf, _⟩ := hshown.ofPath_eq_cons (Or.inl rfl) hfinds hx.displayed hx.input
  have hgathered := hx.gathered_eq hfinds hshown ⟨x.fieldPath, .null, false⟩ rfl
  rw [Form.valuesOf, hf] at hgathered
  have hvalue : f.value.getD .null ∈
      gathered (entriesOf false form.fragments) ⟨x.fieldPath, .null, false⟩ := by
    rw [hgathered]
    exact List.mem_cons_self
  obtain ⟨entry, hmem, _⟩ := List.mem_map.mp hvalue
  obtain ⟨hentry, hsame⟩ := List.mem_filter.mp hmem
  have hpath : entry.path = x.fieldPath := by simpa using hsame
  refine ⟨entry, hentry, hpath, ?_⟩
  rcases hx.entry_cases hfinds hshown entry hentry with ⟨_, hlisted⟩ | hapart
  · exact hlisted
  · rw [hpath] at hapart
    exact absurd hapart (not_apart_self _)

/-- A node is submitted at its path: as the list of its values, if its values or those of a node
around it form one, and as its value if it is shown once. -/
theorem Focus.StandsApart.lookup? (hx : (Focus.found e unresolved).StandsApart way x)
    (hfinds : d.Finds e) (hshown : Shows (.node e true) form.fragments) :
    ((way.any fun y => y.makesList) = true →
      form.submission.lookup? x.fieldPath.toList = some (.arr (form.valuesOf x.entityPath))) ∧
    ∀ v, (way.any fun y => y.makesList) = false → form.valuesOf x.entityPath = [v] →
      form.submission.lookup? x.fieldPath.toList = some v := by
  have hcases := hx.entry_cases hfinds hshown
  obtain ⟨entry, hentry, hpath, hlisted⟩ := hx.exists_entry hfinds hshown
  have hgathered := hx.gathered_eq hfinds hshown entry hpath
  obtain ⟨before, after, hsplit⟩ := List.append_of_mem hentry
  have hlookup (hothers : ∀ other ∈ before ++ after, Compatible other entry) :
      form.submission.lookup? x.fieldPath.toList =
        some (expected (entriesOf false form.fragments) entry) := by
    rw [← hpath]
    exact lookup?_insertAll hsplit (hpath ▸ hx.steps) hothers
  have hmem {other : Entry} (hother : other ∈ before ++ after) :
      other ∈ entriesOf false form.fragments := by
    rw [hsplit]
    exact ((List.sublist_cons_self entry after).append_left before).subset hother
  constructor
  · intro hmakes
    rw [hlookup, expected_eq, hlisted, if_pos hmakes, hgathered]
    intro other hother
    rcases hcases other (hmem hother) with ⟨hsame, hothers⟩ | hapart
    · exact Or.inr ⟨hsame.trans hpath.symm, hothers.trans hmakes, hlisted.trans hmakes⟩
    · rw [← hpath] at hapart
      exact Or.inl hapart
  · intro v hmakes hvalue
    rw [← hgathered, hsplit] at hvalue
    obtain ⟨hv, halone⟩ := alone_of_gathered hvalue
    rw [hlookup, expected_eq, hlisted, hmakes, if_neg Bool.false_ne_true, hv]
    intro other hother
    rcases hcases other (hmem hother) with ⟨hsame, _⟩ | hapart
    · exact absurd (hsame.trans hpath.symm) (halone other hother)
    · rw [← hpath] at hapart
      exact Or.inl hapart

/-- Rows of one cell each have their cells in a column. -/
theorem column_of_singletons {α β : Type} {cells : α → List β} {rows : List α}
    (h : ∀ row ∈ rows, ∃ cell, cells row = [cell]) :
    ∃ column, List.Forall₂ (fun row cell => cells row = [cell]) rows column ∧
      rows.flatMap cells = column := by
  induction rows with
  | nil => exact ⟨[], .nil, rfl⟩
  | cons row rest ih =>
      obtain ⟨⟨cell, hcell⟩, hrest⟩ := List.forall_mem_cons.mp h
      obtain ⟨column, hcells, hcolumn⟩ := ih hrest
      exact ⟨cell :: column, .cons hcell hcells, by rw [List.flatMap_cons, hcell, hcolumn]; rfl⟩

theorem Json.eq_strings {values : List Json} {texts : List String}
    (h : values.map Json.str? = texts.map some) : values = texts.map .str := by
  induction values generalizing texts with
  | nil => simpa using h
  | cons v rest ih =>
      cases texts with
      | nil => cases h
      | cons text texts =>
          obtain ⟨hv, hrest⟩ := List.cons.inj h
          have hfirst : v = .str text := by
            cases v <;> cases hv
            rfl
          rw [hfirst, ih hrest, List.map_cons]

namespace Session

/-- The text of a document with up to three records of a mail address and a name. -/
def contactText : String :=
  "\x7b\"specifications\":\x7b\"contact\":\x7b\"id\":\"contact\",\"datatype\":\"model\"," ++
    "\"maxCardinality\":3,\"components\":\x7b\"mail\":\x7b\"id\":\"mail\",\"datatype\":" ++
    "\"xmls:string\"\x7d,\"name\":\x7b\"id\":\"name\",\"datatype\":\"xmls:string\"" ++
    "\x7d\x7d\x7d\x7d\x7d"

/-- Two contacts, the first without mail address. -/
def contactHistory : List Event :=
  [.select "contact", .add "contact_2", .set "name_1" (.str "Ada"), .set "mail_4" (.str "b@x"),
    .set "name_5" (.str "Ben")]

/-- The form has one group with two records of two inputs each, and the values are listed. -/
theorem contacts_pass : checks contactText contactHistory (fun d form e =>
    d.namedByIds && decide e.HoldsInputs && decide (e.entityPath = ["contact"]) &&
      decide (∀ entry ∈ e.nested, entry.2.takesRecords = false ∧
        ((e.container ++ [entry.2]).any fun y => y.makesList) = true) &&
      decide (∃ entry ∈ e.nested, entry.2.fieldPath = "contact.mail" ∧
        entry.2.entityPath = ["contact", "mail"]) &&
      decide (∃ entry ∈ e.nested, entry.2.fieldPath = "contact.name" ∧
        (form.valuesOf entry.2.entityPath).map Json.str? = ["Ada", "Ben"].map some) &&
      decide (∃ g ∈ form.all, g.widget.isGroup = true ∧ g.cardinality.arrayLike = true ∧
        g.entityPath = ["contact"] ∧ g.instances.length = 1) &&
      decide (∀ f ∈ form.all, ∀ g ∈ allOf f.children, g.widget.isGroup = false)) = true := by
  decide +kernel

/-- The text of a document with one field of no, one or more records. -/
def openText : String :=
  "\x7b\"specifications\":\x7b\"note\":\x7b\"id\":\"note\",\"datatype\":\"xmls:string\"," ++
    "\"minCardinality\":0\x7d\x7d\x7d"

/-- A node whose path lies apart is submitted with the values of all its fragments, in their order,
if its values or those of a node around it form a list. Otherwise it is submitted with its value if
it is shown once; and it is shown once unless its bounds, or those of a node around it that is no
tab set, are zero and none. -/
theorem records_are_submitted {text : String} {d : Document} {c : Settings}
    {history : List Event} {form : Form} {e x : Entity} {way : List Entity}
    (hd : Document.ofText text = .ok d) (hkeys : d.namedByIds = true)
    (h : ((start d c).run history).form = some form) (hfocus : d.focus form.focus = .found e none)
    (hx : (Focus.found e none).StandsApart way x) :
    ((way.any fun y => y.makesList) = true →
      form.submission.lookup? x.fieldPath.toList = some (.arr (form.valuesOf x.entityPath))) ∧
    (∀ v, (way.any fun y => y.makesList) = false → form.valuesOf x.entityPath = [v] →
      form.submission.lookup? x.fieldPath.toList = some v) ∧
    ((way.any fun y => y.makesList) = false →
      (∀ y ∈ way, y.hasTabs = true ∨ y.isOpen = false) →
        ∃ v, form.valuesOf x.entityPath = [v]) := by
  obtain ⟨hfinds, hshown⟩ := shown_run hd hkeys h
  rw [hfocus] at hfinds hshown
  obtain ⟨hlist, hvalue⟩ := hx.lookup? hfinds hshown
  refine ⟨hlist, hvalue, ?_⟩
  intro hmakes hopen
  obtain ⟨f, rest, hf, hsingle⟩ := Shows.ofPath_eq_cons hshown (Or.inl rfl) hfinds hx.displayed
    hx.input
  have hrest : rest = [] := by
    apply hsingle
    intro y hy
    cases hrecords : y.takesRecords with
    | false => rfl
    | true =>
        have hlisted := Entity.makesList_of_takesRecords hrecords (hopen y hy)
        exact absurd hlisted (List.any_eq_false.mp hmakes y hy)
  exact ⟨f.value.getD .null, by rw [Form.valuesOf, hf, hrest]; rfl⟩

theorem names_are_submitted :
    ∃ d form, Document.ofText contactText = .ok d ∧
      ((start d {}).run contactHistory).form = some form ∧
      form.submission.lookup? "contact.name".toList = some (.arr [.str "Ada", .str "Ben"]) := by
  obtain ⟨d, form, e, hd, hform, hfocus, htest⟩ := exists_of_checks contacts_pass
  simp only [Bool.and_eq_true, decide_eq_true_eq] at htest
  obtain ⟨⟨⟨⟨⟨⟨⟨hkeys, hinputs⟩, _⟩, hentries⟩, _⟩, name, hname, hpath, hvalues⟩, _⟩, _⟩ := htest
  obtain ⟨_, hmakes⟩ := hentries name hname
  obtain ⟨hlist, _⟩ := records_are_submitted hd hkeys hform hfocus (hinputs.standsApart hname none)
  refine ⟨d, form, hd, hform, ?_⟩
  rw [← hpath, hlist hmakes, Json.eq_strings hvalues]
  rfl

/-- The last record overwrites the first where the bounds are zero and none, and where a record is
one of another node. -/
theorem records_are_not_submitted :
    (∃ d form x, Document.ofText openText = .ok d ∧
      ((start d {}).run [.select "note", .add "note_0", .set "note_0" (.str "a"),
        .set "note_2" (.str "b")]).form = some form ∧
      d.focus form.focus = .found x none ∧ (Focus.found x none).StandsApart [x] x ∧
      x.kind ≠ .categorical ∧ form.valuesOf x.entityPath = [.str "a", .str "b"] ∧
      (form.submission.lookup? x.fieldPath.toList).bind Json.str? = some "b") ∧
    ∃ d form e way x, Document.ofText mixedText = .ok d ∧
      ((start d {}).run [.select "r", .add "b_0", .set "c_4" (.str "1"),
        .set "c_1" (.str "2")]).form = some form ∧
      d.focus form.focus = .found e none ∧ (Focus.found e none).StandsApart way x ∧
      x.kind ≠ .categorical ∧ form.valuesOf x.entityPath = [.str "1", .str "2"] ∧
      (form.submission.lookup? x.fieldPath.toList).bind Json.str? = some "2" := by
  constructor
  · have hchecks : checks openText [.select "note", .add "note_0", .set "note_0" (.str "a"),
        .set "note_2" (.str "b")] (fun _ form x => x.kind.isInput &&
          decide ("" ∉ Submission.steps x.fieldPath) && decide (x.kind ≠ .categorical) &&
          decide ((form.valuesOf x.entityPath).map Json.str? = ["a", "b"].map some) &&
          decide ((form.submission.lookup? x.fieldPath.toList).bind Json.str? = some "b")) =
        true := by decide +kernel
    obtain ⟨d, form, x, hd, hform, hfocus, htest⟩ := exists_of_checks hchecks
    simp only [Bool.and_eq_true, decide_eq_true_eq] at htest
    obtain ⟨⟨⟨⟨hinput, hsteps⟩, hkind⟩, hvalues⟩, hsubmitted⟩ := htest
    exact ⟨d, form, x, hd, hform, hfocus, Focus.standsApart_input hinput hsteps, hkind,
      Json.eq_strings hvalues, hsubmitted⟩
  · have hchecks : checks mixedText [.select "r", .add "b_0", .set "c_4" (.str "1"),
        .set "c_1" (.str "2")] (fun _ form e => decide e.HoldsInputs &&
          decide (∃ entry ∈ e.nested, entry.2.kind ≠ .categorical ∧
            (form.valuesOf entry.2.entityPath).map Json.str? = ["1", "2"].map some ∧
            (form.submission.lookup? entry.2.fieldPath.toList).bind Json.str? = some "2")) =
        true := by decide +kernel
    obtain ⟨d, form, e, hd, hform, hfocus, htest⟩ := exists_of_checks hchecks
    simp only [Bool.and_eq_true, decide_eq_true_eq] at htest
    obtain ⟨hinputs, entry, hentry, hkind, hvalues, hsubmitted⟩ := htest
    exact ⟨d, form, e, _, entry.2, hd, hform, hfocus, hinputs.standsApart hentry none, hkind,
      Json.eq_strings hvalues, hsubmitted⟩

/-- The records of a group whose values form lists are rows: if nothing around the group has
records, a node inside that has none on the way is submitted with one value for each record of the
group, in their order. The fragments of the node are all inside the group, one in each record, and
the group is on the way to the node, so the values are listed. -/
theorem group_records_are_rows {text : String} {d : Document} {c : Settings}
    {history : List Event} {form : Form} {e group x : Entity} {around way inner : List Entity}
    {g : Fragment} (hd : Document.ofText text = .ok d) (hkeys : d.namedByIds = true)
    (h : ((start d c).run history).form = some form) (hfocus : d.focus form.focus = .found e none)
    (hg : g ∈ form.all) (hgroup : g.widget.isGroup = true) (hlist : g.cardinality.arrayLike = true)
    (halone : ∀ f ∈ form.all, g ∈ allOf f.children → f.repetition = none ∧
      (Entity.isFillable f.widget = true → f.cardinality.fixedSlots = none))
    (hdisplayed : (Focus.found e none).Displays around group)
    (hpath : group.entityPath = g.entityPath) (hinner : group.Reaches inner x)
    (hsingle : ∀ y ∈ inner, y.takesRecords = false)
    (hx : (Focus.found e none).StandsApart way x) :
    ∃ column : List Fragment, column.length = 1 + g.instances.length ∧
      List.Forall₂ (fun record f => ofPath x.entityPath record = [f])
        (g.widget.children :: g.instances.map Instance.fragments) column ∧
      form.submission.lookup? x.fieldPath.toList =
        some (.arr (column.map fun f => f.value.getD .null)) := by
  obtain ⟨hfinds, hshown⟩ := shown_run hd hkeys h
  rw [hfocus] at hfinds hshown
  have hown : Shows (.node e true) form.fragments := hshown
  have hfound := hdisplayed.finds hfinds
  obtain ⟨_, own, _, hfield, hisOwn⟩ := hown.reaches_of_mem hfinds hg hfound hpath.symm
  obtain rfl : own = true := hisOwn rfl
  have hfits := hfield.fits
  have hkind : group.kind = .grouping := by simpa [hgroup] using (hfits.group rfl).symm
  have hne : x ≠ group := by
    rintro rfl
    have hinput := hx.input
    rw [hkind] at hinput
    cases hinput
  have hnone : ∀ f ∈ allOf form.fragments, g ∈ allOf f.children → f.instances = [] := by
    intro f hf hgf
    obtain ⟨_, y, own, _, hfield, hisOwn⟩ := hown.mem hf
    obtain rfl : own = true := hisOwn rfl
    obtain ⟨hrepetition, hfixed⟩ := halone f hf hgf
    exact hfield.fits.instances_eq_nil hrepetition (hfield.fits.not_filled hfixed)
  have hinside := hown.ofPath_inside rfl hfinds hg hnone hfound hpath.symm hinner hne
  obtain ⟨column, hcells, hcolumn⟩ := column_of_singletons
    (hfield.ofPath_records hfound hkind hinner hx.input hsingle)
  rw [← ofPath_children, ← hinside] at hcolumn
  have hlength := hcells.length_eq
  refine ⟨column, ?_, hcells, ?_⟩
  · rw [← hlength, List.length_cons, List.length_map, Nat.add_comm]
  · obtain ⟨_, rfl⟩ := hx.displayed.unique (hdisplayed.trans hinner) hfinds rfl
    have hmem : group ∈ around := by
      apply hdisplayed.container_subset
      rw [Entity.container_of_fits hfits]
      exact List.mem_singleton_self group
    have hmakes : group.makesList = true := by
      have hselect : g.widget.isSelect = false := by
        rw [hfits.select rfl, hkind]
        rfl
      rw [← hfits.makesList, Fragment.makesList, hlist, hselect]
      rfl
    have hlisted := (hx.lookup? hfinds hown).1
      (List.any_eq_true.mpr ⟨group, List.mem_append_left inner hmem, hmakes⟩)
    rw [hlisted, Form.valuesOf, hcolumn]

theorem contacts_are_rows :
    ∃ d form g column, Document.ofText contactText = .ok d ∧
      ((start d {}).run contactHistory).form = some form ∧ g ∈ form.all ∧ column.length = 2 ∧
      List.Forall₂ (fun record f => ofPath ["contact", "mail"] record = [f])
        (g.widget.children :: g.instances.map Instance.fragments) column ∧
      form.submission.lookup? "contact.mail".toList =
        some (.arr (column.map fun f => f.value.getD .null)) := by
  obtain ⟨d, form, e, hd, hform, hfocus, htest⟩ := exists_of_checks contacts_pass
  simp only [Bool.and_eq_true, decide_eq_true_eq] at htest
  obtain ⟨⟨⟨⟨⟨⟨⟨hkeys, hinputs⟩, hat⟩, hentries⟩, mail, hmail, hpath, hmailAt⟩, _⟩,
    g, hg, hgroup, hlist, hgat, hone⟩, hflat⟩ := htest
  have hx := hinputs.standsApart hmail none
  have halone : ∀ f ∈ form.all, g ∈ allOf f.children → f.repetition = none ∧
      (Entity.isFillable f.widget = true → f.cardinality.fixedSlots = none) := by
    intro f hf hgf
    rw [hflat f hf g hgf] at hgroup
    cases hgroup
  have hdisplayed : (Focus.found e none).Displays (e.container ++ []) e := ⟨[], .self e, rfl⟩
  have hinner : e.Reaches (mail.2.container ++ []) mail.2 := .inside hmail (.self mail.2)
  have hsingle : ∀ y ∈ mail.2.container ++ [], y.takesRecords = false := by
    rw [Entity.container_of_isInput hx.input]
    exact List.forall_mem_singleton.mpr (hentries mail hmail).1
  obtain ⟨column, hlength, hcells, hsubmitted⟩ := group_records_are_rows hd hkeys hform hfocus hg
    hgroup hlist halone hdisplayed (hat.trans hgat.symm) hinner hsingle hx
  rw [hmailAt] at hcells
  rw [hone] at hlength
  exact ⟨d, form, g, column, hd, hform, hg, hlength, hcells, hpath ▸ hsubmitted⟩

end Session

end EntryForm
