import EntryForm.Proofs.ShownRun

/-!
# New records

A record that is added to a repeated field is compiled from a node that is looked up by the path
of ids that the field carries. If all nodes of the document stand under their ids, that is the node
of the field. Otherwise the look-up can fail or lead to another node.
-/

namespace EntryForm

/-- A pick-list offers no way to add records. -/
theorem Fragment.Fits.not_select {f : Fragment} {e : Entity} {own : Bool} (h : f.Fits e own)
    (hrepetition : f.repetition ≠ none) : f.widget.isSelect = false := by
  have hrepeatable := (h.repeated hrepetition).1
  rw [h.cardinality] at hrepeatable
  simp only [Cardinality.ofBounds, Bool.and_eq_true] at hrepeatable
  simpa using hrepeatable.1.2

/-- With distinct ids every fragment is found under its own. -/
theorem Form.find?_of_mem {a : Form} (h : a.ids.Nodup) {f : Fragment} (hf : f ∈ a.all) :
    a.find? f.id = some f := by
  cases hfind : a.find? f.id with
  | none =>
      have hnone := List.find?_eq_none.mp hfind f hf
      simp at hnone
  | some g => rw [Form.eq_of_find? h hfind hf rfl]

theorem Json.eq_str_of_str? {value : Json} {text : String} (h : value.str? = some text) :
    value = .str text := by
  cases value with
  | str s => exact congrArg Json.str (Option.some.inj h)
  | _ => cases h

namespace Session

/-- Whether a text is read as a document, and a run ends with a form whose focus leads to a node, so
that a test passes. -/
def checks (text : String) (history : List Event) (test : Document → Form → Entity → Bool) : Bool :=
  (Document.ofText text).toOption.any fun d =>
    ((start d {}).run history).form.any fun form =>
      match d.focus form.focus with
      | .found e none => test d form e
      | _ => false

theorem exists_of_reads {text : String} {test : Document → Bool}
    (h : (Document.ofText text).toOption.any test = true) :
    ∃ d, Document.ofText text = .ok d ∧ test d = true :=
  exists_of_any h

theorem exists_of_checks {text : String} {history : List Event}
    {test : Document → Form → Entity → Bool} (h : checks text history test = true) :
    ∃ d form e, Document.ofText text = .ok d ∧ ((start d {}).run history).form = some form ∧
      d.focus form.focus = .found e none ∧ test d form e = true := by
  obtain ⟨d, hread, h⟩ := exists_of_reads h
  obtain ⟨form, hform, h⟩ := (Option.any_eq_true _ _).mp h
  split at h
  case _ e hfocus => exact ⟨d, form, e, hread, hform, hfocus, h⟩
  case _ => cases h

/-- The text of a document with one field that takes up to three records. -/
def keyedText : String :=
  "\x7b\"specifications\":\x7b\"note\":\x7b\"id\":\"note\",\"datatype\":\"xmls:string\"," ++
    "\"maxCardinality\":3\x7d\x7d\x7d"

/-- If all nodes of a document stand under their ids, a record can be added to every field that
offers one: it is appended to the records of that field and holds a body of the node of the field,
which no other node that is shown can be taken for. -/
theorem added_record_is_of_its_field {text : String} {d : Document} {c : Settings}
    {history : List Event} {form : Form} {f : Fragment} {r : RepeatState}
    (hd : Document.ofText text = .ok d) (hkeys : d.namedByIds = true)
    (h : ((start d c).run history).form = some form) (hf : f ∈ form.all)
    (hr : f.repetition = some r) (henabled : r.addEnabled = true) :
    ∃ e way own, (d.focus form.focus).Displays way e ∧ Shows (.field e own) [f] ∧
      (∀ way' x, (d.focus form.focus).Displays way' x → x.entityPath = f.entityPath → x = e) ∧
      ∃ i after,
        ((start d c).run history).addInstance f.id =
          .ok (some (i.id, { (start d c).run history with form := some after })) ∧
        i.fragments = ((e.compileBody c).run { counter := form.counter + 1 }).1 ∧
        Fragment.Replaces f (Form.appendInstance i f) form.nodes after.nodes := by
  obtain ⟨hfinds, hshown⟩ := shown_run hd hkeys h
  obtain ⟨way, e, own, hdisplays, hfield⟩ := hshown.mem hf
  have he := hdisplays.finds hfinds
  have hfits := hfield.fits
  have hfind := Form.find?_of_mem (issued_run h).ids_nodup hf
  have hselect := hfits.not_select (by simp [hr])
  have hentity : d.entityAt? f.entityPath = some e := by
    rw [hfits.entityPath]
    exact he.found
  let body := (e.compileBody c).run { counter := form.counter + 1 }
  let i : Instance Fragment :=
    ⟨idAt (e.id ++ "_record") form.counter, recordHeader (r.count + 1), true, body.1⟩
  let after : Form :=
    { form.update f.id (Form.appendInstance i) with counter := body.2.counter }
  have hadd : form.addInstance c d f.id = .ok (some (i.id, after)) :=
    Form.addInstance_eq hfind hselect hr henabled hentity
  refine ⟨e, way, own, hdisplays, hfield, ?_, i, after, ?_, rfl, ?_⟩
  · intro way' x hx hpath
    exact (hx.finds hfinds).eq he (hpath.trans hfits.entityPath)
  · have hreached := reached_run d c history
    simp only [addInstance, h, hreached.document, hreached.settings, hadd]
  · exact Form.update_replaces (Form.appendInstance i) (fun _ => rfl) hfind

theorem note_record_is_of_its_field :
    ∃ d form f, Document.ofText keyedText = .ok d ∧ d.namedByIds = true ∧
      ((start d {}).run [.select "note"]).form = some form ∧ f ∈ form.all ∧ f.id = "note_0" ∧
      ∃ i after, ((start d {}).run [.select "note"]).addInstance "note_0" =
          .ok (some (i.id, { (start d {}).run [.select "note"] with form := some after })) ∧
        Fragment.Replaces f (Form.appendInstance i f) form.nodes after.nodes := by
  have hchecks : checks keyedText [.select "note"] (fun d form _ => d.namedByIds &&
      decide (∃ f ∈ form.all, f.id = "note_0" ∧ f.repetition.any (·.addEnabled) = true)) =
      true := by decide +kernel
  obtain ⟨d, form, _, hd, hform, _, htest⟩ := exists_of_checks hchecks
  simp only [Bool.and_eq_true, decide_eq_true_eq, Option.any_eq_true] at htest
  obtain ⟨hkeys, f, hf, hid, r, hr, henabled⟩ := htest
  obtain ⟨_, _, _, _, _, _, i, after, hadd, _, hreplaces⟩ :=
    added_record_is_of_its_field hd hkeys hform hf hr henabled
  exact ⟨d, form, f, hd, hkeys, hform, hf, hid, i, after, hid ▸ hadd, hreplaces⟩

/-- The text of a document whose only field does not stand under its id. -/
def unkeyedText : String :=
  "\x7b\"specifications\":\x7b\"k\":\x7b\"id\":\"x\",\"datatype\":\"xmls:string\"," ++
    "\"maxCardinality\":3\x7d\x7d\x7d"

/-- The text of a document where a field that takes records stands beside another, which stands
under its id. -/
def mixedText : String :=
  "\x7b\"specifications\":\x7b\"r\":\x7b\"id\":\"r\",\"datatype\":\"model\"," ++
    "\"components\":\x7b\"a\":\x7b\"id\":\"b\",\"datatype\":\"xmls:string\"," ++
    "\"maxCardinality\":3\x7d,\"b\":\x7b\"id\":\"c\",\"datatype\":\"xmls:string\"" ++
    "\x7d\x7d\x7d\x7d\x7d"

/-- Where a node does not stand under its id, adding a record can fail, or add a record of another
node, though nothing is wrong with the document otherwise. -/
theorem added_record_is_not_of_its_field :
    (Document.ofText unkeyedText).toOption.map
        (fun d => (d.specifications.values.map Entity.problems,
          match ((start d {}).run [.select "k"]).addInstance "x_0" with
          | .error (.unknownEntity path) => some path
          | _ => none)) = some ([[]], some ["x"]) ∧
      (Document.ofText mixedText).toOption.map
        (fun d => (d.specifications.values.map Entity.problems,
          ((start d {}).run [.select "r", .add "b_0"]).form.map fun form =>
            form.all.map fun f => (f.id, f.entityPath))) =
        some ([[]], some [("r_2", ["r"]), ("b_0", ["r", "b"]), ("c_4", ["r", "c"]),
          ("c_1", ["r", "c"])]) := by
  decide +kernel

end Session

end EntryForm
