import EntryForm.Proofs.OwnRecords
import EntryForm.Proofs.Substitution

/-!
# References to submitted fields

A value is found in a submission under whatever path its field has, while a template reads a path
only as far as letters, digits, underscores and dots go. So a field can be referred to exactly if
its path is made of these, and a path that comes from ids only if all of the ids are. An id of an
ontology has a colon.
-/

namespace EntryForm

namespace Text

/-- What all pieces and the separator are made of, the joined text is made of. -/
theorem all_join {p : Char → Bool} {sep : List Char} (hsep : sep.all p = true)
    (pieces : List (List Char)) : (join sep pieces).all p = pieces.all (·.all p) := by
  fun_induction join sep pieces with
  | case1 => rfl
  | case2 piece => simp
  | case3 piece pieces _ ih => rw [List.all_append, List.all_append, hsep, ih, List.all_cons]; simp

end Text

namespace Template

/-- Whether a template can refer to a path. -/
def isReference (path : List Char) : Bool := !path.isEmpty && path.all isPathChar

section reference
variable {data : Json} {path : List Char}

/-- A path can be referred to if it is not empty and has only characters of paths. -/
theorem isReference_iff :
    isReference path = true ↔ path ≠ [] ∧ ∀ x ∈ path, isPathChar x = true := by
  rw [isReference, Bool.and_eq_true, List.all_eq_true]
  simp

/-- A path in front of a tag is read as a reference exactly if it is one. -/
theorem opens_iff_isReference {path : List Char} :
    Opens ('@' :: (path ++ ['<'])) path ['<'] ↔ isReference path = true := by
  rw [isReference_iff]
  constructor
  · intro h
    exact ⟨h.path_ne_nil, h.chars⟩
  · rintro ⟨hne, hchars⟩
    exact ⟨rfl, hne, hchars, '<', [], rfl, rfl⟩

/-- A path without terminators that is followed by a tag is read to its end, or not at all: to go on
it would have to go on with the tag. -/
theorem eq_of_opens (hplain : ∀ x ∈ path, isTerminator x = false) {path' rest : List Char}
    (h : Opens ('@' :: (path ++ ['<'])) path' rest) : path' = path ∧ rest = ['<'] := by
  obtain ⟨hwritten, _, hchars, c, after, rfl, hend⟩ := h
  have hsplit : path ++ ['<'] = path' ++ c :: after := (List.cons_eq_cons.mp hwritten).2
  obtain ⟨more, rfl, hmore⟩ | ⟨more, rfl, hmore⟩ := List.append_eq_append_iff.mp hsplit
  · cases more with
    | nil => exact ⟨(List.append_nil path), hmore.symm⟩
    | cons x more =>
        obtain ⟨rfl, _⟩ := List.cons_eq_cons.mp hmore
        exact absurd (hchars '<' (by simp)) (by decide)
  · cases more with
    | nil => exact ⟨(List.append_nil path').symm, hmore⟩
    | cons x more =>
        obtain ⟨rfl, _⟩ := List.cons_eq_cons.mp hmore
        exact absurd (hplain c (by simp)) (by simp [hend])

/-- A text without at signs is left as it is. -/
theorem fillFrom_plain {cs : List Char} (h : '@' ∉ cs) : fillFrom data none cs = cs := by
  induction cs with
  | nil => rw [fillFrom]
  | cons c rest ih =>
      have hc : c ≠ '@' := (List.ne_of_not_mem_cons h).symm
      rw [fillFrom_cons, if_neg hc, ih (List.not_mem_of_not_mem_cons h)]

/-- A reference is replaced by the value at its path if it is one; else it is left as it is. -/
theorem fillFrom_reference {v : Json} (hfound : data.lookup? path = some v)
    (hplain : ∀ x ∈ path, isTerminator x = false ∧ x ≠ '@') :
    fillFrom data none ('@' :: (path ++ ['<'])) =
      (if isReference path then v.plain else '@' :: path) ++ ['<'] := by
  have hends : ∀ x ∈ path, isTerminator x = false := fun x hx => (hplain x hx).1
  split
  case isTrue href =>
    have htag : fillFrom data none ['<'] = ['<'] := fillFrom_plain (by decide)
    rw [fillFrom_of_opens (opens_iff_isReference.mpr href), htag, resolve, hfound]
  case isFalse href =>
    have hnone : ∀ path' rest, ¬ Opens ('@' :: (path ++ ['<'])) path' rest := by
      intro path' rest hopens
      obtain ⟨rfl, rfl⟩ := eq_of_opens hends hopens
      exact href (opens_iff_isReference.mp hopens)
    have hat : '@' ∉ path ++ ['<'] := by
      simpa using fun hmem => (hplain '@' hmem).2 rfl
    rw [fillFrom_of_not_opens hnone, fillFrom_plain hat, List.cons_append]

end reference

end Template

/-- The path of a field that has no name of its own: the ids down to its node, with dots. -/
def Field.derivedPath (f : Field) : String :=
  String.ofList (Text.join ['.'] (f.entityPath.map String.toList))

/-- The dots of a path can be referred to, so all depends on the ids. -/
theorem Field.isReference_derivedPath (f : Field) :
    Template.isReference f.derivedPath.toList = true ↔
      f.derivedPath ≠ "" ∧
        ∀ id ∈ f.entityPath, ∀ x ∈ id.toList, Template.isPathChar x = true := by
  have hdot : ['.'].all Template.isPathChar = true := by decide
  have hne : f.derivedPath.toList ≠ [] ↔ f.derivedPath ≠ "" :=
    not_congr String.toList_eq_nil_iff
  rw [Template.isReference_iff, hne, and_congr_right_iff]
  intro _
  rw [← List.all_eq_true, derivedPath, String.toList_ofList, Text.all_join hdot]
  simp

namespace Form

/-- A submitted field is filled in where a template refers to it exactly if its path is not empty
and is made of letters, digits, underscores and dots; if the path comes from ids, all of them have
to be. Otherwise the reference is left as it is, which is right only if the value is its text. -/
theorem field_reference_is_filled_iff (form : Form) :
    ∀ f ∈ form.all, f.widget.isInput = true →
      (∀ x ∈ f.path.toList, x ≠ '"' ∧ x ≠ '<' ∧ x ≠ '@') →
      ∀ v, form.submission.lookup? f.path.toList = some v →
        (form.fillTemplate ("@" ++ f.path ++ "<") = String.ofList v.plain ++ "<" ↔
          Template.isReference f.path.toList = true ∨ String.ofList v.plain = "@" ++ f.path) ∧
        (Template.isReference f.path.toList = false →
          form.fillTemplate ("@" ++ f.path ++ "<") = "@" ++ f.path ++ "<") ∧
        (f.path = f.derivedPath → (Template.isReference f.path.toList = true ↔
          f.path ≠ "" ∧ ∀ id ∈ f.entityPath, ∀ x ∈ id.toList, Template.isPathChar x = true)) := by
  intro f _ _ hplain v hv
  have hchars : ∀ x ∈ f.path.toList, Template.isTerminator x = false ∧ x ≠ '@' := by
    intro x hx
    obtain ⟨hquote, htag, hat⟩ := hplain x hx
    exact ⟨by simp [Template.isTerminator, hquote, htag], hat⟩
  have hfilled : form.fillTemplate ("@" ++ f.path ++ "<") =
      (if Template.isReference f.path.toList then String.ofList v.plain else "@" ++ f.path) ++
        "<" := by
    rw [← String.toList_inj, fillTemplate, Template.fill, String.toList_ofList,
      String.toList_append, String.toList_append]
    change Template.fillFrom _ none ('@' :: (f.path.toList ++ ['<'])) = _
    rw [Template.fillFrom_reference hv hchars]
    split <;> simp
  rw [hfilled]
  refine ⟨?_, ?_, ?_⟩
  · rw [String.append_left_inj]
    split
    case isTrue href => simp [href]
    case isFalse href => simp [href, eq_comm]
  · intro hno
    rw [if_neg (by simp [hno])]
  · intro hderived
    rw [hderived]
    exact f.isReference_derivedPath

end Form

namespace Session

/-- The text of a document with one field under some id, whose value is the letter x. -/
def letterText (id : String) : String :=
  "\x7b\"specifications\":\x7b\"" ++ id ++ "\":\x7b\"id\":\"" ++ id ++
    "\",\"datatype\":\"xmls:string\",\"value\":\"x\"\x7d\x7d\x7d"

/-- Whether a form is one field that is submitted under its id with the letter x. -/
def isLetter (id : String) (form : Form) : Bool :=
  match form.all with
  | [f] => f.widget.isInput && f.path == id && f.path == f.derivedPath &&
      (form.submission.lookup? f.path.toList).bind Json.str? == some "x"
  | _ => false

theorem of_isLetter {id : String} {form : Form} (h : isLetter id form = true) :
    ∃ f ∈ form.all, f.widget.isInput = true ∧ f.path = id ∧ f.path = f.derivedPath ∧
      form.submission.lookup? f.path.toList = some (.str "x") := by
  rw [isLetter] at h
  split at h
  case _ f hall =>
    simp only [Bool.and_eq_true, beq_iff_eq] at h
    obtain ⟨⟨⟨hinput, hpath⟩, hderived⟩, hfound⟩ := h
    obtain ⟨v, hv, htext⟩ := Option.bind_eq_some_iff.mp hfound
    exact ⟨f, by simp [hall], hinput, hpath, hderived, Json.eq_str_of_str? htext ▸ hv⟩
  case _ => cases h

theorem plain_id_is_filled :
    ∃ d form f, Document.ofText (letterText "note") = .ok d ∧
      ((start d {}).run [.select "note"]).form = some form ∧ f ∈ form.all ∧
      f.widget.isInput = true ∧ f.path = "note" ∧ f.path = f.derivedPath ∧
      form.submission.lookup? f.path.toList = some (.str "x") ∧
      form.fillTemplate ("@" ++ f.path ++ "<") = "x<" := by
  have hchecks : checks (letterText "note") [.select "note"]
      (fun _ form _ => isLetter "note" form) = true := by
    decide +kernel
  obtain ⟨d, form, _, hd, hform, _, hletter⟩ := exists_of_checks hchecks
  obtain ⟨f, hf, hinput, hpath, hderived, hfound⟩ := of_isLetter hletter
  have hplain : ∀ x ∈ f.path.toList, x ≠ '"' ∧ x ≠ '<' ∧ x ≠ '@' := by
    have hall : f.path.toList.all (fun x => x != '"' && x != '<' && x != '@') = true := by
      rw [hpath]
      decide
    intro x hx
    simpa [and_assoc] using List.all_eq_true.mp hall x hx
  have href : Template.isReference f.path.toList = true := by
    rw [hpath]
    decide
  obtain ⟨hfilled, _, _⟩ := form.field_reference_is_filled_iff f hf hinput hplain _ hfound
  exact ⟨d, form, f, hd, hform, hf, hinput, hpath, hderived, hfound, hfilled.mpr (Or.inl href)⟩

/-- A reference to a field under an id with a colon is left as it is, though its value is found
under that path. -/
theorem ontology_id_is_not_filled :
    ∃ d form f, Document.ofText (letterText "GENEPIO:0001234") = .ok d ∧
      ((start d {}).run [.select "GENEPIO:0001234"]).form = some form ∧ f ∈ form.all ∧
      f.widget.isInput = true ∧ f.path = "GENEPIO:0001234" ∧ f.path = f.derivedPath ∧
      form.submission.lookup? f.path.toList = some (.str "x") ∧
      form.fillTemplate ("@" ++ f.path ++ "<") = "@GENEPIO:0001234<" := by
  have hchecks : checks (letterText "GENEPIO:0001234") [.select "GENEPIO:0001234"]
      (fun _ form _ => isLetter "GENEPIO:0001234" form &&
        form.fillTemplate ("@" ++ "GENEPIO:0001234" ++ "<") == "@GENEPIO:0001234<") = true := by
    decide +kernel
  obtain ⟨d, form, _, hd, hform, _, htest⟩ := exists_of_checks hchecks
  obtain ⟨hletter, hkept⟩ := Bool.and_eq_true_iff.mp htest
  obtain ⟨f, hf, hinput, hpath, hderived, hfound⟩ := of_isLetter hletter
  refine ⟨d, form, f, hd, hform, hf, hinput, hpath, hderived, hfound, ?_⟩
  rw [hpath]
  exact eq_of_beq hkept

end Session

end EntryForm
