import EntryForm.Proofs.Escaping
import EntryForm.Submission

/-!
# Marks in filled templates

A template falls into pieces: the references in it, and the characters between them. Filling it
replaces each reference by what the path leads to and leaves all else as it is, so the marks of
the template stay, in their order, and the marks of the values join them.
-/

namespace EntryForm

namespace Template

/-- A path stands in a text as a reference: after an at sign and right before a quote or a tag. -/
def Refers (cs path : List Char) : Prop :=
  ∃ before c after, cs = before ++ '@' :: (path ++ c :: after) ∧ path ≠ [] ∧
    (∀ x ∈ path, isPathChar x = true) ∧ isTerminator c = true

/-- A piece of a template. -/
inductive Piece
  | text (content : List Char)
  | reference (path : List Char)

/-- How a piece stands in the template. -/
def Piece.written : Piece → List Char
  | .text content => content
  | .reference path => '@' :: path

/-- What stands for a piece in the filled template. -/
def Piece.filled (data : Json) : Piece → List Char
  | .text content => content
  | .reference path => resolve data path

/-- The pieces of a template, read as `fillFrom` reads it. -/
def pieces : Option (List Char) → List Char → List Piece
  | none, [] => []
  | some path, [] => [.text ('@' :: path.reverse)]
  | none, c :: rest =>
    if c = '@' then pieces (some []) rest else .text [c] :: pieces none rest
  | some path, c :: rest =>
    if isPathChar c then pieces (some (c :: path)) rest
    else if isTerminator c && !path.isEmpty then
      .reference path.reverse :: .text [c] :: pieces none rest
    else if c = '@' then .text ('@' :: path.reverse) :: pieces (some []) rest
    else .text ('@' :: path.reverse) :: .text [c] :: pieces none rest

/-- What has been read of a template and not yet been given out. -/
def held : Option (List Char) → List Char
  | none => []
  | some path => '@' :: path.reverse

/-- Nothing of a template is lost or added by taking it to pieces. -/
theorem written_pieces (pending : Option (List Char)) (cs : List Char) :
    (pieces pending cs).flatMap Piece.written = held pending ++ cs := by
  fun_induction pieces pending cs <;> simp_all [Piece.written, held]

/-- Filling a template is filling its pieces. -/
theorem fillFrom_eq (data : Json) (pending : Option (List Char)) (cs : List Char) :
    fillFrom data pending cs = (pieces pending cs).flatMap (Piece.filled data) := by
  fun_induction pieces pending cs <;> simp_all [Piece.filled, fillFrom]

section Refers
variable {cs path : List Char}

/-- What ends a path is no part of one. -/
theorem not_isPathChar_of_isTerminator {c : Char} (h : isTerminator c = true) :
    isPathChar c = false := by
  rw [isTerminator, Bool.or_eq_true, beq_iff_eq, beq_iff_eq] at h
  rcases h with rfl | rfl <;> decide

theorem not_refers_nil : ¬ Refers [] path := by
  rintro ⟨before, c, after, hcs, -⟩
  simp at hcs

/-- A reference starts at the first character of a text, or it stands in the rest. -/
theorem refers_cons {x : Char} :
    Refers (x :: cs) path ↔
      (x = '@' ∧ ∃ c after, cs = path ++ c :: after ∧ path ≠ [] ∧
        (∀ y ∈ path, isPathChar y = true) ∧ isTerminator c = true) ∨ Refers cs path := by
  constructor
  · rintro ⟨before, c, after, hcs, hpath⟩
    cases before with
    | nil =>
        obtain ⟨rfl, rfl⟩ := List.cons_eq_cons.mp hcs
        exact Or.inl ⟨rfl, c, after, rfl, hpath⟩
    | cons y before =>
        obtain ⟨rfl, rfl⟩ := List.cons_eq_cons.mp hcs
        exact Or.inr ⟨before, c, after, rfl, hpath⟩
  · rintro (⟨rfl, c, after, rfl, hpath⟩ | ⟨before, c, after, rfl, hpath⟩)
    · exact ⟨[], c, after, rfl, hpath⟩
    · exact ⟨x :: before, c, after, rfl, hpath⟩

/-- Only an at sign starts a reference. -/
theorem refers_cons_of_ne {x : Char} (h : x ≠ '@') : Refers (x :: cs) path ↔ Refers cs path := by
  simp [refers_cons, h]

/-- There is no at sign in a path, so no reference starts there. -/
theorem refers_append {word : List Char} (hword : ∀ x ∈ word, isPathChar x = true) :
    Refers (word ++ cs) path ↔ Refers cs path := by
  induction word with
  | nil => rfl
  | cons x rest ih =>
      have hne : x ≠ '@' := by
        rintro rfl
        have hat : isPathChar '@' = true := hword '@' List.mem_cons_self
        exact absurd hat (by decide)
      rw [List.cons_append, refers_cons_of_ne hne]
      exact ih fun y hy => hword y (List.mem_cons_of_mem _ hy)

/-- A path ends where the characters of paths end, so at most one path follows an at sign. -/
theorem path_unique {word rest after : List Char} {x c : Char}
    (hword : ∀ y ∈ word, isPathChar y = true) (hx : isPathChar x = false)
    (hpath : ∀ y ∈ path, isPathChar y = true) (hc : isPathChar c = false)
    (h : word ++ x :: rest = path ++ c :: after) : word = path ∧ x = c := by
  have htake := congrArg (List.takeWhile isPathChar) h
  rw [List.takeWhile_append_of_pos hword, List.takeWhile_append_of_pos hpath,
    List.takeWhile_cons_of_neg (by simp [hx]), List.takeWhile_cons_of_neg (by simp [hc]),
    List.append_nil, List.append_nil] at htake
  subst htake
  exact ⟨rfl, (List.cons_eq_cons.mp (List.append_cancel_left h)).1⟩

/-- What follows an at sign and a path decides whether they are a reference. -/
theorem refers_at {word rest : List Char} {x : Char}
    (hword : ∀ y ∈ word, isPathChar y = true) (hx : isPathChar x = false) :
    Refers ('@' :: (word ++ x :: rest)) path ↔
      (path = word ∧ word ≠ [] ∧ isTerminator x = true) ∨ Refers (x :: rest) path := by
  rw [refers_cons, refers_append hword]
  constructor
  · rintro (⟨-, c, after, heq, hne, hpath, hc⟩ | hrest)
    · obtain ⟨rfl, rfl⟩ :=
        path_unique hword hx hpath (not_isPathChar_of_isTerminator hc) heq
      exact Or.inl ⟨rfl, hne, hc⟩
    · exact Or.inr hrest
  · rintro (⟨rfl, hne, hc⟩ | hrest)
    · exact Or.inl ⟨rfl, x, rest, rfl, hne, hword, hc⟩
    · exact Or.inr hrest

/-- A path at the end of a text is no reference. -/
theorem not_refers_at_end {word : List Char} (hword : ∀ y ∈ word, isPathChar y = true) :
    ¬ Refers ('@' :: word) path := by
  rw [refers_cons]
  rintro (⟨-, c, after, rfl, -, -, hc⟩ | hrest)
  · have hchar : isPathChar c = true := hword c (by simp)
    rw [not_isPathChar_of_isTerminator hc] at hchar
    cases hchar
  · rw [← List.append_nil word, refers_append hword] at hrest
    exact not_refers_nil hrest

/-- Taking a template to pieces finds exactly the references in it. The piece after an at sign is
one if its path is not empty and ends right. -/
theorem mem_pieces_iff (pending : Option (List Char))
    (hpending : ∀ word ∈ pending, ∀ x ∈ word, isPathChar x = true) :
    .reference path ∈ pieces pending cs ↔ Refers (held pending ++ cs) path := by
  have hnone : ∀ word ∈ (none : Option (List Char)), ∀ x ∈ word, isPathChar x = true := by simp
  have hempty : ∀ word ∈ some ([] : List Char), ∀ x ∈ word, isPathChar x = true := by simp
  fun_induction pieces pending cs with
  | case1 => simp [held, not_refers_nil]
  | case2 word =>
      have hword : ∀ x ∈ word.reverse, isPathChar x = true := by simpa using hpending word rfl
      simp [held, not_refers_at_end hword]
  | case3 rest ih => exact ih hempty
  | case4 c rest hat ih =>
      rw [held, List.nil_append, refers_cons_of_ne hat]
      simpa [held] using ih hnone
  | case5 word c rest hchar ih =>
      have hword : ∀ w ∈ some (c :: word), ∀ x ∈ w, isPathChar x = true := by
        intro w hw x hx
        cases hw
        rcases List.mem_cons.mp hx with rfl | hx
        · exact hchar
        · exact hpending word rfl x hx
      simpa [held] using ih hword
  | case6 word c rest hchar hend ih =>
      have hword : ∀ x ∈ word.reverse, isPathChar x = true := by simpa using hpending word rfl
      have hrest : .reference path ∈ pieces none rest ↔ Refers rest path := by
        simpa [held] using ih hnone
      obtain ⟨hterminator, hne⟩ := Bool.and_eq_true_iff.mp hend
      have hat : c ≠ '@' := by
        rintro rfl
        exact absurd hterminator (by decide)
      have hnil : word ≠ [] := by simpa using hne
      rw [held, List.cons_append, refers_at hword (by simpa using hchar), refers_cons_of_ne hat]
      simp [hrest, hterminator, hnil]
  | case7 word rest hchar hend ih =>
      have hword : ∀ x ∈ word.reverse, isPathChar x = true := by simpa using hpending word rfl
      have hrest : .reference path ∈ pieces (some []) rest ↔ Refers ('@' :: rest) path := by
        simpa [held] using ih hempty
      have hterminator : isTerminator '@' = false := by decide
      rw [held, List.cons_append, refers_at hword (by simpa using hchar)]
      simp [hrest, hterminator]
  | case8 word c rest hchar hend hat ih =>
      have hword : ∀ x ∈ word.reverse, isPathChar x = true := by simpa using hpending word rfl
      have hrest : .reference path ∈ pieces none rest ↔ Refers rest path := by
        simpa [held] using ih hnone
      rw [held, List.cons_append, refers_at hword (by simpa using hchar), refers_cons_of_ne hat]
      have hno : ¬ (word ≠ [] ∧ isTerminator c = true) := by
        rintro ⟨hne, hterminator⟩
        simp [hterminator, hne] at hend
      have hpieces :
          .reference path ∈ .text ('@' :: word.reverse) :: .text [c] :: pieces none rest ↔
            Refers rest path := by
        simp [hrest]
      rw [hpieces]
      constructor
      · exact Or.inr
      · rintro (⟨-, hne, hterminator⟩ | hrefers)
        · exact absurd ⟨by simpa using hne, hterminator⟩ hno
        · exact hrefers

end Refers

section marks
variable {data : Json}

theorem marks_path {path : List Char} (h : ∀ x ∈ path, isPathChar x = true) :
    marks path = [] := by
  refine List.filter_eq_nil_iff.mpr ?_
  intro x hx hmark
  have hchar : isPathChar x = true := h x hx
  rw [isMark, Bool.or_eq_true, Bool.or_eq_true, beq_iff_eq, beq_iff_eq, beq_iff_eq] at hmark
  rcases hmark with (rfl | rfl) | rfl <;> exact absurd hchar (by decide)

theorem marks_written_reference {path : List Char} (h : ∀ x ∈ path, isPathChar x = true) :
    marks (Piece.reference path).written = [] := by
  simpa [Piece.written, marks, isMark] using marks_path h

/-- What stands for a reference is without marks exactly if the value is that the path leads to,
since there are none in what stands for a path that leads nowhere. -/
theorem marks_resolve_iff {path : List Char} (h : ∀ x ∈ path, isPathChar x = true) :
    marks (resolve data path) = [] ↔
      ∀ value, data.lookup? path = some value → marks value.plain = [] := by
  rw [resolve]
  cases data.lookup? path with
  | some value => simp
  | none =>
      have hnotice : marks "unmatched reference: @".toList = [] := by decide +kernel
      have htext : marks (unmatchedReference (String.ofList path)).toList = [] := by
        unfold unmatchedReference
        rw [String.toList_append, @String.toList_ofList path, marks_append, hnotice, marks_path h,
          List.append_nil]
      simp [htext]

/-- The marks of a template stay, in their order, whatever is filled in. -/
theorem marks_sublist (data : Json) {row : List Piece}
    (hpaths : ∀ path, .reference path ∈ row → ∀ x ∈ path, isPathChar x = true) :
    (marks (row.flatMap Piece.written)).Sublist (marks (row.flatMap (Piece.filled data))) := by
  induction row with
  | nil => exact List.Sublist.refl []
  | cons piece rest ih =>
      have hrest := ih fun path hpath => hpaths path (List.mem_cons_of_mem _ hpath)
      rw [List.flatMap_cons, List.flatMap_cons, marks_append, marks_append]
      cases piece with
      | text content => exact hrest.append_left (marks content)
      | reference path =>
          rw [marks_written_reference (hpaths path List.mem_cons_self)]
          exact hrest.trans (List.sublist_append_right _ _)

/-- No marks join those of a template exactly if no reference brings any. -/
theorem marks_filled_iff (data : Json) {row : List Piece}
    (hpaths : ∀ path, .reference path ∈ row → ∀ x ∈ path, isPathChar x = true) :
    marks (row.flatMap (Piece.filled data)) = marks (row.flatMap Piece.written) ↔
      ∀ path, .reference path ∈ row → marks (resolve data path) = [] := by
  induction row with
  | nil => simp
  | cons piece rest ih =>
      have hrest : ∀ path, .reference path ∈ rest → ∀ x ∈ path, isPathChar x = true :=
        fun path hpath => hpaths path (List.mem_cons_of_mem _ hpath)
      have hstay := (marks_sublist data hrest).length_le
      rw [List.flatMap_cons, List.flatMap_cons, marks_append, marks_append]
      cases piece with
      | text content =>
          rw [Piece.filled, Piece.written, List.append_cancel_left_eq, ih hrest]
          simp
      | reference word =>
          rw [marks_written_reference (hpaths word List.mem_cons_self), List.nil_append,
            Piece.filled]
          constructor
          · intro heq path hpath
            have hlength := congrArg List.length heq
            rw [List.length_append] at hlength
            have hnone : marks (resolve data word) = [] := by
              apply List.eq_nil_of_length_eq_zero
              omega
            rw [hnone, List.nil_append] at heq
            rcases List.mem_cons.mp hpath with hpath | hpath
            · cases hpath
              exact hnone
            · exact (ih hrest).mp heq path hpath
          · intro hnone
            rw [hnone word List.mem_cons_self, List.nil_append, ih hrest]
            exact fun path hpath => hnone path (List.mem_cons_of_mem _ hpath)

end marks

end Template

namespace Form

/-- Filling a template from a form adds marks to it exactly if a reference leads to a value with
marks in it, for values are put in as they are. -/
theorem marks_fillTemplate_iff (form : Form) (template : String) :
    marks (form.fillTemplate template).toList = marks template.toList ↔
      ∀ path, Template.Refers template.toList path →
        ∀ value, form.submission.lookup? path = some value → marks value.plain = [] := by
  have hpieces (path : List Char) :
      .reference path ∈ Template.pieces none template.toList ↔
        Template.Refers template.toList path := by
    simpa [Template.held] using Template.mem_pieces_iff none (by simp)
  have hpaths : ∀ path, .reference path ∈ Template.pieces none template.toList →
      ∀ x ∈ path, Template.isPathChar x = true := by
    intro path hpath
    obtain ⟨_, _, _, -, -, hchars, -⟩ := (hpieces path).mp hpath
    exact hchars
  have hwritten := Template.written_pieces none template.toList
  rw [Template.held, List.nil_append] at hwritten
  calc marks (form.fillTemplate template).toList = marks template.toList
      ↔ marks ((Template.pieces none template.toList).flatMap
            (Template.Piece.filled form.submission)) =
          marks ((Template.pieces none template.toList).flatMap Template.Piece.written) := by
        rw [fillTemplate, Template.fill, String.toList_ofList, Template.fillFrom_eq, hwritten]
    _ ↔ ∀ path, .reference path ∈ Template.pieces none template.toList →
          marks (Template.resolve form.submission path) = [] :=
        Template.marks_filled_iff form.submission hpaths
    _ ↔ ∀ path, Template.Refers template.toList path →
          ∀ value, form.submission.lookup? path = some value → marks value.plain = [] := by
        refine forall_congr' fun path => ?_
        rw [hpieces]
        refine imp_congr_right fun hrefers => ?_
        exact Template.marks_resolve_iff (hpaths path ((hpieces path).mpr hrefers))

/-- A value that is written like markup brings its marks along. -/
theorem tagged_value_adds_marks :
    ¬ marks (fillTemplate "<p>@note</p>" (compile {} { specifications := ⟨[("note",
        { id := "note", datatype := some "xmls:string", value := some (.str "<b>") })]⟩ }
          "note" 1).1).toList = marks "<p>@note</p>".toList := by
  decide +kernel

end Form

end EntryForm
