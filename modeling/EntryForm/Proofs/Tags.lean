import EntryForm.Proofs.Escaping
import Mathlib.Data.List.TakeWhile

/-!
# The tags of a text

Who reads markup sees a row of tags. A tag runs from `<` to the next `>` outside double quotes, and
names an element with its attributes, or the element that ends. From written markup the very tags
are read that it is made of (`scan?_charsOf`), with the values that its attributes had before they
were escaped. From a raw text in it the tags are read that stand in the text, if they pair up.
-/

namespace EntryForm

/-- A tag: an element starts, or ends. -/
inductive Tag
  | start (name : String) (attributes : List Attribute)
  | stop (name : String)
  deriving DecidableEq, Repr

namespace Markup

/-- Reads an escaped text. -/
def unescape : List Char → List Char
  | '&' :: 'a' :: 'm' :: 'p' :: ';' :: rest => '&' :: unescape rest
  | '&' :: 'l' :: 't' :: ';' :: rest => '<' :: unescape rest
  | '&' :: 'g' :: 't' :: ';' :: rest => '>' :: unescape rest
  | '&' :: 'q' :: 'u' :: 'o' :: 't' :: ';' :: rest => '"' :: unescape rest
  | c :: rest => c :: unescape rest
  | [] => []

/-- Puts a text in front of the first word of a row. -/
def onto (lead : List Char) : List (List Char) → List (List Char)
  | [] => [lead]
  | word :: rest => (lead ++ word) :: rest

/-- The words of a text. They are set apart by blanks, of which those in quotes do not count. -/
def words (quoted : Bool) : List Char → List (List Char)
  | [] => [[]]
  | c :: rest =>
    if c = ' ' && !quoted then [] :: words false rest
    else onto [c] (words (if c = '"' then !quoted else quoted) rest)

/-- An attribute as it is written. Its value stands in quotes. -/
def readAttribute (word : List Char) : Attribute :=
  match Text.cut? '=' word with
  | some (name, value) => ⟨String.ofList name, some (String.ofList (unescape value.tail.dropLast))⟩
  | none => ⟨String.ofList word, none⟩

/-- What stands between the brackets of a tag. -/
def readTag : List Char → Tag
  | '/' :: name => .stop (String.ofList name)
  | written =>
    match words false written with
    | [] => .start "" []
    | name :: attributes => .start (String.ofList name) (attributes.map readAttribute)

/-- The tags of a text, unless one of them does not end. Inside a tag, what has been read of it is
known, and whether a quote is open. -/
def scan? : Option (Bool × List Char) → List Char → Option (List Tag)
  | none, [] => some []
  | some _, [] => none
  | none, c :: rest => scan? (if c = '<' then some (false, []) else none) rest
  | some (quoted, written), c :: rest =>
    if c = '>' && !quoted then (scan? none rest).map (readTag written :: ·)
    else scan? (some (if c = '"' then !quoted else quoted, written ++ [c])) rest

/-- The tags of a text, unless one of them does not end. -/
def tags? (text : String) : Option (List Tag) := scan? none text.toList

/-- Whether tags pair up, given the names of the elements that are open, the innermost first. -/
def pairUp : List String → List Tag → Bool
  | unclosed, [] => unclosed.isEmpty
  | unclosed, .start name _ :: rest =>
    if name = "input" then pairUp unclosed rest else pairUp (name :: unclosed) rest
  | innermost :: unclosed, .stop name :: rest => innermost == name && pairUp unclosed rest
  | [], .stop _ :: _ => false

/-- Whether a text is a row of tags that pair up. -/
def isWellNested (text : String) : Bool := (tags? text).any (pairUp [])

/-- Whether a name of an element or an attribute can be told from what stands around it. -/
def isPlain (name : String) : Bool :=
  name.toList.all fun c => !isMark c && c != ' ' && c != '=' && c != '/'

mutual
/-- Whether all names are plain, inputs are the elements without end, and the tags of every raw text
pair up. -/
def isProper : Markup → Bool
  | .text _ => true
  | .raw content => isWellNested content
  | .element name attributes children =>
    isPlain name && name != "input" && attributes.all (isPlain ·.name) && areProper children
  | .void name attributes => name == "input" && attributes.all (isPlain ·.name)
def areProper : List Markup → Bool
  | [] => true
  | m :: rest => isProper m && areProper rest
end

mutual
/-- The tags that markup is made of. -/
def tags : Markup → List Tag
  | .text _ => []
  | .raw content => (tags? content).getD []
  | .element name attributes children =>
    .start name attributes :: (tagsOf children ++ [.stop name])
  | .void name attributes => [.start name attributes]
def tagsOf : List Markup → List Tag
  | [] => []
  | m :: rest => tags m ++ tagsOf rest
end

@[simp] theorem tagsOf_append (xs ys : List Markup) :
    tagsOf (xs ++ ys) = tagsOf xs ++ tagsOf ys := by
  induction xs with
  | nil => rfl
  | cons m rest ih => rw [List.cons_append, tagsOf, tagsOf, ih, List.append_assoc]

@[simp] theorem areProper_append (xs ys : List Markup) :
    areProper (xs ++ ys) = (areProper xs && areProper ys) := by
  induction xs with
  | nil => rfl
  | cons m rest ih => rw [List.cons_append, areProper, areProper, ih, Bool.and_assoc]

theorem areProper_flatMap {α : Type} {make : α → List Markup} {as : List α}
    (h : ∀ a ∈ as, areProper (make a) = true) : areProper (as.flatMap make) = true := by
  induction as with
  | nil => rfl
  | cons a rest ih =>
      obtain ⟨hfirst, hrest⟩ := List.forall_mem_cons.mp h
      rw [List.flatMap_cons, areProper_append, hfirst, ih hrest, Bool.and_self]

section reading

/-- Reading an escaped character gives it back. -/
theorem unescape_escapeChar (c : Char) (rest : List Char) :
    unescape (escapeChar c ++ rest) = c :: unescape rest := by
  unfold escapeChar
  split
  · rfl
  · rfl
  · rfl
  · rfl
  case _ hamp _ _ _ =>
    rw [List.singleton_append, unescape.eq_5]
    all_goals
      intros _ heq
      exact absurd heq hamp

/-- Reading references undoes escaping. -/
theorem unescape_escapeChars (cs : List Char) : unescape (escapeChars cs) = cs := by
  induction cs with
  | nil => rfl
  | cons c rest ih =>
      have hcons : escapeChars (c :: rest) = escapeChar c ++ escapeChars rest := rfl
      rw [hcons, unescape_escapeChar, ih]

/-- Nothing that is escaped holds a bracket or a quote. -/
theorem escapeChars_ne (cs : List Char) {mark : Char} (hmark : isMark mark = true) :
    ∀ c ∈ escapeChars cs, c ≠ mark := by
  rintro c hc rfl
  exact List.filter_eq_nil_iff.mp (marks_escapeChars cs) c hc hmark

/-- A plain name has none of the characters that end names. -/
theorem plain_ne {name : String} (h : isPlain name = true) {c : Char} (hc : c ∈ name.toList) :
    c ≠ '<' ∧ c ≠ '>' ∧ c ≠ '"' ∧ c ≠ ' ' ∧ c ≠ '=' ∧ c ≠ '/' := by
  have hall := List.all_eq_true.mp h c hc
  simp only [isMark, Bool.and_eq_true, Bool.not_eq_true', Bool.or_eq_false_iff, beq_eq_false_iff_ne,
    bne_iff_ne] at hall
  obtain ⟨⟨⟨⟨⟨hlt, hgt⟩, hquote⟩, hblank⟩, hequals⟩, hslash⟩ := hall
  exact ⟨hlt, hgt, hquote, hblank, hequals, hslash⟩

theorem plain_unquoted {name : String} (h : isPlain name = true) :
    ∀ c ∈ name.toList, c ≠ ' ' ∧ c ≠ '"' := by
  intro c hc
  obtain ⟨_, _, hquote, hblank, _⟩ := plain_ne h hc
  exact ⟨hblank, hquote⟩

theorem plain_unclosed {name : String} (h : isPlain name = true) :
    ∀ c ∈ name.toList, c ≠ '>' ∧ c ≠ '"' := by
  intro c hc
  obtain ⟨_, hclose, hquote, _⟩ := plain_ne h hc
  exact ⟨hclose, hquote⟩

@[simp] theorem onto_onto (as bs : List Char) (row : List (List Char)) :
    onto as (onto bs row) = onto (as ++ bs) row := by
  cases row <;> simp [onto]

/-- Outside quotes a word goes on up to the next blank. -/
theorem words_unquoted {cs : List Char} (h : ∀ c ∈ cs, c ≠ ' ' ∧ c ≠ '"') (rest : List Char) :
    words false (cs ++ rest) = onto cs (words false rest) := by
  induction cs with
  | nil =>
      have hne : words false rest ≠ [] := by
        cases rest with
        | nil => simp [words]
        | cons c rest =>
            rw [words]
            split
            · simp
            · cases words _ rest <;> simp [onto]
      cases hwords : words false rest with
      | nil => exact absurd hwords hne
      | cons word row => simp [onto, hwords]
  | cons c cs ih =>
      obtain ⟨⟨hblank, hquote⟩, hrest⟩ := List.forall_mem_cons.mp h
      rw [List.cons_append, words, if_neg (by simp [hblank]), if_neg hquote, ih hrest, onto_onto]
      rfl

theorem words_quoted {cs : List Char} (h : ∀ c ∈ cs, c ≠ '"') (rest : List Char) :
    words true (cs ++ '"' :: rest) = onto (cs ++ ['"']) (words false rest) := by
  induction cs with
  | nil =>
      rw [List.nil_append, words]
      rfl
  | cons c cs ih =>
      obtain ⟨hquote, hrest⟩ := List.forall_mem_cons.mp h
      rw [List.cons_append, words, if_neg (by simp), if_neg hquote, ih hrest, onto_onto]
      rfl

/-- The text of an attribute without the blank before it. -/
def attributeWord (a : Attribute) : List Char := (attributeChars a).tail

theorem attributeChars_eq (a : Attribute) : attributeChars a = ' ' :: attributeWord a := rfl

theorem words_attributeWord {a : Attribute} (h : isPlain a.name = true) (rest : List Char) :
    words false (attributeWord a ++ rest) = onto (attributeWord a) (words false rest) := by
  have hname := plain_unquoted h
  obtain ⟨name, value⟩ := a
  cases value with
  | none =>
      have hword : attributeWord ⟨name, none⟩ = name.toList := by
        simp [attributeWord, attributeChars]
      rw [hword, words_unquoted hname]
  | some value =>
      have hword : attributeWord ⟨name, some value⟩ =
          name.toList ++ (['='] ++ (['"'] ++ (escapeChars value.toList ++ ['"']))) := by
        simp [attributeWord, attributeChars]
      have hopen (more : List Char) :
          words false ('=' :: '"' :: more) = onto ['=', '"'] (words true more) := by
        simp [words]
      rw [hword]
      simp only [List.append_assoc, List.cons_append, List.nil_append]
      rw [words_unquoted hname, hopen, words_quoted (escapeChars_ne _ rfl), onto_onto, onto_onto]
      simp

/-- The words of a row of attributes are the attributes. -/
theorem words_attributes {attributes : List Attribute}
    (h : attributes.all (isPlain ·.name) = true) :
    words false (attributes.flatMap attributeChars) = [] :: attributes.map attributeWord := by
  induction attributes with
  | nil => rfl
  | cons a rest ih =>
      obtain ⟨hfirst, hrest⟩ := Bool.and_eq_true_iff.mp h
      have hblank (more : List Char) : words false (' ' :: more) = [] :: words false more := rfl
      rw [List.flatMap_cons, attributeChars_eq, List.cons_append, hblank,
        words_attributeWord hfirst, ih hrest, onto, List.append_nil, List.map_cons]

theorem cut?_of_plain {name : String} (h : isPlain name = true) :
    Text.cut? '=' name.toList = none ∧
      ∀ rest, Text.cut? '=' (name.toList ++ '=' :: rest) = some (name.toList, rest) := by
  have hall : ∀ c ∈ name.toList, (c != '=') = true := by
    intro c hc
    obtain ⟨_, _, _, _, hequals, _⟩ := plain_ne h hc
    simpa using hequals
  constructor
  · rw [Text.cut?, List.dropWhile_eq_nil_iff.mpr hall]
  · intro rest
    rw [Text.cut?, List.dropWhile_append_of_pos hall, List.takeWhile_append_of_pos hall]
    simp

/-- An attribute is read as it was before it was written. -/
theorem readAttribute_attributeWord {a : Attribute} (h : isPlain a.name = true) :
    readAttribute (attributeWord a) = a := by
  obtain ⟨hnone, hsome⟩ := cut?_of_plain h
  obtain ⟨name, value⟩ := a
  cases value with
  | none =>
      have hword : attributeWord ⟨name, none⟩ = name.toList := by
        simp [attributeWord, attributeChars]
      rw [hword, readAttribute, hnone, String.ofList_toList]
  | some value =>
      have hword : attributeWord ⟨name, some value⟩ =
          name.toList ++ '=' :: ('"' :: (escapeChars value.toList ++ ['"'])) := by
        simp [attributeWord, attributeChars]
      rw [hword, readAttribute, hsome]
      simp [unescape_escapeChars]

/-- A start tag is read with its attributes. A name that starts with a slash would be read as the
end of an element. -/
theorem readTag_start {name : String} {attributes : List Attribute} (h : isPlain name = true)
    (hattributes : attributes.all (isPlain ·.name) = true) :
    readTag (name.toList ++ attributes.flatMap attributeChars) = .start name attributes := by
  have hslash : ∀ more, name.toList ++ attributes.flatMap attributeChars ≠ '/' :: more := by
    intro more heq
    cases hlist : name.toList with
    | nil =>
        cases attributes with
        | nil => simp [hlist] at heq
        | cons a rest => simp [hlist, attributeChars_eq] at heq
    | cons c cs =>
        rw [hlist, List.cons_append] at heq
        obtain ⟨_, _, _, _, _, hne⟩ := plain_ne h (hlist ▸ List.mem_cons_self)
        exact hne (List.cons.inj heq).1
  have hread : ∀ a ∈ attributes, readAttribute (attributeWord a) = a := by
    intro a ha
    exact readAttribute_attributeWord (List.all_eq_true.mp hattributes a ha)
  have hall : (attributes.map attributeWord).map readAttribute = attributes := by
    rw [List.map_map]
    exact (List.map_congr_left hread).trans attributes.map_id'
  rw [readTag.eq_2 _ hslash, words_unquoted (plain_unquoted h), words_attributes hattributes]
  simp only [onto, List.append_nil, String.ofList_toList, hall]

end reading

section scanning

/-- After a text of whole tags, reading goes on as from the start. -/
theorem scan?_append {state : Option (Bool × List Char)} {cs : List Char} {ts : List Tag}
    (h : scan? state cs = some ts) (rest : List Char) :
    scan? state (cs ++ rest) = (scan? none rest).map (ts ++ ·) := by
  fun_induction scan? state cs generalizing ts with
  | case1 =>
      cases h
      exact Option.map_id'.symm
  | case2 => cases h
  | case3 c cs ih =>
      rw [List.cons_append, scan?]
      exact ih h
  | case4 quoted written c cs hclose ih =>
      obtain ⟨us, hus, rfl⟩ := Option.map_eq_some_iff.mp h
      rw [List.cons_append, scan?, if_pos hclose, ih hus, Option.map_map]
      rfl
  | case5 quoted written c cs hclose ih =>
      rw [List.cons_append, scan?, if_neg hclose]
      exact ih h

/-- Outside tags characters are passed over up to the next start of a tag. -/
theorem scan?_text {cs : List Char} (h : ∀ c ∈ cs, c ≠ '<') (rest : List Char) :
    scan? none (cs ++ rest) = scan? none rest := by
  induction cs with
  | nil => rfl
  | cons c cs ih =>
      obtain ⟨hopen, hrest⟩ := List.forall_mem_cons.mp h
      rw [List.cons_append, scan?, if_neg hopen, ih hrest]

theorem scan?_unquoted {cs : List Char} (h : ∀ c ∈ cs, c ≠ '>' ∧ c ≠ '"')
    (before rest : List Char) :
    scan? (some (false, before)) (cs ++ rest) = scan? (some (false, before ++ cs)) rest := by
  induction cs generalizing before with
  | nil => simp
  | cons c cs ih =>
      obtain ⟨⟨hclose, hquote⟩, hrest⟩ := List.forall_mem_cons.mp h
      rw [List.cons_append, scan?, if_neg (by simp [hclose]), if_neg hquote, ih hrest]
      simp

theorem scan?_quoted {cs : List Char} (h : ∀ c ∈ cs, c ≠ '"') (before rest : List Char) :
    scan? (some (true, before)) (cs ++ '"' :: rest) =
      scan? (some (false, before ++ (cs ++ ['"']))) rest := by
  induction cs generalizing before with
  | nil =>
      rw [List.nil_append, scan?]
      rfl
  | cons c cs ih =>
      obtain ⟨hquote, hrest⟩ := List.forall_mem_cons.mp h
      rw [List.cons_append, scan?, if_neg (by simp), if_neg hquote, ih hrest]
      simp

theorem scan?_attribute {a : Attribute} (h : isPlain a.name = true) (before rest : List Char) :
    scan? (some (false, before)) (attributeChars a ++ rest) =
      scan? (some (false, before ++ attributeChars a)) rest := by
  have hname := plain_unclosed h
  obtain ⟨name, value⟩ := a
  cases value with
  | none =>
      have hchars : attributeChars ⟨name, none⟩ = ' ' :: name.toList := by simp [attributeChars]
      rw [hchars]
      exact scan?_unquoted (List.forall_mem_cons.mpr ⟨by decide, hname⟩) before rest
  | some value =>
      have hchars : attributeChars ⟨name, some value⟩ =
          (' ' :: name.toList ++ ['=']) ++ '"' :: (escapeChars value.toList ++ ['"']) := by
        simp [attributeChars]
      have hlead : ∀ c ∈ ' ' :: name.toList ++ ['='], c ≠ '>' ∧ c ≠ '"' := by
        refine List.forall_mem_append.mpr ⟨List.forall_mem_cons.mpr ⟨by decide, hname⟩, ?_⟩
        exact List.forall_mem_singleton.mpr (by decide)
      have hopen (before more : List Char) : scan? (some (false, before)) ('"' :: more) =
          scan? (some (true, before ++ ['"'])) more := rfl
      rw [hchars, List.append_assoc, scan?_unquoted hlead]
      simp only [List.cons_append, List.append_assoc, List.nil_append]
      rw [hopen, scan?_quoted (escapeChars_ne _ rfl)]
      simp

theorem scan?_attributes {attributes : List Attribute}
    (h : attributes.all (isPlain ·.name) = true) (before rest : List Char) :
    scan? (some (false, before)) (attributes.flatMap attributeChars ++ rest) =
      scan? (some (false, before ++ attributes.flatMap attributeChars)) rest := by
  induction attributes generalizing before with
  | nil => simp
  | cons a others ih =>
      obtain ⟨hfirst, hothers⟩ := Bool.and_eq_true_iff.mp h
      rw [List.flatMap_cons, List.append_assoc, scan?_attribute hfirst, ih hothers,
        List.append_assoc]

/-- A written start tag is read as one. -/
theorem scan?_openTag {name : String} {attributes : List Attribute} (h : isPlain name = true)
    (hattributes : attributes.all (isPlain ·.name) = true) (rest : List Char) :
    scan? none (openTag name attributes ++ rest) =
      (scan? none rest).map (.start name attributes :: ·) := by
  have hopen (more : List Char) : scan? none ('<' :: more) = scan? (some (false, [])) more := rfl
  have hclose (before more : List Char) : scan? (some (false, before)) ('>' :: more) =
      (scan? none more).map (readTag before :: ·) := rfl
  rw [openTag]
  simp only [List.cons_append, List.append_assoc, List.nil_append]
  rw [hopen, scan?_unquoted (plain_unclosed h), scan?_attributes hattributes, hclose,
    List.nil_append, readTag_start h hattributes]

theorem scan?_closeTag {name : String} (h : isPlain name = true) (rest : List Char) :
    scan? none (closeTag name ++ rest) = (scan? none rest).map (.stop name :: ·) := by
  have hname : ∀ c ∈ '/' :: name.toList, c ≠ '>' ∧ c ≠ '"' :=
    List.forall_mem_cons.mpr ⟨by decide, plain_unclosed h⟩
  have hopen (more : List Char) : scan? none ('<' :: more) = scan? (some (false, [])) more := rfl
  have hclose (before more : List Char) : scan? (some (false, before)) ('>' :: more) =
      (scan? none more).map (readTag before :: ·) := rfl
  have hchars : closeTag name ++ rest = '<' :: (('/' :: name.toList) ++ '>' :: rest) := by
    simp [closeTag]
  rw [hchars, hopen, scan?_unquoted hname, hclose, List.nil_append, readTag, String.ofList_toList]

mutual
/-- A proper part is read as its tags. -/
theorem scan?_chars : ∀ m : Markup, isProper m = true → ∀ rest : List Char,
    scan? none (chars m ++ rest) = (scan? none rest).map (tags m ++ ·)
  | .text content, _, rest => by
      rw [chars, scan?_text (escapeChars_ne _ rfl), tags]
      exact Option.map_id'.symm
  | .raw content, h, rest => by
      obtain ⟨ts, hts, _⟩ := (Option.any_eq_true _ _).mp h
      rw [chars, tags, hts, scan?_append hts]
      rfl
  | .element name attributes children, h, rest => by
      simp only [isProper, Bool.and_eq_true] at h
      obtain ⟨⟨⟨hname, _⟩, hattributes⟩, hchildren⟩ := h
      rw [chars, List.append_assoc, List.append_assoc, scan?_openTag hname hattributes,
        scan?_charsOf children hchildren, scan?_closeTag hname, tags]
      simp [Option.map_map, Function.comp_def]
  | .void name attributes, h, rest => by
      simp only [isProper, Bool.and_eq_true, beq_iff_eq] at h
      obtain ⟨rfl, hattributes⟩ := h
      rw [chars, scan?_openTag rfl hattributes, tags]
      rfl
/-- From written markup the tags are read that it is made of. -/
theorem scan?_charsOf : ∀ row : List Markup, areProper row = true → ∀ rest : List Char,
    scan? none (charsOf row ++ rest) = (scan? none rest).map (tagsOf row ++ ·)
  | [], _, rest => Option.map_id'.symm
  | m :: row, h, rest => by
      obtain ⟨hfirst, hrow⟩ := Bool.and_eq_true_iff.mp h
      rw [charsOf, List.append_assoc, scan?_chars m hfirst, scan?_charsOf row hrow, tagsOf]
      simp [Option.map_map, Function.comp_def]
end

/-- A row of proper parts is read as its tags. -/
theorem tags?_render {row : List Markup} (h : areProper row = true) :
    tags? (render row) = some (tagsOf row) := by
  have hscan := scan?_charsOf row h []
  rw [List.append_nil] at hscan
  rw [tags?, render, String.toList_ofList, hscan]
  simp [scan?]

end scanning

end Markup

end EntryForm
