import EntryForm.Proofs.Tags

/-!
# Character references

A text can be escaped in passes: each writes a reference for every occurrence of one character, also
in what the passes before it have written. A pass leaves the references alone that are there already
if its character does not stand in them. All references hold an ampersand, so the ampersands come
first, and then the passes do what escaping the characters one by one does. An escaped text holds
references and no other marks, and tells the text that was escaped.
-/

namespace EntryForm

namespace Markup

/-- Writes a text for every occurrence of a character. -/
def replace (c : Char) (text cs : List Char) : List Char :=
  cs.flatMap fun other => if other = c then text else [other]

/-- The characters that are escaped and their references, in the order of the passes. -/
def references : List (Char × List Char) :=
  [('&', "&amp;".toList), ('<', "&lt;".toList), ('>', "&gt;".toList), ('"', "&quot;".toList)]

/-- Does one pass after the other over a whole text. -/
def replaceAll (passes : List (Char × List Char)) (cs : List Char) : List Char :=
  passes.foldl (fun cs pass => replace pass.1 pass.2 cs) cs

/-- Escapes a text in four passes. -/
def escapeInPasses (s : String) : String := String.ofList (replaceAll references s.toList)

/-- What the first pass for a character writes for it. -/
def substitute : List (Char × List Char) → Char → List Char
  | [], c => [c]
  | pass :: rest, c => if c = pass.1 then pass.2 else substitute rest c

/-- A character that has no pass stays as it is. -/
theorem substitute_of_ne {passes : List (Char × List Char)} {c : Char}
    (h : ∀ pass ∈ passes, pass.1 ≠ c) : substitute passes c = [c] := by
  induction passes with
  | nil => rfl
  | cons pass rest ih =>
      obtain ⟨hne, hrest⟩ := List.forall_mem_cons.mp h
      rw [substitute, if_neg (Ne.symm hne), ih hrest]

/-- What is written for a character comes from one of its passes, or is the character. -/
theorem substitute_cases (passes : List (Char × List Char)) (c : Char) :
    (∃ pass ∈ passes, substitute passes c = pass.2) ∨
      (substitute passes c = [c] ∧ ∀ pass ∈ passes, pass.1 ≠ c) := by
  induction passes with
  | nil => exact Or.inr ⟨rfl, List.forall_mem_nil _⟩
  | cons pass rest ih =>
      by_cases heq : c = pass.1
      · exact Or.inl ⟨pass, List.mem_cons_self, if_pos heq⟩
      · rw [substitute, if_neg heq]
        rcases ih with ⟨other, hmem, hwritten⟩ | ⟨hsame, hnone⟩
        · exact Or.inl ⟨other, List.mem_cons_of_mem _ hmem, hwritten⟩
        · exact Or.inr ⟨hsame, List.forall_mem_cons.mpr ⟨Ne.symm heq, hnone⟩⟩

/-- A text without a character that has a pass stays as it is. -/
theorem flatMap_substitute_of_ne {passes : List (Char × List Char)} {text : List Char}
    (h : ∀ pass ∈ passes, pass.1 ∉ text) : text.flatMap (substitute passes) = text := by
  have hchar (c : Char) (hc : c ∈ text) : substitute passes c = [c] :=
    substitute_of_ne fun pass hpass heq => h pass hpass (heq ▸ hc)
  calc text.flatMap (substitute passes) = text.flatMap fun c => [c] := List.flatMap_congr hchar
    _ = text := List.flatMap_singleton' text

/-- Passes of which none finds its character in what an earlier one has written can be done at
once. -/
theorem replaceAll_eq {passes : List (Char × List Char)}
    (h : passes.Pairwise fun earlier later => later.1 ∉ earlier.2) (cs : List Char) :
    replaceAll passes cs = cs.flatMap (substitute passes) := by
  induction passes generalizing cs with
  | nil => exact (List.flatMap_singleton' cs).symm
  | cons pass rest ih =>
      obtain ⟨hfirst, hrest⟩ := List.pairwise_cons.mp h
      have hchar (c : Char) :
          (if c = pass.1 then pass.2 else [c]).flatMap (substitute rest) =
            substitute (pass :: rest) c := by
        rw [substitute]
        split
        · exact flatMap_substitute_of_ne hfirst
        · exact List.flatMap_singleton _ _
      calc replaceAll (pass :: rest) cs
          = (replace pass.1 pass.2 cs).flatMap (substitute rest) := ih hrest _
        _ = cs.flatMap fun c =>
              (if c = pass.1 then pass.2 else [c]).flatMap (substitute rest) :=
            List.flatMap_assoc
        _ = cs.flatMap (substitute (pass :: rest)) := List.flatMap_congr fun c _ => hchar c

/-- Only the pass for the ampersands would find its character in a reference, and it comes first. -/
theorem references_ordered :
    references.Pairwise fun earlier later => later.1 ∉ earlier.2 := by
  decide

/-- Escaping a character is looking it up among the references. -/
theorem escapeChar_eq (c : Char) : escapeChar c = substitute references c := by
  unfold escapeChar
  split
  · rfl
  · rfl
  · rfl
  · rfl
  case _ hamp hlt hgt hquote =>
    have hnone : ∀ pass ∈ references, pass.1 ≠ c := by
      simpa [references] using ⟨Ne.symm hamp, Ne.symm hlt, Ne.symm hgt, Ne.symm hquote⟩
    exact (substitute_of_ne hnone).symm

/-- A reference is an ampersand and what follows up to the next one. -/
theorem reference_shape :
    ∀ reference ∈ references, reference.2 = '&' :: reference.2.tail ∧ '&' ∉ reference.2.tail := by
  decide

/-- An ampersand that ends up in a text joined from two stands in the second if the first has
none. -/
theorem ampersand_suffix {xs ys after : List Char} (hxs : '&' ∉ xs)
    (h : '&' :: after <:+ xs ++ ys) : '&' :: after <:+ ys := by
  induction xs with
  | nil => exact h
  | cons x rest ih =>
      obtain ⟨hne, hrest⟩ := List.ne_and_not_mem_of_not_mem_cons hxs
      rcases List.suffix_cons_iff.mp h with heq | h
      · exact absurd (List.head_eq_of_cons_eq heq) hne
      · exact ih hrest h

/-- Every ampersand of an escaped text starts a reference: within the text of a character it is the
first one, or comes after all of it. -/
theorem ampersand_starts_reference {cs after : List Char}
    (h : '&' :: after <:+ escapeChars cs) :
    ∃ reference ∈ references, reference.2 <+: '&' :: after := by
  induction cs with
  | nil => simp [escapeChars] at h
  | cons c rest ih =>
      have hcons : escapeChars (c :: rest) = escapeChar c ++ escapeChars rest := rfl
      rw [hcons, escapeChar_eq] at h
      rcases substitute_cases references c with ⟨reference, hmem, hwritten⟩ | ⟨hsame, hnone⟩
      · obtain ⟨hshape, hbody⟩ := reference_shape reference hmem
        rw [hwritten, hshape, List.cons_append] at h
        rcases List.suffix_cons_iff.mp h with heq | h
        · refine ⟨reference, hmem, ?_⟩
          rw [heq, ← List.cons_append, ← hshape]
          exact List.prefix_append _ _
        · exact ih (ampersand_suffix hbody h)
      · have hne : '&' ∉ [c] := List.mem_singleton.not.mpr (hnone _ List.mem_cons_self)
        rw [hsame] at h
        exact ih (ampersand_suffix hne h)

/-- Replacing one character after the other in the whole text comes to the same as escaping once. -/
theorem escapeInPasses_eq (s : String) : escapeInPasses s = escape s := by
  have hchars : replaceAll references s.toList = escapeChars s.toList := by
    rw [replaceAll_eq references_ordered, escapeChars]
    exact List.flatMap_congr fun c _ => (escapeChar_eq c).symm
  rw [escapeInPasses, hchars, escape]

/-- Four passes over a text escape it as it is escaped character by character. What comes out holds
neither brackets nor quotes, and no ampersand but at the start of a reference. Reading the
references once from left to right gives the text back, so no other text is escaped like it. -/
theorem escaped_text_is_read_back (s : String) :
    escapeInPasses s = escape s ∧
      (∀ c ∈ (escape s).toList, c ≠ '<' ∧ c ≠ '>' ∧ c ≠ '"') ∧
      (∀ after, '&' :: after <:+ (escape s).toList →
        ∃ reference ∈ references, reference.2 <+: '&' :: after) ∧
      String.ofList (unescape (escape s).toList) = s ∧
      ∀ other, escape other = escape s → other = s := by
  have hread (s : String) : String.ofList (unescape (escape s).toList) = s := by
    rw [escape, String.toList_ofList, unescape_escapeChars, String.ofList_toList]
  refine ⟨escapeInPasses_eq s, ?_, ?_, hread s, ?_⟩
  · intro c hc
    rw [escape, String.toList_ofList] at hc
    have hne {mark : Char} (hmark : isMark mark = true) : c ≠ mark := escapeChars_ne _ hmark c hc
    exact ⟨hne rfl, hne rfl, hne rfl⟩
  · intro after h
    rw [escape, String.toList_ofList] at h
    exact ampersand_starts_reference h
  · intro other h
    calc other = String.ofList (unescape (escape other).toList) := (hread other).symm
      _ = s := by rw [h, hread]

/-- A text that looks like a reference, or like the start of one, is escaped as any other. -/
example : escapeInPasses "&lt;&l<" = "&amp;lt;&amp;l&lt;" := by decide

end Markup

end EntryForm
