import EntryForm.Entity.Basic

/-!
# The definition that is shown

A definition is to be shown up to its first sentence that ends behind the limit, and whole if there
is none (`Clipped`). This is what is shown, unless a sentence ends with the very first character
behind the limit: then the definition is shown whole, whatever follows.
-/

namespace EntryForm

namespace Text

/-- The first occurrence of a part is where it starts and where nothing earlier does. -/
theorem indexOf?_eq_some_iff {part cs : List Char} {n : Nat} :
    indexOf? part cs = some n ↔ part <+: cs.drop n ∧ ∀ m < n, ¬ part <+: cs.drop m := by
  induction cs generalizing n with
  | nil =>
      rw [indexOf?]
      simp only [List.drop_nil, List.prefix_nil, List.isEmpty_iff]
      split
      case isTrue hempty =>
        cases n with
        | zero => simp [hempty]
        | succ n =>
            exact iff_of_false nofun fun h => h.2 0 (Nat.succ_pos n) hempty
      case isFalse hne => simp [hne]
  | cons c rest ih =>
      have hfront : part.isPrefixOf (c :: rest) = true ↔ part <+: (c :: rest).drop 0 :=
        List.isPrefixOf_iff_prefix
      rw [indexOf?]
      split
      case isTrue hstands =>
        have hzero := hfront.mp hstands
        cases n with
        | zero => simpa using hzero
        | succ n =>
            exact iff_of_false nofun fun h => h.2 0 (Nat.succ_pos n) hzero
      case isFalse hstands =>
        have hzero : ¬ part <+: (c :: rest).drop 0 := fun h => hstands (hfront.mpr h)
        cases n with
        | zero => simpa using hzero
        | succ n =>
            have hshift : indexOf? part rest = some n ↔
                (indexOf? part rest).map (· + 1) = some (n + 1) := by simp
            rw [← hshift, ih, List.drop_succ_cons]
            refine and_congr_right fun _ => ⟨fun h m hm => ?_, fun h m hm => ?_⟩
            · cases m with
              | zero => exact hzero
              | succ m => exact h m (by omega)
            · exact h (m + 1) (by omega)

/-- A part that is not found starts nowhere. -/
theorem indexOf?_eq_none_iff {part cs : List Char} :
    indexOf? part cs = none ↔ ∀ n, ¬ part <+: cs.drop n := by
  constructor
  · intro hnone n
    induction n using Nat.strongRecOn with
    | ind n ih =>
        intro hstands
        have hsome := indexOf?_eq_some_iff.mpr ⟨hstands, ih⟩
        rw [hnone] at hsome
        cases hsome
  · intro h
    rw [Option.eq_none_iff_forall_ne_some]
    intro n hsome
    exact h n (indexOf?_eq_some_iff.mp hsome).1

end Text

namespace Facts

/-- The text that defines an entity: the one noted for the user interface comes first, the raw one
last. -/
inductive Defines (e : Facts) (text : String) : Prop
  | noted : e.featureText? "definition" = some text → Defines e text
  | shown : e.featureText? "definition" = none → e.uiDefinition = some text → Defines e text
  | raw : e.featureText? "definition" = none → e.uiDefinition = none → e.definition = some text →
      Defines e text

/-- The front part of a text, if it is longer than the limit and ends as a sentence does: with a
full stop that a blank follows. -/
structure Closes (text part : List Char) : Prop where
  long : definitionLimit < part.length
  stop : part.getLast? = some '.'
  blank : part ++ [' '] <+: text

/-- What is to be shown of a text: the shortest part of it that closes, or all of it if no part
does. -/
inductive Clipped (text : List Char) : List Char → Prop
  | cut {part : List Char} : Closes text part →
      (∀ other, Closes text other → part.length ≤ other.length) → Clipped text part
  | whole : (∀ part, ¬ Closes text part) → Clipped text text

/-- The front part of a text that has one character more than the limit. -/
def firstPart (text : List Char) : List Char := text.take (definitionLimit + 1)

variable {text part : List Char}

theorem length_part {n : Nat} (h : ['.', ' '] <+: (text.drop definitionLimit).drop n) :
    (text.take (definitionLimit + n) ++ ['.']).length = definitionLimit + n + 1 := by
  obtain ⟨rest, hrest⟩ := h
  have hlength : definitionLimit + n < text.length := by
    rw [← Nat.sub_pos_iff_lt, ← List.length_drop, ← List.drop_drop, ← hrest]
    simp
  simp [Nat.min_eq_left (Nat.le_of_lt hlength)]

/-- A part closes where a full stop and a blank stand behind the limit. -/
theorem closes_iff : Closes text part ↔
    ∃ n, ['.', ' '] <+: (text.drop definitionLimit).drop n ∧
      part = text.take (definitionLimit + n) ++ ['.'] := by
  constructor
  · rintro ⟨hlong, hstop, rest, rfl⟩
    obtain ⟨front, rfl⟩ := List.getLast?_eq_some_iff.mp hstop
    have hlength : definitionLimit ≤ front.length := by simpa [Nat.lt_succ_iff] using hlong
    refine ⟨front.length - definitionLimit, ?_, ?_⟩
    · rw [List.drop_drop, Nat.add_sub_cancel' hlength]
      exact ⟨rest, by simp⟩
    · rw [Nat.add_sub_cancel' hlength]
      simp
  · rintro ⟨n, hstands, rfl⟩
    refine ⟨by rw [length_part hstands]; omega, by simp, ?_⟩
    obtain ⟨rest, hrest⟩ := hstands
    refine ⟨rest, ?_⟩
    calc text.take (definitionLimit + n) ++ ['.'] ++ [' '] ++ rest
        = text.take (definitionLimit + n) ++ (['.', ' '] ++ rest) := by simp
      _ = text := by rw [hrest, List.drop_drop, List.take_append_drop]

/-- A text without a sentence that ends behind the limit is left as it is. -/
theorem clip_of_none (h : Text.indexOf? ['.', ' '] (text.drop definitionLimit) = none) :
    clip text = text ∧ ∀ part, ¬ Closes text part := by
  refine ⟨by rw [clip, h], ?_⟩
  intro part hcloses
  obtain ⟨n, hstands, _⟩ := closes_iff.mp hcloses
  exact Text.indexOf?_eq_none_iff.mp h n hstands

/-- The first place where a sentence ends gives the shortest part that closes. -/
theorem shortest_of_some {n : Nat}
    (h : Text.indexOf? ['.', ' '] (text.drop definitionLimit) = some n) :
    Closes text (text.take (definitionLimit + n) ++ ['.']) ∧
      ∀ other, Closes text other →
        (text.take (definitionLimit + n) ++ ['.']).length ≤ other.length := by
  obtain ⟨hstands, hfirst⟩ := Text.indexOf?_eq_some_iff.mp h
  refine ⟨closes_iff.mpr ⟨n, hstands, rfl⟩, ?_⟩
  intro other hother
  obtain ⟨m, hm, rfl⟩ := closes_iff.mp hother
  have hle : n ≤ m := Nat.le_of_not_lt fun hlt => hfirst m hlt hm
  rw [length_part hstands, length_part hm]
  omega

/-- The first part closes if the first sentence ends where it does. -/
theorem closes_firstPart_iff :
    Closes text (firstPart text) ↔
      Text.indexOf? ['.', ' '] (text.drop definitionLimit) = some 0 := by
  constructor
  · intro hcloses
    obtain ⟨n, hstands, hpart⟩ := closes_iff.mp hcloses
    have hlength := congrArg List.length hpart
    rw [length_part hstands, firstPart, List.length_take] at hlength
    obtain rfl : n = 0 := by omega
    exact Text.indexOf?_eq_some_iff.mpr ⟨hstands, nofun⟩
  · intro h
    obtain ⟨⟨rest, hrest⟩, _⟩ := Text.indexOf?_eq_some_iff.mp h
    have hpart : firstPart text = text.take (definitionLimit + 0) ++ ['.'] := by
      rw [firstPart, List.take_add, ← List.drop_zero (l := text.drop definitionLimit), ← hrest]
      rfl
    rw [hpart]
    exact (shortest_of_some h).1

/-- The text is clipped as it should be, unless the first part of it closes. -/
theorem clipped_clip_iff (text : List Char) :
    Clipped text (clip text) ↔ ¬ Closes text (firstPart text) := by
  cases hindex : Text.indexOf? ['.', ' '] (text.drop definitionLimit) with
  | none =>
      obtain ⟨hclip, hnone⟩ := clip_of_none hindex
      rw [hclip]
      exact iff_of_true (.whole hnone) (hnone _)
  | some n =>
      obtain ⟨hcloses, hshortest⟩ := shortest_of_some hindex
      cases n with
      | zero =>
          have hclip : clip text = text := by
            rw [clip, hindex]
            rfl
          have hfirst := closes_firstPart_iff.mpr hindex
          rw [hclip]
          refine iff_of_false ?_ (not_not_intro hfirst)
          rintro (⟨⟨_, _, rest, hrest⟩, _⟩ | hnone)
          · simpa using congrArg List.length hrest
          · exact hnone _ hfirst
      | succ n =>
          have hclip : clip text = text.take (definitionLimit + (n + 1)) ++ ['.'] := by
            rw [clip, hindex]
            rfl
          have hfirst : ¬ Closes text (firstPart text) := by
            rw [closes_firstPart_iff, hindex]
            simp
          rw [hclip]
          exact iff_of_true (.cut hcloses hshortest) hfirst

/-- If the first part that reaches the limit closes a sentence, the text is shown whole. -/
theorem clip_of_firstPart (h : Closes text (firstPart text)) : clip text = text := by
  rw [clip, closes_firstPart_iff.mp h]
  rfl

/-- What is shown as the definition is the clipped text. -/
theorem displayDefinition?_eq {e : Facts} {text : String} (h : e.Defines text) (hne : text ≠ "") :
    e.displayDefinition? = some (String.ofList (clip text.toList)) := by
  have hchosen : ((e.featureText? "definition").or e.uiDefinition).or e.definition = some text := by
    cases h <;> simp_all
  have hfull : text.isEmpty = false := by simpa using hne
  rw [displayDefinition?, hchosen]
  simp only [hfull, if_false, Bool.false_eq_true]

/-- The definition of an entity is shown up to its first sentence that ends behind the limit, and
whole if there is none, unless a sentence ends with the first character behind the limit. In that
case it is shown whole. -/
theorem shown_definition_is_clipped_iff {e : Facts} {text : String} (h : e.Defines text)
    (hne : text ≠ "") :
    ∃ shown, e.displayDefinition? = some shown ∧
      (Clipped text.toList shown.toList ↔ ¬ Closes text.toList (firstPart text.toList)) ∧
      (Closes text.toList (firstPart text.toList) → shown = text) := by
  refine ⟨_, displayDefinition?_eq h hne, ?_, ?_⟩
  · rw [String.toList_ofList]
    exact clipped_clip_iff text.toList
  · intro hfirst
    rw [clip_of_firstPart hfirst, String.ofList_toList]

/-- A text with as many accented letters as the limit allows, and how it goes on. -/
def accented (rest : List Char) : List Char := List.replicate definitionLimit 'é' ++ rest

theorem drop_accented (rest : List Char) : (accented rest).drop definitionLimit = rest :=
  List.drop_left' List.length_replicate

theorem take_accented (first rest : List Char) :
    (accented (first ++ rest)).take (definitionLimit + first.length) = accented first := by
  rw [accented, ← List.append_assoc, ← accented]
  exact List.take_left' (by simp [accented])

theorem ofList_accented_ne (rest : List Char) : String.ofList (accented rest) ≠ "" := by
  intro hempty
  have hlength := congrArg List.length (String.ofList_eq_empty_iff.mp hempty)
  simp [accented, definitionLimit] at hlength

/-- A sentence ends two characters behind the limit, and there the definition is cut. -/
theorem accented_definition_is_clipped :
    let text := String.ofList (accented ['b', '.', ' ', 'c', '.', ' ', 'd'])
    let e : Facts := { definition := some text }
    e.Defines text ∧ text ≠ "" ∧ ∃ shown, e.displayDefinition? = some shown ∧
      Clipped text.toList shown.toList ∧ shown.toList = accented ['b', '.'] := by
  intro text e
  have hlist : text.toList = accented (['b'] ++ ['.', ' ', 'c', '.', ' ', 'd']) :=
    String.toList_ofList
  have hindex : Text.indexOf? ['.', ' '] (text.toList.drop definitionLimit) = some 1 := by
    rw [hlist, drop_accented]
    rfl
  have hfirst : ¬ Closes text.toList (firstPart text.toList) := by
    rw [closes_firstPart_iff, hindex]
    simp
  have hdefines : e.Defines text := .raw rfl rfl rfl
  have hne : text ≠ "" := ofList_accented_ne _
  obtain ⟨shown, hdisplay, hclipped, _⟩ := shown_definition_is_clipped_iff hdefines hne
  refine ⟨hdefines, hne, shown, hdisplay, hclipped.mpr hfirst, ?_⟩
  have hshown := Option.some.inj (hdisplay.symm.trans (displayDefinition?_eq hdefines hne))
  rw [hshown, String.toList_ofList, clip, hindex, hlist]
  change (accented (['b'] ++ _)).take (definitionLimit + ['b'].length) ++ ['.'] = _
  rw [take_accented]
  rfl

/-- A sentence ends with the first character behind the limit, and the definition is not cut. -/
theorem accented_definition_is_whole :
    let text := String.ofList (accented ['.', ' ', 'b', '.', ' ', 'c'])
    let e : Facts := { definition := some text }
    e.Defines text ∧ text ≠ "" ∧ Clipped text.toList (accented ['.']) ∧
      e.displayDefinition? = some text ∧ ¬ Clipped text.toList text.toList := by
  intro text e
  have hlist : text.toList = accented ([] ++ ['.', ' ', 'b', '.', ' ', 'c']) :=
    String.toList_ofList
  have hindex : Text.indexOf? ['.', ' '] (text.toList.drop definitionLimit) = some 0 := by
    rw [hlist, drop_accented]
    rfl
  have hfirst := closes_firstPart_iff.mpr hindex
  have hclip := clip_of_firstPart hfirst
  have hdefines : e.Defines text := .raw rfl rfl rfl
  have hne : text ≠ "" := ofList_accented_ne _
  refine ⟨hdefines, hne, ?_, ?_, ?_⟩
  · have hpart : text.toList.take (definitionLimit + 0) ++ ['.'] = accented ['.'] := by
      rw [hlist]
      change (accented ([] ++ _)).take (definitionLimit + ([] : List Char).length) ++ ['.'] = _
      rw [take_accented]
      rfl
    obtain ⟨hcloses, hshortest⟩ := shortest_of_some hindex
    rw [hpart] at hcloses hshortest
    exact .cut hcloses hshortest
  · rw [displayDefinition?_eq hdefines hne, hclip, String.ofList_toList]
  · intro hclipped
    refine (clipped_clip_iff text.toList).mp ?_ hfirst
    rw [hclip]
    exact hclipped

end Facts

end EntryForm
