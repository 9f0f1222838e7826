import EntryForm.Proofs.Derivation

/-!
# The numbers in ids

An id ends with the number of the counter at the time it was handed out, whatever the entity is
called. Only the id of a unit control goes on after the number, with a suffix of its own.
-/

namespace EntryForm

/-- The number that an id was handed out with, and whether the id goes on after it. -/
def serial (id : String) : Nat × Bool :=
  let lead := id.toList.takeWhile (· != '-')
  (Nat.ofDigitChars 10 (lead.reverse.takeWhile (· != '_')).reverse 0, id.toList.contains '-')

/-- What `sanitize` leaves of a character. -/
def plain (c : Char) : Char := if c.isAlphanum || c == '_' then c else '_'

theorem toList_sanitize (s : String) : (sanitize s).toList = s.toList.map plain := by
  simp [sanitize, plain]

theorem plain_ne_dash (c : Char) : plain c ≠ '-' := by
  intro h
  rw [plain] at h
  split at h
  case isTrue hkept => exact absurd (h ▸ hkept) (by decide)
  case isFalse => exact absurd h (by decide)

theorem plain_digit {c : Char} (h : c.isDigit) : plain c = c := by
  simp [plain, Char.isAlphanum, h]

theorem digit_ne_underscore {c : Char} (h : c.isDigit) : c ≠ '_' := by
  rintro rfl
  exact absurd h (by decide)

theorem toList_toString (n : Nat) : (toString n).toList = Nat.toDigits 10 n := by
  simp [toString, Nat.repr]

theorem digits_are_digits {n : Nat} {c : Char} (h : c ∈ Nat.toDigits 10 n) : c.isDigit :=
  Nat.isDigit_of_mem_toDigits (by decide) (by decide) h

theorem map_plain_digits (n : Nat) : (Nat.toDigits 10 n).map plain = Nat.toDigits 10 n := by
  apply (List.map_congr_left fun c hc => plain_digit (digits_are_digits hc)).trans
  exact List.map_id _

/-- The characters of an id up to the end of its number. -/
def stem (lead : List Char) (n : Nat) : List Char :=
  lead.map plain ++ '_' :: Nat.toDigits 10 n

/-- A stem has no dash, so that the suffix of units is told apart. -/
theorem dash_notMem_stem (lead : List Char) (n : Nat) : '-' ∉ stem lead n := by
  intro h
  rcases List.mem_append.mp h with h | h
  · obtain ⟨c, _, hc⟩ := List.mem_map.mp h
    exact plain_ne_dash c hc
  · rcases List.mem_cons.mp h with h | h
    · exact absurd h (by decide)
    · exact absurd (digits_are_digits h) (by decide)

/-- The number is what stands between the last underscore and the end, or a dash. -/
theorem serial_of_stem {id : String} {lead rest : List Char} {n : Nat}
    (h : id.toList = stem lead n ++ rest) (hrest : rest = [] ∨ rest.head? = some '-') :
    serial id = (n, !rest.isEmpty) := by
  have hstem : ∀ c ∈ stem lead n, (c != '-') = true := by
    intro c hc
    have hne : c ≠ '-' := by
      rintro rfl
      exact dash_notMem_stem lead n hc
    simpa using hne
  have hstop : rest.takeWhile (· != '-') = [] := by
    rcases hrest with rfl | hhead
    · rfl
    · obtain ⟨tail, rfl⟩ := List.head?_eq_some_iff.mp hhead
      rfl
  have hlead : id.toList.takeWhile (· != '-') = stem lead n := by
    rw [h, List.takeWhile_append_of_pos hstem, hstop, List.append_nil]
  have hdigits : ∀ c ∈ (Nat.toDigits 10 n).reverse, (c != '_') = true := by
    intro c hc
    have hne : c ≠ '_' := digit_ne_underscore (digits_are_digits (List.mem_reverse.mp hc))
    simpa using hne
  have hnumber : ((stem lead n).reverse.takeWhile (· != '_')).reverse = Nat.toDigits 10 n := by
    rw [stem, List.reverse_append, List.reverse_cons, List.append_assoc,
      List.takeWhile_append_of_pos hdigits, List.singleton_append,
      List.takeWhile_cons_of_neg (by decide), List.append_nil, List.reverse_reverse]
  have hdash : id.toList.contains '-' = !rest.isEmpty := by
    rw [h, Bool.eq_iff_iff]
    simp only [List.contains_iff_mem, List.mem_append, dash_notMem_stem, false_or]
    rcases hrest with rfl | hhead
    · simp
    · obtain ⟨tail, rfl⟩ := List.head?_eq_some_iff.mp hhead
      simp
  simp only [serial, hlead, hnumber, hdash, Nat.ofDigitChars_ten_toDigits]

theorem toList_idAt (entity : String) (n : Nat) :
    (idAt entity n).toList = stem entity.toList n := by
  simp only [idAt, toList_sanitize, String.toList_append, toList_toString, List.map_append,
    map_plain_digits, stem, List.append_assoc]
  rfl

/-- The number of a presentation id can be read off. -/
theorem serial_idAt (entity : String) (n : Nat) : serial (idAt entity n) = (n, false) := by
  have hid : (idAt entity n).toList = stem entity.toList n ++ [] := by
    rw [toList_idAt, List.append_nil]
  exact serial_of_stem hid (Or.inl rfl)

theorem serial_unitId (entity : String) (n : Nat) :
    serial (idAt entity n ++ UnitSelector.idSuffix) = (n, true) := by
  have hid : (idAt entity n ++ UnitSelector.idSuffix).toList =
      stem entity.toList n ++ UnitSelector.idSuffix.toList := by
    rw [String.toList_append, toList_idAt]
  exact serial_of_stem hid (Or.inr rfl)

theorem serial_panelIdAt (parent branch : String) (n : Nat) :
    serial (panelIdAt parent branch n) = (n, false) := by
  have hid : (panelIdAt parent branch n).toList =
      stem ("panel_" ++ parent ++ "_" ++ branch).toList n ++ [] := by
    simp only [panelIdAt, String.toList_append, toList_sanitize, toList_toString, List.map_append,
      map_plain_digits, stem, List.append_assoc, List.append_nil]
    rfl
  exact serial_of_stem hid (Or.inl rfl)

end EntryForm
