import EntryForm.Proofs.Numerals
import EntryForm.Proofs.ReadingValue

/-!
# Values as text

A text stands for what is read from it whatever follows (`Reading.Stands`), and the text of an array
or an object stands if those of its parts do. So the compact text of a value is read as that value,
if it does not nest too deep and its numbers are read as they were written
(`Reading.ofText_chars`). Nothing of this depends on what the value is for.
-/

namespace EntryForm

namespace Reading

section strings

theorem hexValue?_hexDigit : ∀ n < 16, hexValue? (hexDigit n) = some n := by decide

theorem hexValue4?_hexDigit {n : Nat} (h : n < 32) :
    hexValue4? '0' '0' (hexDigit (n / 16)) (hexDigit (n % 16)) = some n := by
  have hzero : hexValue? '0' = some 0 := rfl
  have hvalue : (0 * 16 + 0) * 256 + n / 16 * 16 + n % 16 = n := by omega
  simp only [hexValue4?, hzero, hexValue?_hexDigit _ (show n / 16 < 16 by omega),
    hexValue?_hexDigit _ (show n % 16 < 16 by omega), Option.bind_eq_bind, Option.bind_some, hvalue]
  rfl

/-- An escape with a letter stands for one character. -/
theorem pieces?_escaped {letter c : Char} (h : escaped? letter = some c) (hletter : letter ≠ 'u')
    (rest : List Char) :
    pieces? ('\\' :: letter :: rest) =
      (pieces? rest).map fun found => (.char c :: found.1, found.2) := by
  rw [pieces?, h]
  · cases pieces? rest <;> rfl
  · intro _ _ _ _ _ heq
    exact absurd heq hletter

/-- An escape with four digits stands for one code unit. -/
theorem pieces?_unit {a b c d : Char} {n : Nat} (h : hexValue4? a b c d = some n)
    (rest : List Char) :
    pieces? ('\\' :: 'u' :: a :: b :: c :: d :: rest) =
      (pieces? rest).map fun found => (.unit n :: found.1, found.2) := by
  rw [pieces?, h]
  cases pieces? rest <;> rfl

/-- Other characters stand for themselves. -/
theorem pieces?_char {c : Char} (hquote : c ≠ '"') (hescape : c ≠ '\\') (h : ¬ c.toNat < 32)
    (rest : List Char) :
    pieces? (c :: rest) = (pieces? rest).map fun found => (.char c :: found.1, found.2) := by
  have hplain : (decide (c.toNat < 32) || c == '\\') = false := by simp [h, hescape]
  rw [pieces?, hplain]
  · cases pieces? rest <;> rfl
  · rintro rfl
    exact absurd rfl hquote
  all_goals
    intros
    exact hescape ‹_›

/-- A character is read as one piece, from which it is put together again. -/
theorem exists_piece (c : Char) :
    ∃ p : Piece, (∀ rest, pieces? (Json.escapeChar c ++ rest) =
        (pieces? rest).map fun found => (p :: found.1, found.2)) ∧
      ∀ ps, join? (p :: ps) = (join? ps).map (c :: ·) := by
  rw [Json.escapeChar.eq_def]
  split
  case _ => exact ⟨.char '"', pieces?_escaped rfl (by decide), fun _ => rfl⟩
  case _ => exact ⟨.char '\\', pieces?_escaped rfl (by decide), fun _ => rfl⟩
  case _ => exact ⟨.char '\n', pieces?_escaped rfl (by decide), fun _ => rfl⟩
  case _ => exact ⟨.char '\r', pieces?_escaped rfl (by decide), fun _ => rfl⟩
  case _ => exact ⟨.char '\t', pieces?_escaped rfl (by decide), fun _ => rfl⟩
  case _ => exact ⟨.char '\x08', pieces?_escaped rfl (by decide), fun _ => rfl⟩
  case _ => exact ⟨.char '\x0c', pieces?_escaped rfl (by decide), fun _ => rfl⟩
  case _ hquote hescape _ _ _ _ _ =>
    split
    case isTrue hcontrol =>
      refine ⟨.unit c.toNat, pieces?_unit (hexValue4?_hexDigit hcontrol), ?_⟩
      intro ps
      rw [join?.eq_def]
      simp only [show c.toNat < 0xD800 ∨ 0xE000 ≤ c.toNat by omega, if_true, Char.ofNat_toNat]
    case isFalse hvisible => exact ⟨.char c, pieces?_char hquote hescape hvisible, fun _ => rfl⟩

/-- A quoted text is read as that text. -/
theorem readString?_quote (s : String) (rest : List Char) :
    readString? (s.toList.flatMap Json.escapeChar ++ '"' :: rest) = some (some s, rest) := by
  have hpieces : ∀ cs : List Char, ∃ ps, pieces? (cs.flatMap Json.escapeChar ++ '"' :: rest) =
      some (ps, rest) ∧ join? ps = some cs := by
    intro cs
    induction cs with
    | nil => exact ⟨[], rfl, rfl⟩
    | cons c cs ih =>
        obtain ⟨ps, hread, hjoin⟩ := ih
        obtain ⟨p, hpiece, hfirst⟩ := exists_piece c
        refine ⟨p :: ps, ?_, ?_⟩
        · rw [List.flatMap_cons, List.append_assoc, hpiece, hread]
          rfl
        · rw [hfirst, hjoin]
          rfl
  obtain ⟨ps, hread, hjoin⟩ := hpieces s.toList
  simp [readString?, hread, hjoin]

end strings

end Reading

namespace Json

mutual
/-- How many arrays and objects of a value lie in each other. -/
def depth : Json → Nat
  | .arr items => itemsDepth items + 1
  | .obj fields => fieldsDepth fields + 1
  | _ => 0
def itemsDepth : List Json → Nat
  | [] => 0
  | item :: items => max (depth item) (itemsDepth items)
def fieldsDepth : List (String × Json) → Nat
  | [] => 0
  | (_, value) :: fields => max (depth value) (fieldsDepth fields)
end

mutual
/-- All numbers in a value. -/
def numbers : Json → List Number
  | .num n => [n]
  | .arr items => itemsNumbers items
  | .obj fields => fieldsNumbers fields
  | _ => []
def itemsNumbers : List Json → List Number
  | [] => []
  | item :: items => numbers item ++ itemsNumbers items
def fieldsNumbers : List (String × Json) → List Number
  | [] => []
  | (_, value) :: fields => numbers value ++ fieldsNumbers fields
end

end Json

namespace Reading

mutual
/-- What the text of a value is read as. -/
def written : Json → Reading
  | .null => .null
  | .bool b => .bool b
  | .num n => .num (some n)
  | .str s => .str (some s)
  | .arr items => .arr (writtenItems items) .bracket
  | .obj fields => .obj (writtenFields fields) .bracket
def writtenItems : List Json → List Reading
  | [] => []
  | item :: items => written item :: writtenItems items
def writtenFields : List (String × Json) → List (Option String × Reading)
  | [] => []
  | (key, value) :: fields => (some key, written value) :: writtenFields fields
end

section values
open Numeral

theorem skipBlank_cons {c : Char} (h : isBlank c = false) (rest : List Char) :
    skipBlank (c :: rest) = c :: rest :=
  List.dropWhile_cons_of_neg (by simp [h])

theorem isPart_ne {c mark : Char} (h : isPart c = true) (hmark : isPart mark = false) :
    c ≠ mark := by
  rintro rfl
  exact absurd (h.symm.trans hmark) nofun

theorem isBlank_of_isPart {c : Char} (h : isPart c = true) : isBlank c = false := by
  rw [Bool.eq_false_iff]
  intro hblank
  simp only [isBlank, Bool.or_eq_true, beq_iff_eq] at hblank
  rcases hblank with ((rfl | rfl) | rfl) | rfl <;> exact absurd h (by decide)

/-- What starts with a part of a numeral can be read as a number only. -/
theorem readValue_part {c : Char} (h : isPart c = true) (more : List Char) (depth fuel : Nat) :
    readValue depth (fuel + 1) (c :: more) =
      match scan? (c :: more) with
      | some (x, rest) => (.num x.value?, some rest)
      | none => (.fault, none) := by
  rw [readValue, skipBlank_cons (isBlank_of_isPart h)]
  split
  case _ heq => exact absurd (List.cons.inj heq).1 (isPart_ne h rfl)
  case _ heq => exact absurd (List.cons.inj heq).1 (isPart_ne h rfl)
  case _ heq => exact absurd (List.cons.inj heq).1 (isPart_ne h rfl)
  case _ heq => exact absurd (List.cons.inj heq).1 (isPart_ne h rfl)
  case _ heq => exact absurd (List.cons.inj heq).1 (isPart_ne h rfl)
  case _ heq => exact absurd (List.cons.inj heq).1 (isPart_ne h rfl)
  case _ => rfl

/-- A text of parts of numerals is read as a number, if it is one. -/
theorem readValue_numeral {cs rest : List Char} {x : Numeral} (hparts : ∀ c ∈ cs, isPart c = true)
    (hscan : scan? cs = some (x, [])) (hrest : Ends rest) (depth fuel : Nat) :
    readValue depth (fuel + 1) (cs ++ rest) = (.num x.value?, some rest) := by
  have happend := scan?_append hscan hrest
  cases cs with
  | nil => cases hscan
  | cons c more =>
      rw [List.cons_append] at happend ⊢
      rw [readValue_part (hparts c List.mem_cons_self), happend]
      rfl

theorem ends_cons {c : Char} (h : isPart c = false) (rest : List Char) : Ends (c :: rest) := by
  rintro _ ⟨⟩
  exact h

/-- Whether a text starts with what can be a value. -/
def Starts (cs : List Char) : Prop := ∃ c more, cs = c :: more ∧ isBlank c = false ∧ c ≠ ']'

/-- A written value starts with neither a blank nor the end of an array. -/
theorem starts_chars (v : Json) (h : ∀ n ∈ v.numbers, n.Rereads) (rest : List Char) :
    Starts (v.chars ++ rest) := by
  cases v with
  | null => exact ⟨_, _, rfl, rfl, by decide⟩
  | bool b => cases b <;> exact ⟨_, _, rfl, rfl, by decide⟩
  | num n =>
      obtain ⟨x, hscan, _⟩ := h n (by simp [Json.numbers])
      have hparts := Number.isPart_chars n
      rw [Json.chars]
      cases hchars : n.chars with
      | nil => rw [hchars] at hscan; cases hscan
      | cons c more =>
          have hpart := hparts c (hchars ▸ List.mem_cons_self)
          exact ⟨c, more ++ rest, rfl, isBlank_of_isPart hpart, isPart_ne hpart rfl⟩
  | str s => exact ⟨_, _, rfl, rfl, by decide⟩
  | arr items => cases items <;> exact ⟨_, _, rfl, rfl, by decide⟩
  | obj fields => cases fields <;> exact ⟨_, _, rfl, rfl, by decide⟩

section parts
variable {depth fuel : Nat} {r : Reading} {cs rest : List Char}

/-- The last item is followed by the bracket that ends the array. -/
theorem readItems_last (hstarts : Starts cs)
    (h : readValue depth fuel cs = (r, some (']' :: rest))) (first : Bool) :
    readItems depth (fuel + 1) first cs = ([r], .bracket, some rest) := by
  obtain ⟨c, more, rfl, hblank, hbracket⟩ := hstarts
  have hclose : skipBlank (']' :: rest) = ']' :: rest := rfl
  rw [readItems, skipBlank_cons hblank]
  · simp only [h, hclose]
  · intro _ _ heq
    rw [skipBlank_cons hblank] at heq
    exact hbracket (List.cons.inj heq).1

/-- An item is followed by a comma and the next one. -/
theorem readItems_comma (hstarts : Starts cs)
    (h : readValue depth fuel cs = (r, some (',' :: rest))) (first : Bool) :
    readItems depth (fuel + 1) first cs =
      (r :: (readItems depth fuel false rest).1, (readItems depth fuel false rest).2) := by
  obtain ⟨c, more, rfl, hblank, hbracket⟩ := hstarts
  have hcomma : skipBlank (',' :: rest) = ',' :: rest := rfl
  rw [readItems, skipBlank_cons hblank]
  · simp only [h, hcomma]
  · intro _ _ heq
    rw [skipBlank_cons hblank] at heq
    exact hbracket (List.cons.inj heq).1

theorem readFields_last (key : String)
    (h : readValue depth fuel cs = (r, some ('\x7d' :: rest))) (first : Bool) :
    readFields depth (fuel + 1) first (Json.quote key ++ ':' :: cs) =
      ([(some key, r)], .bracket, some rest) := by
  have hclose : skipBlank ('\x7d' :: rest) = '\x7d' :: rest := rfl
  have hcolon : skipBlank (':' :: cs) = ':' :: cs := rfl
  have hquote (more : List Char) : skipBlank ('"' :: more) = '"' :: more := rfl
  have hkey := readString?_quote key (':' :: cs)
  rw [Json.quote, List.cons_append, List.append_assoc, List.singleton_append, readFields.eq_def]
  cases first <;> simp only [hquote, hkey, hcolon, h, hclose]

theorem readFields_comma (key : String)
    (h : readValue depth fuel cs = (r, some (',' :: rest))) (first : Bool) :
    readFields depth (fuel + 1) first (Json.quote key ++ ':' :: cs) =
      ((some key, r) :: (readFields depth fuel false rest).1,
        (readFields depth fuel false rest).2) := by
  have hcomma : skipBlank (',' :: rest) = ',' :: rest := rfl
  have hcolon : skipBlank (':' :: cs) = ':' :: cs := rfl
  have hquote (more : List Char) : skipBlank ('"' :: more) = '"' :: more := rfl
  have hkey := readString?_quote key (':' :: cs)
  rw [Json.quote, List.cons_append, List.append_assoc, List.singleton_append, readFields.eq_def]
  cases first <;> simp only [hquote, hkey, hcolon, h, hcomma]

end parts

/-- The text of a row of items, without brackets. -/
def itemsChars : List Json → List Char
  | [] => []
  | item :: items => item.chars ++ Json.moreItems items

/-- The text of a row of fields, without braces. -/
def fieldsChars : List (String × Json) → List Char
  | [] => []
  | (key, value) :: fields => Json.quote key ++ ':' :: (value.chars ++ Json.moreFields fields)

theorem chars_arr (items : List Json) :
    (Json.arr items).chars = '[' :: (itemsChars items ++ [']']) := by
  cases items with
  | nil => rfl
  | cons item items => simp [Json.chars, itemsChars]

theorem chars_obj (fields : List (String × Json)) :
    (Json.obj fields).chars = '\x7b' :: (fieldsChars fields ++ ['\x7d']) := by
  cases fields with
  | nil => rfl
  | cons field fields => simp [Json.chars, fieldsChars]

/-- Whether a text inside `depth` arrays and objects is read as a value, whatever follows that does
not go on with it. -/
def Stands (depth : Nat) (cs : List Char) (r : Reading) : Prop :=
  ∀ (fuel : Nat) (rest : List Char), cs.length ≤ fuel → Ends rest →
    readValue depth fuel (cs ++ rest) = (r, some rest)

/-- How a field of an object is read. -/
def StandsField (depth : Nat) (field : String × Json) (reading : Option String × Reading) : Prop :=
  reading.1 = some field.1 ∧ Stands depth field.2.chars reading.2

section standing
variable {depth : Nat}

/-- The length of a text with a character leaves fuel for reading a value. -/
theorem stands_of_fuel {cs : List Char} {r : Reading} (hne : cs ≠ [])
    (h : ∀ (fuel : Nat) (rest : List Char), cs.length ≤ fuel + 1 → Ends rest →
      readValue depth (fuel + 1) (cs ++ rest) = (r, some rest)) : Stands depth cs r := by
  intro fuel rest hfuel hrest
  cases fuel with
  | zero => exact absurd (List.eq_nil_of_length_eq_zero (Nat.le_zero.mp hfuel)) hne
  | succ fuel => exact h fuel rest hfuel hrest

/-- A number stands for what its numeral is read as. -/
theorem stands_num {n : Number} {x : Numeral} (hscan : scan? n.chars = some (x, [])) :
    Stands depth (Json.num n).chars (.num x.value?) := by
  have hne : n.chars ≠ [] := by
    intro hnil
    rw [hnil] at hscan
    cases hscan
  exact stands_of_fuel hne fun fuel rest _ hrest =>
    readValue_numeral (Number.isPart_chars n) hscan hrest depth fuel

theorem stands_str (s : String) : Stands depth (Json.str s).chars (.str (some s)) := by
  have hquote (more : List Char) : skipBlank ('"' :: more) = '"' :: more := rfl
  rw [Json.chars, Json.quote]
  refine stands_of_fuel (List.cons_ne_nil _ _) ?_
  intro fuel rest _ _
  rw [List.cons_append, List.append_assoc, List.singleton_append, readValue, hquote]
  simp only [readString?_quote]

/-- A row of written items is read one after the other. -/
theorem readItems_chars {items : List Json} {readings : List Reading}
    (h : List.Forall₂ (fun item r => Stands depth item.chars r) items readings)
    (hstarts : ∀ item ∈ items, ∀ rest, Starts (item.chars ++ rest)) (fuel : Nat) (first : Bool)
    (rest : List Char) (hfirst : items = [] → first = true)
    (hfuel : (itemsChars items).length + 1 ≤ fuel) :
    readItems depth fuel first (itemsChars items ++ ']' :: rest) =
      (readings, .bracket, some rest) := by
  induction h generalizing fuel first with
  | nil =>
      rw [hfirst rfl]
      cases fuel with
      | zero => cases hfuel
      | succ fuel => rfl
  | @cons item r items readings hitem hitems ih =>
      obtain ⟨hstart, hstarts⟩ := List.forall_mem_cons.mp hstarts
      obtain ⟨fuel, rfl⟩ := Nat.exists_eq_add_one.mpr (Nat.lt_of_lt_of_le (Nat.succ_pos _) hfuel)
      have hlength := Nat.le_of_succ_le_succ hfuel
      cases hitems with
      | nil =>
          rw [itemsChars, Json.moreItems, List.append_nil] at hlength ⊢
          exact readItems_last (hstart _) (hitem fuel _ hlength (ends_cons rfl rest)) first
      | @cons next r' items readings =>
          have hcomma : itemsChars (item :: next :: items) ++ ']' :: rest =
              item.chars ++ ',' :: (itemsChars (next :: items) ++ ']' :: rest) := by
            simp [itemsChars, Json.moreItems]
          have hsum : (itemsChars (item :: next :: items)).length =
              item.chars.length + ((itemsChars (next :: items)).length + 1) := by
            simp [itemsChars, Json.moreItems]
          have hvalue := hitem fuel (',' :: (itemsChars (next :: items) ++ ']' :: rest))
            (by omega) (ends_cons rfl _)
          rw [hcomma, readItems_comma (hstart _) hvalue,
            ih hstarts fuel false nofun (by omega)]

theorem readFields_chars {fields : List (String × Json)}
    {readings : List (Option String × Reading)}
    (h : List.Forall₂ (StandsField depth) fields readings) (fuel : Nat) (first : Bool)
    (rest : List Char) (hfirst : fields = [] → first = true)
    (hfuel : (fieldsChars fields).length + 1 ≤ fuel) :
    readFields depth fuel first (fieldsChars fields ++ '\x7d' :: rest) =
      (readings, .bracket, some rest) := by
  induction h generalizing fuel first with
  | nil =>
      rw [hfirst rfl]
      cases fuel with
      | zero => cases hfuel
      | succ fuel => rfl
  | @cons field reading fields readings hfield hfields ih =>
      obtain ⟨key, value⟩ := field
      obtain ⟨_, r⟩ := reading
      obtain ⟨rfl, hvalue⟩ := hfield
      obtain ⟨fuel, rfl⟩ := Nat.exists_eq_add_one.mpr (Nat.lt_of_lt_of_le (Nat.succ_pos _) hfuel)
      cases hfields with
      | nil =>
          have hlength : (fieldsChars [(key, value)]).length =
              (Json.quote key).length + (value.chars.length + 1) := by
            simp [fieldsChars, Json.moreFields]
          have hread := hvalue fuel ('\x7d' :: rest) (by dsimp only; omega) (ends_cons rfl rest)
          rw [fieldsChars, Json.moreFields, List.append_nil, List.append_assoc, List.cons_append]
          exact readFields_last key hread first
      | @cons next reading' fields readings =>
          have hcomma : fieldsChars ((key, value) :: next :: fields) ++ '\x7d' :: rest =
              Json.quote key ++ ':' :: (value.chars ++
                ',' :: (fieldsChars (next :: fields) ++ '\x7d' :: rest)) := by
            simp [fieldsChars, Json.moreFields]
          have hlength : (fieldsChars ((key, value) :: next :: fields)).length =
              (Json.quote key).length + (value.chars.length +
                ((fieldsChars (next :: fields)).length + 2)) := by
            simp [fieldsChars, Json.moreFields]
            omega
          have hread := hvalue fuel (',' :: (fieldsChars (next :: fields) ++ '\x7d' :: rest))
            (by dsimp only; omega) (ends_cons rfl _)
          rw [hcomma, readFields_comma key hread, ih fuel false nofun (by omega)]

/-- An array stands for what its items stand for. -/
theorem stands_arr {items : List Json} {readings : List Reading} (hdepth : depth < maxDepth)
    (h : List.Forall₂ (fun item r => Stands (depth + 1) item.chars r) items readings)
    (hstarts : ∀ item ∈ items, ∀ rest, Starts (item.chars ++ rest)) :
    Stands depth (Json.arr items).chars (.arr readings .bracket) := by
  have hopen (more : List Char) : skipBlank ('[' :: more) = '[' :: more := rfl
  rw [chars_arr]
  refine stands_of_fuel (List.cons_ne_nil _ _) ?_
  intro fuel rest hfuel _
  have hread := readItems_chars h hstarts fuel true rest (fun _ => rfl) (by simpa using hfuel)
  rw [List.cons_append, List.append_assoc, List.singleton_append, readValue, hopen]
  simp only [hread, limit, if_neg (Nat.not_le.mpr hdepth)]

theorem stands_obj {fields : List (String × Json)} {readings : List (Option String × Reading)}
    (hdepth : depth < maxDepth)
    (h : List.Forall₂ (StandsField (depth + 1)) fields readings) :
    Stands depth (Json.obj fields).chars (.obj readings .bracket) := by
  have hopen (more : List Char) : skipBlank ('\x7b' :: more) = '\x7b' :: more := rfl
  rw [chars_obj]
  refine stands_of_fuel (List.cons_ne_nil _ _) ?_
  intro fuel rest hfuel _
  have hread := readFields_chars h fuel true rest (fun _ => rfl) (by simpa using hfuel)
  rw [List.cons_append, List.append_assoc, List.singleton_append, readValue, hopen]
  simp only [hread, limit, if_neg (Nat.not_le.mpr hdepth)]

end standing

mutual
/-- The text of a value is read as the value wherever it stands, if it does not nest too deep
there. -/
theorem stands_chars : ∀ (v : Json) (depth : Nat), (∀ n ∈ v.numbers, n.Rereads) →
    depth + v.depth ≤ maxDepth → Stands depth v.chars (written v)
  | .null, _, _, _ => stands_of_fuel nofun fun _ _ _ _ => rfl
  | .bool true, _, _, _ => stands_of_fuel nofun fun _ _ _ _ => rfl
  | .bool false, _, _, _ => stands_of_fuel nofun fun _ _ _ _ => rfl
  | .num n, _, hnumbers, _ => by
      obtain ⟨x, hscan, hvalue⟩ := hnumbers n (by simp [Json.numbers])
      rw [written, ← hvalue]
      exact stands_num hscan
  | .str s, _, _, _ => stands_str s
  | .arr items, depth, hnumbers, hdepth => by
      rw [Json.depth] at hdepth
      obtain ⟨hitems, hstarts⟩ := stands_items items (depth + 1) hnumbers (by omega)
      exact stands_arr (by omega) hitems hstarts
  | .obj fields, depth, hnumbers, hdepth => by
      rw [Json.depth] at hdepth
      exact stands_obj (by omega) (stands_fields fields (depth + 1) hnumbers (by omega))
theorem stands_items : ∀ (items : List Json) (depth : Nat),
    (∀ n ∈ Json.itemsNumbers items, n.Rereads) → depth + Json.itemsDepth items ≤ maxDepth →
      List.Forall₂ (fun item r => Stands depth item.chars r) items (writtenItems items) ∧
        ∀ item ∈ items, ∀ rest, Starts (item.chars ++ rest)
  | [], _, _, _ => ⟨.nil, List.forall_mem_nil _⟩
  | item :: items, depth, hnumbers, hdepth => by
      rw [Json.itemsDepth] at hdepth
      obtain ⟨hfirst, hrest⟩ := List.forall_mem_append.mp hnumbers
      obtain ⟨hitems, hstarts⟩ := stands_items items depth hrest (by omega)
      exact ⟨.cons (stands_chars item depth hfirst (by omega)) hitems,
        List.forall_mem_cons.mpr ⟨starts_chars item hfirst, hstarts⟩⟩
theorem stands_fields : ∀ (fields : List (String × Json)) (depth : Nat),
    (∀ n ∈ Json.fieldsNumbers fields, n.Rereads) → depth + Json.fieldsDepth fields ≤ maxDepth →
      List.Forall₂ (StandsField depth) fields (writtenFields fields)
  | [], _, _, _ => .nil
  | (_, value) :: fields, depth, hnumbers, hdepth => by
      rw [Json.fieldsDepth] at hdepth
      obtain ⟨hfirst, hrest⟩ := List.forall_mem_append.mp hnumbers
      exact .cons ⟨rfl, stands_chars value depth hfirst (by omega)⟩
        (stands_fields fields depth hrest (by omega))
end

/-- A text that stands by itself is read as the value. -/
theorem Stands.ofText {cs : List Char} {r : Reading} (h : Stands 0 cs r) :
    ofText cs = (r, true) := by
  have hread := h (2 * cs.length + 2) [] (by omega) nofun
  rw [List.append_nil] at hread
  simp [Reading.ofText, hread, skipBlank]

/-- The text of a value is read as the value. -/
theorem ofText_chars {v : Json} (hnumbers : ∀ n ∈ v.numbers, n.Rereads)
    (hdepth : v.depth ≤ maxDepth) : ofText v.chars = (written v, true) :=
  (stands_chars v 0 hnumbers (by omega)).ofText

end values

end Reading

open Reading Numeral in
/-- A number whose text is read as that number is read so inside other values, too: what would be
left over consists of parts of numerals, of which none is a blank. -/
theorem Number.rereads_of_ofText {n : Number}
    (h : Json.ofText (Json.num n).compact = .ok (.num n)) : n.Rereads := by
  have htext : (Json.num n).compact.toList = n.chars := String.toList_ofList
  have hparts := isPart_chars n
  rw [Json.ofText, readText, htext, Reading.ofText] at h
  cases hchars : n.chars with
  | nil =>
      rw [hchars] at h
      cases h
  | cons c more =>
      rw [hchars] at h hparts
      rw [readValue_part (hparts c List.mem_cons_self)] at h
      cases hscan : scan? (c :: more) with
      | none =>
          rw [hscan] at h
          cases h
      | some found =>
          obtain ⟨x, left⟩ := found
          rw [hscan] at h
          obtain ⟨v, hv, h⟩ := ok_of_bind h
          split at h
          case isFalse => cases h
          case isTrue hclean =>
            cases h
            have hvalue : x.value? = some n := by
              cases hx : x.value? with
              | none => rw [hx] at hv; cases hv
              | some m => rw [hx] at hv; cases hv; rfl
            have hleft : left = [] := by
              cases left with
              | nil => rfl
              | cons d rest =>
                  have hpart := hparts d ((scan?_suffix hscan).subset List.mem_cons_self)
                  rw [skipBlank_cons (isBlank_of_isPart hpart)] at hclean
                  cases hclean
            exact ⟨x, by rw [hchars, hscan, hleft], hvalue⟩

end EntryForm
