import EntryForm.Json.Shape
import Mathlib.Data.List.TakeWhile

/-!
# Numbers as text

A number is written in characters that are parts of numerals, so it is read up to where something
else follows (`Numeral.scan?_append`). An integer of 64 bits is read as it was written
(`Number.rereads_int`). Of a floating point number this is not said, since its decimals are read
with a rounding of their own.
-/

namespace EntryForm

namespace Numeral

/-- Whether a numeral can go on with a character. -/
def isPart (c : Char) : Bool :=
  c.isDigit || c == '.' || c == 'e' || c == 'E' || c == '+' || c == '-'

/-- A text that no numeral before it goes on with. -/
def Ends (rest : List Char) : Prop := ∀ c ∈ rest.head?, isPart c = false

theorem Ends.ne {c mark : Char} {rest : List Char} (h : Ends (c :: rest))
    (hmark : isPart mark = true) : c ≠ mark := by
  rintro rfl
  exact absurd (hmark.symm.trans (h c rfl)) nofun

theorem Ends.not_digit {c : Char} {rest : List Char} (h : Ends (c :: rest)) :
    c.isDigit = false := by
  cases hdigit : c.isDigit with
  | false => rfl
  | true =>
      have hpart : isPart c = true := by simp [isPart, hdigit]
      exact absurd (hpart.symm.trans (h c rfl)) nofun

variable {rest : List Char}

/-- The digits end where they did if nothing that follows goes on with them. -/
theorem digits_append (cs : List Char) (h : Ends rest) :
    digits (cs ++ rest) = ((digits cs).1, (digits cs).2 ++ rest) := by
  induction cs with
  | nil =>
      cases rest with
      | nil => rfl
      | cons c rest => simp [digits, h.not_digit]
  | cons c cs ih =>
      simp only [digits, Prod.mk.injEq, List.cons_append] at ih ⊢
      obtain ⟨htake, hdrop⟩ := ih
      cases hdigit : c.isDigit <;> simp [hdigit, htake, hdrop]

/-- The whole part of a numeral has digits, and starts with zero only if it is zero. -/
theorem scanWhole?_iff {cs whole left : List Char} :
    scanWhole? cs = some (whole, left) ↔
      digits cs = (whole, left) ∧ whole ≠ [] ∧ ∀ more, whole = '0' :: more → more = [] := by
  rw [scanWhole?]
  generalize digits cs = found
  split
  · simp +contextual
  case _ c more _ =>
    simp only [reduceCtorEq, Prod.mk.injEq, false_iff]
    rintro ⟨⟨rfl, _⟩, _, hzero⟩
    exact absurd (hzero _ rfl) nofun
  case _ ds more hnil hzero =>
    simp only [Option.some.injEq, Prod.mk.injEq, iff_self_and, and_imp]
    rintro rfl rfl
    refine ⟨hnil, ?_⟩
    intro more hmore
    cases more with
    | nil => rfl
    | cons c more => exact (hzero c more hmore).elim

theorem scanWhole?_append {cs whole left : List Char} (h : scanWhole? cs = some (whole, left))
    (hrest : Ends rest) : scanWhole? (cs ++ rest) = some (whole, left ++ rest) := by
  obtain ⟨hdigits, hwhole⟩ := scanWhole?_iff.mp h
  exact scanWhole?_iff.mpr ⟨by rw [digits_append cs hrest, hdigits], hwhole⟩

/-- Behind a point there is at least one digit. -/
theorem scanFraction?_point {cs fraction left : List Char} :
    scanFraction? ('.' :: cs) = some (fraction, left) ↔
      digits cs = (fraction, left) ∧ fraction ≠ [] := by
  rw [scanFraction?]
  generalize digits cs = found
  split
  · simp +contextual
  case _ ds more hnil =>
    simp only [Option.some.injEq, Prod.mk.injEq, iff_self_and, and_imp]
    rintro rfl rfl
    exact hnil

theorem scanFraction?_other {c : Char} (h : c ≠ '.') (more : List Char) :
    scanFraction? (c :: more) = some ([], c :: more) := by
  rw [scanFraction?]
  rintro _ heq
  exact h (List.cons.inj heq).1

theorem scanFraction?_end (h : Ends rest) : scanFraction? rest = some ([], rest) := by
  cases rest with
  | nil => rfl
  | cons c rest => exact scanFraction?_other (h.ne rfl) rest

theorem scanFraction?_append {cs fraction left : List Char}
    (h : scanFraction? cs = some (fraction, left)) (hrest : Ends rest) :
    scanFraction? (cs ++ rest) = some (fraction, left ++ rest) := by
  cases cs with
  | nil =>
      cases h
      exact scanFraction?_end hrest
  | cons c more =>
      by_cases hpoint : c = '.'
      · subst hpoint
        obtain ⟨hdigits, hsome⟩ := scanFraction?_point.mp h
        rw [List.cons_append]
        exact scanFraction?_point.mpr ⟨by rw [digits_append more hrest, hdigits], hsome⟩
      · rw [scanFraction?_other hpoint] at h
        cases h
        exact scanFraction?_other hpoint (more ++ rest)

theorem exponentDigits?_append {negative : Bool} {cs left : List Char}
    {exponent : Option (Bool × List Char)}
    (h : exponentDigits? negative cs = some (exponent, left)) (hrest : Ends rest) :
    exponentDigits? negative (cs ++ rest) = some (exponent, left ++ rest) := by
  rw [exponentDigits?] at h ⊢
  rw [digits_append cs hrest]
  generalize digits cs = found at h
  obtain ⟨ds, more⟩ := found
  cases ds with
  | nil => cases h
  | cons d ds =>
      cases h
      rfl

/-- After its mark an exponent has a sign, or digits at once. -/
theorem scanExponent?_mark {c : Char} (hc : c = 'e' ∨ c = 'E') (d : Char) (more : List Char) :
    scanExponent? (c :: d :: more) =
      if d = '-' then exponentDigits? true more
      else if d = '+' then exponentDigits? false more
      else exponentDigits? false (d :: more) := by
  by_cases hminus : d = '-'
  · rcases hc with rfl | rfl <;> simp [hminus, scanExponent?]
  · by_cases hplus : d = '+'
    · rcases hc with rfl | rfl <;> simp [hplus, scanExponent?]
    · rcases hc with rfl | rfl <;> simp [hminus, hplus, scanExponent?]

theorem scanExponent?_other {c : Char} (h : ¬ (c = 'e' ∨ c = 'E')) (more : List Char) :
    scanExponent? (c :: more) = some (none, c :: more) := by
  obtain ⟨hlower, hupper⟩ := not_or.mp h
  simp [scanExponent?, hlower, hupper]

theorem scanExponent?_end (h : Ends rest) : scanExponent? rest = some (none, rest) := by
  cases rest with
  | nil => rfl
  | cons c rest => exact scanExponent?_other (not_or.mpr ⟨h.ne rfl, h.ne rfl⟩) rest

theorem scanExponent?_append {cs left : List Char} {exponent : Option (Bool × List Char)}
    (h : scanExponent? cs = some (exponent, left)) (hrest : Ends rest) :
    scanExponent? (cs ++ rest) = some (exponent, left ++ rest) := by
  cases cs with
  | nil =>
      cases h
      exact scanExponent?_end hrest
  | cons c more =>
      by_cases hmark : c = 'e' ∨ c = 'E'
      · cases more with
        | nil => rcases hmark with rfl | rfl <;> cases h
        | cons d more =>
            rw [scanExponent?_mark hmark] at h
            rw [List.cons_append, List.cons_append, scanExponent?_mark hmark]
            by_cases hminus : d = '-'
            · rw [if_pos hminus] at h ⊢
              exact exponentDigits?_append h hrest
            · rw [if_neg hminus] at h ⊢
              by_cases hplus : d = '+'
              · rw [if_pos hplus] at h ⊢
                exact exponentDigits?_append h hrest
              · rw [if_neg hplus] at h ⊢
                exact exponentDigits?_append h hrest
      · rw [scanExponent?_other hmark] at h
        cases h
        exact scanExponent?_other hmark (more ++ rest)

/-- A text without the sign in front. -/
def unsigned (cs : List Char) : List Char := if cs.head? == some '-' then cs.tail else cs

theorem unsigned_cons (c : Char) (more : List Char) :
    unsigned (c :: more) = if c = '-' then more else c :: more := by
  simp [unsigned]

/-- A numeral is read part by part: sign, whole part, fraction, exponent. -/
theorem scan?_iff {cs left : List Char} {x : Numeral} :
    scan? cs = some (x, left) ↔
      ∃ afterWhole afterFraction, scanWhole? (unsigned cs) = some (x.whole, afterWhole) ∧
        scanFraction? afterWhole = some (x.fraction, afterFraction) ∧
        scanExponent? afterFraction = some (x.exponent, left) ∧
        x.negative = (cs.head? == some '-') := by
  constructor
  · intro h
    obtain ⟨⟨whole, afterWhole⟩, hwhole, h⟩ := Option.bind_eq_some_iff.mp h
    obtain ⟨⟨fraction, afterFraction⟩, hfraction, h⟩ := Option.bind_eq_some_iff.mp h
    obtain ⟨⟨exponent, afterExponent⟩, hexponent, h⟩ := Option.bind_eq_some_iff.mp h
    cases h
    exact ⟨afterWhole, afterFraction, hwhole, hfraction, hexponent, rfl⟩
  · obtain ⟨negative, whole, fraction, exponent⟩ := x
    rintro ⟨afterWhole, afterFraction, hwhole, hfraction, hexponent, rfl⟩
    refine Option.bind_eq_some_iff.mpr ⟨_, hwhole, ?_⟩
    refine Option.bind_eq_some_iff.mpr ⟨_, hfraction, ?_⟩
    exact Option.bind_eq_some_iff.mpr ⟨_, hexponent, rfl⟩

/-- A numeral is read up to where something else follows. -/
theorem scan?_append {cs left : List Char} {x : Numeral} (h : scan? cs = some (x, left))
    (hrest : Ends rest) : scan? (cs ++ rest) = some (x, left ++ rest) := by
  obtain ⟨afterWhole, afterFraction, hwhole, hfraction, hexponent, hnegative⟩ := scan?_iff.mp h
  have hwhole' := scanWhole?_append hwhole hrest
  cases cs with
  | nil => cases hwhole
  | cons c more =>
      have hunsigned : unsigned (c :: more) ++ rest = unsigned (c :: (more ++ rest)) := by
        rw [unsigned_cons, unsigned_cons]
        split <;> rfl
      rw [hunsigned] at hwhole'
      exact scan?_iff.mpr ⟨_, _, hwhole', scanFraction?_append hfraction hrest,
        scanExponent?_append hexponent hrest, hnegative⟩

theorem digits_suffix (cs : List Char) : (digits cs).2 <:+ cs := List.dropWhile_suffix _

theorem exponentDigits?_suffix {negative : Bool} {cs left : List Char}
    {exponent : Option (Bool × List Char)}
    (h : exponentDigits? negative cs = some (exponent, left)) : left <:+ cs := by
  have hsuffix := digits_suffix cs
  rw [exponentDigits?] at h
  generalize digits cs = found at h hsuffix
  obtain ⟨ds, more⟩ := found
  cases ds with
  | nil => cases h
  | cons d ds =>
      cases h
      exact hsuffix

theorem scanFraction?_suffix {cs fraction left : List Char}
    (h : scanFraction? cs = some (fraction, left)) : left <:+ cs := by
  cases cs with
  | nil =>
      cases h
      exact List.suffix_rfl
  | cons c more =>
      by_cases hpoint : c = '.'
      · subst hpoint
        obtain ⟨hdigits, _⟩ := scanFraction?_point.mp h
        have hsuffix := digits_suffix more
        rw [hdigits] at hsuffix
        exact hsuffix.trans (List.suffix_cons _ _)
      · rw [scanFraction?_other hpoint] at h
        cases h
        exact List.suffix_rfl

theorem scanExponent?_suffix {cs left : List Char} {exponent : Option (Bool × List Char)}
    (h : scanExponent? cs = some (exponent, left)) : left <:+ cs := by
  cases cs with
  | nil =>
      cases h
      exact List.suffix_rfl
  | cons c more =>
      by_cases hmark : c = 'e' ∨ c = 'E'
      · cases more with
        | nil => rcases hmark with rfl | rfl <;> cases h
        | cons d more =>
            have hsigned : more <:+ c :: d :: more :=
              (List.suffix_cons d more).trans (List.suffix_cons c (d :: more))
            rw [scanExponent?_mark hmark] at h
            split at h
            · exact (exponentDigits?_suffix h).trans hsigned
            · split at h
              · exact (exponentDigits?_suffix h).trans hsigned
              · exact (exponentDigits?_suffix h).trans (List.suffix_cons c (d :: more))
      · rw [scanExponent?_other hmark] at h
        cases h
        exact List.suffix_rfl

/-- What follows a numeral is the end of the text. -/
theorem scan?_suffix {cs left : List Char} {x : Numeral} (h : scan? cs = some (x, left)) :
    left <:+ cs := by
  obtain ⟨afterWhole, afterFraction, hwhole, hfraction, hexponent, _⟩ := scan?_iff.mp h
  have hdigits : afterWhole <:+ unsigned cs := by
    have hsuffix := digits_suffix (unsigned cs)
    rwa [(scanWhole?_iff.mp hwhole).1] at hsuffix
  have hunsigned : unsigned cs <:+ cs := by
    rw [unsigned]
    split
    · exact List.tail_suffix cs
    · exact List.suffix_rfl
  exact ((scanExponent?_suffix hexponent).trans (scanFraction?_suffix hfraction)).trans
    (hdigits.trans hunsigned)

end Numeral

namespace Number
open Numeral

/-- Whether the text of a number is read as that number. -/
def Rereads (n : Number) : Prop := ∃ x, scan? n.chars = some (x, []) ∧ x.value? = some n

/-- Whether an integer fits 64 bits, with a sign or without. -/
def Fits : Number → Prop
  | .int i => -9223372036854775808 ≤ i ∧ i < UInt64.size
  | .real _ => True

section integers

theorem digits_toDigits (n : Nat) : digits (Nat.toDigits 10 n) = (Nat.toDigits 10 n, []) := by
  have hall : ∀ c ∈ Nat.toDigits 10 n, c.isDigit = true :=
    fun c hc => Nat.isDigit_of_mem_toDigits (by decide) (by decide) hc
  rw [digits, List.takeWhile_eq_self_iff.mpr hall, List.dropWhile_eq_nil_iff.mpr hall]

/-- Only zero is written with a zero in front. -/
theorem eq_zero_of_leading_zero {n : Nat} (h : (Nat.toDigits 10 n).head? = some '0') : n = 0 := by
  induction n using Nat.strongRecOn with
  | ind n ih =>
      by_cases hsmall : n < 10
      · have hone : ∀ m < 10, (Nat.toDigits 10 m).head? = some '0' → m = 0 := by decide
        exact hone n hsmall h
      · have hlead : (Nat.toDigits 10 (n / 10)).head? = some '0' := by
          obtain ⟨c, more, hdigits⟩ := List.exists_cons_of_ne_nil
            (Nat.toDigits_ne_nil (n := n / 10) (b := 10))
          rw [Nat.toDigits_of_base_le (by decide) (by omega), hdigits] at h
          rw [hdigits]
          exact h
        have hzero := ih (n / 10) (by omega) hlead
        omega

theorem scanWhole?_toDigits (n : Nat) :
    scanWhole? (Nat.toDigits 10 n) = some (Nat.toDigits 10 n, []) := by
  refine scanWhole?_iff.mpr ⟨digits_toDigits n, Nat.toDigits_ne_nil, ?_⟩
  intro more hmore
  have hzero : n = 0 := eq_zero_of_leading_zero (by rw [hmore]; rfl)
  subst hzero
  exact (List.cons.inj hmore).2.symm

theorem toDigits_head (n : Nat) : (Nat.toDigits 10 n).head? ≠ some '-' := by
  intro h
  have hmem : '-' ∈ Nat.toDigits 10 n := List.mem_of_mem_head? h
  exact absurd (Nat.isDigit_of_mem_toDigits (by decide) (by decide) hmem) (by decide)

/-- An integer is read again digit by digit. -/
theorem scan?_int (i : Int) :
    scan? (intChars i) = some (⟨decide (i < 0), Nat.toDigits 10 i.natAbs, [], none⟩, []) := by
  have hhead := toDigits_head i.natAbs
  refine scan?_iff.mpr ⟨[], [], ?_, rfl, rfl, ?_⟩
  · have hunsigned : unsigned (intChars i) = Nat.toDigits 10 i.natAbs := by
      rw [intChars]
      split
      · rfl
      · rw [unsigned, if_neg (by simpa using hhead)]
    rw [hunsigned]
    exact scanWhole?_toDigits i.natAbs
  · rw [intChars]
    split
    case isTrue hnegative => simp [hnegative]
    case isFalse hnegative => simp [hnegative, hhead]

/-- An integer of 64 bits is read as it was written. -/
theorem rereads_int {i : Int} (h : (Number.int i).Fits) : (Number.int i).Rereads := by
  obtain ⟨hlow, hhigh⟩ := h
  have hvalue : natValue (Nat.toDigits 10 i.natAbs) = i.natAbs := Nat.ofDigitChars_ten_toDigits
  refine ⟨_, scan?_int i, ?_⟩
  by_cases hnegative : i < 0
  · have hpos : 0 < i.natAbs ∧ i.natAbs ≤ 9223372036854775808 := by omega
    have hsame : -(i.natAbs : Int) = i := by omega
    simp only [Numeral.value?, hvalue, decide_eq_true hnegative, if_pos hpos, hsame]
    rfl
  · have hsmall : i.natAbs < UInt64.size := by omega
    have hsame : (i.natAbs : Int) = i := by omega
    simp only [Numeral.value?, hvalue, decide_eq_false hnegative, if_pos hsmall, hsame]
    rfl

/-- A numeral of an integer has at most 64 bits, or stands for a floating point number. -/
theorem fits_value? {x : Numeral} {n : Number} (h : x.value? = some n) : n.Fits := by
  have hreal {m : Option Binary64} {negative : Bool}
      (hm : (do let y ← m; pure (Number.real { y with negative })) = some n) : n.Fits := by
    obtain ⟨y, _, hy⟩ := Option.bind_eq_some_iff.mp hm
    cases hy
    trivial
  rw [Numeral.value?] at h
  split at h
  · split at h
    · split at h
      case isTrue hrange =>
        cases h
        exact ⟨by omega, by simp only [UInt64.size]; omega⟩
      case isFalse => exact hreal h
    · split at h
      case isTrue hrange =>
        cases h
        exact ⟨by omega, by exact_mod_cast hrange⟩
      case isFalse => exact hreal h
  · exact hreal h

end integers

section parts

theorem isPart_toDigits (n : Nat) : ∀ c ∈ Nat.toDigits 10 n, isPart c = true := by
  intro c hc
  simp [isPart, Nat.isDigit_of_mem_toDigits (by decide) (by decide) hc]

/-- A decimal in full has only parts of numerals. -/
theorem isPart_inFull (d : Decimal) (pointZero : Bool) :
    ∀ c ∈ d.inFull pointZero, isPart c = true := by
  have hdigits : ∀ c ∈ d.digits, isPart c = true := isPart_toDigits d.coefficient
  have hzeros (n : Nat) : ∀ c ∈ List.replicate n '0', isPart c = true :=
    fun c hc => List.eq_of_mem_replicate hc ▸ rfl
  rw [Decimal.inFull]
  split
  · refine List.forall_mem_append.mpr ⟨List.forall_mem_append.mpr ⟨hdigits, hzeros _⟩, ?_⟩
    cases pointZero with
    | false => exact List.forall_mem_nil _
    | true => exact List.forall_mem_cons.mpr ⟨rfl, List.forall_mem_singleton.mpr rfl⟩
  · dsimp only
    split
    · refine List.forall_mem_append.mpr ⟨fun c hc => hdigits c (List.mem_of_mem_take hc), ?_⟩
      exact List.forall_mem_cons.mpr ⟨rfl, fun c hc => hdigits c (List.mem_of_mem_drop hc)⟩
    · refine List.forall_mem_cons.mpr ⟨rfl, List.forall_mem_cons.mpr ⟨rfl, ?_⟩⟩
      exact List.forall_mem_append.mpr ⟨hzeros _, hdigits⟩

theorem isPart_scientific (d : Decimal) (top : Int) :
    ∀ c ∈ d.scientific top, isPart c = true := by
  have hdigits : ∀ c ∈ d.digits, isPart c = true := isPart_toDigits d.coefficient
  rw [Decimal.scientific]
  refine List.forall_mem_append.mpr ⟨?_, ?_⟩
  · split
    case _ first second rest heq =>
      rw [heq] at hdigits
      obtain ⟨hfirst, hrest⟩ := List.forall_mem_cons.mp hdigits
      exact List.forall_mem_cons.mpr ⟨hfirst, List.forall_mem_cons.mpr ⟨rfl, hrest⟩⟩
    case _ => exact hdigits
  · refine List.forall_mem_cons.mpr ⟨rfl, List.forall_mem_cons.mpr ⟨?_, isPart_toDigits _⟩⟩
    split <;> rfl

theorem isPart_signed {cs : List Char} (h : ∀ c ∈ cs, isPart c = true) (negative : Prop)
    [Decidable negative] : ∀ c ∈ if negative then '-' :: cs else cs, isPart c = true := by
  split
  · exact List.forall_mem_cons.mpr ⟨rfl, h⟩
  · exact h

/-- All characters of a number are parts of numerals. -/
theorem isPart_chars (n : Number) : ∀ c ∈ n.chars, isPart c = true := by
  cases n with
  | int i => exact isPart_signed (isPart_toDigits _) _
  | real x =>
      refine isPart_signed ?_ _
      split
      · exact isPart_inFull _ _
      · exact isPart_scientific _ _

end parts

end Number

end EntryForm
