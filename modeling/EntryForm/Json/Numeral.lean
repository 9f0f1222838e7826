import EntryForm.Json.Value

/-!
# Decimal numerals

`Numeral.scan?` splits a numeral off the front of a text. `Numeral.value?` is the number it
stands for: an integer if it is written as one and fits 64 bits, else a floating point number
computed from the leading digits that fit 64 bits and a power of ten.
-/

namespace EntryForm

/-- The value of a decimal digit. -/
def digitValue (c : Char) : Nat := c.toNat - 48

/-- The parts of a numeral. Fraction and exponent are absent or have at least one digit. -/
structure Numeral where
  negative : Bool
  whole : List Char
  fraction : List Char
  /-- The exponent's sign, negative if true, and its digits. -/
  exponent : Option (Bool × List Char)
  deriving DecidableEq, Repr

namespace Numeral

/-- The digits at the front of a text and what follows them. -/
def digits (cs : List Char) : List Char × List Char :=
  (cs.takeWhile Char.isDigit, cs.dropWhile Char.isDigit)

/-- A fraction, if a point comes first; a point must have a digit after it. -/
def scanFraction? : List Char → Option (List Char × List Char)
  | '.' :: rest =>
    match digits rest with
    | ([], _) => none
    | (ds, rest) => some (ds, rest)
  | cs => some ([], cs)

/-- The digits of an exponent, of which there must be one. -/
def exponentDigits? (negative : Bool) (cs : List Char) :
    Option (Option (Bool × List Char) × List Char) :=
  match digits cs with
  | ([], _) => none
  | (ds, rest) => some (some (negative, ds), rest)

/-- An exponent, if its mark comes first. -/
def scanExponent? : List Char → Option (Option (Bool × List Char) × List Char)
  | 'e' :: '-' :: rest | 'E' :: '-' :: rest => exponentDigits? true rest
  | 'e' :: '+' :: rest | 'E' :: '+' :: rest => exponentDigits? false rest
  | 'e' :: rest | 'E' :: rest => exponentDigits? false rest
  | cs => some (none, cs)

/-- A whole part: one zero, or digits of which the first is not zero. -/
def scanWhole? (cs : List Char) : Option (List Char × List Char) :=
  match digits cs with
  | ([], _) => none
  | ('0' :: _ :: _, _) => none
  | (ds, rest) => some (ds, rest)

/-- Splits a numeral off the front of a text. -/
def scan? (cs : List Char) : Option (Numeral × List Char) := do
  let negative := cs.head? == some '-'
  let (whole, rest) ← scanWhole? (if negative then cs.tail else cs)
  let (fraction, rest) ← scanFraction? rest
  let (exponent, rest) ← scanExponent? rest
  pure (⟨negative, whole, fraction, exponent⟩, rest)

/-- The value of a row of digits. -/
def natValue (ds : List Char) : Nat :=
  ds.foldl (fun n c => 10 * n + digitValue c) 0

/-- Appends leading digits to a number while it has at most 64 bits. The answer is the number and
how many digits were left over. -/
def absorb (n : Nat) : List Char → Nat × Nat
  | [] => (n, 0)
  | c :: cs =>
    if 10 * n + digitValue c < UInt64.size then absorb (10 * n + digitValue c) cs
    else (n, cs.length + 1)

/-- Divides by `10 ^ 308` as often as the exponent allows, stopping at zero. -/
def scaleDown : Nat → Binary64 → Nat → Option Binary64
  | 0, x, exponent => do x.div? (← Binary64.ofNat? (Nat.pow 10 exponent))
  | tries + 1, x, exponent =>
    if exponent ≤ 308 then do x.div? (← Binary64.ofNat? (Nat.pow 10 exponent))
    else if x.units = 0 then some x
    else do
      let x ← x.div? (← Binary64.ofNat? (Nat.pow 10 308))
      scaleDown tries x (exponent - 308)

/-- A number times a power of ten, if that is not too large. Three divisions by `10 ^ 308` make
any 64-bit number zero. -/
def scale? (n : Nat) (exponent : Int) : Option Binary64 := do
  let x ← Binary64.ofNat? n
  if exponent < 0 then scaleDown 3 x exponent.natAbs
  else if exponent ≤ 308 then x.mul? (← Binary64.ofNat? (Nat.pow 10 exponent.toNat))
  else if x.units = 0 then some x
  else none

/-- The signed value of an exponent, if it is below `2 ^ 31` in size. -/
def exponentValue? : Option (Bool × List Char) → Option Int
  | none => some 0
  | some (negative, ds) =>
    let n := natValue ds
    if n < 2147483648 then some (if negative then -(n : Int) else n) else none

/-- The magnitude of a numeral as a floating point number, if it is not too large. -/
def magnitude? (x : Numeral) : Option Binary64 :=
  let (n, dropped) := absorb 0 x.whole
  let (n, unused) := absorb n x.fraction
  let shift : Int := dropped - (x.fraction.length - unused : Nat)
  match exponentValue? x.exponent with
  | some e => scale? n (shift + e)
  | none =>
    match x.exponent with
    | some (false, _) => if n = 0 then some (Binary64.zero false) else none
    | _ => some (Binary64.zero false)

/-- The number a numeral stands for; a number too large for floating point has none. -/
def value? (x : Numeral) : Option Number :=
  let n := natValue x.whole
  let real := do
    let m ← x.magnitude?
    pure (Number.real { m with negative := x.negative })
  if x.fraction.isEmpty && x.exponent.isNone then
    if x.negative then
      if 0 < n ∧ n ≤ 9223372036854775808 then some (.int (-(n : Int))) else real
    else if n < UInt64.size then some (.int n)
    else real
  else real

end Numeral

end EntryForm
