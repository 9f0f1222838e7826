import EntryForm.Decimal.Binary64

/-!
# The fewest digits that read back

A decimal reads back as a given number when it lies in the interval of reals that round to
that number. `Binary64.shortest` takes the coarsest decimal grid that has a point in the
interval, and of two such points the nearer one.
-/

namespace EntryForm

/-- The decimal `coefficient * 10 ^ exponent`. -/
structure Decimal where
  coefficient : Nat
  exponent : Int
  deriving DecidableEq, Repr, Inhabited

namespace Decimal

/-- What becomes of a number halfway between two grid points. -/
inductive Tie
  | toEven
  | up
  deriving DecidableEq, Repr

/-- Drops trailing zeros of a coefficient of at most `count` digits. -/
def strip : Nat → Decimal → Decimal
  | 0, d => d
  | count + 1, d =>
    if d.coefficient % 10 = 0 then strip count ⟨d.coefficient / 10, d.exponent + 1⟩ else d

/-- The significant digits, first to last. -/
def digits (d : Decimal) : List Char :=
  Nat.toDigits 10 d.coefficient

end Decimal

namespace Binary64

/-- Four times the reals that round to a number, in units, with `closed` telling whether the
ends belong to them. -/
structure Interval where
  low : Nat
  high : Nat
  closed : Bool

/-- The gap below a power of two is half the gap above it. -/
def interval (units : Nat) : Interval :=
  let grain := Nat.pow 2 (shift units)
  let below := if units = Nat.pow 2 52 * grain ∧ 1 < grain then grain else 2 * grain
  ⟨4 * units - below, 4 * units + 2 * grain, units / grain % 2 = 0⟩

/-- Whether `num / den` units lie in the interval. -/
def Interval.contains (i : Interval) (num den : Nat) : Bool :=
  let x := 4 * num
  if i.closed then decide (i.low * den ≤ x) && decide (x ≤ i.high * den)
  else decide (i.low * den < x) && decide (x < i.high * den)

/-- The decimal exponent of the first digit of a positive number. -/
def magnitude (units : Nat) : Int :=
  (Nat.toDigits 10 (units * Nat.pow 10 330 / one)).length - 331

/-- The grid point nearest to the number on the grid `10 ^ exponent`, if one reads back. A grid
point `c` stands for `c * up / down`, which is `c * (up * one) / down` units. -/
def onGrid? (tie : Decimal.Tie) (units : Nat) (exponent : Int) : Option Decimal :=
  let up := Nat.pow 10 exponent.toNat
  let down := Nat.pow 10 (-exponent).toNat
  let step := up * one
  let c := units * down / step
  let rest := units * down % step
  let i := interval units
  let low := i.contains (c * step) down
  let high := i.contains ((c + 1) * step) down
  let takeHigh := decide (step < 2 * rest) ||
    (decide (2 * rest = step) && (tie == .up || c % 2 == 1))
  if high && (takeHigh || !low) then some ⟨c + 1, exponent⟩
  else if low then some ⟨c, exponent⟩
  else none

/-- Tries the grids of `count` and more digits, up to 17. -/
def shortestFrom (tie : Decimal.Tie) (units : Nat) (top : Int) : Nat → Nat → Decimal
  | _, 0 => ⟨0, 0⟩
  | count, tries + 1 =>
    match onGrid? tie units (top - count + 1) with
    | some d => d
    | none => shortestFrom tie units top (count + 1) tries

/-- The decimal of fewest digits that reads back as the number without its sign. -/
def shortest (tie : Decimal.Tie) (a : Binary64) : Decimal :=
  if a.units = 0 then ⟨0, 0⟩
  else (shortestFrom tie a.units (magnitude a.units) 1 17).strip 17

end Binary64

end EntryForm
