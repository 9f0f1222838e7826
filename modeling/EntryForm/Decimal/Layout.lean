import EntryForm.Decimal.Shortest

/-!
# Writing numbers as text

A `Layout` holds the decisions of a number format: which way ties go, which magnitudes are
written without an exponent, and whether a whole number keeps `.0`.
-/

namespace EntryForm.Decimal

/-- How the shortest digits of a number are set out. -/
structure Layout where
  tie : Tie
  /-- Whether a number whose first digit stands for this power of ten is written in full. -/
  positional : Int → Bool
  pointZero : Bool

/-- Numbers in data: in full from `10 ^ -5` up to `10 ^ 16`, always told apart from integers. -/
def Layout.data : Layout :=
  ⟨.toEven, fun top => decide (-5 ≤ top) && decide (top < 16), true⟩

/-- Numbers for display: always in full. -/
def Layout.display : Layout :=
  ⟨.up, fun _ => true, false⟩

/-- Writes all digits of a decimal around its point. -/
def inFull (d : Decimal) (pointZero : Bool) : List Char :=
  let ds := d.digits
  if 0 ≤ d.exponent then
    ds ++ List.replicate d.exponent.toNat '0' ++ (if pointZero then ['.', '0'] else [])
  else
    let places := (-d.exponent).toNat
    if places < ds.length then
      ds.take (ds.length - places) ++ '.' :: ds.drop (ds.length - places)
    else
      '0' :: '.' :: (List.replicate (places - ds.length) '0' ++ ds)

/-- Writes the first digit, the others after a point, and a signed exponent. -/
def scientific (d : Decimal) (top : Int) : List Char :=
  let sign := if top < 0 then '-' else '+'
  let mantissa :=
    match d.digits with
    | first :: second :: rest => first :: '.' :: second :: rest
    | ds => ds
  mantissa ++ 'e' :: sign :: Nat.toDigits 10 top.natAbs

/-- The text of a number, in full or with an exponent. -/
def Layout.write (layout : Layout) (x : Binary64) : List Char :=
  let d := x.shortest layout.tie
  let top := d.exponent + d.digits.length - 1
  let text := if layout.positional top then inFull d layout.pointZero else scientific d top
  if x.negative then '-' :: text else text

end EntryForm.Decimal
