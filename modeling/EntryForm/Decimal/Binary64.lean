/-!
# Finite numbers of 64-bit binary floating point

Every finite number is a whole multiple of the least positive one, `2 ^ -1074`, so a number
is its sign and that multiple. All arithmetic is exact on natural numbers and rounds once,
to the nearest representable multiple and from halfway to the even one.
-/

namespace EntryForm

/-- The number `± units * 2 ^ -1074`. -/
structure Binary64 where
  negative : Bool
  units : Nat
  deriving DecidableEq, Repr, Inhabited

namespace Binary64

/-- How many units make one. -/
def one : Nat := Nat.pow 2 1074

/-- The least number of units that is too large to be represented. -/
def limit : Nat := Nat.pow 2 2098

/-- The whole number nearest to a quotient, the even one if two are equally near. -/
def nearest (num den : Nat) : Nat :=
  let low := num / den
  let twice := 2 * (num % den)
  if twice < den ∨ (twice = den ∧ low % 2 = 0) then low else low + 1

/-- How many low bits a number of units loses to keep 53 significant ones. -/
def shift (units : Nat) : Nat :=
  Nat.log2 units - 52

/-- The number nearest to `num / den` units, if it is not too large. -/
def ofUnits? (negative : Bool) (num den : Nat) : Option Binary64 :=
  let grain := Nat.pow 2 (shift (num / den))
  let units := nearest num (den * grain) * grain
  if units < limit then some ⟨negative, units⟩ else none

/-- Zero, with its sign. -/
def zero (negative : Bool) : Binary64 := ⟨negative, 0⟩

/-- The number nearest to a natural number, if that is not too large. -/
def ofNat? (n : Nat) : Option Binary64 :=
  ofUnits? false (n * one) 1

/-- The number nearest to an integer of at most 64 bits. -/
def ofInt (i : Int) : Binary64 :=
  (ofUnits? (i < 0) (i.natAbs * one) 1).getD (zero false)

/-- The product, rounded, if it is not too large. -/
def mul? (a b : Binary64) : Option Binary64 :=
  ofUnits? (a.negative != b.negative) (a.units * b.units) one

/-- The quotient, rounded, if it is not too large. -/
def div? (a b : Binary64) : Option Binary64 :=
  ofUnits? (a.negative != b.negative) (a.units * one) b.units

/-- The signed number of units. Both zeros count none. -/
def toInt (a : Binary64) : Int :=
  if a.negative then -(a.units : Int) else a.units

/-- Two numbers compare by value, so the two zeros are equal. -/
def order (a b : Binary64) : Ordering :=
  compare a.toInt b.toInt

/-- Whether two numbers are equal. The two zeros are. -/
def same (a b : Binary64) : Bool :=
  a.toInt == b.toInt

end Binary64

end EntryForm
