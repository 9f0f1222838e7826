/-!
# Counting the instances of a repeated field

The first instance is always there. An instance can be added while the control is enabled, and
every instance but the first can be removed.
-/

namespace EntryForm

/-- The number of instances of a repeated field and whether one can be added. -/
structure RepeatState where
  count : Nat
  min : Option Nat
  max : Option Nat
  addEnabled : Bool
  deriving DecidableEq, Repr, Inhabited

namespace RepeatState

/-- The greatest count that is told apart. -/
def countLimit : Nat := 4294967295

/-- A field with its first instance. -/
def start (min max : Option Nat) : RepeatState :=
  ⟨1, min, max, max.all (1 < ·)⟩

/-- Counts one more instance, unless adding is disabled. -/
def add? (s : RepeatState) : Option RepeatState :=
  if s.addEnabled then
    let count := Nat.min (s.count + 1) countLimit
    some { s with count, addEnabled := s.max != some count }
  else none

/-- Counts one instance less, unless only the first is left. -/
def remove? (s : RepeatState) : Option RepeatState :=
  if s.count ≤ 1 then none
  else
    let count := s.count - 1
    some { s with count, addEnabled := s.addEnabled || s.max.all (count ≤ ·) }

end RepeatState

/-- The header of an instance by its number. -/
def recordHeader (number : Nat) : String := "Record " ++ toString number

end EntryForm
