import EntryForm.Decimal.Binary64
import EntryForm.Fields

/-!
# JSON values
-/

namespace EntryForm

/-- A number is an integer of at most 64 bits, kept exactly, or a binary floating point number. -/
inductive Number
  | int (value : Int)
  | real (value : Binary64)
  deriving DecidableEq, Repr, Inhabited

/-- A JSON value. The fields of an object are written in the order they have here. -/
inductive Json
  | null
  | bool (value : Bool)
  | num (value : Number)
  | str (value : String)
  | arr (items : List Json)
  | obj (fields : List (String × Json))
  deriving Repr, Inhabited

namespace Json

def nat (n : Nat) : Json := .num (.int n)

def strings (items : List String) : Json := .arr (items.map .str)

/-- A value that may be absent, written as null. -/
def option {α : Type} (f : α → Json) : Option α → Json
  | some a => f a
  | none => .null

/-- One field, or none if the value is absent. -/
def field? {α : Type} (key : String) (value : Option α) (f : α → Json) : List (String × Json) :=
  match value with
  | some a => [(key, f a)]
  | none => []

def str? : Json → Option String
  | .str s => some s
  | _ => none

def get? (key : String) : Json → Option Json
  | .obj fields => Fields.get? key fields
  | _ => none

end Json

end EntryForm
