import EntryForm.Entity.Basic
import EntryForm.Pass
import EntryForm.Text.Lowercase

/-!
# The options of a pick-list

Nested choices become one row of options, each indented by its depth. Below a cut depth choices
are left out, and the option above them tells how many they are.
-/

namespace EntryForm

/-- One option of a pick-list. -/
structure Choice where
  id : String
  label : String
  /-- How many choices lie above. -/
  depth : Nat
  /-- What is written before the label. -/
  indent : String
  /-- The synonyms to search for, in lower case. -/
  synonyms : Option String
  /-- How many choices right below are left out. -/
  hiddenCount : Option Nat
  /-- What is wrong with the option. -/
  diagnostic : Option String
  deriving DecidableEq, Repr, Inhabited

/-- The choices below a node: their options, or how many are left out. -/
inductive Flattened
  | options (options : List Choice)
  | hidden (count : Nat)
  deriving DecidableEq, Repr

namespace Choice

/-- The blanks before the label of an option at a depth. -/
def blanks (depth : Nat) : String := String.ofList (List.replicate depth ' ')

/-- What is wrong with a choice that is no pick-list option. -/
def diagnose? (key : String) (e : Facts) : Option String :=
  if e.kind = .categorical then none
  else some ("option " ++ key ++ " has datatype " ++ e.datatype.getD "none" ++
    ", not a categorical option")

/-- The synonyms of a choice in one text, if it has any. -/
def synonymText? (fields : List String) (e : Facts) : Option String :=
  match e.synonyms fields with
  | [] => none
  | texts =>
    some (Text.lowercase (String.ofList (Text.join [','] (texts.map String.toList))))

/-- The option of a choice, given what lies below it. -/
def ofEntity (fields : List String) (depth : Nat) (key : String) (e : Facts) (below : Flattened) :
    Choice :=
  let label := e.displayLabel?.getD ""
  { id := e.id
    depth
    indent := blanks depth
    label := match below with
      | .hidden n => label ++ " (" ++ toString n ++ ")"
      | .options _ => label
    synonyms := synonymText? fields e
    hiddenCount := match below with
      | .hidden n => some n
      | .options _ => none
    diagnostic := diagnose? key e }

end Choice

namespace Flattened

/-- The options that are shown; above a cut there are none. -/
def toList : Flattened → List Choice
  | .options row => row
  | .hidden _ => []

end Flattened

namespace Entity

mutual
/-- The options below a node at a depth, and what is wrong with them. -/
def flatten (fields : List String) (cut : Option Nat) (depth : Nat) : Entity → PassM Flattened
  | ⟨facts, _, ⟨choices⟩, _⟩ =>
    if choices.isEmpty then pure (.options [])
    else if cut = some depth then pure (.hidden choices.length)
    else do pure (.options (← flattenEntries fields cut depth facts.id choices))
/-- The options of a row of choices, each with those below it right behind it. -/
def flattenEntries (fields : List String) (cut : Option Nat) (depth : Nat) (parent : String) :
    List (String × Entity) → PassM (List Choice)
  | [] => pure []
  | (key, e) :: rest => do
    if e.displayLabel?.isNone then Pass.warn (.unlabelledOption key parent)
    let below ← flatten fields cut (depth + 1) e
    if e.kind ≠ .categorical then Pass.warn (.uncategoricalOption key parent e.kind)
    let choice := Choice.ofEntity fields depth key e.toFacts below
    pure (choice :: (below.toList ++ (← flattenEntries fields cut depth parent rest)))
end

/-- The depth at which a node cuts its choices: the one it notes, else the default. -/
def cutDepth (default : Option Nat) (e : Entity) : Option Nat :=
  ((e.feature? "depth").bind Feature.count?).or default

end Entity

end EntryForm
