import EntryForm.Datatype
import EntryForm.Json.Value
import EntryForm.OrderedMap
import EntryForm.Text.Basic

/-!
# Nodes of a specification

An entity is one node of a specification: what it is called, what kind of field it stands for,
and the nodes below it. Components and choices keep their order.
-/

namespace EntryForm

/-- A note for the user interface. Some notes are flags and carry no value. -/
structure Feature where
  value : Option Json
  deriving Repr, Inhabited

namespace Feature

def str? (f : Feature) : Option String :=
  f.value.bind Json.str?

/-- The value as a count, given as a number or as text. -/
def count? (f : Feature) : Option Nat :=
  match f.value with
  | some (.num (.int i)) => if 0 ≤ i then some i.toNat else none
  | some (.str s) => Text.count? (Text.trim s.toList)
  | _ => none

end Feature

/-- What an entity says about itself, apart from the nodes below it. -/
structure Facts where
  id : String := ""
  datatype : Option String := none
  uiLabel : Option String := none
  label : Option String := none
  uiDefinition : Option String := none
  definition : Option String := none
  help : Option String := none
  features : Fields Feature := []
  minValue : Option Number := none
  maxValue : Option Number := none
  minLength : Option Nat := none
  maxLength : Option Nat := none
  /-- A regular expression or the name of a validator. -/
  pattern : Option String := none
  minCardinality : Option Nat := none
  maxCardinality : Option Nat := none
  /-- The dotted path of the field, if it is not the one of the ids. -/
  name : Option String := none
  /-- The initial value. -/
  value : Option Json := none
  /-- How many nodes lie above. -/
  depth : Nat := 0
  /-- The ids of the nodes above, the root first. -/
  path : List String := []
  /-- All other keys. -/
  extra : Fields Json := []
  deriving Repr, Inhabited

/-- A node of a specification with the nodes below it. -/
structure Entity extends Facts where
  components : OrderedMap Entity := ⟨[]⟩
  choices : OrderedMap Entity := ⟨[]⟩
  units : List Entity := []
  deriving Repr

instance : Inhabited Entity := ⟨{}⟩

namespace Facts

/-- What sort of field the datatype of a node asks for. -/
def kind (e : Facts) : Kind := Kind.ofTag e.datatype

def feature? (name : String) (e : Facts) : Option Feature := e.features.get? name

/-- The text of a note. -/
def featureText? (name : String) (e : Facts) : Option String :=
  (e.feature? name).bind Feature.str?

/-- The label shown: the one noted for the user interface comes first, the raw one last. -/
def displayLabel? (e : Facts) : Option String :=
  ((e.featureText? "label").or e.uiLabel).or e.label

/-- The label of a node that is not to be wrapped in a container. -/
def noLabel : String := "[no label]"

/-- Whether there is a label to show. -/
def hasRealLabel (e : Facts) : Bool :=
  match e.displayLabel? with
  | some label => label != "" && label != noLabel
  | none => false

/-- The label of a unit, its id if it has none. -/
def unitLabel (e : Facts) : String :=
  (e.uiLabel.or e.label).getD e.id

/-- How many characters of a definition are always shown. -/
def definitionLimit : Nat := 140

/-- Ends a text with the first sentence that ends after the limit. -/
def clip (cs : List Char) : List Char :=
  match Text.indexOf? ['.', ' '] (cs.drop definitionLimit) with
  | none => cs
  | some 0 => cs
  | some n => cs.take (definitionLimit + n) ++ ['.']

/-- The definition shown: the one noted for the user interface comes first, the raw one last. -/
def displayDefinition? (e : Facts) : Option String :=
  match ((e.featureText? "definition").or e.uiDefinition).or e.definition with
  | none => none
  | some text => if text.isEmpty then none else some (String.ofList (clip text.toList))

/-- Whether the cardinality bounds contradict each other. -/
def boundsInverted (e : Facts) : Bool :=
  match e.minCardinality, e.maxCardinality with
  | some min, some max => decide (max < min)
  | _, _ => false

/-- The ids of the nodes above and the own id. -/
def entityPath (e : Facts) : List String := e.path ++ [e.id]

/-- The dotted path under which the value of the field is submitted. -/
def fieldPath (e : Facts) : String :=
  match e.name with
  | some name => name
  | none => String.ofList (Text.join ['.'] (e.entityPath.map String.toList))

/-- The texts under the given keys, each a text or a list with texts. -/
def synonyms (keys : List String) (e : Facts) : List String :=
  keys.flatMap fun key =>
    match e.extra.get? key with
    | some (.str s) => [s]
    | some (.arr items) => items.filterMap Json.str?
    | _ => []

end Facts

namespace Entity

/-- A node right below, components before choices. -/
def child? (key : String) (e : Entity) : Option Entity :=
  (e.components.get? key).or (e.choices.get? key)

/-- The node reached by steps down. -/
def descendant? : List String → Entity → Option Entity
  | [], e => some e
  | key :: keys, e => (e.child? key).bind (descendant? keys)

mutual
/-- Tells a node and all nodes below where they are: how deep, and below which ids. -/
def placeAt (depth : Nat) (path : List String) : Entity → Entity
  | ⟨facts, ⟨components⟩, ⟨choices⟩, units⟩ =>
    ⟨{ facts with depth, path },
      ⟨placeEntries (depth + 1) (path ++ [facts.id]) components⟩,
      ⟨placeEntries (depth + 1) (path ++ [facts.id]) choices⟩,
      placeAll (depth + 1) (path ++ [facts.id]) units⟩
def placeEntries (depth : Nat) (path : List String) :
    List (String × Entity) → List (String × Entity)
  | [] => []
  | (key, e) :: rest => (key, placeAt depth path e) :: placeEntries depth path rest
def placeAll (depth : Nat) (path : List String) : List Entity → List Entity
  | [] => []
  | e :: rest => placeAt depth path e :: placeAll depth path rest
end

/-- Places a root and all nodes below it. -/
def annotate (e : Entity) : Entity := e.placeAt 0 []

/-- How a node hangs below another. -/
inductive Place
  | component (key : String)
  | choice (key : String)
  | unit (index : Nat)
  deriving DecidableEq, Repr, Inhabited

mutual
/-- A node and all nodes below it, each before those below it, with the places of the latter. -/
def nodes (place : Option Place) : Entity → List (Option Place × Entity)
  | ⟨facts, ⟨components⟩, ⟨choices⟩, units⟩ =>
    (place, ⟨facts, ⟨components⟩, ⟨choices⟩, units⟩) ::
      (nodesOfEntries .component components ++ (nodesOfEntries .choice choices ++
        nodesOfUnits 0 units))
def nodesOfEntries (place : String → Place) :
    List (String × Entity) → List (Option Place × Entity)
  | [] => []
  | (key, e) :: rest => nodes (some (place key)) e ++ nodesOfEntries place rest
def nodesOfUnits (index : Nat) : List Entity → List (Option Place × Entity)
  | [] => []
  | e :: rest => nodes (some (.unit index)) e ++ nodesOfUnits (index + 1) rest
end

mutual
/-- What the author of a node and of the components and choices below it should mend. -/
def problems : Entity → List String
  | ⟨facts, ⟨components⟩, ⟨choices⟩, _⟩ =>
    (match facts.minCardinality, facts.maxCardinality with
      | some min, some max =>
        if max < min then
          [facts.id ++ ": minCardinality " ++ toString min ++ " exceeds maxCardinality " ++
            toString max]
        else []
      | _, _ => []) ++
    (match facts.kind with
      | .disjunction =>
        if components.isEmpty then [facts.id ++ ": disjunction has no branches"] else []
      | .unrecognized tag => [facts.id ++ ": unrecognized datatype " ++ tag]
      | _ => []) ++
    (choices.filter fun entry => entry.2.kind != .categorical).map (fun entry =>
      facts.id ++ ": option " ++ entry.2.id ++ " is not categorical") ++
    problemsBelow components ++ problemsBelow choices
/-- The problems of a row of nodes and of those below them. -/
def problemsBelow : List (String × Entity) → List String
  | [] => []
  | (_, e) :: rest => problems e ++ problemsBelow rest
end

end Entity

end EntryForm
