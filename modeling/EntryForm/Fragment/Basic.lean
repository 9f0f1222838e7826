import EntryForm.Cardinality
import EntryForm.Choice
import EntryForm.Range
import EntryForm.Repeat
import EntryForm.UnitSelector

/-!
# Fragments of a form

A compiled form is a row of fragments. A fragment is one field with its widget; groups, tab sets
and repeated fields hold further fragments.
-/

namespace EntryForm

/-- The label of a field with its tooltips. -/
structure Label where
  text : String
  definition : Option String
  help : Option String
  /-- The label links to the anchor of the entity. -/
  anchor : Bool
  cardinality : Option String
  deriving DecidableEq, Repr, Inhabited

/-- One more instance of a repeated field. -/
structure Instance (φ : Type) where
  id : String
  header : String
  removable : Bool
  fragments : List φ
  deriving Repr, Inhabited

/-- One branch of a disjunction. -/
structure Tab (φ : Type) where
  id : String
  entityId : String
  label : Label
  active : Bool
  fragments : List φ
  deriving Repr, Inhabited

structure TextInput where
  minLength : Option Nat
  maxLength : Option Nat
  pattern : Option String
  /-- How wide a short input is shown. -/
  size : Option Nat
  placeholder : String
  units : UnitSelector
  deriving DecidableEq, Repr, Inhabited

structure NumberInput where
  family : String
  range : Range
  step : Option String
  pattern : Option String
  placeholder : String
  units : UnitSelector
  deriving DecidableEq, Repr

/-- A box for a date or a time. -/
structure MomentInput where
  /-- The format of the picker. -/
  format : String
  placeholder : String
  units : UnitSelector
  deriving DecidableEq, Repr, Inhabited

/-- A pick-list. -/
structure SelectInput where
  options : List Choice
  multiple : Bool
  /-- An empty option comes first. -/
  allowEmpty : Bool
  /-- A selection can be taken back. -/
  allowDeselect : Bool
  /-- Options can be looked up in the ontology. -/
  lookup : Bool
  maxSelections : Option Nat
  deriving DecidableEq, Repr, Inhabited

/-- What is shown in a field. -/
inductive Widget (φ : Type)
  /-- What stands for a field that cannot be shown yet. -/
  | placeholder (message : String)
  /-- What stands for a field whose specification is at fault. -/
  | diagnostic (message : String)
  | group (children : List φ)
  | tabs (tabs : List (Tab φ))
  | text (input : TextInput)
  | number (input : NumberInput)
  | moment (input : MomentInput)
  | boolean (checked : Bool)
  | select (input : SelectInput)
  deriving Repr, Inhabited

/-- What a fragment says about its field, apart from the fragments below it. -/
structure Field where
  id : String
  entityId : String
  entityPath : List String
  /-- The dotted path under which the value is submitted. -/
  path : String
  depth : Nat
  label : Option Label
  cardinality : Cardinality
  /-- The field has a container of its own. -/
  wrapped : Bool
  /-- The field is closed until the pointer rests on it. -/
  collapsible : Bool
  collapsed : Bool
  value : Option Json
  /-- How often the field is repeated, if more instances can be added. -/
  repetition : Option RepeatState
  deriving Repr, Inhabited

/-- One field of a form with the fields inside it. -/
structure Fragment extends Field where
  widget : Widget Fragment
  /-- The instances after the first. -/
  instances : List (Instance Fragment)
  deriving Repr

instance : Inhabited Fragment := ⟨⟨default, .placeholder "", []⟩⟩

namespace Widget
variable {φ : Type}

/-- Whether a widget holds a value. -/
def isInput : Widget φ → Bool
  | .text _ => true
  | .number _ => true
  | .moment _ => true
  | .boolean _ => true
  | .select _ => true
  | _ => false

def isSelect : Widget φ → Bool
  | .select _ => true
  | _ => false

def isGroup : Widget φ → Bool
  | .group _ => true
  | _ => false

/-- The fragments of a group, or of all tabs of a tab set. -/
def children : Widget φ → List φ
  | .group children => children
  | .tabs row => row.flatMap Tab.fragments
  | _ => []

/-- Whether a tab set has a tab with an id. -/
def ownsTab (id : String) : Widget φ → Bool
  | .tabs row => row.any (·.id == id)
  | _ => false

/-- Shows the tab with an id and no other. -/
def showTab (id : String) : Widget φ → Widget φ
  | .tabs row => .tabs (row.map fun tab => { tab with active := tab.id == id })
  | w => w

end Widget

namespace Field

/-- Whether a field has a value that is not empty. -/
def hasContent (f : Field) : Bool :=
  match f.value with
  | none => false
  | some .null => false
  | some (.bool false) => false
  | some (.str s) => !s.isEmpty
  | some (.arr items) => !items.isEmpty
  | some _ => true

end Field

namespace Fragment

/-- The fragments right inside: those of the widget, then those of the instances. -/
def children (f : Fragment) : List Fragment :=
  f.widget.children ++ f.instances.flatMap Instance.fragments

mutual
/-- A fragment and all fragments inside it, each before those inside it. -/
def all : Fragment → List Fragment
  | ⟨field, widget, instances⟩ =>
    ⟨field, widget, instances⟩ :: (allOfWidget widget ++ allOfInstances instances)
/-- The fragments inside a widget, with those inside them. -/
def allOfWidget : Widget Fragment → List Fragment
  | .group children => allOf children
  | .tabs tabs => allOfTabs tabs
  | _ => []
/-- The fragments of a row, each before those inside it. -/
def allOf : List Fragment → List Fragment
  | [] => []
  | f :: rest => all f ++ allOf rest
def allOfTabs : List (Tab Fragment) → List Fragment
  | [] => []
  | ⟨_, _, _, _, fragments⟩ :: rest => allOf fragments ++ allOfTabs rest
def allOfInstances : List (Instance Fragment) → List Fragment
  | [] => []
  | ⟨_, _, _, fragments⟩ :: rest => allOf fragments ++ allOfInstances rest
end

mutual
/-- Changes the first fragment that passes a test, in the order of `all`, if there is one. -/
def updateFirst? (test : Fragment → Bool) (change : Fragment → Fragment) :
    Fragment → Option Fragment
  | ⟨field, widget, instances⟩ =>
    if test ⟨field, widget, instances⟩ then some (change ⟨field, widget, instances⟩)
    else
      match updateWidget? test change widget with
      | some widget => some ⟨field, widget, instances⟩
      | none => (updateInstances? test change instances).map (⟨field, widget, ·⟩)
/-- Changes the first fragment inside a widget that passes a test. -/
def updateWidget? (test : Fragment → Bool) (change : Fragment → Fragment) :
    Widget Fragment → Option (Widget Fragment)
  | .group children => (updateRow? test change children).map .group
  | .tabs tabs => (updateTabs? test change tabs).map .tabs
  | _ => none
/-- Changes the first fragment of a row, or inside it, that passes a test. -/
def updateRow? (test : Fragment → Bool) (change : Fragment → Fragment) :
    List Fragment → Option (List Fragment)
  | [] => none
  | f :: rest =>
    match updateFirst? test change f with
    | some f => some (f :: rest)
    | none => (updateRow? test change rest).map (f :: ·)
def updateTabs? (test : Fragment → Bool) (change : Fragment → Fragment) :
    List (Tab Fragment) → Option (List (Tab Fragment))
  | [] => none
  | ⟨id, entityId, label, active, fragments⟩ :: rest =>
    match updateRow? test change fragments with
    | some fragments => some (⟨id, entityId, label, active, fragments⟩ :: rest)
    | none =>
      (updateTabs? test change rest).map (⟨id, entityId, label, active, fragments⟩ :: ·)
def updateInstances? (test : Fragment → Bool) (change : Fragment → Fragment) :
    List (Instance Fragment) → Option (List (Instance Fragment))
  | [] => none
  | ⟨id, header, removable, fragments⟩ :: rest =>
    match updateRow? test change fragments with
    | some fragments => some (⟨id, header, removable, fragments⟩ :: rest)
    | none =>
      (updateInstances? test change rest).map (⟨id, header, removable, fragments⟩ :: ·)
end

end Fragment

end EntryForm
