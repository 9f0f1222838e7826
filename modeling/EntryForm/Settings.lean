import EntryForm.Json.Shape
import EntryForm.Toml.Document

/-!
# Settings

How forms are compiled and behave. Settings are read from TOML text, where every key may be
left out and unknown keys are passed over.
-/

namespace EntryForm

/-- How forms are compiled and when fields open. -/
structure Settings where
  /-- Optional empty fields stay closed until the pointer rests on them. -/
  minimalForm : Bool := false
  /-- Labels show cardinality and an anchor. -/
  ontologyDetails : Bool := false
  /-- The keys of a node whose values are synonyms. -/
  synonymFields : List String :=
    ["hasSynonym", "hasExactSynonym", "hasNarrowSynonym", "hasAlternativeTerm"]
  /-- The depth below which choices are left out, unless a node says otherwise. -/
  defaultCutDepth : Option Nat := none
  /-- How long the pointer rests on a closed field before it opens, in milliseconds. -/
  disclosureDelay : Nat := 500
  deriving DecidableEq, Repr, Inhabited

namespace Settings

/-- The value of a key of a TOML table, absent being fine and another type not. -/
def field {α : Type} (key : String) (default : α) (read : Toml → Option α)
    (entries : List (String × Toml)) : Option α :=
  match entries.find? (·.1 == key) with
  | none => some default
  | some (_, value) => read value

def ofBool : Toml → Option Bool
  | .bool b => some b
  | _ => none

def ofCount : Toml → Option Nat
  | .int i => if 0 ≤ i then some i.toNat else none
  | _ => none

def ofString : Toml → Option String
  | .str s => some s
  | _ => none

def ofStrings : Toml → Option (List String)
  | .arr items => items.mapM ofString
  | _ => none

/-- The settings of a TOML table, if all known keys have values of their types. -/
def ofTable? (entries : List (String × Toml)) : Option Settings := do
  let base : Settings := {}
  pure
    { minimalForm := ← field "minimal_form" base.minimalForm ofBool entries
      ontologyDetails := ← field "ontology_details" base.ontologyDetails ofBool entries
      synonymFields := ← field "synonym_fields" base.synonymFields ofStrings entries
      defaultCutDepth := ← field "default_cut_depth" none (some <$> ofCount ·) entries
      disclosureDelay := ← field "disclosure_delay_ms" base.disclosureDelay ofCount entries }

/-- Reads settings from TOML text. -/
def ofToml? (text : String) : Option Settings :=
  (Toml.ofText? text).bind ofTable?

/-- Settings given as a JSON record. -/
def shape : RecordShape Settings where
  name := "struct FormSettings"
  fields := ["minimal_form", "ontology_details", "synonym_fields", "default_cut_depth",
    "disclosure_delay_ms"]
  absent _ := .ok ()
  read name value s :=
    match name with
    | "minimal_form" => do pure { s with minimalForm := ← value.toBool }
    | "ontology_details" => do pure { s with ontologyDetails := ← value.toBool }
    | "synonym_fields" => do pure { s with synonymFields := ← value.toList Reading.toStr }
    | "default_cut_depth" => do
      pure { s with defaultCutDepth := ← value.optional (Reading.toNat UInt64.size "usize") }
    | _ => do pure { s with disclosureDelay := ← value.toUInt64 }

/-- Settings as a JSON record. -/
def toJson (s : Settings) : Json :=
  .obj
    [("minimal_form", .bool s.minimalForm), ("ontology_details", .bool s.ontologyDetails),
      ("synonym_fields", .strings s.synonymFields),
      ("default_cut_depth", .option .nat s.defaultCutDepth),
      ("disclosure_delay_ms", .nat s.disclosureDelay)]

end Settings

end EntryForm
