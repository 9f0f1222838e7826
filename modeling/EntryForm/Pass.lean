import EntryForm.Warning

/-!
# One pass over a specification

A pass hands out ids that are unique in one form and collects warnings. The counter behind the
ids never goes back.
-/

namespace EntryForm

/-- What a pass has done so far. -/
structure Pass where
  /-- The number of the next id. -/
  counter : Nat := 0
  /-- How many tabs lie around the present place. -/
  tabDepth : Nat := 0
  warnings : List Warning := []
  deriving DecidableEq, Repr, Inhabited

/-- A step of a pass. -/
abbrev PassM := StateM Pass

/-- Replaces every character but ASCII letters, digits and the underscore. -/
def sanitize (raw : String) : String :=
  String.ofList (raw.toList.map fun c => if c.isAlphanum || c == '_' then c else '_')

namespace Pass

/-- Hands out the next number. -/
def next : PassM Nat :=
  modifyGet fun p => (p.counter, { p with counter := p.counter + 1 })

/-- An id for one more rendering of an entity. -/
def nextId (entity : String) : PassM String := do
  let n ← next
  pure (sanitize (entity ++ "_" ++ toString n))

/-- An id for the panel of one branch. -/
def nextPanelId (parent branch : String) : PassM String := do
  let n ← next
  pure ("panel_" ++ sanitize (parent ++ "_" ++ branch ++ "_" ++ toString n))

/-- Warns of something. -/
def warn (w : Warning) : PassM Unit :=
  modify fun p => { p with warnings := p.warnings ++ [w] }

/-- Whether a tab is being compiled. -/
def inTab : PassM Bool := do
  pure (decide (0 < (← get).tabDepth))

/-- Does a step inside one more tab. -/
def withinTab {α : Type} (step : PassM α) : PassM α := do
  modify fun p => { p with tabDepth := p.tabDepth + 1 }
  let a ← step
  modify fun p => { p with tabDepth := p.tabDepth - 1 }
  pure a

end Pass

end EntryForm
