import EntryForm.Compile
import EntryForm.Document
import EntryForm.Fragment.Writer

/-!
# Forms

A form is what one entity compiles to. It remembers how many ids have been handed out, so that
instances added later get new ones.
-/

namespace EntryForm

/-- What says that a form has no fields. -/
def noFieldSpecification : String := "This item has no field specification."

/-- What there is to show in a form. -/
inductive FormState
  /-- The focus leads nowhere, or to what has no fields. -/
  | noFieldSpecification
  | fields (fragments : List Fragment)
  deriving Repr, Inhabited

namespace FormState

/-- What there is to show after a pass over the entity at the focus. -/
def ofFragments : List Fragment → FormState
  | [] => .noFieldSpecification
  | row => .fields row

/-- The fragments to show. -/
def fragments : FormState → List Fragment
  | .noFieldSpecification => []
  | .fields fragments => fragments

/-- The fragments of what has been compiled are those that have been compiled. -/
@[simp] theorem fragments_ofFragments (row : List Fragment) :
    (ofFragments row).fragments = row := by
  cases row <;> rfl

end FormState

/-- What an entity compiles to, with what is remembered about it. -/
structure Form where
  focus : String
  /-- How often the form has been made anew. -/
  generation : Nat
  state : FormState
  /-- The number of the next id. -/
  counter : Nat
  deriving Repr, Inhabited

namespace Form

/-- The fragments at the top of a form. -/
def fragments (form : Form) : List Fragment := form.state.fragments

/-- The fragments of the entity at a focus. If the focus leads nowhere from some entity on, that
entity is shown after a fragment that says so. -/
def compileFocus (s : Settings) (d : Document) (focus : String) : PassM (List Fragment) := do
  match d.focus focus with
  | .missing id =>
    Pass.warn (.missingRoot id)
    pure []
  | .found e none => e.compile s
  | .found e (some segment) =>
    Pass.warn (.missingSegment focus segment)
    let notice ← Entity.diagnostic s e.toFacts
      ("path segment " ++ segment ++ " not found under " ++ e.id)
    pure (notice :: (← e.compile s))

/-- The form of the entity at a focus, and what is wrong with the specification. -/
def compile (s : Settings) (d : Document) (focus : String) (generation : Nat) :
    Form × List Warning :=
  let (fragments, pass) := (compileFocus s d focus).run {}
  (⟨focus, generation, .ofFragments fragments, pass.counter⟩, pass.warnings)

/-- A form shows the fragments that its entity compiles to. -/
theorem fragments_compile (s : Settings) (d : Document) (focus : String) (generation : Nat) :
    (compile s d focus generation).1.fragments = ((compileFocus s d focus).run {}).1 :=
  FormState.fragments_ofFragments _

/-- The problems of the specification that a focus lies in. -/
def problems (d : Document) (focus : String) : List Warning :=
  match d.root? (Document.rootOf focus) with
  | some e => e.problems.map (.problem focus)
  | none => []

/-- All fragments, each before those inside it. -/
def all (form : Form) : List Fragment := Fragment.allOf form.fragments

/-- The first fragment with an id. -/
def find? (id : String) (form : Form) : Option Fragment :=
  form.all.find? (·.id == id)

/-- Changes the first fragment that passes a test, if there is one. -/
def updateFirst? (test : Fragment → Bool) (change : Fragment → Fragment) (form : Form) :
    Option Form :=
  (Fragment.updateRow? test change form.fragments).map fun fragments =>
    { form with state := .fields fragments }

/-- Changes the first fragment with an id, if there is one. -/
def update (id : String) (change : Fragment → Fragment) (form : Form) : Form :=
  (form.updateFirst? (·.id == id) change).getD form

/-- Gives a field its value, unless no field with the id holds one. -/
def setValue? (id : String) (value : Json) (form : Form) : Option Form :=
  match form.find? id with
  | some f =>
    if f.widget.isInput then some (form.update id fun f => { f with value := some value })
    else none
  | none => none

/-- Shows a tab in place of the others of its set, unless there is none with the id. -/
def activateTab? (id : String) (form : Form) : Option Form :=
  form.updateFirst? (fun f => f.widget.ownsTab id) fun f =>
    { f with widget := f.widget.showTab id }

/-- An instance of a repeated field. -/
def instance? (wrapper id : String) (form : Form) : Option (Instance Fragment) :=
  (form.find? wrapper).bind fun f => f.instances.find? (·.id == id)

def toJson (form : Form) : Json :=
  .obj
    [("focus", .str form.focus), ("generation", .nat form.generation),
      ("state",
        match form.state with
        | .noFieldSpecification => .obj [("state", .str "noFieldSpecification")]
        | .fields fragments =>
          .obj [("state", .str "fields"), ("fragments", .arr (Fragment.listToJson fragments))])]

end Form

end EntryForm
