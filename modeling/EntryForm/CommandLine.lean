import EntryForm.Folder
import EntryForm.Markup.Page

/-!
# The command line

One command writes the form of an entity as JSON, the other as a page. `CommandLine.run` does
what the arguments of a command say with any place for files.
-/

namespace EntryForm

namespace CommandLine

/-- What a command prints and how it ends. -/
structure Outcome where
  exit : Nat
  output : String
  /-- What went wrong, if the command could not do its work. -/
  error : Option String
  deriving DecidableEq, Repr, Inhabited

/-- The kinds of options: a flag, an option with any text, and one with a path. -/
inductive OptionKind
  | flag
  | text
  | path
  deriving DecidableEq, Repr

/-- The options of a command by name, with the variable that stands in for an option. -/
abbrev Options := List (String × OptionKind × Option String)

/-- The options given, with their values. Flags have an empty one. -/
abbrev Given := List (String × String)

/-- Adds an option, which can be given only once. Paths cannot be empty. -/
def give? (options : Options) (name value : String) (given : Given) : Option Given :=
  match options.find? (·.1 == name) with
  | none => none
  | some (_, kind, _) =>
    if given.any (·.1 == name) || (kind == .path && value.isEmpty) then none
    else some (given ++ [(name, value)])

/-- Whether an argument can be the value of the option before it. -/
def isValue (argument : String) : Bool :=
  match argument.toList with
  | '-' :: _ :: _ => false
  | _ => true

/-- Takes the arguments apart, if they are options that the command knows. -/
def parse? (options : Options) : List String → Given → Option Given
  | [], given => some given
  | ["--"], given => some given
  | argument :: rest, given =>
    match Text.after? "--".toList argument.toList with
    | none => none
    | some body =>
      match Text.cut? '=' body with
      | some (name, value) =>
        let name := String.ofList name
        match options.find? (·.1 == name) with
        | some (_, .flag, _) => none
        | _ => (give? options name (String.ofList value) given).bind (parse? options rest ·)
      | none =>
        let name := String.ofList body
        match options.find? (·.1 == name), rest with
        | some (_, .flag, _), rest => (give? options name "" given).bind (parse? options rest ·)
        | some _, value :: rest =>
          if isValue value then (give? options name value given).bind (parse? options rest ·)
          else none
        | _, _ => none

/-- Adds the options that variables stand in for. -/
def addVariables? (env : String → Option String) : Options → Given → Option Given
  | [], given => some given
  | (name, kind, some standIn) :: rest, given =>
    match env standIn with
    | some value =>
      if given.any (·.1 == name) then addVariables? env rest given
      else (give? [(name, kind, none)] name value given).bind (addVariables? env rest ·)
    | none => addVariables? env rest given
  | _ :: rest, given => addVariables? env rest given

/-- The value of an option. -/
def value? (name : String) (given : Given) : Option String :=
  (given.find? (·.1 == name)).map Prod.snd

def isGiven (name : String) (given : Given) : Bool := given.any (·.1 == name)

/-- Where a document comes from. -/
structure Source where
  document : Option String := none
  resources : String := "."
  resource : Option String := none
  deriving DecidableEq, Repr, Inhabited

/-- Where settings come from, and what the arguments add to them. -/
structure SettingsSource where
  path : Option String := none
  minimalForm : Bool := false
  ontologyDetails : Bool := false
  deriving DecidableEq, Repr, Inhabited

/-- What a command works on. -/
inductive Command
  | compile (source : Source) (settings : SettingsSource) (focus : String) (submission : Bool)
    (out : Option String)
  | list (resources out base : String) (publicOnly : Bool)
  | page (source : Source) (settings : SettingsSource) (focus : String) (title : Option String)
    (out base : String) (template : Option (String × String))
  deriving DecidableEq, Repr

/-- The options for the document and the settings. -/
def sourceOptions : Options :=
  [("document", .path, none), ("resources", .path, none), ("resource", .text, none),
    ("settings", .path, some "GEEM_FORM_SETTINGS"), ("minimal-form", .flag, none),
    ("ontology-details", .flag, none), ("entity", .text, none), ("out", .path, none)]

def compileOptions : Options := sourceOptions ++ [("submission", .flag, none)]

def pageOptions : Options :=
  sourceOptions ++
    [("title", .text, none), ("base-path", .text, some "PUBLIC_BASE_PATH"),
      ("template", .path, none), ("template-out", .path, none), ("list", .flag, none),
      ("public-only", .flag, none)]

/-- The variables that stand in for options. -/
def standIns (options : Options) : List String :=
  options.filterMap fun option => option.2.2

/-- The document asked for. A file and a resource exclude each other. -/
def source? (given : Given) : Option Source :=
  if isGiven "document" given && isGiven "resource" given then none
  else
    some
      { document := value? "document" given
        resources := (value? "resources" given).getD "."
        resource := value? "resource" given }

/-- Where the settings asked for come from, and what the flags add to them. -/
def settingsSource (given : Given) : SettingsSource :=
  { path := value? "settings" given
    minimalForm := isGiven "minimal-form" given
    ontologyDetails := isGiven "ontology-details" given }

/-- Reads the arguments of the command that writes JSON. -/
def compileCommand? (env : String → Option String) (arguments : List String) :
    Option Command := do
  let given ← addVariables? env compileOptions (← parse? compileOptions arguments [])
  pure (.compile (← source? given) (settingsSource given) (← value? "entity" given)
    (isGiven "submission" given) (value? "out" given))

/-- A text without the slashes at its end. -/
def trimSlashes (text : String) : String :=
  String.ofList (text.toList.reverse.dropWhile (· == '/')).reverse

/-- Reads the arguments of the command that writes pages. A template needs a place for the
filled text. -/
def pageCommand? (env : String → Option String) (arguments : List String) :
    Option Command := do
  let given ← addVariables? env pageOptions (← parse? pageOptions arguments [])
  let source ← source? given
  let out := (value? "out" given).getD "public/form.html"
  let base := trimSlashes ((value? "base-path" given).getD "")
  let template ← match value? "template" given, value? "template-out" given with
    | some template, some target => some (some (template, target))
    | some _, none => none
    | none, _ => some none
  if isGiven "list" given then
    pure (.list source.resources out base (isGiven "public-only" given))
  else
    pure (.page source (settingsSource given) (← value? "entity" given) (value? "title" given)
      out base template)

/-- Why a command cannot do its work. -/
inductive Failure
  | noSource
  | document (path : String) (error : LoadError)
  | resource (id directory : String) (error : LoadError)
  | contents (id : String) (error : LoadError)
  | settings (path : String) (parse : Bool)
  | write (path : String)
  | writePage (path : String)
  | writeText (path : String) (written : Written)
  | template (path : String)
  deriving Repr

namespace Failure

/-- What a failure is reported as; the cause is told apart from it. -/
def message : Failure → String
  | .noSource => "either --document or --resource is required"
  | .document path _ => "Failed to load document: " ++ path
  | .resource id directory _ => "Failed to load resource " ++ id ++ " from " ++ directory
  | .contents id _ => "Resource " ++ id ++ " has no usable contents"
  | .settings path _ => "Failed to load settings: " ++ path
  | .write path => "Failed to write: " ++ path
  | .writePage path => "Failed to write HTML: " ++ path
  | .writeText path .noDirectory => "Failed to create directory: " ++ Path.parent path
  | .writeText path _ => "Failed to write file: " ++ path
  | .template path => "Failed to read template: " ++ path

end Failure

variable {m : Type → Type} [Monad m]

/-- A step of a command. The state holds what has been printed. -/
abbrev StepT (m : Type → Type) := ExceptT Failure (StateT String m)

/-- Prints a line. -/
def printLine (text : String) : StepT m Unit :=
  modify (· ++ text ++ "\n")

/-- Loads the document asked for. -/
def loadDocument (files : Files m) (source : Source) : StepT m Document :=
  match source.document, source.resource with
  | some path, _ => do
    match ← files.read path with
    | none => throw (.document path .unreadable)
    | some text =>
      match Document.ofText text with
      | .ok d => pure d
      | .error e => throw (.document path e)
  | none, some id => do
    match Library.load (← files.directory source.resources) id with
    | .error e => throw (.resource id source.resources e)
    | .ok r =>
      match r.document with
      | .ok d => pure d
      | .error e => throw (.contents id e)
  | none, none => throw .noSource

/-- Loads the settings asked for. Arguments can switch on what a file leaves off. -/
def loadSettings (files : Files m) (source : SettingsSource) : StepT m Settings := do
  let settings ← match source.path with
    | none => pure {}
    | some path => do
      match ← files.read path with
      | none => throw (.settings path false)
      | some text =>
        match Settings.ofToml? text with
        | some s => pure s
        | none => throw (.settings path true)
  pure
    { settings with
      minimalForm := settings.minimalForm || source.minimalForm
      ontologyDetails := settings.ontologyDetails || source.ontologyDetails }

/-- Writes a page, making the directories around it. -/
def writePage (files : Files m) (path content : String) : StepT m Unit := do
  if (← files.write true path content) ≠ .done then throw (.writePage path)

/-- The title of the page of a focus: the label of its root, else the focus itself. -/
def defaultTitle (d : Document) (focus : String) : String :=
  let root := ((Document.steps focus).head?).getD focus
  ((d.root? root).bind fun e => e.displayLabel?).getD focus

/-- Lists what a path holds as a library. A file by itself is listed too. -/
def shelf (files : Files m) (path : String) : StepT m Directory := do
  match ← files.look path with
  | some .directory => files.directory path
  | some entry => pure [(Path.lastName path, entry)]
  | none => pure []

/-- Does what a command says. -/
def perform (files : Files m) : Command → StepT m Unit
  | .compile source settings focus submission out => do
    let d ← loadDocument files source
    let s ← loadSettings files settings
    let form := (Form.compile s d focus 1).1
    let text := (if submission then form.submission else form.toJson).pretty
    match out with
    | some path =>
      if (← files.write false path text) ≠ .done then throw (.write path)
      printLine ("Render tree written to " ++ path)
    | none => printLine text
  | .list resources out base publicOnly => do
    let summaries := Library.list (← shelf files resources)
    let filter : Filter := { isPublic := if publicOnly then some true else none }
    let content := Markup.render (Markup.listing summaries filter)
    writePage files out (Markup.page "Packages" content base)
    printLine ("Listing of " ++ toString summaries.length ++ " packages written to " ++ out)
  | .page source settings focus title out base template => do
    let d ← loadDocument files source
    let s ← loadSettings files settings
    let form := (Form.compile s d focus 1).1
    writePage files out (Markup.formPage form (title.getD (defaultTitle d focus)) base)
    printLine ("Form written to " ++ out)
    match template with
    | none => pure ()
    | some (path, target) =>
      match ← files.read path with
      | none => throw (.template path)
      | some markup =>
        let written ← files.write true target (form.fillTemplate markup)
        if written ≠ .done then throw (.writeText target written)
        printLine ("Template written to " ++ target)

/-- Runs a command that its arguments may have failed to give. -/
def run (files : Files m) (command : Option Command) : m Outcome :=
  match command with
  | none => pure ⟨2, "", none⟩
  | some command => do
    let (result, output) ← ((perform files command).run).run ""
    match result with
    | .ok _ => pure ⟨0, output, none⟩
    | .error e => pure ⟨1, output, some e.message⟩

end CommandLine

end EntryForm
