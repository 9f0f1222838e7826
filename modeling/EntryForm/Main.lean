import EntryForm.CommandLine

/-!
# The program

The first argument names the command: `compile` writes the form of an entity as JSON, `html` as a
page. The other arguments are those of the command.
-/

namespace EntryForm.Program

/-- What a step gives, if it succeeds. -/
def attempt {α : Type} (step : IO α) : IO (Option α) := do
  try pure (some (← step)) catch _ => pure none

/-- What a path stands for. -/
def lookAt (path : String) : IO (Option FileEntry) := do
  match ← attempt (do (← IO.FS.realPath path).isDir) with
  | none => pure none
  | some true => pure (some .directory)
  | some false =>
    match ← attempt (IO.FS.readFile path) with
    | some content => pure (some (.text content))
    | none => pure (some .binary)

/-- What lies right inside a directory. -/
def listDirectory (path : String) : IO Directory := do
  let some found ← attempt (do (← IO.FS.realPath path).readDir) | pure []
  let entries ← found.toList.mapM fun entry => do
    pure ((← lookAt entry.path.toString).map (entry.fileName, ·))
  pure (Fields.ofList (entries.filterMap id))

/-- Writes a file, first making the directories around it if asked to. -/
def writeText (parents : Bool) (path content : String) : IO Written := do
  let directory := Path.parent path
  let made ← if parents && directory != "" then attempt (IO.FS.createDirAll directory)
    else pure (some ())
  if made.isNone then pure .noDirectory
  else if (← attempt (IO.FS.writeFile path content)).isNone then pure .failed
  else pure .done

/-- The files of the system. -/
def systemFiles : Files IO where
  read path := attempt (IO.FS.readFile path)
  directory := listDirectory
  look := lookAt
  write := writeText

/-- The variables of the system that may stand in for options. -/
def environment (options : CommandLine.Options) : IO (String → Option String) := do
  let values ← (CommandLine.standIns options).mapM fun name => do pure (name, ← IO.getEnv name)
  pure fun name => (values.find? (·.1 == name)).bind Prod.snd

/-- The command that the arguments of the program ask for. -/
def command? : List String → IO (Option CommandLine.Command)
  | "compile" :: rest => do
    pure (CommandLine.compileCommand? (← environment CommandLine.compileOptions) rest)
  | "html" :: rest => do
    pure (CommandLine.pageCommand? (← environment CommandLine.pageOptions) rest)
  | _ => pure none

end EntryForm.Program

def main (arguments : List String) : IO UInt32 := do
  let command ← EntryForm.Program.command? arguments
  let outcome ← EntryForm.CommandLine.run EntryForm.Program.systemFiles command
  IO.print outcome.output
  match outcome.error with
  | some message => IO.eprintln ("Error: " ++ message)
  | none => pure ()
  pure outcome.exit.toUInt32
