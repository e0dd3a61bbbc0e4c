import AnnotationPlan.Report.Response
import AnnotationPlan.Scene.Load
import AnnotationPlan.Settings

/-!
# The command line

There are two commands. `synthesize` makes a plan for the scene in a file and answers
with it as JSON or as a listing; a second file may hold a table of what is known about
constructors. `ambiguity` answers with the simple names of a scene that must be written
in full.

A command is run on the contents of files and on an environment (`Command.run`), and
answers with what is to be printed. Settings are resolved before a file is looked at,
and the scene before the table. Everything that can go wrong has a code, which is also
the exit code of the program.
-/

namespace AnnotationPlan

/-- How a plan is answered with. -/
inductive OutputFormat where
  /-- As JSON. -/
  | json
  /-- As a listing. -/
  | listing
deriving DecidableEq

/-- **A command.** -/
inductive Command where
  /-- Make a plan for a scene. -/
  | synthesize (scene : String) (constructors : Option String) (overrides : Overrides)
      (format : OutputFormat)
  /-- Find the names of a scene that must be written in full. -/
  | ambiguity (scene : String)

/-- **Why a command failed.** -/
inductive CommandError where
  /-- A file cannot be read as text. -/
  | unreadable (path : String)
  /-- A file does not hold what it should. -/
  | unusable (path : String) (error : LoadError)
  /-- A setting has a wrong value. -/
  | setting (error : SettingError)
  /-- The run stopped. -/
  | stopped (error : PlanError)

namespace CommandError

/-- The code of an error. -/
def code : CommandError → ErrorCode
  | unreadable _ => .invalidArguments
  | unusable _ _ => .invalidScene
  | setting _ => .invalidArguments
  | stopped e => e.code

/-- The text that reports an error. -/
def message : CommandError → String
  | unreadable path => "cannot read " ++ path
  | unusable path _ => "cannot parse " ++ path
  | setting e => e.message
  | stopped e => e.message

/-- The answer with an error. -/
def response (e : CommandError) : Json := errorResponse e.code e.message

end CommandError

namespace Command

/-- The text of a file. -/
def readText (files : String → Option ByteArray) (path : String) :
    Except CommandError String :=
  match (files path).bind String.fromUTF8? with
  | some s => .ok s
  | none => .error (.unreadable path)

/-- A value of the library from a file. -/
def readFile {α : Type} (load : Load.Loader α) (files : String → Option ByteArray)
    (path : String) : Except CommandError α := do
  let s ← readText files path
  (Load.ofText load s).mapError (CommandError.unusable path)

/-- The table of constructors; without a file it is empty. -/
def readTable (files : String → Option ByteArray) (path : Option String) :
    Except CommandError ConstructorTable :=
  match path with
  | none => .ok .empty
  | some p => readFile ConstructorTable.load files p

/-- A plan in a format. -/
def output (format : OutputFormat) (p : Plan) : Except PlanError String :=
  match format with
  | .json => do
    let v ← p.response
    pure v.lines
  | .listing => p.listing

/-- **Run a command** on the contents of files and an environment. -/
def run (environment : String → Option String) (files : String → Option ByteArray) :
    Command → Except CommandError String
  | synthesize scenePath tablePath overrides format => do
    let settings ← (LayeredSettings.resolve environment overrides).mapError CommandError.setting
    let scene ← readFile Scene.load files scenePath
    let table ← readTable files tablePath
    let plan ← (Plan.ofScene scene table.lookup settings.plain).mapError CommandError.stopped
    (output format plan).mapError CommandError.stopped
  | ambiguity scenePath => do
    let scene ← readFile Scene.load files scenePath
    pure (NamePolicy.ofTable scene.definitions).response.lines

/-- The files that a command reads. -/
def paths : Command → List String
  | synthesize scenePath tablePath _ _ => scenePath :: tablePath.toList
  | ambiguity scenePath => [scenePath]

/-! ## Arguments -/

/-- The options of a command line, by name, the last first. A name given without a value
is a flag. -/
def options : List String → Option (List (String × Option String))
  | [] => some []
  | "--no-bytecode" :: rest => (options rest).map (· ++ [("--no-bytecode", none)])
  | [_] => none
  | name :: value :: rest => (options rest).map (· ++ [(name, some value)])

/-- The value of an option. -/
def option? (given : List (String × Option String)) (name : String) : Option String :=
  (given.lookup name).bind id

/-- The names of the formats. -/
def formats : List (String × OutputFormat) := [("json", .json), ("text", .listing)]

/-- How the program is used. -/
def usage : String :=
  "usage: synthesize --scene FILE [--constructors FILE] [--no-bytecode] "
    ++ "[--unknown-constructors suppress|synthesize] [--format json|text]\n"
    ++ "       ambiguity --scene FILE\n"

/-- **Read a command from its arguments**; nothing if they make none. -/
def ofArguments? : List String → Option Command
  | "synthesize" :: rest => do
    let given ← options rest
    let known := ["--scene", "--constructors", "--no-bytecode", "--unknown-constructors",
      "--format"]
    if given.any (fun o => !known.contains o.1) then none
    else
      let scenePath ← option? given "--scene"
      let policy ← match option? given "--unknown-constructors" with
        | none => some none
        | some s =>
          match UnknownConstructors.parse UnknownConstructors.flagName s with
          | .ok policy => some (some policy)
          | .error _ => none
      let format ← match option? given "--format" with
        | none => some OutputFormat.json
        | some s => formats.lookup s
      pure (.synthesize scenePath (option? given "--constructors")
        ⟨policy, (given.lookup "--no-bytecode").isSome⟩ format)
  | "ambiguity" :: rest => do
    let given ← options rest
    if given.any (fun o => o.1 != "--scene") then none
    else
      let scenePath ← option? given "--scene"
      pure (.ambiguity scenePath)
  | _ => none

end Command

end AnnotationPlan
