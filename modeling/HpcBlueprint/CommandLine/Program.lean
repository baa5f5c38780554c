/-
  The program: from the words of its command line to what it prints and writes.
-/
import HpcBlueprint.CommandLine.Report
import HpcBlueprint.Environment.File
import HpcBlueprint.Validate.Builtin

namespace HpcBlueprint.CommandLine

variable {ω : Type}

/-- What a program comes to. -/
structure Outcome (ω : Type) where
  exitCode : Nat
  output : String
  errors : String
  /-- The files and surroundings afterwards. -/
  workspace : Workspace ω

/-! ## Command lines that ask for nothing that can be done -/

/-- The version of the program itself. -/
def programVersion : String := "0.1.0"

/-- How the program is used. -/
def usage : String :=
  "Usage: clusterkit [OPTIONS] <COMMAND>\n\nCommands:\n" ++
  "  expand   Expand a blueprint and write the materialized result to a file\n" ++
  "  create   Expand a blueprint and write a deployment directory\n" ++
  "  version  Print the toolkit version stamp\n" ++
  "  help     Print this message\n\nOptions:\n" ++
  "  -v, --verbose          Enable verbose output\n" ++
  "      --output <OUTPUT>  Output format [default: text] [possible values: text, json]\n" ++
  "  -h, --help             Print help\n" ++
  "  -V, --version          Print version\n"

/-- What is wrong with a command line. -/
def Stop.message : Stop → String
  | .missingArgument => "a required argument was not provided"
  | .missingCommand => "a command is required but was not provided"
  | .nothing => "a command is required but was not provided"
  | .unknownArgument => "an argument was not expected"
  | .unknownCommand => "unrecognized command"
  | .invalidValue => "invalid or missing value of an option"
  | .conflict => "an option cannot be used several times"
  | .needlessValue => "a value was given to an option that takes none"
  | .help => ""
  | .version _ => ""

/-- The outcome of a command line that asks for nothing that can be done. -/
def Stop.outcome (w : Workspace ω) : Stop → Outcome ω
  | .help => ⟨0, usage, "", w⟩
  | .version command => ⟨0, command ++ " " ++ programVersion ++ "\n", "", w⟩
  | stop => ⟨2, "", "error: " ++ stop.message ++ "\n\n" ++ usage, w⟩

/-! ## Commands -/

/-- What runs of the program know besides their options. -/
structure Setting (ω : Type) where
  fetchers : List (Fetcher ω)
  environment : Environment
  now : Instant

/-- The tools of a run, once the variables beside its blueprint are loaded. -/
def toolsFor (s : Setting ω) (fs : FileSystem) (blueprint : String) : Except Error (Run.Tools ω) :=
  match s.environment.load fs blueprint with
  | (.error e, _) => .error (.config e)
  | (.ok _, env) => .ok ⟨⟨env.embeddedRoot, s.fetchers⟩, Validator.builtin⟩

/-- Carries a command out: what it reports, and what it leaves behind. -/
def Command.perform (s : Setting ω) (format : Format) (w : Workspace ω) :
    Command → Except Error String × Workspace ω
  | .version => (.ok (versionReport format toolkitVersion), w)
  | .expand options out =>
    match toolsFor s w.files options.blueprint with
    | .error e => (.error e, w)
    | .ok tools =>
      match Run.expandToFile tools options out ⟨.empty, w⟩ with
      | (r, state) => (r.map (expansionReport format · out), state.workspace)
  | .create options destination =>
    match toolsFor s w.files options.blueprint with
    | .error e => (.error e, w)
    | .ok tools =>
      match Run.create tools options destination s.now ⟨.empty, w⟩ with
      | (r, state) => (r.map (creationReport format), state.workspace)

/-- Carries a command line out. -/
def perform (s : Setting ω) (w : Workspace ω) (words : List String) : Outcome ω :=
  match Invocation.ofWords s.environment words with
  | .error stop => stop.outcome w
  | .ok i =>
    match i.command.perform s i.format w with
    | (.ok text, w) => ⟨0, text, "", w⟩
    | (.error e, w) => ⟨1, "", errorReport i.format e, w⟩

end HpcBlueprint.CommandLine
