/-
  The commands of the program, and what a command line asks for.

  Options that every command understands may stand before or behind the name of the
  command; what stands behind it wins.
-/
import HpcBlueprint.CommandLine.Scan
import HpcBlueprint.Environment.Basic
import HpcBlueprint.Run.Creation

namespace HpcBlueprint.CommandLine

/-! ## Grammars -/

/-- How results are shown. -/
inductive Format
  | text
  | json
deriving DecidableEq, Inhabited

/-- The formats by their names. -/
def formats : List (String × Format) := [("text", .text), ("json", .json)]

/-- The options that every command understands. -/
def commonOptions : List Slot :=
  [⟨"verbose", some 'v', .flag⟩,
   ⟨"output", none, .value (.choice (formats.map (·.1)))⟩,
   ⟨"help", some 'h', .help⟩,
   ⟨"version", some 'V', .version⟩]

/-- The options of commands that expand a blueprint. -/
def blueprintOptions : List Slot :=
  [⟨"deployment-file", some 'd', .value .path⟩,
   ⟨"vars", none, .values false⟩,
   ⟨"backend-config", none, .values false⟩,
   ⟨"validation-level", some 'l', .value .text⟩,
   ⟨"skip-validators", none, .values true⟩,
   ⟨"out", some 'o', .value .path⟩]

/-- The blueprint that a command expands. -/
def blueprintSlot : Slot := ⟨"blueprint", none, .value .path⟩

/-- The name of the program. -/
def programName : String := "clusterkit"

/-- The commands that do something. -/
def commandNames : List String := ["expand", "create", "version"]

/-- The command that explains the others. -/
def helpCommand : String := "help"

/-- The grammar in front of the name of a command. -/
def rootGrammar : Grammar :=
  ⟨programName, commonOptions, none, commandNames ++ [helpCommand]⟩

/-- The grammar behind the name of a command. -/
def commandGrammar (command : String) : Grammar :=
  let name := programName ++ "-" ++ command
  if command == "expand" then ⟨name, commonOptions ++ blueprintOptions, some blueprintSlot, []⟩
  else if command == "create" then
    ⟨name, commonOptions ++ blueprintOptions ++
      [⟨"overwrite-deployment", some 'w', .flag⟩, ⟨"force", none, .flag⟩], some blueprintSlot, []⟩
  else ⟨name, commonOptions, none, []⟩

/-! ## Invocations -/

/-- What is to be done. -/
inductive Command
  | expand (options : Run.Options) (out : String)
  | create (options : Run.Options) (destination : Run.Destination)
  | version

/-- What a command line asks for. -/
structure Invocation where
  isVerbose : Bool
  format : Format
  command : Command

/-- What a command is given; the environment may name the blueprint. -/
def readCommand (env : Environment) (command : String) (words : List String) :
    Except Stop Given := do
  let g := commandGrammar command
  let (s, _) ← Scan.words g .start words
  let s ← s.settle
  match g.argument with
  | none => return s.given
  | some slot =>
    if s.given.has slot.name then return s.given
    else
      match env.get? Environment.blueprintVar with
      | some value => Scan.store s.given slot [value]
      | none => .error .missingArgument

/-- What the program is given before the name of a command, and that name with what the
    command is given. -/
def readWords (env : Environment) (words : List String) : Except Stop (Given × String × Given) := do
  let (s, next) ← Scan.words rootGrammar .start words
  match next with
  | some (command, rest) =>
    if command == helpCommand then
      let isKnown := match rest with
        | [] => true
        | [name] => rootGrammar.commands.contains name
        | _ => false
      .error (if isKnown then .help else .unknownCommand)
    else do
      let given ← readCommand env command rest
      let s ← s.settle
      return (s.given, command, given)
  | none => do
    let s ← s.settle
    .error (if s.given.isEmpty then .nothing else .missingCommand)

/-- The options of a command that expands a blueprint. -/
def optionsOf (g : Given) : Run.Options where
  blueprint := (g.last? "blueprint").getD ""
  settingsFile := g.last? "deployment-file"
  overrides :=
    ⟨g.values "vars", g.values "backend-config", g.last? "validation-level",
     g.values "skip-validators"⟩

/-- The command of a name. -/
def commandOf (name : String) (g : Given) : Command :=
  if name == "expand" then .expand (optionsOf g) ((g.last? "out").getD "expanded.yaml")
  else if name == "create" then
    .create (optionsOf g)
      ⟨(g.last? "out").getD ".", ⟨g.has "overwrite-deployment", g.has "force"⟩⟩
  else .version

/-- What a command line asks for, if it asks for something that can be done. -/
def Invocation.ofWords (env : Environment) (words : List String) : Except Stop Invocation := do
  let (common, name, given) ← readWords env words
  let format := (given.last? "output").orElse fun _ => common.last? "output"
  return {
    isVerbose := common.has "verbose" || given.has "verbose"
    format := (format.bind (formats.lookup ·)).getD .text
    command := commandOf name given }

end HpcBlueprint.CommandLine
