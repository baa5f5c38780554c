/-
  What a run says about its outcome, for people or for programs.
-/
import HpcBlueprint.CommandLine.Invocation
import HpcBlueprint.CommandLine.Table
import HpcBlueprint.Json.Basic

namespace HpcBlueprint.CommandLine

open Json (Data)

/-! ## For people -/

/-- The table of the groups of a blueprint. -/
def groupTable (b : Blueprint) : Table :=
  ["Group", "Modules", "Backend"] :: b.groups.map fun g =>
    [g.name, toString g.modules.length, (g.backend.map (·.type)).getD "-"]

/-- The table of the failures of validators. -/
def failureTable (fs : List ValidationFailure) : Table :=
  ["Validator", "Message", "Hint"] :: fs.map fun f => [f.validator, f.message, f.hint.getD ""]

/-- What an expansion came to. -/
def expansionText (x : Run.Expansion) : String :=
  let b := x.result.blueprint
  "\nBlueprint: " ++ b.name ++ " (" ++ b.toolkitVersion ++ ")\n   Deployment: " ++
    b.deploymentName?.getD "" ++ "\n   Validation level: " ++ b.level.name ++ "\n\n" ++
    (if b.groups.isEmpty then "" else (groupTable b).render ++ "\n") ++
    (if x.warnings.isEmpty then ""
      else
        "\n⚠ " ++ toString x.warnings.length ++ " validator(s) failed:\n" ++
          (failureTable x.warnings).render ++ "\n")

/-! ## For programs -/

/-- A failure as data. -/
def failureFields (f : ValidationFailure) : List (String × Data) :=
  [("validator", .string f.validator), ("message", .string f.message),
   ("hint", .textOrNull f.hint)]

/-- An expansion as data. -/
def expansionFields (x : Run.Expansion) : List (String × Data) :=
  let b := x.result.blueprint
  [("blueprint_name", .string b.name), ("deployment_name", .textOrNull b.deploymentName?),
   ("toolkit_version", .string b.toolkitVersion), ("blueprint_hash", .string b.hash),
   ("groups", .texts b.groupNames),
   ("warnings", .array (x.warnings.map fun f => .object (failureFields f)))]

/-- A failure as data whose fields are sorted by name. -/
def sortedFailure (f : ValidationFailure) : Data :=
  .object [("hint", .textOrNull f.hint), ("message", .string f.message),
    ("validator", .string f.validator)]

/-! ## Reports -/

/-- The report on an expansion that was written to a file. -/
def expansionReport (format : Format) (x : Run.Expansion) (out : String) : String :=
  match format with
  | .text => expansionText x ++ "\n✓ Expanded blueprint written to " ++ out ++ "\n"
  | .json => (Data.object (expansionFields x ++ [("out", .string out)])).render

/-- The report on a deployment. -/
def creationReport (format : Format) (c : Run.Created) : String :=
  match format with
  | .text =>
    expansionText c.expansion ++ "\n✓ Deployment written to " ++ c.dir ++ "\n" ++
      (if c.isUnchanged then "   Blueprint unchanged since the last run.\n" else "") ++
      "   Follow the instructions in " ++ c.instructions ++ "\n"
  | .json =>
    (Data.object (expansionFields c.expansion ++
      [("deployment_dir", .string c.dir), ("instructions", .string c.instructions),
       ("unchanged", .bool c.isUnchanged)])).render

/-- The report on a run that failed. -/
def errorReport (format : Format) (e : Error) : String :=
  match format with
  | .text =>
    match e with
    | .validation fs => "✗ Validation failed:\n" ++ (failureTable fs).render ++ "\n"
    | .overwrite r => "✗ " ++ r.message ++ "\nHint: " ++ r.hint ++ "\n"
    | e => "✗ " ++ e.message ++ "\n"
  | .json =>
    let failures := match e with
      | .validation fs => [("failures", Data.array (fs.map sortedFailure))]
      | _ => []
    (Data.object (failures ++
      [("message", .string e.message), ("status", .string "error")])).render

/-- The report on the version. -/
def versionReport (format : Format) (version : String) : String :=
  match format with
  | .text => programName ++ " " ++ version ++ "\n"
  | .json => (Data.object [("version", .string version)]).render

end HpcBlueprint.CommandLine
