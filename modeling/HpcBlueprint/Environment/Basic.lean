/-
  Environment variables, and where they say that the embedded modules are.
-/
import HpcBlueprint.Files.Path
import HpcBlueprint.OrderedMap

namespace HpcBlueprint

/-- The environment variables of a run. -/
abbrev Environment := OrderedMap String

namespace Environment

/-- The variable that names the blueprint if the command line does not. -/
def blueprintVar : String := "CLUSTERKIT_BLUEPRINT"

/-- The variable that names the root of the embedded modules. -/
def modulesRootVar : String := "CLUSTERKIT_MODULES_ROOT"

/-- Sets variables that are not set. -/
def provide (env : Environment) (entries : List (String × String)) : Environment :=
  entries.foldl (fun env (name, value) =>
    if env.contains name then env else env.insert name value) env

/-- The directory of the user's data. -/
def dataDir? (env : Environment) : Option String :=
  match (env.get? "XDG_DATA_HOME").filter Path.isAbsolute with
  | some dir => some dir
  | none => ((env.get? "HOME").filter (!·.isEmpty)).map (Path.join · ".local/share")

/-- The root of the embedded modules: as the variable says, or below the user's data. -/
def embeddedRoot (env : Environment) : String :=
  match env.get? modulesRootVar with
  | some root => root
  | none => Path.join ((dataDir? env).getD ".") "clusterkit"

end Environment

end HpcBlueprint
