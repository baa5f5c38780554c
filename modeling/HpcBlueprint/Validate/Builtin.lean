/-
  The validators that are always there.
-/
import HpcBlueprint.Expand.Defaults
import HpcBlueprint.Source.Locator
import HpcBlueprint.Validate.Registry

namespace HpcBlueprint.Validator

/-- An objection with a hint. -/
def object (message hint : String) : Option Objection := some ⟨message, some hint⟩

/-! ## Usage -/

/-- Objects to variables that nothing refers to; the deployment name is always used. -/
def checkVariables : Validator := fun m _ =>
  let unused := m.blueprint.vars.keys.filter fun name =>
    name != deploymentNameVar && !m.usage.usedVars.contains name
  if unused.isEmpty then none
  else
    object ("the following variables are not used by any module: " ++ ", ".intercalate unused)
      "remove the variables or reference them from a module setting"

/-- Objects to entries of use lists that nothing is taken from. -/
def checkUses : Validator := fun m _ =>
  let describe (entry : String × String) : String :=
    "module " ++ entry.1 ++ " uses module " ++ entry.2 ++
      ", but matching setting and outputs were not found"
  if m.usage.unusedUses.isEmpty then none
  else
    object ("; ".intercalate (m.usage.unusedUses.map describe))
      "remove the module from the use list or add a setting that consumes its outputs"

/-! ## Sources -/

/-- Whether a source is fetched with git. -/
def isGitSource (source : String) : Bool :=
  Text.startsWith "git::" source || Text.startsWith "git@" source ||
    Text.startsWith "github.com/" source

/-- Whether the query of a source names a ref. -/
def isPinned (source : String) : Bool :=
  match Text.splitOnce '?' source with
  | none => false
  | some (_, query) => (Text.splitAll '&' query).any (Text.startsWith "ref=")

/-- Whether a module comes from git at no particular ref. -/
def isUnpinned (m : Module) : Bool :=
  Source.kind m.source == .remote && isGitSource m.source && !isPinned m.source

/-- Objects to git sources without a ref. -/
def checkSources : Validator := fun m _ =>
  let unpinned := (m.blueprint.modules.map (·.2)).filter isUnpinned
  if unpinned.isEmpty then none
  else
    object ("module sources are not pinned to a ref: " ++
        ", ".intercalate (unpinned.map fun m => m.id ++ " (" ++ m.source ++ ")"))
      "append ?ref=<tag or commit> to each remote source"

/-! ## Zones -/

/-- A zone is its region, a hyphen and a suffix without hyphens. -/
def isZoneOf (region zone : String) : Bool :=
  match (Text.dropStart? region zone).bind (Text.dropStart? "-") with
  | some suffix => !suffix.isEmpty && !suffix.toList.contains '-'
  | none => false

/-- Objects to a zone outside its region. -/
def checkZone : Validator := fun _ inputs =>
  match (inputs.get? "zone").bind Value.string?, (inputs.get? "region").bind Value.string? with
  | some zone, some region =>
    if isZoneOf region zone then none
    else object ("zone " ++ zone ++ " is not in region " ++ region)
      "set vars.zone to a zone of vars.region"
  | _, _ => some ⟨"inputs \"zone\" and \"region\" must both be strings", none⟩

/-- The validators that are always there. -/
def builtin : Registry :=
  [(deploymentVariableNotUsed, checkVariables),
   (moduleNotUsed, checkUses),
   (sourcePinned, checkSources),
   (zoneInRegion, checkZone)]

end HpcBlueprint.Validator
