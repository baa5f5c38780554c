/-
  What a blueprint gets where it says nothing: backends of groups, and validators.
-/
import HpcBlueprint.Blueprint.Basic
import HpcBlueprint.Reference

namespace HpcBlueprint

/-! ## Backends -/

/-- Whether all modules of a group are provisioned by terraform. -/
def Group.isTerraform (g : Group) : Bool := g.modules.all (·.kind == .terraform)

/-- The blueprint with its default backend in every terraform group without one. -/
def Blueprint.spreadBackend (b : Blueprint) : Blueprint :=
  if b.backendDefaults.isEmpty then b
  else
    { b with groups := b.groups.map fun g =>
        if g.isTerraform && g.backend.isNone then { g with backend := some b.backendDefaults }
        else g }

/-! ## Validators -/

namespace Validator

/-- The validator that wants every variable used. -/
def deploymentVariableNotUsed : String := "test_deployment_variable_not_used"

/-- The validator that wants every entry of a use list used. -/
def moduleNotUsed : String := "test_module_not_used"

/-- The validator that wants a ref in every git source. -/
def sourcePinned : String := "test_source_pinned"

/-- The validator that wants a zone to lie in its region. -/
def zoneInRegion : String := "test_zone_in_region"

end Validator

namespace Blueprint

/-- The validators that run if a blueprint names none. -/
def defaultValidators (b : Blueprint) : List ValidatorEntry :=
  [⟨Validator.deploymentVariableNotUsed, false, []⟩,
   ⟨Validator.moduleNotUsed, false, []⟩,
   ⟨Validator.sourcePinned, false, []⟩] ++
  if b.vars.contains "zone" && b.vars.contains "region" then
    [⟨Validator.zoneInRegion, false,
      [("zone", .string (Reference.var "zone").text),
       ("region", .string (Reference.var "region").text)]⟩]
  else []

/-- The blueprint with the default validators if it names none. -/
def withValidators (b : Blueprint) : Blueprint :=
  if b.validators.isEmpty then { b with validators := b.defaultValidators } else b

end Blueprint

end HpcBlueprint
