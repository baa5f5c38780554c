/-
  Materializing a blueprint: every reference to a variable is replaced by its value, and
  every reference to a module output is checked.
-/
import HpcBlueprint.Expand.Structure
import HpcBlueprint.Expand.Resolve
import HpcBlueprint.Expand.Cycle

namespace HpcBlueprint

/-- What the references of a blueprint say about its parts. -/
structure Usage where
  /-- The variables that anything refers to. -/
  usedVars : NameSet
  /-- Modules and entries of their use lists of which they use nothing. -/
  unusedUses : List (String × String)
deriving DecidableEq, Inhabited

/-- No facts. -/
def Usage.empty : Usage := ⟨[], []⟩

/-- A blueprint without unresolved references. -/
structure Materialized where
  blueprint : Blueprint
  usage : Usage
deriving DecidableEq, Inhabited

namespace Expand

/-! ## Variables -/

/-- Resolves variables in order; each may refer to those before it, which are given. -/
def resolveVars (b : Blueprint) (done : OrderedMap Value) :
    List (String × Value) → Except ConfigError (OrderedMap Value)
  | [] => .ok done
  | (name, v) :: rest => do
    let w ← Scope.resolve ⟨done, .inVariable, b⟩ ("vars." ++ name) v
    resolveVars b (done.insert name w) rest

/-- Whether a text is the name of a single directory. -/
def isDirectoryName (name : String) : Bool :=
  !name.isEmpty && name != "." && name != ".." && !name.toList.any fun c => c == '/' || c == '\\'

/-- Checks that the deployment name can be used for a directory. -/
def checkDeploymentName (vars : OrderedMap Value) : Except ConfigError Unit :=
  match vars.get? deploymentNameVar with
  | none => .error (.invalidName .missing)
  | some (.string name) =>
    if name.isEmpty then .error (.invalidName .notText)
    else if isDirectoryName name then .ok ()
    else .error (.invalidName (.notDirectoryName name))
  | some _ => .error (.invalidName .notText)

/-! ## Modules -/

/-- Resolves the values of a map in order. -/
def resolveMap (s : Scope) (path : String) (m : OrderedMap Value) :
    Except ConfigError (OrderedMap Value) :=
  m.mapM fun key v => s.resolve (path ++ "." ++ key) v

/-- Resolves the settings of a module. -/
def resolveModule (b : Blueprint) (vars : OrderedMap Value) (i j : Nat) (m : Module) :
    Except ConfigError Module := do
  let settings ← resolveMap ⟨vars, .inModule m.id i, b⟩ (Blueprint.modulePath i j ++ ".settings")
    m.settings
  return { m with settings }

/-- Resolves the modules of a group from number `j` on. -/
def resolveModules (b : Blueprint) (vars : OrderedMap Value) (i : Nat) :
    Nat → List Module → Except ConfigError (List Module)
  | _, [] => .ok []
  | j, m :: rest => do
    let m ← resolveModule b vars i j m
    return m :: (← resolveModules b vars i (j + 1) rest)

/-- Resolves the modules of the groups from number `i` on. -/
def resolveGroups (b : Blueprint) (vars : OrderedMap Value) :
    Nat → List Group → Except ConfigError (List Group)
  | _, [] => .ok []
  | i, g :: rest => do
    let modules ← resolveModules b vars i 0 g.modules
    return { g with modules } :: (← resolveGroups b vars (i + 1) rest)

/-- The modules whose outputs a module's settings refer to. -/
def targets (m : Module) : List String := m.settings.references.filterMap Reference.module?

/-- What the modules of a group depend on inside the group. -/
def groupDependencies (g : Group) : Dependencies :=
  g.modules.map fun m =>
    (m.id, (NameSet.ofList (targets m)).filter fun t => g.modules.any (·.id == t))

/-- Fails at the first group whose modules depend on each other in a circle. -/
def checkCycles : List Group → Except ConfigError Unit
  | [] => .ok ()
  | g :: rest =>
    match (groupDependencies g).findCycle with
    | some members => .error (.cycle members)
    | none => checkCycles rest

/-! ## Validators and backends -/

/-- Resolves the inputs of the validators from number `i` on. -/
def resolveValidators (s : Scope) :
    Nat → List ValidatorEntry → Except ConfigError (List ValidatorEntry)
  | _, [] => .ok []
  | i, v :: rest => do
    let inputs ← resolveMap s ("validators[" ++ toString i ++ "].inputs") v.inputs
    return { v with inputs } :: (← resolveValidators s (i + 1) rest)

/-- Resolves the configuration of a backend. -/
def resolveBackend (s : Scope) (path : String) (backend : Backend) :
    Except ConfigError Backend := do
  let configuration ← resolveMap s (path ++ ".configuration") backend.configuration
  return { backend with configuration }

/-- Resolves the backends of the groups from number `i` on. -/
def resolveGroupBackends (s : Scope) : Nat → List Group → Except ConfigError (List Group)
  | _, [] => .ok []
  | i, g :: rest => do
    let backend ← match g.backend with
      | none => Except.ok none
      | some backend =>
        (resolveBackend s ("deployment_groups[" ++ toString i ++ "].terraform_backend")
          backend).map some
    return { g with backend } :: (← resolveGroupBackends s (i + 1) rest)

end Expand

/-! ## Usage -/

namespace Blueprint

/-- All references of a blueprint. -/
def references (b : Blueprint) : List Reference :=
  b.vars.references ++
  b.modules.flatMap (fun (_, m) => m.settings.references) ++
  b.validators.flatMap (·.inputs.references) ++
  b.backendDefaults.configuration.references ++
  b.groups.flatMap fun g => (g.backend.map (·.configuration.references)).getD []

/-- The facts that the references of a blueprint show. -/
def usage (b : Blueprint) : Usage where
  usedVars := NameSet.ofList (b.references.filterMap Reference.var?)
  unusedUses := b.modules.flatMap fun (_, m) =>
    (m.uses.filter fun used => !(Expand.targets m).contains used).map (m.id, ·)

open Expand in
/-- Checks a blueprint and resolves all its references. -/
def materialize (b : Blueprint) : Except ConfigError Materialized := do
  checkStructure b
  checkSettings b
  let vars ← resolveVars b [] b.vars
  checkDeploymentName vars
  let groups ← resolveGroups b vars 0 b.groups
  checkCycles b.groups
  let scope : Scope := ⟨vars, .elsewhere, b⟩
  let validators ← resolveValidators scope 0 b.validators
  let backendDefaults ← resolveBackend scope "terraform_backend_defaults" b.backendDefaults
  let groups ← resolveGroupBackends scope 0 groups
  return ⟨{ b with vars, groups, validators, backendDefaults }, b.usage⟩

end Blueprint

/-- Materializes once more; variables used before count as used. -/
def Materialized.again (m : Materialized) : Except ConfigError Materialized := do
  let n ← m.blueprint.materialize
  return { n with usage := { n.usage with usedVars := n.usage.usedVars.union m.usage.usedVars } }

end HpcBlueprint
