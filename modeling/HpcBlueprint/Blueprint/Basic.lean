/-
  Blueprints of cluster deployments.

  A blueprint has variables, validators, a default backend and groups of modules in the
  order in which they are provisioned. A module names where it comes from, what it uses
  and its settings; its schema is attached once it has been looked up.
-/
import HpcBlueprint.Value.Basic

namespace HpcBlueprint

/-! ## Module schemas -/

/-- A declared output of a module. -/
structure Output where
  name : String
  description : String
  /-- Whether the value is kept out of logs. -/
  isSensitive : Bool
deriving DecidableEq, Inhabited

/-- An output of which only the name is known. -/
def Output.named (name : String) : Output := ⟨name, "", false⟩

/-- A declared input of a module. -/
structure Input where
  name : String
  /-- The type as it is written in the module. -/
  type : String
  description : String
  default : Option Value
  /-- Whether the input has to be set. -/
  isRequired : Bool
deriving DecidableEq, Inhabited

/-- What a module declares. -/
structure Schema where
  inputs : List Input
  outputs : List Output
  /-- The services that the module needs, as far as they are known. -/
  services : List String
deriving DecidableEq, Inhabited

namespace Schema

/-- Whether an input of this name is declared. -/
def hasInput (s : Schema) (name : String) : Bool := s.inputs.any (·.name == name)

/-- Whether an output of this name is declared. -/
def hasOutput (s : Schema) (name : String) : Bool := s.outputs.any (·.name == name)

end Schema

/-! ## Blueprints -/

/-- The tool that provisions a module. -/
inductive ModuleKind
  | terraform
  | packer
deriving DecidableEq, Inhabited

/-- The name of a module kind. -/
def ModuleKind.name : ModuleKind → String
  | .terraform => "terraform"
  | .packer => "packer"

/-- What failures of validators lead to. -/
inductive ValidationLevel
  /-- A failure ends the run before anything is written. -/
  | error
  /-- Failures are reported. -/
  | warning
  /-- Validators do not run. -/
  | ignore
deriving DecidableEq, Inhabited

namespace ValidationLevel

/-- The name of a level. -/
def name : ValidationLevel → String
  | .error => "ERROR"
  | .warning => "WARNING"
  | .ignore => "IGNORE"

/-- The level of this name, in any mixture of upper and lower case. -/
def ofName? (name : String) : Option ValidationLevel :=
  let upper := name.map Char.toUpper
  if upper == "ERROR" then some .error
  else if upper == "WARNING" then some .warning
  else if upper == "IGNORE" then some .ignore
  else none

/-- The level of this number. -/
def ofCode? : Int → Option ValidationLevel
  | 0 => some .error
  | 1 => some .warning
  | 2 => some .ignore
  | _ => none

end ValidationLevel

/-- Where the state of provisioning is kept. -/
structure Backend where
  type : String
  configuration : OrderedMap Value
deriving DecidableEq, Inhabited

namespace Backend

/-- No backend. -/
def empty : Backend := ⟨"", []⟩

/-- Whether neither a type nor configuration is set. -/
def isEmpty (b : Backend) : Bool := b.type.isEmpty && b.configuration.isEmpty

end Backend

/-- A validator of a blueprint. -/
structure ValidatorEntry where
  validator : String
  /-- Whether the blueprint itself turns the validator off. -/
  skip : Bool
  inputs : OrderedMap Value
deriving DecidableEq, Inhabited

/-- A unit of infrastructure. -/
structure Module where
  id : String
  source : String
  kind : ModuleKind
  /-- The modules whose outputs fill inputs of the same name. -/
  uses : List String
  settings : OrderedMap Value
  outputs : List Output
  /-- What the module declares, once it has been looked up. -/
  schema : Option Schema
deriving DecidableEq, Inhabited

/-- Modules that are provisioned together. -/
structure Group where
  name : String
  backend : Option Backend
  modules : List Module
deriving DecidableEq, Inhabited

/-- A blueprint. -/
structure Blueprint where
  name : String
  /-- The version of the toolkit that expanded the blueprint; empty before. -/
  toolkitVersion : String
  validators : List ValidatorEntry
  level : ValidationLevel
  /-- Validators that do not run. -/
  skipped : NameSet
  vars : OrderedMap Value
  /-- The backend of groups without one of their own. -/
  backendDefaults : Backend
  groups : List Group
deriving DecidableEq, Inhabited

/-- The variable that every blueprint defines. -/
def deploymentNameVar : String := "deployment_name"

/-- The version that is stamped on expanded blueprints. -/
def toolkitVersion : String := "v0.1.0"

namespace Blueprint

/-- The deployment name, if it is a text. -/
def deploymentName? (b : Blueprint) : Option String :=
  (b.vars.get? deploymentNameVar).bind Value.string?

/-- The names of the groups in order. -/
def groupNames (b : Blueprint) : List String := b.groups.map (·.name)

/-- The modules of some groups with the numbers of their groups, counted from `i`. -/
def modulesFrom : Nat → List Group → List (Nat × Module)
  | _, [] => []
  | i, g :: rest => g.modules.map (i, ·) ++ modulesFrom (i + 1) rest

/-- The modules in order, each with the number of its group. -/
def modules (b : Blueprint) : List (Nat × Module) := modulesFrom 0 b.groups

/-- The first module of this name and the number of its group. -/
def module? (b : Blueprint) (id : String) : Option (Nat × Module) :=
  b.modules.find? (·.2.id == id)

/-- Whether a validator is in the skip set. -/
def isSkipped (b : Blueprint) (validator : String) : Bool := b.skipped.contains validator

/-- The place of a module in messages. -/
def modulePath (group module : Nat) : String :=
  "deployment_groups[" ++ toString group ++ "].modules[" ++ toString module ++ "]"

end Blueprint

/-! ## Settings of a run -/

/-- What a run changes in a blueprint before it is expanded. -/
structure Settings where
  vars : OrderedMap Value
  /-- Replaces the blueprint's default backend if its type is set. -/
  backendDefaults : Backend
  level : Option ValidationLevel
  /-- Further validators that do not run. -/
  skipped : NameSet
deriving DecidableEq, Inhabited

/-- Settings that change nothing. -/
def Settings.empty : Settings := ⟨[], Backend.empty, none, []⟩

end HpcBlueprint
