/-
  The checks on the shape of a blueprint.

  Group names and module names occur once, the modules of a group have one kind, and a
  module uses other terraform modules of its own or an earlier group. A module with a
  schema sets declared inputs only, sets all required ones and lists declared outputs.
-/
import HpcBlueprint.Error

namespace HpcBlueprint.Expand

/-! ## Names and kinds -/

/-- Checks the modules of a group from number `j` on, given the module names met before. -/
def checkModules (group : String) (i : Nat) (first : Option ModuleKind) :
    Nat → List String → List Module → Except ConfigError (List String)
  | _, seen, [] => .ok seen
  | j, seen, m :: rest =>
    if seen.contains m.id then
      .error (.duplicateName "module" m.id (Blueprint.modulePath i j ++ ".id"))
    else
      match first with
      | some kind =>
        if kind ≠ m.kind then
          .error (.kindMismatch group kind m.kind (Blueprint.modulePath i j ++ ".kind"))
        else checkModules group i first (j + 1) (m.id :: seen) rest
      | none => checkModules group i first (j + 1) (m.id :: seen) rest

/-- Checks the groups from number `i` on, given the group and module names met before. -/
def checkGroups : Nat → List String → List String → List Group → Except ConfigError Unit
  | _, _, _, [] => .ok ()
  | i, groups, modules, g :: rest =>
    if groups.contains g.name then
      .error (.duplicateName "deployment group" g.name
        ("deployment_groups[" ++ toString i ++ "].group"))
    else do
      let modules ← checkModules g.name i (g.modules.head?.map (·.kind)) 0 modules g.modules
      checkGroups (i + 1) (g.name :: groups) modules rest

/-! ## Uses -/

/-- Checks one entry of a use list. -/
def checkUse (b : Blueprint) (i : Nat) (m : Module) (used path : String) :
    Except ConfigError Unit :=
  match b.module? used with
  | none => .error (.unresolved used (.noModule used) path)
  | some (group, target) =>
    if used == m.id then .error (.invalidReference (.usesItself used) path)
    else if i < group then
      .error (.forwardReference m.id used ((b.groups[group]?.map (·.name)).getD "") path)
    else if target.kind == .packer then .error (.invalidReference (.usesPacker used) path)
    else .ok ()

/-- Checks the entries of a use list from number `k` on. -/
def checkUseList (b : Blueprint) (i j : Nat) (m : Module) :
    Nat → List String → Except ConfigError Unit
  | _, [] => .ok ()
  | k, used :: rest => do
    checkUse b i m used (Blueprint.modulePath i j ++ ".use[" ++ toString k ++ "]")
    checkUseList b i j m (k + 1) rest

/-! ## Visiting modules -/

/-- Applies a check to the modules of a group from number `j` on. -/
def eachModule (check : Nat → Nat → Module → Except ConfigError Unit) (i : Nat) :
    Nat → List Module → Except ConfigError Unit
  | _, [] => .ok ()
  | j, m :: rest => do
    check i j m
    eachModule check i (j + 1) rest

/-- Applies a check to the modules of the groups from number `i` on, in order. -/
def eachGroup (check : Nat → Nat → Module → Except ConfigError Unit) :
    Nat → List Group → Except ConfigError Unit
  | _, [] => .ok ()
  | i, g :: rest => do
    eachModule check i 0 g.modules
    eachGroup check (i + 1) rest

/-- Checks names, kinds and uses. -/
def checkStructure (b : Blueprint) : Except ConfigError Unit := do
  checkGroups 0 [] [] b.groups
  eachGroup (fun i j m => checkUseList b i j m 0 m.uses) 0 b.groups

/-! ## Schemas -/

/-- Checks the listed outputs of a module from number `k` on. -/
def checkOutputs (m : Module) (schema : Schema) (path : String) :
    Nat → List Output → Except ConfigError Unit
  | _, [] => .ok ()
  | k, o :: rest =>
    if schema.hasOutput o.name then checkOutputs m schema path (k + 1) rest
    else .error (.unknownOutput m.id o.name (path ++ ".outputs[" ++ toString k ++ "]"))

/-- Checks a module against a schema. -/
def checkModule (m : Module) (schema : Schema) (path : String) : Except ConfigError Unit := do
  match m.settings.keys.find? (!schema.hasInput ·) with
  | some key => .error (.unknownSetting m.id key (path ++ ".settings." ++ key))
  | none => .ok ()
  match schema.inputs.find? (fun i => i.isRequired && !m.settings.contains i.name) with
  | some input => .error (.missingInput m.id input.name path)
  | none => .ok ()
  checkOutputs m schema path 0 m.outputs

/-- Checks every module that has a schema. -/
def checkSettings (b : Blueprint) : Except ConfigError Unit :=
  eachGroup (fun i j m =>
    match m.schema with
    | some schema => checkModule m schema (Blueprint.modulePath i j)
    | none => .ok ()) 0 b.groups

end HpcBlueprint.Expand
