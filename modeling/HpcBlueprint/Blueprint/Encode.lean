/-
  Blueprints as YAML document trees.

  Fields that are empty or off are left out, except the variables, the level and the kind
  of a module. Schemas are never written.
-/
import HpcBlueprint.Blueprint.Basic
import HpcBlueprint.Value.Tree

namespace HpcBlueprint

open Yaml (Tree)

/-- A field of a record. -/
def Tree.field (name : String) (t : Tree) : Tree × Tree := (.string name, t)

/-- A field that is left out unless the condition holds. -/
def Tree.fieldIf (present : Bool) (name : String) (t : Tree) : List (Tree × Tree) :=
  if present then [Tree.field name t] else []

/-- A map of values. -/
def valuesTree (m : OrderedMap Value) : Tree := .mapping (Value.toTreeEntries m)

/-- The tree of an output. -/
def Output.toTree (o : Output) : Tree :=
  .mapping <|
    Tree.field "name" (.string o.name) ::
    Tree.fieldIf (!o.description.isEmpty) "description" (.string o.description) ++
    Tree.fieldIf o.isSensitive "sensitive" (.bool true)

/-- The tree of a backend. -/
def Backend.toTree (b : Backend) : Tree :=
  .mapping <|
    Tree.field "type" (.string b.type) ::
    Tree.fieldIf (!b.configuration.isEmpty) "configuration" (valuesTree b.configuration)

/-- The tree of a validator. -/
def ValidatorEntry.toTree (v : ValidatorEntry) : Tree :=
  .mapping <|
    Tree.field "validator" (.string v.validator) ::
    Tree.fieldIf v.skip "skip" (.bool true) ++
    Tree.fieldIf (!v.inputs.isEmpty) "inputs" (valuesTree v.inputs)

/-- The tree of a module. -/
def Module.toTree (m : Module) : Tree :=
  .mapping <|
    [Tree.field "id" (.string m.id),
     Tree.field "source" (.string m.source),
     Tree.field "kind" (.string m.kind.name)] ++
    Tree.fieldIf (!m.uses.isEmpty) "use" (.sequence (m.uses.map .string)) ++
    Tree.fieldIf (!m.settings.isEmpty) "settings" (valuesTree m.settings) ++
    Tree.fieldIf (!m.outputs.isEmpty) "outputs" (.sequence (m.outputs.map Output.toTree))

/-- The tree of a group. -/
def Group.toTree (g : Group) : Tree :=
  .mapping <|
    Tree.field "group" (.string g.name) ::
    (match g.backend with
      | some b => [Tree.field "terraform_backend" b.toTree]
      | none => []) ++
    [Tree.field "modules" (.sequence (g.modules.map Module.toTree))]

/-- The tree of a blueprint. -/
def Blueprint.toTree (b : Blueprint) : Tree :=
  .mapping <|
    Tree.field "blueprint_name" (.string b.name) ::
    Tree.fieldIf (!b.toolkitVersion.isEmpty) "toolkit_version" (.string b.toolkitVersion) ++
    Tree.fieldIf (!b.validators.isEmpty) "validators"
      (.sequence (b.validators.map ValidatorEntry.toTree)) ++
    [Tree.field "validation_level" (.string b.level.name)] ++
    Tree.fieldIf (!b.skipped.isEmpty) "skip_validators" (.sequence (b.skipped.map .string)) ++
    [Tree.field "vars" (valuesTree b.vars)] ++
    Tree.fieldIf (!b.backendDefaults.isEmpty) "terraform_backend_defaults"
      b.backendDefaults.toTree ++
    [Tree.field "deployment_groups" (.sequence (b.groups.map Group.toTree))]

end HpcBlueprint
