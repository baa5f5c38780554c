/-
  Wiring inputs that a module leaves unset.

  An unset input takes the output of the same name of the first used module that has one,
  and else the variable of the same name. Wiring writes references; nothing is resolved.
-/
import HpcBlueprint.Blueprint.Basic
import HpcBlueprint.Reference

namespace HpcBlueprint

namespace Module

/-- Sets an input to a reference unless it is set already. -/
def wire (settings : OrderedMap Value) (input : String) (r : Reference) : OrderedMap Value :=
  if settings.contains input then settings else settings.insert input (.string r.text)

/-- Wires the inputs for which a used module has an output. -/
def wireUse (inputs : List String) (settings : OrderedMap Value) (used : String) (schema : Schema) :
    OrderedMap Value :=
  (inputs.filter schema.hasOutput).foldl (fun s i => wire s i (.output used i)) settings

/-- Wires the inputs for which there is a variable. -/
def wireVars (inputs : List String) (settings : OrderedMap Value) (vars : OrderedMap Value) :
    OrderedMap Value :=
  (inputs.filter vars.contains).foldl (fun s i => wire s i (.var i)) settings

/-- The settings of a module after wiring. -/
def wired (b : Blueprint) (m : Module) : OrderedMap Value :=
  match m.schema with
  | none => m.settings
  | some schema =>
    let inputs := schema.inputs.map (·.name)
    let fromUses := m.uses.foldl (fun settings used =>
      match (b.module? used).bind (·.2.schema) with
      | some s => wireUse inputs settings used s
      | none => settings) m.settings
    wireVars inputs fromUses b.vars

end Module

/-- The blueprint with the inputs of every module wired. -/
def Blueprint.wire (b : Blueprint) : Blueprint :=
  { b with groups := b.groups.map fun g =>
      { g with modules := g.modules.map fun m => { m with settings := m.wired b } } }

end HpcBlueprint
