/-
  The expansion does not look at the services that modules need.

  Services stand in the schemas that every pass gets to see.  But no pass asks a schema for
  anything else than its inputs and outputs, so services may be taken away before or after any
  of them (`expand_withoutServices`), and what is written of a blueprint shows none.
-/
import HpcBlueprint.Blueprint.Document
import HpcBlueprint.Proofs.Expand.Level

namespace HpcBlueprint

open Expand

/-! ## Services -/

/-- The same schema without services. -/
def Schema.withoutServices (s : Schema) : Schema := { s with services := [] }

/-- The same module with a schema without services. -/
def Module.withoutServices (m : Module) : Module :=
  { m with schema := m.schema.map Schema.withoutServices }

/-- The same group with schemas without services. -/
def Group.withoutServices (g : Group) : Group :=
  { g with modules := g.modules.map Module.withoutServices }

/-- The same blueprint with schemas without services. -/
def Blueprint.withoutServices (b : Blueprint) : Blueprint :=
  { b with groups := b.groups.map Group.withoutServices }

@[simp] theorem Module.schema_withoutServices (m : Module) :
    m.withoutServices.schema = m.schema.map Schema.withoutServices := rfl

@[simp] theorem Group.modules_withoutServices (g : Group) :
    g.withoutServices.modules = g.modules.map Module.withoutServices := rfl

@[simp] theorem Blueprint.groups_withoutServices (b : Blueprint) :
    b.withoutServices.groups = b.groups.map Group.withoutServices := rfl

/-- The same expanded blueprint with schemas without services. -/
def Materialized.withoutServices (m : Materialized) : Materialized :=
  { m with blueprint := m.blueprint.withoutServices }

/-- The same look-up, of a schema without services. -/
def Finished.withoutServices (f : Finished) : Finished :=
  { f with outcome := f.outcome.map Schema.withoutServices }

namespace Blueprint

variable (b : Blueprint)

/-! ## What references ask for -/

theorem modulesFrom_withoutServices (i : Nat) (gs : List Group) :
    modulesFrom i (gs.map Group.withoutServices) =
      (modulesFrom i gs).map fun (k, m) => (k, m.withoutServices) := by
  induction gs generalizing i with
  | nil => rfl
  | cons g rest ih =>
      rw [List.map_cons, modulesFrom, modulesFrom, ih, List.map_append, List.map_map]
      congr 1
      exact List.map_map

theorem modules_withoutServices :
    b.withoutServices.modules = b.modules.map fun (k, m) => (k, m.withoutServices) :=
  modulesFrom_withoutServices 0 b.groups

theorem module?_withoutServices (id : String) :
    b.withoutServices.module? id =
      (b.module? id).map fun (k, m) => (k, m.withoutServices) := by
  rw [module?, module?, modules_withoutServices, List.find?_map]
  rfl

theorem groupName_withoutServices (i : Nat) :
    (b.withoutServices.groups[i]?.map (·.name)) = b.groups[i]?.map (·.name) := by
  rw [groups_withoutServices, List.getElem?_map, Option.map_map]
  rfl

theorem sameAnswers_withoutServices : Scope.SameAnswers b.withoutServices b := by
  intro vars pos path module name
  unfold Scope.checkOutput
  simp only [module?_withoutServices, groupName_withoutServices]
  cases pos with
  | inVariable => rfl
  | elsewhere => rfl
  | inModule own group =>
      cases hfound : b.module? module with
      | none => rfl
      | some found =>
          obtain ⟨k, target⟩ := found
          -- of the schema that is found, only the outputs matter
          dsimp only [Option.map_some]
          rw [Module.schema_withoutServices]
          cases target.schema <;> rfl

/-! ## Wiring and defaults -/

theorem wired_withoutServices (m : Module) :
    m.withoutServices.wired b.withoutServices = m.wired b := by
  unfold Module.wired
  -- a module asks for its own inputs, and each module that it uses for the outputs
  have huses : ∀ used, (b.withoutServices.module? used).bind (·.2.schema) =
      ((b.module? used).bind (·.2.schema)).map Schema.withoutServices := by
    intro used
    rw [module?_withoutServices]
    cases b.module? used <;> rfl
  cases hschema : m.schema with
  | none => simp only [Module.withoutServices, hschema, Option.map_none]
  | some schema =>
      simp only [Module.withoutServices, hschema, Option.map_some, huses]
      congr 1
      congr 1
      funext settings used
      cases (b.module? used).bind (·.2.schema) <;> rfl

theorem wire_withoutServices : b.withoutServices.wire = b.wire.withoutServices := by
  have hmodule : ∀ m : Module,
      { m.withoutServices with settings := m.withoutServices.wired b.withoutServices } =
        ({ m with settings := m.wired b } : Module).withoutServices := by
    intro m
    rw [wired_withoutServices]
    rfl
  have hmodules : ∀ ms : List Module,
      (ms.map Module.withoutServices).map
          (fun m => { m with settings := m.wired b.withoutServices }) =
        (ms.map fun m => { m with settings := m.wired b }).map Module.withoutServices := by
    intro ms
    rw [List.map_map, List.map_map]
    exact List.map_congr_left fun m _ => hmodule m
  have hgroups : (b.groups.map Group.withoutServices).map (fun g =>
        { g with modules := g.modules.map fun m =>
            { m with settings := m.wired b.withoutServices } }) =
      (b.groups.map fun g => { g with modules := g.modules.map fun m =>
        { m with settings := m.wired b } }).map Group.withoutServices := by
    rw [List.map_map, List.map_map]
    refine List.map_congr_left fun g _ => ?_
    simp only [Function.comp, Group.withoutServices, hmodules]
  rw [wire, wire, Blueprint.withoutServices, Blueprint.withoutServices]
  dsimp only
  rw [← Blueprint.withoutServices, hgroups]

theorem isTerraform_withoutServices (g : Group) :
    g.withoutServices.isTerraform = g.isTerraform := by
  rw [Group.isTerraform, Group.isTerraform, Group.withoutServices, List.all_map]
  rfl

theorem spreadBackend_withoutServices :
    b.withoutServices.spreadBackend = b.spreadBackend.withoutServices := by
  unfold spreadBackend
  rw [apply_ite Blueprint.withoutServices]
  have hgroups : (b.groups.map Group.withoutServices).map (fun g =>
        if g.isTerraform && g.backend.isNone then { g with backend := some b.backendDefaults }
        else g) =
      (b.groups.map fun g =>
        if g.isTerraform && g.backend.isNone then { g with backend := some b.backendDefaults }
        else g).map Group.withoutServices := by
    rw [List.map_map, List.map_map]
    refine List.map_congr_left fun g _ => ?_
    simp only [Function.comp, isTerraform_withoutServices]
    rw [apply_ite Group.withoutServices]
    rfl
  have hdefaults : b.withoutServices.backendDefaults = b.backendDefaults := rfl
  rw [hdefaults]
  split
  · rfl
  · simp only [Blueprint.withoutServices, hgroups]

theorem withValidators_withoutServices :
    b.withoutServices.withValidators = b.withValidators.withoutServices := by
  unfold withValidators
  rw [apply_ite Blueprint.withoutServices]
  rfl

theorem filled_withoutServices : b.withoutServices.filled = b.filled.withoutServices := by
  rw [filled, filled, wire_withoutServices, spreadBackend_withoutServices,
    withValidators_withoutServices]

end Blueprint

/-! ## Checks -/

namespace Expand

variable {b : Blueprint} {vars : OrderedMap Value} {pos : Position}

theorem eachModule_map (check : Nat → Nat → Module → Except ConfigError Unit)
    (h : Module → Module) (i j : Nat) (ms : List Module) :
    eachModule check i j (ms.map h) = eachModule (fun i j m => check i j (h m)) i j ms := by
  induction ms generalizing j with
  | nil => rfl
  | cons m rest ih => rw [List.map_cons, eachModule, eachModule, ih]

theorem eachGroup_withoutServices (check : Nat → Nat → Module → Except ConfigError Unit) (i : Nat)
    (gs : List Group) :
    eachGroup check i (gs.map Group.withoutServices) =
      eachGroup (fun i j m => check i j m.withoutServices) i gs := by
  induction gs generalizing i with
  | nil => rfl
  | cons g rest ih =>
      rw [List.map_cons, eachGroup, eachGroup, ih, Group.withoutServices, eachModule_map]

theorem checkModules_withoutServices (group : String) (i : Nat) (first : Option ModuleKind)
    (j : Nat) (seen : List String) (ms : List Module) :
    checkModules group i first j seen (ms.map Module.withoutServices) =
      checkModules group i first j seen ms := by
  induction ms generalizing j seen with
  | nil => rfl
  | cons m rest ih => simp only [List.map_cons, checkModules, ih, Module.withoutServices]

theorem checkGroups_withoutServices (i : Nat) (groups modules : List String) (gs : List Group) :
    checkGroups i groups modules (gs.map Group.withoutServices) =
      checkGroups i groups modules gs := by
  induction gs generalizing i groups modules with
  | nil => rfl
  | cons g rest ih =>
      have hfirst : ((g.modules.map Module.withoutServices).head?.map (·.kind)) =
          g.modules.head?.map (·.kind) := by
        rw [List.head?_map, Option.map_map]
        rfl
      simp only [List.map_cons, checkGroups, ih, Group.withoutServices, hfirst,
        checkModules_withoutServices]

theorem checkUse_withoutServices (b : Blueprint) (i : Nat) (m : Module) (used path : String) :
    checkUse b.withoutServices i m.withoutServices used path = checkUse b i m used path := by
  unfold checkUse
  simp only [Blueprint.module?_withoutServices, Blueprint.groupName_withoutServices]
  cases b.module? used <;> rfl

theorem checkUseList_withoutServices (b : Blueprint) (i j : Nat) (m : Module) (k : Nat)
    (uses : List String) :
    checkUseList b.withoutServices i j m.withoutServices k uses = checkUseList b i j m k uses := by
  induction uses generalizing k with
  | nil => rfl
  | cons used rest ih => rw [checkUseList, checkUseList, checkUse_withoutServices, ih]

theorem checkStructure_withoutServices (b : Blueprint) :
    checkStructure b.withoutServices = checkStructure b := by
  have huses : (fun i j (m : Module) => checkUseList b.withoutServices i j m.withoutServices 0
      m.withoutServices.uses) = fun i j m => checkUseList b i j m 0 m.uses := by
    funext i j m
    exact checkUseList_withoutServices b i j m 0 m.uses
  rw [checkStructure, checkStructure, Blueprint.withoutServices]
  dsimp only
  rw [← Blueprint.withoutServices, checkGroups_withoutServices, eachGroup_withoutServices, huses]

/-- A module has to agree with the inputs and outputs of its schema. -/
theorem checkModule_withoutServices (m : Module) (schema : Schema) (path : String) :
    checkModule m.withoutServices schema.withoutServices path = checkModule m schema path := by
  have houtputs : ∀ path k os, checkOutputs m.withoutServices schema.withoutServices path k os =
      checkOutputs m schema path k os := by
    intro path k os
    induction os generalizing k with
    | nil => rfl
    | cons o rest ih =>
        rw [checkOutputs, checkOutputs, ih]
        rfl
  unfold checkModule
  simp only [houtputs]
  rfl

theorem checkSettings_withoutServices (b : Blueprint) :
    checkSettings b.withoutServices = checkSettings b := by
  rw [checkSettings, checkSettings, Blueprint.withoutServices]
  dsimp only
  rw [eachGroup_withoutServices]
  congr 1
  funext i j m
  rw [Module.schema_withoutServices]
  cases m.schema with
  | none => rfl
  | some schema => exact checkModule_withoutServices m schema _

theorem checkCycles_withoutServices (gs : List Group) :
    checkCycles (gs.map Group.withoutServices) = checkCycles gs := by
  induction gs with
  | nil => rfl
  | cons g rest ih =>
      have hneeds : groupDependencies g.withoutServices = groupDependencies g := by
        unfold groupDependencies Group.withoutServices
        simp only [List.map_map, List.any_map]
        rfl
      rw [List.map_cons, checkCycles, checkCycles, hneeds, ih]

/-! ## References -/

theorem resolveModules_withoutServices (b : Blueprint) (vars : OrderedMap Value) (i j : Nat)
    (ms : List Module) :
    resolveModules b vars i j (ms.map Module.withoutServices) =
      (resolveModules b vars i j ms).map (List.map Module.withoutServices) := by
  induction ms generalizing j with
  | nil => rfl
  | cons m rest ih =>
      have hfirst : resolveModule b vars i j m.withoutServices =
          (resolveModule b vars i j m).map Module.withoutServices := by
        unfold resolveModule
        rw [exceptMap_bind]
        rfl
      simp only [List.map_cons, resolveModules, hfirst, ih, exceptMap_bind, bind_exceptMap]
      rfl

theorem resolveGroups_withoutServices (b : Blueprint) (vars : OrderedMap Value) (i : Nat)
    (gs : List Group) :
    resolveGroups b vars i (gs.map Group.withoutServices) =
      (resolveGroups b vars i gs).map (List.map Group.withoutServices) := by
  induction gs generalizing i with
  | nil => rfl
  | cons g rest ih =>
      simp only [List.map_cons, resolveGroups, Group.modules_withoutServices,
        resolveModules_withoutServices, ih, exceptMap_bind, bind_exceptMap]
      rfl

theorem resolveGroupBackends_withoutServices (s : Scope) (i : Nat) (gs : List Group) :
    resolveGroupBackends s i (gs.map Group.withoutServices) =
      (resolveGroupBackends s i gs).map (List.map Group.withoutServices) := by
  induction gs generalizing i with
  | nil => rfl
  | cons g rest ih =>
      have hbackend : g.withoutServices.backend = g.backend := rfl
      simp only [List.map_cons, resolveGroupBackends, hbackend, ih, bind_exceptMap]
      cases g.backend with
      | none =>
          simp only [exceptMap_bind]
          rfl
      | some backend =>
          simp only [exceptMap_bind]
          rfl

end Expand

/-! ## Expanding without services -/

namespace Blueprint

variable (b : Blueprint)

theorem usage_withoutServices : b.withoutServices.usage = b.usage := by
  have hgroups : b.withoutServices.groups.flatMap
        (fun g => (g.backend.map (·.configuration.references)).getD []) =
      b.groups.flatMap fun g => (g.backend.map (·.configuration.references)).getD [] := by
    rw [groups_withoutServices, List.flatMap_map]
    rfl
  have hreferences : b.withoutServices.references = b.references := by
    unfold references
    rw [modules_withoutServices, List.flatMap_map, hgroups]
    rfl
  unfold usage
  rw [hreferences, modules_withoutServices, List.flatMap_map]
  rfl

theorem materialize_withoutServices :
    b.withoutServices.materialize = b.materialize.map Materialized.withoutServices := by
  have hanswers := sameAnswers_withoutServices b
  unfold materialize
  simp only [groups_withoutServices, checkStructure_withoutServices, checkSettings_withoutServices,
    resolveVars_congr hanswers, resolveGroups_congr hanswers, resolveGroups_withoutServices,
    checkCycles_withoutServices, resolveValidators_congr hanswers,
    resolveBackend_congr hanswers, resolveGroupBackends_congr hanswers,
    resolveGroupBackends_withoutServices, usage_withoutServices, exceptMap_bind, bind_exceptMap]
  rfl

theorem complete_withoutServices :
    b.withoutServices.complete = b.complete.map Materialized.withoutServices := by
  rw [complete, complete, filled_withoutServices, materialize_withoutServices]
  cases b.filled.materialize <;> rfl

/-! ## Attaching -/

variable {outcome outcome' : Place → Except Error Schema}

theorem attachModules_withoutServices
    (h : ∀ p, outcome' p = (outcome p).map Schema.withoutServices) (i j : Nat)
    (ms : List Module) :
    attachModules outcome' i j ms =
      (attachModules outcome i j ms).map (List.map Module.withoutServices) := by
  induction ms generalizing j with
  | nil => rfl
  | cons m rest ih =>
      simp only [attachModules, h, ih, exceptMap_bind, bind_exceptMap]
      rfl

theorem attachGroups_withoutServices
    (h : ∀ p, outcome' p = (outcome p).map Schema.withoutServices) (i : Nat) (gs : List Group) :
    attachGroups outcome' i gs =
      (attachGroups outcome i gs).map (List.map Group.withoutServices) := by
  induction gs generalizing i with
  | nil => rfl
  | cons g rest ih =>
      simp only [attachGroups, attachModules_withoutServices h, ih, exceptMap_bind, bind_exceptMap]
      rfl

theorem attach_withoutServices (finished : List Finished) :
    b.attach (finished.map Finished.withoutServices) =
      (b.attach finished).map Blueprint.withoutServices := by
  have houtcome : ∀ p, outcomeAt (finished.map Finished.withoutServices) p =
      (outcomeAt finished p).map Schema.withoutServices := by
    intro p
    have hplace : (·.place == p) ∘ Finished.withoutServices = (·.place == p) := rfl
    rw [outcomeAt, outcomeAt, List.find?_map, hplace]
    cases finished.find? (·.place == p) <;> rfl
  unfold attach
  simp only [attachGroups_withoutServices houtcome, exceptMap_bind, bind_exceptMap]
  rfl

/-- Services change nothing in an expansion but what schemas say about them. -/
theorem expand_withoutServices (s : Settings) (finished : List Finished) :
    b.expand s (finished.map Finished.withoutServices) =
      (b.expand s finished).map Materialized.withoutServices := by
  unfold expand
  simp only [attach_withoutServices, complete_withoutServices, exceptMap_bind, bind_exceptMap]

/-! ## What is written -/

theorem toTree_withoutServices : b.withoutServices.toTree = b.toTree := by
  have hgroups : (b.groups.map Group.withoutServices).map Group.toTree =
      b.groups.map Group.toTree := by
    rw [List.map_map]
    refine List.map_congr_left fun g _ => ?_
    have hmodules : (g.modules.map Module.withoutServices).map Module.toTree =
        g.modules.map Module.toTree := by
      rw [List.map_map]
      rfl
    rw [Function.comp, Group.toTree, Group.withoutServices]
    dsimp only
    rw [hmodules, Group.toTree]
  rw [toTree, toTree, Blueprint.withoutServices]
  dsimp only
  rw [hgroups]

/-- The text of a blueprint, and so its hash, shows no services. -/
theorem render_withoutServices : b.withoutServices.render = b.render := by
  rw [render, render, toTree_withoutServices]

theorem groupNames_withoutServices : b.withoutServices.groupNames = b.groupNames := by
  rw [groupNames, groupNames, groups_withoutServices, List.map_map]
  rfl

end Blueprint

end HpcBlueprint
