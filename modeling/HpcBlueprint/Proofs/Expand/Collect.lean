/-
  Collecting the facts about usage on the way.

  The facts of a blueprint are read off its references.  They can as well be noted while the
  references are resolved: a variable when it is looked up, for the whole run, and a module when
  an output of it is checked, for the settings that are being resolved.  Whichever pass does the
  resolving, it notes just the references of what it has gone through, so a run that notes as it
  goes ends like the plain one, with the same facts or with the same error.
-/
import HpcBlueprint.Expand.Materialize
import HpcBlueprint.Proofs.Blueprint.Modules
import HpcBlueprint.Proofs.Except
import HpcBlueprint.Proofs.Expand.Passes
import HpcBlueprint.Proofs.Expand.Structure
import HpcBlueprint.Proofs.NameSet
import HpcBlueprint.Proofs.Value.Texts

namespace HpcBlueprint
namespace Expand

/-! ## Notes -/

/-- What has been referred to so far. -/
structure Notes where
  /-- The variables, since the beginning of the run. -/
  usedVars : NameSet
  /-- The modules, since the beginning of the scope. -/
  targets : NameSet

/-- Notes a reference. -/
def Notes.add (n : Notes) : Reference → Notes
  | .var name => { n with usedVars := n.usedVars.insert name }
  | .output module _ => { n with targets := n.targets.insert module }

/-- Notes references in order. -/
def Notes.addAll (n : Notes) (rs : List Reference) : Notes := rs.foldl Notes.add n

/-- A pass that takes notes. -/
abbrev Collecting (α : Type) : Type := StateT Notes (Except ConfigError) α

/-- A pass with a scope of its own: it begins without modules, and those that it refers to are
    handed over at the end instead of being kept. -/
def inFreshScope {α : Type} (x : Collecting α) : Collecting (α × NameSet) := fun n => do
  let (a, m) ← x.run ⟨n.usedVars, []⟩
  return ((a, m.targets), ⟨m.usedVars, n.targets⟩)

/-! ## Resolving values -/

namespace Scope

/-- The value of a variable, which is used from now on. -/
def collectVar (s : Scope) (path name : String) : Collecting Value := do
  let v ← s.lookup path name
  modify (·.add (.var name))
  return v

/-- Checks a reference to an output of a module, which is referred to from now on. -/
def collectOutput (s : Scope) (path module name : String) : Collecting Unit := do
  s.checkOutput path module name
  modify (·.add (.output module name))

/-- The text of the segments of a template. -/
def collectFill (s : Scope) (path : String) : List Segment → Collecting String
  | [] => return ""
  | .text t :: rest => do return t ++ (← s.collectFill path rest)
  | .ref (.var name) :: rest => do
    let v ← s.collectVar path name
    match v.scalarText with
    | some t => return t ++ (← s.collectFill path rest)
    | none => throw (.invalidReference (.notText name v.typeName) path)
  | .ref r :: _ => throw (.invalidReference (.outputInText r) path)

/-- The value that a text stands for. -/
def collectText (s : Scope) (path text : String) : Collecting Value :=
  match Expression.parse text with
  | .error e => throw (.invalidReference (.malformed e) path)
  | .ok .literal => return .string text
  | .ok (.whole (.var name)) => s.collectVar path name
  | .ok (.whole (.output module name)) => do
    s.collectOutput path module name
    return .string text
  | .ok (.template segments) => do return .string (← s.collectFill path segments)

mutual

/-- The value with every reference resolved. -/
def collect (s : Scope) (path : String) : Value → Collecting Value
  | .string text => s.collectText path text
  | .list items => do return .list (← s.collectItems path 0 items)
  | .map entries => do return .map (← s.collectEntries path entries)
  | .null => return .null
  | .bool b => return .bool b
  | .number n => return .number n

/-- Resolves the items of a list, in order. -/
def collectItems (s : Scope) (path : String) : Nat → List Value → Collecting (List Value)
  | _, [] => return []
  | i, v :: rest => do
    let w ← s.collect (path ++ "[" ++ toString i ++ "]") v
    return w :: (← s.collectItems path (i + 1) rest)

/-- Resolves the values of a map, in order. -/
def collectEntries (s : Scope) (path : String) :
    List (String × Value) → Collecting (List (String × Value))
  | [] => return []
  | (key, v) :: rest => do
    let w ← s.collect (path ++ "." ++ key) v
    return (key, w) :: (← s.collectEntries path rest)

end

end Scope

/-! ## Resolving a blueprint -/

/-- Resolves the values of a map in order, each in a scope of its own. -/
def collectApart (s : Scope) (path : String) : OrderedMap Value → Collecting (OrderedMap Value)
  | [] => return []
  | (key, v) :: rest => do
    let (w, _) ← inFreshScope (s.collect (path ++ "." ++ key) v)
    return (key, w) :: (← collectApart s path rest)

/-- Resolves variables in order; each may refer to those before it, which are given. -/
def collectVars (b : Blueprint) (done : OrderedMap Value) :
    List (String × Value) → Collecting (OrderedMap Value)
  | [] => return done
  | (name, v) :: rest => do
    let (w, _) ← inFreshScope (Scope.collect ⟨done, .inVariable, b⟩ ("vars." ++ name) v)
    collectVars b (done.insert name w) rest

/-- The number of the group in which the module of this name stands. -/
def groupOf (b : Blueprint) (id : String) : Option Nat := (b.module? id).map (·.1)

/-- What has been found out about modules that have been resolved. -/
structure Survey where
  /-- Modules and entries of their use lists to which they do not refer. -/
  unusedUses : List (String × String)
  /-- What each module refers to inside the group. -/
  dependencies : Dependencies

/-- Resolves the modules of a group from number `j` on, the settings of each in one scope. -/
def collectModules (b : Blueprint) (vars : OrderedMap Value) (i : Nat) :
    Nat → List Module → Collecting (List Module × Survey)
  | _, [] => return ([], ⟨[], []⟩)
  | j, m :: rest => do
    let (settings, targets) ← inFreshScope (Scope.collectEntries ⟨vars, .inModule m.id i, b⟩
      (Blueprint.modulePath i j ++ ".settings") m.settings)
    let unused := (m.uses.filter fun used => !targets.contains used).map (m.id, ·)
    let inside := targets.filter fun t => groupOf b t == some i
    let (ms, survey) ← collectModules b vars i (j + 1) rest
    return ({ m with settings } :: ms,
      ⟨unused ++ survey.unusedUses, (m.id, inside) :: survey.dependencies⟩)

/-- Resolves the modules of the groups from number `i` on. -/
def collectGroups (b : Blueprint) (vars : OrderedMap Value) :
    Nat → List Group → Collecting (List Group × List Survey)
  | _, [] => return ([], [])
  | i, g :: rest => do
    let (modules, survey) ← collectModules b vars i 0 g.modules
    let (groups, surveys) ← collectGroups b vars (i + 1) rest
    return ({ g with modules } :: groups, survey :: surveys)

/-- Fails at the first group whose modules depend on each other in a circle. -/
def checkSurveys : List Survey → Except ConfigError Unit
  | [] => .ok ()
  | survey :: rest =>
    match survey.dependencies.findCycle with
    | some members => .error (.cycle members)
    | none => checkSurveys rest

/-- Resolves the inputs of the validators from number `i` on. -/
def collectValidators (s : Scope) : Nat → List ValidatorEntry → Collecting (List ValidatorEntry)
  | _, [] => return []
  | i, v :: rest => do
    let inputs ← collectApart s ("validators[" ++ toString i ++ "].inputs") v.inputs
    return { v with inputs } :: (← collectValidators s (i + 1) rest)

/-- Resolves the configuration of a backend. -/
def collectBackend (s : Scope) (path : String) (backend : Backend) : Collecting Backend := do
  let configuration ← collectApart s (path ++ ".configuration") backend.configuration
  return { backend with configuration }

/-- Resolves the backends of the groups from number `i` on. -/
def collectGroupBackends (s : Scope) : Nat → List Group → Collecting (List Group)
  | _, [] => return []
  | i, g :: rest => do
    let path := "deployment_groups[" ++ toString i ++ "].terraform_backend"
    let backend ← match g.backend with
      | none => pure none
      | some backend => some <$> collectBackend s path backend
    return { g with backend } :: (← collectGroupBackends s (i + 1) rest)

/-- Resolves all references of a blueprint. -/
def collectAll (b : Blueprint) : Collecting (Blueprint × List Survey) := do
  let vars ← collectVars b [] b.vars
  checkDeploymentName vars
  let (groups, surveys) ← collectGroups b vars 0 b.groups
  checkSurveys surveys
  let scope : Scope := ⟨vars, .elsewhere, b⟩
  let validators ← collectValidators scope 0 b.validators
  let backendDefaults ← collectBackend scope "terraform_backend_defaults" b.backendDefaults
  let groups ← collectGroupBackends scope 0 groups
  return ({ b with vars, groups, validators, backendDefaults }, surveys)

end Expand

open Expand in
/-- Checks a blueprint, resolves all its references and notes them on the way. -/
def Blueprint.collect (b : Blueprint) : Except ConfigError Materialized := do
  checkStructure b
  checkSettings b
  let ((blueprint, surveys), notes) ← (collectAll b).run ⟨[], []⟩
  return ⟨blueprint, notes.usedVars, surveys.flatMap (·.unusedUses)⟩

/-! ## What a pass notes -/

namespace Expand

variable {α β γ δ : Type}

theorem Notes.addAll_append (n : Notes) (rs rs' : List Reference) :
    n.addAll (rs ++ rs') = (n.addAll rs).addAll rs' :=
  List.foldl_append

/-- A pass that takes notes does what a plain one does, makes `out` of what comes out of it,
    and notes these references. -/
def Collects (x : Collecting β) (plain : Except ConfigError α) (out : α → β)
    (rs : List Reference) : Prop :=
  ∀ n : Notes, x n = plain.map fun a => (out a, n.addAll rs)

namespace Collects

variable {x : Collecting β} {plain : Except ConfigError α} {out : α → β}
  {rs rs' : List Reference}

theorem pure (a : α) (out : α → β) : Collects (pure (out a)) (.ok a) out [] :=
  fun _ => rfl

/-- A failing pass notes nothing that is looked at. -/
theorem throw (e : ConfigError) (out : α → β) (rs : List Reference) :
    Collects (throw e) (.error e) out rs :=
  fun _ => rfl

/-- A check notes nothing. -/
theorem check (x : Except ConfigError α) : Collects (liftM x) x id [] := by
  intro n
  cases x <;> rfl

/-- A sequence notes what its steps note; the second one may rely on what the first yields. -/
theorem bind_of_ok {f : β → Collecting δ} {g : α → Except ConfigError γ} {out' : γ → δ}
    (hx : Collects x plain out rs)
    (hf : ∀ a, plain = .ok a → Collects (f (out a)) (g a) out' rs') :
    Collects (x >>= f) (plain >>= g) out' (rs ++ rs') := by
  intro n
  have hrun : (x >>= f) n = x n >>= fun p => f p.1 p.2 := rfl
  rw [hrun, hx n]
  cases hplain : plain with
  | error e => rfl
  | ok a =>
      have hsecond : f (out a) (n.addAll rs) = _ := hf a hplain (n.addAll rs)
      rw [Notes.addAll_append]
      exact hsecond

theorem bind {f : β → Collecting δ} {g : α → Except ConfigError γ} {out' : γ → δ}
    (hx : Collects x plain out rs) (hf : ∀ a, Collects (f (out a)) (g a) out' rs') :
    Collects (x >>= f) (plain >>= g) out' (rs ++ rs') :=
  hx.bind_of_ok fun a _ => hf a

/-- What is made of a result at the end notes nothing more. -/
theorem bind_pure {f : β → δ} {g : α → γ} {out' : γ → δ} (hx : Collects x plain out rs)
    (hf : ∀ a, f (out a) = out' (g a)) :
    Collects (x >>= fun b => Pure.pure (f b)) (plain >>= fun a => Pure.pure (g a)) out' rs := by
  have hpure : ∀ a, Collects (Pure.pure (f (out a))) (Pure.pure (g a)) out' [] := by
    intro a
    rw [hf a]
    exact .pure (g a) out'
  have h := hx.bind (f := fun b => Pure.pure (f b)) (g := fun a => Pure.pure (g a)) hpure
  rwa [List.append_nil] at h

theorem bind_pure_map {f : β → δ} {g : α → γ} {out' : γ → δ} (hx : Collects x plain out rs)
    (hf : ∀ a, f (out a) = out' (g a)) :
    Collects (x >>= fun b => Pure.pure (f b)) (plain.map g) out' rs := by
  have hmap : plain.map g = plain >>= fun a => Pure.pure (g a) := by
    cases plain <;> rfl
  rw [hmap]
  exact hx.bind_pure hf

end Collects

/-! ## Values -/

namespace Scope

variable {s : Scope} {path : String}

theorem collects_collectVar (name : String) :
    Collects (s.collectVar path name) (s.lookup path name) id [.var name] := by
  intro n
  unfold collectVar
  cases s.lookup path name <;> rfl

theorem collects_collectOutput (module name : String) :
    Collects (s.collectOutput path module name) (s.checkOutput path module name) id
      [.output module name] := by
  intro n
  unfold collectOutput
  cases s.checkOutput path module name <;> rfl

theorem collects_collectFill (segments : List Segment) :
    Collects (s.collectFill path segments) (s.fill path segments) id
      (segments.filterMap fun
        | .ref r => some r
        | .text _ => none) := by
  induction segments with
  | nil => exact .pure "" id
  | cons segment rest ih =>
      cases segment with
      | text t => exact ih.bind_pure fun _ => rfl
      | ref r =>
          cases r with
          | output module name => exact .throw _ _ _
          | var name =>
              refine (collects_collectVar name).bind fun v => ?_
              dsimp only [id_eq]
              cases v.scalarText with
              | none => exact .throw _ _ _
              | some t => exact ih.bind_pure fun _ => rfl

theorem collects_collectText (text : String) :
    Collects (s.collectText path text) (s.resolveText path text) id
      (Expression.references text) := by
  unfold collectText resolveText Expression.references
  cases Expression.parse text with
  | error e => exact .throw _ _ _
  | ok e =>
      match e with
      | .literal => exact .pure _ id
      | .whole (.var name) => exact collects_collectVar name
      | .whole (.output module name) =>
          exact (collects_collectOutput module name).bind_pure_map fun _ => rfl
      | .template segments => exact (collects_collectFill segments).bind_pure_map fun _ => rfl

theorem collects_collectItems {items : List Value} {i : Nat}
    (spec : ∀ v ∈ items, ∀ path, Collects (s.collect path v) (s.resolve path v) id v.references) :
    Collects (s.collectItems path i items) (s.resolveItems path i items) id
      (items.flatMap Value.references) := by
  induction items generalizing i with
  | nil => exact .pure _ id
  | cons v rest ih =>
      have hrest := fun w hw => spec w (List.mem_cons_of_mem v hw)
      exact (spec v List.mem_cons_self _).bind fun w => (ih hrest).bind_pure_map fun _ => rfl

theorem collects_collectEntries_of {entries : List (String × Value)}
    (spec : ∀ k v, (k, v) ∈ entries → ∀ path,
      Collects (s.collect path v) (s.resolve path v) id v.references) :
    Collects (s.collectEntries path entries) (s.resolveEntries path entries) id
      (OrderedMap.references entries) := by
  induction entries with
  | nil => exact .pure _ id
  | cons entry rest ih =>
      obtain ⟨key, v⟩ := entry
      have hrest := fun k w hw => spec k w (List.mem_cons_of_mem (key, v) hw)
      exact (spec key v List.mem_cons_self _).bind fun w => (ih hrest).bind_pure_map fun _ => rfl

/-- A value is resolved as without notes, and its references are noted. -/
theorem collects_collect (v : Value) :
    Collects (s.collect path v) (s.resolve path v) id v.references := by
  induction v using Value.nested generalizing path with
  | null => exact .pure _ id
  | bool b => exact .pure _ id
  | number n => exact .pure _ id
  | string text =>
      have hreferences : (Value.string text).references = Expression.references text := by
        rw [Value.references, Value.texts_string, List.flatMap_singleton]
      rw [hreferences]
      exact collects_collectText text
  | list items ih =>
      have hreferences : (Value.list items).references = items.flatMap Value.references := by
        rw [Value.references, Value.texts, Value.textsOfItems_eq_flatMap, List.flatMap_assoc]
        rfl
      rw [hreferences]
      exact (collects_collectItems fun v hv _ => ih v hv).bind_pure_map fun _ => rfl
  | map entries ih =>
      have hreferences : (Value.map entries).references = OrderedMap.references entries := by
        rw [Value.references, Value.texts, Value.textsOfEntries_eq_flatMap, List.flatMap_assoc]
        rfl
      rw [hreferences]
      exact (collects_collectEntries_of fun k v hv _ => ih k v hv).bind_pure_map fun _ => rfl

theorem collects_collectEntries (m : OrderedMap Value) :
    Collects (s.collectEntries path m) (resolveMap s path m) id m.references := by
  have hmap : resolveMap s path m = s.resolveEntries path m := by
    unfold resolveMap
    induction m with
    | nil => rfl
    | cons entry rest ih =>
        obtain ⟨key, v⟩ := entry
        rw [OrderedMap.mapM, ih, resolveEntries]
        cases s.resolve (path ++ "." ++ key) v with
        | error e => rfl
        | ok w => cases s.resolveEntries path rest <;> rfl
  rw [hmap]
  exact collects_collectEntries_of fun _ v _ _ => collects_collect v

end Scope

/-! ## Passes over a blueprint -/

/-- The references to variables among these. -/
def varRefs (rs : List Reference) : List Reference := (rs.filterMap Reference.var?).map .var

@[simp] theorem varRefs_append (rs rs' : List Reference) :
    varRefs (rs ++ rs') = varRefs rs ++ varRefs rs' := by
  simp [varRefs]

theorem Notes.addAll_eq (n : Notes) (rs : List Reference) :
    n.addAll rs = ⟨n.usedVars.union (rs.filterMap Reference.var?),
      n.targets.union (rs.filterMap Reference.module?)⟩ := by
  induction rs generalizing n with
  | nil => rfl
  | cons r rest ih =>
      have hstep : n.addAll (r :: rest) = (n.add r).addAll rest := rfl
      rw [hstep, ih]
      cases r <;> rfl

theorem filterMap_var?_varRefs (rs : List Reference) :
    (varRefs rs).filterMap Reference.var? = rs.filterMap Reference.var? := by
  simp [varRefs, List.filterMap_map, Function.comp_def, Reference.var?]

/-- A pass with a scope of its own keeps notes of the variables and hands over the modules. -/
theorem Collects.fresh {x : Collecting β} {plain : Except ConfigError α} {out : α → β}
    {rs : List Reference} (h : Collects x plain out rs) :
    Collects (inFreshScope x) plain
      (fun a => (out a, NameSet.ofList (rs.filterMap Reference.module?))) (varRefs rs) := by
  intro n
  have hmodules : (varRefs rs).filterMap Reference.module? = [] := by
    simp [varRefs, List.filterMap_map, Function.comp_def, Reference.module?]
  have hrun : inFreshScope x n = x ⟨n.usedVars, []⟩ >>= fun p =>
      .ok ((p.1, p.2.targets), ⟨p.2.usedVars, n.targets⟩) := rfl
  rw [hrun, h, bind_exceptMap]
  simp only [Notes.addAll_eq, filterMap_var?_varRefs, hmodules]
  cases plain <;> rfl

variable {b : Blueprint} {vars : OrderedMap Value} {s : Scope} {path : String}

theorem collects_collectApart (m : OrderedMap Value) :
    Collects (collectApart s path m) (resolveMap s path m) id (varRefs m.references) := by
  unfold resolveMap
  induction m with
  | nil => exact .pure _ id
  | cons entry rest ih =>
      obtain ⟨key, v⟩ := entry
      have hreferences : varRefs (OrderedMap.references ((key, v) :: rest)) =
          varRefs v.references ++ varRefs (OrderedMap.references rest) :=
        varRefs_append _ _
      rw [hreferences]
      exact (Scope.collects_collect v).fresh.bind fun w => ih.bind_pure fun _ => rfl

theorem collects_collectVars (done : OrderedMap Value) (rest : List (String × Value)) :
    Collects (collectVars b done rest) (resolveVars b done rest) id
      (varRefs (OrderedMap.references rest)) := by
  induction rest generalizing done with
  | nil => exact .pure _ id
  | cons entry rest ih =>
      obtain ⟨name, v⟩ := entry
      have hreferences : varRefs (OrderedMap.references ((name, v) :: rest)) =
          varRefs v.references ++ varRefs (OrderedMap.references rest) :=
        varRefs_append _ _
      rw [hreferences]
      exact (Scope.collects_collect v).fresh.bind fun w => ih _

/-- The entries of a module's use list to which its settings do not refer. -/
def unusedUses (m : Module) : List (String × String) :=
  (m.uses.filter fun used => !(targets m).contains used).map (m.id, ·)

/-- The modules of group `i` to which a module's settings refer. -/
def targetsInside (b : Blueprint) (i : Nat) (m : Module) : NameSet :=
  (NameSet.ofList (targets m)).filter fun t => groupOf b t == some i

/-- What is found out about the modules of group `i`. -/
def surveyOf (b : Blueprint) (i : Nat) (ms : List Module) : Survey :=
  ⟨ms.flatMap unusedUses, ms.map fun m => (m.id, targetsInside b i m)⟩

theorem collects_collectModules {i j : Nat} (ms : List Module) :
    Collects (collectModules b vars i j ms) (resolveModules b vars i j ms)
      (fun ns => (ns, surveyOf b i ms)) (varRefs (ms.flatMap (·.settings.references))) := by
  induction ms generalizing j with
  | nil => exact .pure _ fun ns => (ns, surveyOf b i [])
  | cons m rest ih =>
      have hplain : resolveModules b vars i j (m :: rest) =
          resolveMap ⟨vars, .inModule m.id i, b⟩ (Blueprint.modulePath i j ++ ".settings")
            m.settings >>= fun settings =>
          resolveModules b vars i (j + 1) rest >>= fun ns =>
            pure ({ m with settings } :: ns) := by
        rw [resolveModules, resolveModule, bind_assoc]
        rfl
      have hunused : (m.uses.filter fun used =>
          !List.contains (NameSet.ofList (targets m)) used).map (m.id, ·) = unusedUses m := by
        have hcontains : ∀ used, List.contains (NameSet.ofList (targets m)) used =
            (targets m).contains used := by
          intro used
          rw [Bool.eq_iff_iff, List.contains_iff_mem, List.contains_iff_mem, NameSet.mem_ofList]
        simp only [unusedUses, hcontains]
      rw [hplain, List.flatMap_cons, varRefs_append]
      refine (Scope.collects_collectEntries m.settings).fresh.bind fun settings => ?_
      refine ih.bind_pure fun ns => ?_
      have hsurvey : surveyOf b i (m :: rest) = ⟨unusedUses m ++ (surveyOf b i rest).unusedUses,
          (m.id, targetsInside b i m) :: (surveyOf b i rest).dependencies⟩ := rfl
      rw [hsurvey, ← hunused]
      rfl

/-- What is found out about the groups from number `i` on. -/
def surveysFrom (b : Blueprint) : Nat → List Group → List Survey
  | _, [] => []
  | i, g :: rest => surveyOf b i g.modules :: surveysFrom b (i + 1) rest

theorem collects_collectGroups {i : Nat} (groups : List Group) :
    Collects (collectGroups b vars i groups) (resolveGroups b vars i groups)
      (fun done => (done, surveysFrom b i groups))
      (varRefs ((Blueprint.modulesFrom i groups).flatMap (·.2.settings.references))) := by
  induction groups generalizing i with
  | nil => exact .pure _ fun done => (done, [])
  | cons g rest ih =>
      have hmodules : (g.modules.map (i, ·)).flatMap (·.2.settings.references) =
          g.modules.flatMap (·.settings.references) := by
        rw [List.flatMap_map]
      rw [Blueprint.modulesFrom, List.flatMap_append, varRefs_append, hmodules]
      exact (collects_collectModules g.modules).bind fun ms => ih.bind_pure fun gs => rfl

theorem collects_collectValidators {i : Nat} (entries : List ValidatorEntry) :
    Collects (collectValidators s i entries) (resolveValidators s i entries) id
      (varRefs (entries.flatMap (·.inputs.references))) := by
  induction entries generalizing i with
  | nil => exact .pure _ id
  | cons v rest ih =>
      rw [List.flatMap_cons, varRefs_append]
      exact (collects_collectApart v.inputs).bind fun inputs => ih.bind_pure fun _ => rfl

theorem collects_collectBackend (backend : Backend) :
    Collects (collectBackend s path backend) (resolveBackend s path backend) id
      (varRefs backend.configuration.references) :=
  (collects_collectApart backend.configuration).bind_pure fun _ => rfl

theorem collects_collectGroupBackends {i : Nat} (groups : List Group) :
    Collects (collectGroupBackends s i groups) (resolveGroupBackends s i groups) id
      (varRefs (groups.flatMap fun g =>
        (g.backend.map (·.configuration.references)).getD [])) := by
  induction groups generalizing i with
  | nil => exact .pure _ id
  | cons g rest ih =>
      have hsome : ∀ path backend, Collects (some <$> collectBackend s path backend)
          ((resolveBackend s path backend).map some) id
          (varRefs backend.configuration.references) := by
        intro path backend
        rw [map_eq_pure_bind]
        exact (collects_collectBackend backend).bind_pure_map fun _ => rfl
      rw [List.flatMap_cons, varRefs_append, collectGroupBackends, resolveGroupBackends]
      cases g.backend with
      | none => exact (Collects.pure none id).bind fun backend => ih.bind_pure fun _ => rfl
      | some backend => exact (hsome _ backend).bind fun backend => ih.bind_pure fun _ => rfl

/-! ## The run -/

/-- Where ids are distinct, a module stands in the group in which it is found. -/
theorem groupOf_eq_some_iff (distinct : b.moduleIds.Nodup) {i : Nat} {g : Group}
    (hg : b.groups[i]? = some g) (id : String) :
    groupOf b id = some i ↔ ∃ m ∈ g.modules, m.id = id := by
  rw [groupOf, Option.map_eq_some_iff]
  constructor
  · rintro ⟨⟨k, m⟩, hmodule, rfl⟩
    obtain ⟨hmem, hid⟩ := (Blueprint.module?_eq_some_iff distinct).mp hmodule
    obtain ⟨g', hg', hm⟩ := Blueprint.mem_modules.mp hmem
    obtain rfl : g = g' := Option.some.inj (hg.symm.trans hg')
    exact ⟨m, hm, hid⟩
  · rintro ⟨m, hm, hid⟩
    have hmem : (i, m) ∈ b.modules := Blueprint.mem_modules.mpr ⟨g, hg, hm⟩
    exact ⟨(i, m), (Blueprint.module?_eq_some_iff distinct).mpr ⟨hmem, hid⟩, rfl⟩

theorem dependencies_surveyOf (distinct : b.moduleIds.Nodup) {i : Nat} {g : Group}
    (hg : b.groups[i]? = some g) :
    (surveyOf b i g.modules).dependencies = groupDependencies g := by
  have hinside : ∀ t, (groupOf b t == some i) = g.modules.any (·.id == t) := by
    intro t
    rw [Bool.eq_iff_iff, beq_iff_eq, groupOf_eq_some_iff distinct hg, List.any_eq_true]
    simp only [beq_iff_eq]
  simp only [surveyOf, targetsInside, hinside, groupDependencies]

/-- The surveys have the dependencies in which cycles are searched. -/
theorem checkSurveys_surveysFrom (distinct : b.moduleIds.Nodup) :
    checkSurveys (surveysFrom b 0 b.groups) = checkCycles b.groups := by
  have hfrom : ∀ front rest, b.groups = front ++ rest →
      checkSurveys (surveysFrom b front.length rest) = checkCycles rest := by
    intro front rest hsplit
    induction rest generalizing front with
    | nil => rfl
    | cons g rest ih =>
        have hg : b.groups[front.length]? = some g := by
          rw [hsplit]
          simp
        have hrest := ih (front ++ [g]) (by rw [hsplit, List.append_assoc, List.singleton_append])
        rw [List.length_append, List.length_singleton] at hrest
        rw [surveysFrom, checkSurveys, dependencies_surveyOf distinct hg, hrest]
        rfl
  exact hfrom [] b.groups rfl

theorem unusedUses_surveysFrom (i : Nat) (groups : List Group) :
    (surveysFrom b i groups).flatMap (·.unusedUses) =
      (Blueprint.modulesFrom i groups).flatMap fun (_, m) => unusedUses m := by
  induction groups generalizing i with
  | nil => rfl
  | cons g rest ih =>
      rw [surveysFrom, List.flatMap_cons, ih, Blueprint.modulesFrom, List.flatMap_append,
        List.flatMap_map]
      rfl

/-- The run notes the references to variables in the whole blueprint. -/
theorem collects_collectAll (distinct : b.moduleIds.Nodup) :
    Collects (collectAll b)
      (do
        let vars ← resolveVars b [] b.vars
        checkDeploymentName vars
        let groups ← resolveGroups b vars 0 b.groups
        checkCycles b.groups
        let scope : Scope := ⟨vars, .elsewhere, b⟩
        let validators ← resolveValidators scope 0 b.validators
        let backendDefaults ← resolveBackend scope "terraform_backend_defaults" b.backendDefaults
        let groups ← resolveGroupBackends scope 0 groups
        return { b with vars, groups, validators, backendDefaults })
      (fun done => (done, surveysFrom b 0 b.groups)) (varRefs b.references) := by
  have hreferences : varRefs b.references =
      varRefs b.vars.references ++ ([] ++ (varRefs (b.modules.flatMap (·.2.settings.references)) ++
        ([] ++ (varRefs (b.validators.flatMap (·.inputs.references)) ++
          (varRefs b.backendDefaults.configuration.references ++
            varRefs (b.groups.flatMap fun g =>
              (g.backend.map (·.configuration.references)).getD [])))))) := by
    simp only [Blueprint.references, varRefs_append, List.nil_append, List.append_assoc]
  rw [hreferences]
  refine (collects_collectVars [] b.vars).bind fun vars => ?_
  refine (Collects.check _).bind fun _ => ?_
  refine (collects_collectGroups b.groups).bind_of_ok fun groups hgroups => ?_
  rw [← checkSurveys_surveysFrom distinct]
  refine (Collects.check _).bind fun _ => ?_
  refine (collects_collectValidators b.validators).bind fun validators => ?_
  refine (collects_collectBackend b.backendDefaults).bind fun backendDefaults => ?_
  -- the groups have been resolved, but their backends are still as they were
  have hbackends : (groups.flatMap fun g => (g.backend.map (·.configuration.references)).getD []) =
      b.groups.flatMap fun g => (g.backend.map (·.configuration.references)).getD [] := by
    rw [(resolveGroups_eq_ok_iff.mp hgroups).2, List.flatMap_map]
  rw [← hbackends]
  exact (collects_collectGroupBackends groups).bind_pure fun _ => rfl

end Expand

open Expand

/-- What the run has noted at its end are the facts about usage. -/
theorem Blueprint.usage_eq_noted (b : Blueprint) :
    b.usage = ⟨(Notes.addAll ⟨[], []⟩ (varRefs b.references)).usedVars,
      (surveysFrom b 0 b.groups).flatMap (·.unusedUses)⟩ := by
  have hvars : (varRefs b.references).filterMap Reference.var? =
      b.references.filterMap Reference.var? := filterMap_var?_varRefs _
  rw [Notes.addAll_eq, hvars, unusedUses_surveysFrom]
  rfl

/-- Noting on the way and reading off afterwards give the same, whatever the outcome. -/
theorem Blueprint.collect_eq_materialize (b : Blueprint) : b.collect = b.materialize := by
  unfold collect materialize
  cases hstructure : checkStructure b with
  | error e => rfl
  | ok u =>
      obtain ⟨-, distinct, -, -⟩ := checkStructure_eq_ok_iff.mp hstructure
      have hrun : (collectAll b).run ⟨[], []⟩ = _ := collects_collectAll distinct ⟨[], []⟩
      rw [hrun]
      simp only [bind_exceptMap, bind_assoc, pure_bind, usage_eq_noted]

end HpcBlueprint
