/-
  What the passes over modules, validators and backends do.

  Each pass goes through its list in order and resolves the maps of every member in one
  scope.  It succeeds when the scope admits all these maps; then it substitutes in each
  member and changes nothing else.
-/
import HpcBlueprint.Proofs.Blueprint.Modules
import HpcBlueprint.Proofs.Expand.Substitution

namespace HpcBlueprint

/-! ## Substitution in the parts of a blueprint -/

/-- A module with variables put into its settings. -/
def Module.subst (vars : OrderedMap Value) (m : Module) : Module :=
  { m with settings := OrderedMap.subst vars m.settings }

/-- A validator entry with variables put into its inputs. -/
def ValidatorEntry.subst (vars : OrderedMap Value) (v : ValidatorEntry) : ValidatorEntry :=
  { v with inputs := OrderedMap.subst vars v.inputs }

/-- A backend with variables put into its configuration. -/
def Backend.subst (vars : OrderedMap Value) (b : Backend) : Backend :=
  { b with configuration := OrderedMap.subst vars b.configuration }

/-- A group with variables put into its modules and its backend. -/
def Group.subst (vars : OrderedMap Value) (g : Group) : Group :=
  { g with backend := g.backend.map (·.subst vars), modules := g.modules.map (·.subst vars) }

/-- A blueprint in which every variable has its value and is put in wherever it is
    referred to. -/
def Blueprint.substituted (b : Blueprint) : Blueprint :=
  { b with
    validators := b.validators.map (·.subst b.values)
    vars := b.values
    backendDefaults := b.backendDefaults.subst b.values
    groups := b.groups.map (·.subst b.values) }

@[simp] theorem Module.id_subst (vars : OrderedMap Value) (m : Module) :
    (m.subst vars).id = m.id := rfl

@[simp] theorem Module.kind_subst (vars : OrderedMap Value) (m : Module) :
    (m.subst vars).kind = m.kind := rfl

@[simp] theorem Module.uses_subst (vars : OrderedMap Value) (m : Module) :
    (m.subst vars).uses = m.uses := rfl

@[simp] theorem Module.outputs_subst (vars : OrderedMap Value) (m : Module) :
    (m.subst vars).outputs = m.outputs := rfl

@[simp] theorem Module.schema_subst (vars : OrderedMap Value) (m : Module) :
    (m.subst vars).schema = m.schema := rfl

@[simp] theorem Module.settings_subst (vars : OrderedMap Value) (m : Module) :
    (m.subst vars).settings = OrderedMap.subst vars m.settings := rfl

@[simp] theorem Group.name_subst (vars : OrderedMap Value) (g : Group) :
    (g.subst vars).name = g.name := rfl

@[simp] theorem Group.modules_subst (vars : OrderedMap Value) (g : Group) :
    (g.subst vars).modules = g.modules.map (·.subst vars) := rfl

theorem Blueprint.modules_substituted (b : Blueprint) :
    b.substituted.modules = b.modules.map fun (k, m) => (k, m.subst b.values) :=
  modulesFrom_map (fun _ => rfl) 0 b.groups

theorem Blueprint.mem_modules_substituted {b : Blueprint} {i : Nat} {m : Module} :
    (i, m) ∈ b.substituted.modules ↔ ∃ m', (i, m') ∈ b.modules ∧ m = m'.subst b.values := by
  rw [modules_substituted, List.mem_map]
  constructor
  · rintro ⟨⟨i', m'⟩, hm, heq⟩
    obtain ⟨rfl, rfl⟩ := Prod.mk.inj heq
    exact ⟨m', hm, rfl⟩
  · rintro ⟨m', hm, rfl⟩
    exact ⟨(i, m'), hm, rfl⟩

namespace Expand

variable {b : Blueprint} {vars : OrderedMap Value} {s : Scope}

/-! ## Modules -/

theorem resolveModule_eq_ok_iff {i j : Nat} {m n : Module} :
    resolveModule b vars i j m = .ok n ↔
      Scope.AdmitsMap ⟨vars, .inModule m.id i, b⟩ m.settings ∧ n = m.subst vars := by
  simp only [resolveModule, bind_eq_ok, resolveMap_eq_ok_iff, pure_eq_ok]
  constructor
  · rintro ⟨settings, ⟨hall, rfl⟩, rfl⟩
    exact ⟨hall, rfl⟩
  · rintro ⟨hall, rfl⟩
    exact ⟨_, ⟨hall, rfl⟩, rfl⟩

theorem resolveModules_eq_ok_iff {i j : Nat} {ms ns : List Module} :
    resolveModules b vars i j ms = .ok ns ↔
      (∀ m ∈ ms, Scope.AdmitsMap ⟨vars, .inModule m.id i, b⟩ m.settings) ∧
        ns = ms.map (·.subst vars) := by
  induction ms generalizing j ns with
  | nil => simp [resolveModules, eq_comm]
  | cons m rest ih =>
      simp only [resolveModules, bind_eq_ok, resolveModule_eq_ok_iff, pure_eq_ok, ih,
        List.mem_cons, forall_eq_or_imp, List.map_cons]
      constructor
      · rintro ⟨n, ⟨hm, rfl⟩, ns', ⟨hall, rfl⟩, rfl⟩
        exact ⟨⟨hm, hall⟩, rfl⟩
      · rintro ⟨⟨hm, hall⟩, rfl⟩
        exact ⟨_, ⟨hm, rfl⟩, _, ⟨hall, rfl⟩, rfl⟩

/-- The modules of all groups resolve when each does in its own scope. -/
theorem resolveGroups_eq_ok_iff {i : Nat} {groups done : List Group} :
    resolveGroups b vars i groups = .ok done ↔
      (∀ k m, (k, m) ∈ Blueprint.modulesFrom i groups →
        Scope.AdmitsMap ⟨vars, .inModule m.id k, b⟩ m.settings) ∧
      done = groups.map fun g => { g with modules := g.modules.map (·.subst vars) } := by
  induction groups generalizing i done with
  | nil => simp [resolveGroups, Blueprint.modulesFrom, eq_comm]
  | cons g rest ih =>
      simp only [resolveGroups, bind_eq_ok, resolveModules_eq_ok_iff, pure_eq_ok, ih,
        Blueprint.modulesFrom, List.mem_append, List.mem_map, Prod.mk.injEq, List.map_cons]
      constructor
      · rintro ⟨ms, ⟨hg, rfl⟩, gs, ⟨hrest, rfl⟩, rfl⟩
        refine ⟨?_, rfl⟩
        rintro k m (⟨m', hm, rfl, rfl⟩ | hmem)
        · exact hg m' hm
        · exact hrest k m hmem
      · rintro ⟨hall, rfl⟩
        exact ⟨_, ⟨fun m hm => hall i m (Or.inl ⟨m, hm, rfl, rfl⟩), rfl⟩, _,
          ⟨fun k m hmem => hall k m (Or.inr hmem), rfl⟩, rfl⟩

/-! ## Validators and backends -/

theorem resolveValidators_eq_ok_iff {i : Nat} {entries done : List ValidatorEntry} :
    resolveValidators s i entries = .ok done ↔
      (∀ v ∈ entries, s.AdmitsMap v.inputs) ∧ done = entries.map (·.subst s.vars) := by
  induction entries generalizing i done with
  | nil => simp [resolveValidators, eq_comm]
  | cons v rest ih =>
      simp only [resolveValidators, bind_eq_ok, resolveMap_eq_ok_iff, pure_eq_ok, ih,
        List.mem_cons, forall_eq_or_imp, List.map_cons]
      constructor
      · rintro ⟨inputs, ⟨hv, rfl⟩, vs, ⟨hall, rfl⟩, rfl⟩
        exact ⟨⟨hv, hall⟩, rfl⟩
      · rintro ⟨⟨hv, hall⟩, rfl⟩
        exact ⟨_, ⟨hv, rfl⟩, _, ⟨hall, rfl⟩, rfl⟩

theorem resolveBackend_eq_ok_iff {path : String} {backend done : Backend} :
    resolveBackend s path backend = .ok done ↔
      s.AdmitsMap backend.configuration ∧ done = backend.subst s.vars := by
  simp only [resolveBackend, bind_eq_ok, resolveMap_eq_ok_iff, pure_eq_ok]
  constructor
  · rintro ⟨configuration, ⟨hall, rfl⟩, rfl⟩
    exact ⟨hall, rfl⟩
  · rintro ⟨hall, rfl⟩
    exact ⟨_, ⟨hall, rfl⟩, rfl⟩

theorem resolveGroupBackends_eq_ok_iff {i : Nat} {groups done : List Group} :
    resolveGroupBackends s i groups = .ok done ↔
      (∀ g ∈ groups, ∀ backend, g.backend = some backend → s.AdmitsMap backend.configuration) ∧
      done = groups.map fun g => { g with backend := g.backend.map (·.subst s.vars) } := by
  induction groups generalizing i done with
  | nil => simp [resolveGroupBackends, eq_comm]
  | cons g rest ih =>
      rw [List.forall_mem_cons, List.map_cons]
      cases hbackend : g.backend with
      | none =>
          simp only [resolveGroupBackends, hbackend, bind_eq_ok, pure_eq_ok, ih,
            Except.ok.injEq, reduceCtorEq, false_imp_iff, implies_true, true_and,
            Option.map_none]
          constructor
          · rintro ⟨-, rfl, gs, ⟨hall, rfl⟩, rfl⟩
            exact ⟨hall, rfl⟩
          · rintro ⟨hall, rfl⟩
            exact ⟨none, rfl, _, ⟨hall, rfl⟩, rfl⟩
      | some backend =>
          simp only [resolveGroupBackends, hbackend, bind_eq_ok, pure_eq_ok, ih, map_eq_ok,
            resolveBackend_eq_ok_iff, Option.some.injEq, forall_eq', Option.map_some]
          constructor
          · rintro ⟨-, ⟨done', ⟨hb, rfl⟩, rfl⟩, gs, ⟨hall, rfl⟩, rfl⟩
            exact ⟨⟨hb, hall⟩, rfl⟩
          · rintro ⟨⟨hb, hall⟩, rfl⟩
            exact ⟨_, ⟨_, ⟨hb, rfl⟩, rfl⟩, _, ⟨hall, rfl⟩, rfl⟩

end Expand
end HpcBlueprint
