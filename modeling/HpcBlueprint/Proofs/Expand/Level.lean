/-
  The expansion does not look at the validation level.

  Of the blueprint in which they stand, references and use lists ask for its groups only, so
  every pass does the same at any level.  An expansion under another level fails with the
  same error, or makes the same blueprint at that level.
-/
import HpcBlueprint.Blueprint.Override
import HpcBlueprint.Expand.Run
import HpcBlueprint.Proofs.Except
import HpcBlueprint.Proofs.Value.Texts

namespace HpcBlueprint

open Expand

/-! ## Levels -/

/-- The same overrides but for the level. -/
def Overrides.atLevel (o : Overrides) (level : Option ValidationLevel) : Overrides :=
  { o with level := level.map ValidationLevel.name }

/-- The same settings but for the level. -/
def Settings.atLevel (s : Settings) (level : ValidationLevel) : Settings :=
  { s with level := some level }

/-- The same blueprint but for the level. -/
def Blueprint.atLevel (b : Blueprint) (level : ValidationLevel) : Blueprint := { b with level }

/-- The same expanded blueprint but for the level. -/
def Materialized.atLevel (m : Materialized) (level : ValidationLevel) : Materialized :=
  { m with blueprint := m.blueprint.atLevel level }

/-- The name of a level is read back as that level. -/
theorem ValidationLevel.ofName?_name (level : ValidationLevel) :
    ofName? level.name = some level := by
  cases level <;> decide +kernel

/-- The level of the overrides comes after variables and backend, and nothing that follows
    can fail: it takes the place of whatever level the settings have. -/
theorem Settings.override_atLevel (s : Settings) (o : Overrides) (level : ValidationLevel) :
    (s.override (o.atLevel (some level))).toExcept =
      (s.override (o.atLevel none)).toExcept.map (·.atLevel level) := by
  have hlevel : ∀ s : Settings, s.overrideLevel (some level.name) = ⟨s.atLevel level, none⟩ := by
    intro s
    rw [overrideLevel, ValidationLevel.ofName?_name]
    rfl
  simp only [override, Overrides.atLevel, Option.map_some, Option.map_none, hlevel]
  cases hvars : (s.overrideVars o.vars).failure with
  | some e => simp only [Overridden.andThen, Overridden.toExcept, hvars, Except.map]
  | none =>
      cases hbackend : ((s.overrideVars o.vars).settings.overrideBackend o.backend).failure with
      | some e => simp only [Overridden.andThen, Overridden.toExcept, hvars, hbackend, Except.map]
      | none =>
          simp only [Overridden.andThen, Overridden.toExcept, hvars, hbackend, overrideLevel,
            Except.map]
          rfl

/-! ## What references ask for -/

namespace Expand

variable {b c : Blueprint} {vars : OrderedMap Value} {pos : Position}

theorem module?_congr (h : c.groups = b.groups) (id : String) : c.module? id = b.module? id := by
  unfold Blueprint.module? Blueprint.modules
  rw [h]

namespace Scope

/-- References to outputs get the same answers from two blueprints. -/
def SameAnswers (c b : Blueprint) : Prop :=
  ∀ vars pos path module name,
    checkOutput ⟨vars, pos, c⟩ path module name = checkOutput ⟨vars, pos, b⟩ path module name

theorem sameAnswers_of_groups_eq (h : c.groups = b.groups) : SameAnswers c b := by
  intro vars pos path module name
  unfold checkOutput
  simp only [module?_congr h, h]

theorem fill_congr (path : String) (segments : List Segment) :
    fill ⟨vars, pos, c⟩ path segments = fill ⟨vars, pos, b⟩ path segments := by
  have hlookup : ∀ name, lookup ⟨vars, pos, c⟩ path name = lookup ⟨vars, pos, b⟩ path name :=
    fun _ => rfl
  induction segments with
  | nil => rfl
  | cons segment rest ih =>
      match segment with
      | .text t => rw [fill, fill, ih]
      | .ref (.var name) => rw [fill, fill, ih, hlookup]
      | .ref (.output module name) => rfl

theorem resolveText_congr (h : SameAnswers c b) (path text : String) :
    resolveText ⟨vars, pos, c⟩ path text = resolveText ⟨vars, pos, b⟩ path text := by
  unfold resolveText
  simp only [h vars pos, fill_congr (c := c) (b := b)]
  rfl

/-- Resolving a value asks the blueprint about outputs only. -/
theorem resolve_congr (h : SameAnswers c b) (path : String) (v : Value) :
    resolve ⟨vars, pos, c⟩ path v = resolve ⟨vars, pos, b⟩ path v := by
  -- induction on the nesting; the walks over items and entries are inductions of their own
  induction v using Value.nested generalizing path with
  | null => rw [resolve, resolve]
  | bool b => rw [resolve, resolve]
  | number n => rw [resolve, resolve]
  | string text => rw [resolve, resolve, resolveText_congr h]
  | list items ih =>
      have hitems : ∀ i, resolveItems ⟨vars, pos, c⟩ path i items =
          resolveItems ⟨vars, pos, b⟩ path i items := by
        induction items with
        | nil => intro i; rw [resolveItems, resolveItems]
        | cons v rest ihrest =>
            intro i
            have hrest := ihrest (fun w hw => ih w (List.mem_cons_of_mem v hw)) (i + 1)
            rw [resolveItems, resolveItems, ih v List.mem_cons_self, hrest]
      rw [resolve, resolve, hitems]
  | map entries ih =>
      have hentries : resolveEntries ⟨vars, pos, c⟩ path entries =
          resolveEntries ⟨vars, pos, b⟩ path entries := by
        induction entries with
        | nil => rw [resolveEntries, resolveEntries]
        | cons entry rest ihrest =>
            obtain ⟨key, v⟩ := entry
            have hrest := ihrest fun k w hw => ih k w (List.mem_cons_of_mem (key, v) hw)
            rw [resolveEntries, resolveEntries, ih key v List.mem_cons_self, hrest]
      rw [resolve, resolve, hentries]

end Scope

/-! ## The passes -/

theorem resolveMap_congr (h : Scope.SameAnswers c b) (path : String) (m : OrderedMap Value) :
    resolveMap ⟨vars, pos, c⟩ path m = resolveMap ⟨vars, pos, b⟩ path m := by
  unfold resolveMap
  simp only [Scope.resolve_congr h]

theorem resolveVars_congr (h : Scope.SameAnswers c b) (rest : List (String × Value)) :
    resolveVars c vars rest = resolveVars b vars rest := by
  induction rest generalizing vars with
  | nil => rw [resolveVars, resolveVars]
  | cons entry rest ih =>
      obtain ⟨name, v⟩ := entry
      simp only [resolveVars, Scope.resolve_congr h, ih]

theorem resolveModules_congr (h : Scope.SameAnswers c b) (i j : Nat) (ms : List Module) :
    resolveModules c vars i j ms = resolveModules b vars i j ms := by
  induction ms generalizing j with
  | nil => rw [resolveModules, resolveModules]
  | cons m rest ih => simp only [resolveModules, resolveModule, resolveMap_congr h, ih]

theorem resolveGroups_congr (h : Scope.SameAnswers c b) (i : Nat) (gs : List Group) :
    resolveGroups c vars i gs = resolveGroups b vars i gs := by
  induction gs generalizing i with
  | nil => rw [resolveGroups, resolveGroups]
  | cons g rest ih => simp only [resolveGroups, resolveModules_congr h, ih]

theorem resolveValidators_congr (h : Scope.SameAnswers c b) (i : Nat) (vs : List ValidatorEntry) :
    resolveValidators ⟨vars, pos, c⟩ i vs = resolveValidators ⟨vars, pos, b⟩ i vs := by
  induction vs generalizing i with
  | nil => rw [resolveValidators, resolveValidators]
  | cons v rest ih => simp only [resolveValidators, resolveMap_congr h, ih]

theorem resolveBackend_congr (h : Scope.SameAnswers c b) (path : String) (backend : Backend) :
    resolveBackend ⟨vars, pos, c⟩ path backend = resolveBackend ⟨vars, pos, b⟩ path backend := by
  simp only [resolveBackend, resolveMap_congr h]

theorem resolveGroupBackends_congr (h : Scope.SameAnswers c b) (i : Nat) (gs : List Group) :
    resolveGroupBackends ⟨vars, pos, c⟩ i gs = resolveGroupBackends ⟨vars, pos, b⟩ i gs := by
  induction gs generalizing i with
  | nil => rw [resolveGroupBackends, resolveGroupBackends]
  | cons g rest ih => simp only [resolveGroupBackends, resolveBackend_congr h, ih]

theorem checkUseList_congr (h : c.groups = b.groups) (i j : Nat) (m : Module) (k : Nat)
    (uses : List String) : checkUseList c i j m k uses = checkUseList b i j m k uses := by
  induction uses generalizing k with
  | nil => rw [checkUseList, checkUseList]
  | cons used rest ih => simp only [checkUseList, checkUse, module?_congr h, h, ih]

theorem checkStructure_congr (h : c.groups = b.groups) : checkStructure c = checkStructure b := by
  unfold checkStructure
  simp only [h, checkUseList_congr h]

theorem checkSettings_congr (h : c.groups = b.groups) : checkSettings c = checkSettings b := by
  unfold checkSettings
  rw [h]

end Expand

/-! ## Expanding at a level -/

namespace Blueprint

/-- References and checks are the same at every level, and so is what becomes of them. -/
theorem materialize_atLevel (b : Blueprint) (level : ValidationLevel) :
    (b.atLevel level).materialize = b.materialize.map (·.atLevel level) := by
  have h : (b.atLevel level).groups = b.groups := rfl
  have hanswers := Scope.sameAnswers_of_groups_eq h
  unfold materialize
  simp only [checkStructure_congr h, checkSettings_congr h, resolveVars_congr hanswers,
    resolveGroups_congr hanswers, resolveValidators_congr hanswers,
    resolveBackend_congr hanswers, resolveGroupBackends_congr hanswers, exceptMap_bind]
  rfl

theorem readied_atLevel (b : Blueprint) (s : Settings) (level : ValidationLevel) :
    b.readied (s.atLevel level) = (b.readied s).map (·.atLevel level) := by
  have hcheck : checkStructure (b.prepare (s.atLevel level)) = checkStructure (b.prepare s) :=
    checkStructure_congr rfl
  simp only [readied, hcheck, exceptMap_bind]
  rfl

theorem attach_atLevel (b : Blueprint) (finished : List Finished) (level : ValidationLevel) :
    (b.atLevel level).attach finished = (b.attach finished).map (·.atLevel level) := by
  unfold attach
  rw [exceptMap_bind]
  rfl

theorem filled_atLevel (b : Blueprint) (level : ValidationLevel) :
    (b.atLevel level).filled = b.filled.atLevel level := by
  have hwire : (b.atLevel level).wire = b.wire.atLevel level := rfl
  have hspread : ∀ c : Blueprint,
      (c.atLevel level).spreadBackend = c.spreadBackend.atLevel level := by
    intro c
    unfold spreadBackend
    rw [apply_ite (Blueprint.atLevel · level)]
    rfl
  have hvalidators : ∀ c : Blueprint,
      (c.atLevel level).withValidators = c.withValidators.atLevel level := by
    intro c
    unfold withValidators
    rw [apply_ite (Blueprint.atLevel · level)]
    rfl
  rw [filled, hwire, hspread, hvalidators, filled]

theorem complete_atLevel (b : Blueprint) (level : ValidationLevel) :
    (b.atLevel level).complete = b.complete.map (·.atLevel level) := by
  unfold complete
  rw [filled_atLevel, materialize_atLevel]
  cases b.filled.materialize <;> rfl

/-- Another level changes nothing in an expansion but the level. -/
theorem expand_atLevel (b : Blueprint) (s : Settings) (finished : List Finished)
    (level : ValidationLevel) :
    b.expand (s.atLevel level) finished = (b.expand s finished).map (·.atLevel level) := by
  unfold expand
  simp only [readied_atLevel, exceptMap_bind, bind_exceptMap, attach_atLevel, complete_atLevel]

end Blueprint
end HpcBlueprint
