/-
  What the validation level changes in a run.

  Three runs that differ in the level only do the same up to the verdict: they fail with the
  same error, or expand to the same blueprint at their levels.  The built-in validators do not
  look at the level either, so they find the same failures, and only the consequence differs.
-/
import HpcBlueprint.Proofs.Expand.Level
import HpcBlueprint.Proofs.OrderedMap
import HpcBlueprint.Run.Expansion
import HpcBlueprint.Validate.Builtin

namespace HpcBlueprint

/-! ## What validators find -/

namespace Validator

/-- What the validators of a list find, entry by entry and in its order. -/
inductive Registry.Finds (r : Registry) (m : Materialized) :
    List ValidatorEntry → List ValidationFailure → Prop
  | nil : Finds r m [] []
  /-- An entry that is marked, or whose validator is in the skip set. -/
  | skipped {v : ValidatorEntry} {rest : List ValidatorEntry} {found : List ValidationFailure}
      (off : v.skip = true ∨ v.validator ∈ m.blueprint.skipped)
      (others : Finds r m rest found) : Finds r m (v :: rest) found
  /-- A validator that does not exist is a failure. -/
  | unknown {v : ValidatorEntry} {rest : List ValidatorEntry} {found : List ValidationFailure}
      (marked : v.skip = false) (listed : v.validator ∉ m.blueprint.skipped)
      (missing : r.lookup v.validator = none) (others : Finds r m rest found) :
      Finds r m (v :: rest)
        (⟨v.validator, Validator.unknown.message, Validator.unknown.hint⟩ :: found)
  | passes {v : ValidatorEntry} {rest : List ValidatorEntry} {found : List ValidationFailure}
      {check : Validator} (marked : v.skip = false)
      (listed : v.validator ∉ m.blueprint.skipped)
      (known : r.lookup v.validator = some check) (agrees : check m v.inputs = none)
      (others : Finds r m rest found) : Finds r m (v :: rest) found
  | objects {v : ValidatorEntry} {rest : List ValidatorEntry} {found : List ValidationFailure}
      {check : Validator} {o : Objection} (marked : v.skip = false)
      (listed : v.validator ∉ m.blueprint.skipped)
      (known : r.lookup v.validator = some check) (objects : check m v.inputs = some o)
      (others : Finds r m rest found) :
      Finds r m (v :: rest) (⟨v.validator, o.message, o.hint⟩ :: found)

variable {r : Registry} {m : Materialized} {level : ValidationLevel}

theorem isActive_iff {b : Blueprint} {v : ValidatorEntry} :
    isActive b v = true ↔ v.skip = false ∧ v.validator ∉ b.skipped := by
  simp [isActive, Blueprint.isSkipped]

theorem not_isActive_iff {b : Blueprint} {v : ValidatorEntry} :
    ¬ isActive b v = true ↔ v.skip = true ∨ v.validator ∈ b.skipped := by
  rw [isActive_iff, Decidable.not_and_iff_not_or_not, Bool.not_eq_false, Decidable.not_not]

/-- What running the validators of a list yields is what they find. -/
theorem Registry.finds_filterMap (vs : List ValidatorEntry) :
    r.Finds m vs ((vs.filter (isActive m.blueprint)).filterMap (r.check m)) := by
  induction vs with
  | nil => exact .nil
  | cons v rest ih =>
      by_cases hon : isActive m.blueprint v = true
      · obtain ⟨marked, listed⟩ := isActive_iff.mp hon
        rw [List.filter_cons_of_pos hon]
        cases hlookup : r.lookup v.validator with
        | none =>
            rw [List.filterMap_cons_some (by simp [Registry.check, hlookup]; rfl)]
            exact .unknown marked listed hlookup ih
        | some check =>
            cases hcheck : check m v.inputs with
            | none =>
                rw [List.filterMap_cons_none (by simp [Registry.check, hlookup, hcheck])]
                exact .passes marked listed hlookup hcheck ih
            | some o =>
                rw [List.filterMap_cons_some (by simp [Registry.check, hlookup, hcheck]; rfl)]
                exact .objects marked listed hlookup hcheck ih
      · rw [List.filter_cons_of_neg hon]
        exact .skipped (not_isActive_iff.mp hon) ih

/-- The validators of a list find exactly what running them yields. -/
theorem Registry.finds_iff {vs : List ValidatorEntry} {found : List ValidationFailure} :
    r.Finds m vs found ↔ found = (vs.filter (isActive m.blueprint)).filterMap (r.check m) := by
  refine ⟨fun h => ?_, fun h => h ▸ finds_filterMap vs⟩
  induction h with
  | nil => rfl
  | skipped off others ih => rw [List.filter_cons_of_neg (not_isActive_iff.mpr off), ih]
  | unknown marked listed missing others ih =>
      rw [List.filter_cons_of_pos (isActive_iff.mpr ⟨marked, listed⟩), ih]
      simp [Registry.check, missing]
  | passes marked listed known agrees others ih =>
      rw [List.filter_cons_of_pos (isActive_iff.mpr ⟨marked, listed⟩), ih]
      simp [Registry.check, known, agrees]
  | objects marked listed known objects others ih =>
      rw [List.filter_cons_of_pos (isActive_iff.mpr ⟨marked, listed⟩), ih]
      simp [Registry.check, known, objects]

/-! ## Verdicts at the three levels -/

/-- A validator that finds the same at every level. -/
def Levelless (check : Validator) : Prop :=
  ∀ m inputs level, check (m.atLevel level) inputs = check m inputs

theorem levelless_of_mem_builtin {name : String} {check : Validator}
    (h : (name, check) ∈ builtin) : Levelless check := by
  simp only [builtin, List.mem_cons, Prod.mk.injEq, List.not_mem_nil, or_false] at h
  rcases h with ⟨-, rfl⟩ | ⟨-, rfl⟩ | ⟨-, rfl⟩ | ⟨-, rfl⟩ <;> exact fun _ _ _ => rfl

/-- The same failures are found where the same validators run and find the same. -/
theorem Registry.failures_congr {m' : Materialized}
    (validators : m'.blueprint.validators = m.blueprint.validators)
    (skipped : m'.blueprint.skipped = m.blueprint.skipped)
    (checks : ∀ name check, (name, check) ∈ r → ∀ inputs, check m' inputs = check m inputs) :
    r.failures m' = r.failures m := by
  have hactive : isActive m'.blueprint = isActive m.blueprint := by
    funext v
    rw [isActive, isActive, Blueprint.isSkipped, Blueprint.isSkipped, skipped]
  have hcheck : r.check m' = r.check m := by
    funext v
    unfold Registry.check
    cases hlookup : r.lookup v.validator with
    | none => rfl
    | some check =>
        have hmem := OrderedMap.mem_of_get?_eq_some (m := r) hlookup
        simp only [checks _ _ hmem v.inputs]
  rw [Registry.failures, Registry.failures, hactive, hcheck, validators]

theorem Registry.failures_atLevel (levelless : ∀ name check, (name, check) ∈ r → Levelless check)
    (m : Materialized) (level : ValidationLevel) :
    r.failures (m.atLevel level) = r.failures m :=
  Registry.failures_congr rfl rfl fun name check hmem inputs =>
    levelless name check hmem m inputs level

theorem failures_builtin_atLevel (m : Materialized) (level : ValidationLevel) :
    builtin.failures (m.atLevel level) = builtin.failures m :=
  Registry.failures_atLevel (fun _ _ => levelless_of_mem_builtin) m level

end Validator

namespace Run

open Catalog

variable {ω : Type} {α β : Type}

/-- What is made of an expanded blueprint at each level, if its validators find the same at
    all of them. -/
theorem validated_atLevel {r : Validator.Registry} {m : Materialized}
    (same : ∀ level, r.failures (m.atLevel level) = r.failures m) :
    validated r (m.atLevel .ignore) = .ok ⟨m.atLevel .ignore, []⟩ ∧
      validated r (m.atLevel .warning) = .ok ⟨m.atLevel .warning, r.failures m⟩ ∧
      validated r (m.atLevel .error) =
        if r.failures m = [] then .ok ⟨m.atLevel .error, []⟩
        else .error (.validation (r.failures m)) := by
  have hlevel : ∀ level, (m.atLevel level).blueprint.level = level := fun _ => rfl
  refine ⟨?_, ?_, ?_⟩
  · simp [validated, Validator.Registry.verdict, Validator.Registry.run, hlevel]
  · simp [validated, Validator.Registry.verdict, Validator.Registry.run, hlevel, same]
  · by_cases hnone : r.failures m = []
    · simp [validated, Validator.Registry.verdict, Validator.Registry.run, hlevel, same, hnone]
    · simp [validated, Validator.Registry.verdict, Validator.Registry.run, hlevel, same, hnone]

/-! ## Errors before the verdict -/

/-- An outcome in which no validator had a say. -/
def Unjudged (x : Except Error α) : Prop := ∀ failures, x ≠ .error (.validation failures)

theorem unjudged_ok (a : α) : Unjudged (.ok a : Except Error α) := by
  intro failures h
  cases h

theorem unjudged_mapError {ε : Type} {f : ε → Error} (h : ∀ e failures, f e ≠ .validation failures)
    (x : Except ε α) : Unjudged (x.mapError f) := by
  intro failures heq
  obtain ⟨e, -, he⟩ := mapError_eq_error.mp heq
  exact h e failures he

theorem unjudged_config {e : ConfigError} : Unjudged (.error (.config e) : Except Error α) := by
  intro failures h
  cases h

theorem Unjudged.bind {x : Except Error α} {f : α → Except Error β} (hx : Unjudged x)
    (hf : ∀ a, Unjudged (f a)) : Unjudged (x >>= f) := by
  intro failures h
  rcases exceptBind_eq_error.mp h with he | ⟨a, -, he⟩
  · exact hx failures he
  · exact hf a failures he

theorem Unjudged.map {x : Except Error α} (hx : Unjudged x) (f : α → β) : Unjudged (x.map f) :=
  fun failures h => hx failures (map_eq_error.mp h)

theorem unjudged_problem (path : String) {ε : Type} (p : ε → SchemaProblem) (x : Except ε α) :
    Unjudged (x.mapError fun e => Schema.problem path (p e)) :=
  unjudged_mapError (fun _ _ h => by cases h) x

theorem unjudged_withFile (fs : FileSystem) (kind : ModuleKind) (s : Schema) (file : String) :
    Unjudged (s.withFile fs kind file) := by
  refine Unjudged.bind (unjudged_problem file _ _) fun text => ?_
  split
  · exact unjudged_config
  · exact unjudged_problem file _ _

theorem unjudged_withFiles (fs : FileSystem) (kind : ModuleKind) (s : Schema)
    (files : List String) : Unjudged (Schema.withFiles fs kind s files) := by
  induction files generalizing s with
  | nil => exact unjudged_ok s
  | cons file rest ih => exact (unjudged_withFile fs kind s file).bind ih

theorem unjudged_ofDirectory (fs : FileSystem) (kind : ModuleKind) (dir : String) :
    Unjudged (Schema.ofDirectory fs kind dir) := by
  have hfiles : Unjudged (Schema.files fs kind dir) :=
    Unjudged.bind (unjudged_problem dir _ _) fun _ => unjudged_ok _
  refine Unjudged.bind (hfiles.bind fun all => ?_) fun s => unjudged_ok _
  split
  · exact unjudged_config
  · exact unjudged_withFiles fs kind _ _

theorem unjudged_load (c : Catalog ω) (source : String) (kind : ModuleKind) (s : State ω) :
    Unjudged (c.load source kind s).1 := by
  unfold load
  split
  · rename_i e s' hdir
    -- a directory is not found for a local path or for want of a package
    unfold directory at hdir
    split at hdir
    · cases hdir
    · split at hdir
      · cases hdir
        exact unjudged_config
      · cases hdir
    · dsimp only at hdir
      split at hdir
      · cases hdir
      · cases hdir
        intro failures h
        cases h
  · exact unjudged_ofDirectory _ kind _

theorem unjudged_lookup (c : Catalog ω) (source : String) (kind : ModuleKind) (s : State ω) :
    Unjudged (c.lookup source kind s).1 := by
  have hload := unjudged_load c source kind s
  unfold lookup
  split
  · exact unjudged_ok _
  · split
    · rename_i hfails
      rw [hfails] at hload
      intro failures h
      cases h
      exact hload failures rfl
    · exact unjudged_ok _

theorem unjudged_lookupAll (c : Catalog ω) (placed : List (Place × Module)) (s : State ω) :
    ∀ f ∈ (c.lookupAll placed s).1, Unjudged f.outcome := by
  induction placed generalizing s with
  | nil =>
      intro f hf
      cases hf
  | cons entry rest ih =>
      obtain ⟨place, m⟩ := entry
      intro f hf
      rcases List.mem_cons.mp hf with rfl | hf
      · exact (unjudged_lookup c m.source m.kind s).map _
      · exact ih _ f hf

theorem unjudged_attach {b : Blueprint} {finished : List Finished}
    (h : ∀ f ∈ finished, Unjudged f.outcome) : Unjudged (b.attach finished) := by
  -- that no outcome is filed for a place is an error, but no verdict
  have hfiled : ∀ p, Unjudged (Blueprint.outcomeAt finished p) := by
    intro p
    unfold Blueprint.outcomeAt
    split
    · rename_i f hf
      exact h f (List.mem_of_find?_eq_some hf)
    · intro failures heq
      cases heq
  have hmodules : ∀ i j ms,
      Unjudged (Blueprint.attachModules (Blueprint.outcomeAt finished) i j ms) := by
    intro i j ms
    induction ms generalizing j with
    | nil => exact unjudged_ok _
    | cons m rest ih =>
        exact (hfiled ⟨i, j⟩).bind fun schema => (ih (j + 1)).bind fun _ => unjudged_ok _
  have hgroups : ∀ i gs,
      Unjudged (Blueprint.attachGroups (Blueprint.outcomeAt finished) i gs) := by
    intro i gs
    induction gs generalizing i with
    | nil => exact unjudged_ok _
    | cons g rest ih =>
        exact (hmodules i 0 g.modules).bind fun modules => (ih (i + 1)).bind fun _ => unjudged_ok _
  exact (hgroups 0 b.groups).bind fun _ => unjudged_ok _

theorem unjudged_expandBlueprint (c : Catalog ω) (b : Blueprint) (settings : Settings)
    (s : State ω) : Unjudged (expandBlueprint c b settings s).1 := by
  have hreadied : Unjudged (b.readied settings) :=
    Unjudged.bind (unjudged_mapError (fun _ _ h => by cases h) _) fun _ => unjudged_ok _
  unfold expandBlueprint
  split
  · rename_i e he
    rw [he] at hreadied
    intro failures h
    cases h
    exact hreadied failures rfl
  · refine hreadied.bind fun ready => ?_
    refine (unjudged_attach (unjudged_lookupAll c _ s)).bind fun attached => ?_
    exact unjudged_mapError (fun _ _ h => by cases h) _

/-! ## Three runs -/

/-- The same options but for the level. -/
def Options.atLevel (o : Options) (level : Option ValidationLevel) : Options :=
  { o with overrides := o.overrides.atLevel level }

theorem settings_atLevel (fs : FileSystem) (o : Options) (level : ValidationLevel) :
    settings fs (o.atLevel (some level)) =
      (settings fs (o.atLevel none)).map (·.atLevel level) := by
  have hfile : (o.atLevel (some level)).settingsFile = (o.atLevel none).settingsFile := rfl
  have hoverride : ∀ base : Settings,
      (base.override (o.atLevel (some level)).overrides).toExcept =
        (base.override (o.atLevel none).overrides).toExcept.map (·.atLevel level) :=
    fun base => Settings.override_atLevel base o.overrides level
  unfold settings
  rw [hfile]
  cases (o.atLevel none).settingsFile with
  | none => exact hoverride Settings.empty
  | some file => simp only [hoverride, exceptMap_bind]

theorem sources_atLevel (fs : FileSystem) (o : Options) (level : ValidationLevel) :
    sources fs (o.atLevel (some level)) =
      (sources fs (o.atLevel none)).map fun (b, settings) => (b, settings.atLevel level) := by
  unfold sources
  rw [settings_atLevel]
  simp only [exceptMap_bind, bind_exceptMap]
  rfl

theorem expandBlueprint_atLevel (c : Catalog ω) (b : Blueprint) (settings : Settings)
    (s : State ω) (level : ValidationLevel) :
    expandBlueprint c b (settings.atLevel level) s =
      ((expandBlueprint c b settings s).1.map (·.atLevel level),
        (expandBlueprint c b settings s).2) := by
  unfold expandBlueprint
  rw [Blueprint.readied_atLevel]
  cases b.readied settings with
  | error e => rfl
  | ok ready =>
      have hplaced : (ready.atLevel level).placed = ready.placed := rfl
      simp only [Except.map, hplaced, Blueprint.expand_atLevel]

/-- The level changes only the consequence of failures: runs at the three levels fail with the
    same error before any validator has a say, or expand to the same blueprint but for its
    level, in which the validators that are not skipped find the same failures. -/
theorem expand_levels (c : Catalog ω) (o : Options) (s : State ω) :
    (∃ e s', (∀ failures, e ≠ .validation failures) ∧
      ∀ level, expand ⟨c, Validator.builtin⟩ (o.atLevel (some level)) s = (.error e, s')) ∨
    ∃ m found s', Validator.builtin.Finds m m.blueprint.validators found ∧
      expand ⟨c, Validator.builtin⟩ (o.atLevel (some .ignore)) s =
        (.ok ⟨m.atLevel .ignore, []⟩, s') ∧
      expand ⟨c, Validator.builtin⟩ (o.atLevel (some .warning)) s =
        (.ok ⟨m.atLevel .warning, found⟩, s') ∧
      expand ⟨c, Validator.builtin⟩ (o.atLevel (some .error)) s =
        (if found = [] then .ok ⟨m.atLevel .error, []⟩ else .error (.validation found), s') := by
  -- what a run at some level does, from what a run does that leaves the level alone
  have hsources := fun level => sources_atLevel s.files o level
  cases hload : sources s.files (o.atLevel none) with
  | error e =>
      refine .inl ⟨.config e, s, fun failures h => ?_, fun level => ?_⟩
      · cases h
      · rw [expand, hsources, hload]
        rfl
  | ok loaded =>
      obtain ⟨b, settings⟩ := loaded
      have hexpand := fun level => expandBlueprint_atLevel c b settings s level
      have hunjudged := unjudged_expandBlueprint c b settings s
      cases hblueprint : expandBlueprint c b settings s with
      | mk outcome s' =>
          rw [hblueprint] at hexpand hunjudged
          have hrun : ∀ level, expand ⟨c, Validator.builtin⟩ (o.atLevel (some level)) s =
              ((outcome.map (·.atLevel level)).bind (validated Validator.builtin), s') := by
            intro level
            simp only [expand, hsources, hload, Except.map, hexpand]
            cases outcome <;> rfl
          cases outcome with
          | error e =>
              refine .inl ⟨e, s', fun failures he => hunjudged failures ?_, hrun⟩
              rw [he]
          | ok m =>
              have hverdicts := validated_atLevel (Validator.failures_builtin_atLevel m)
              refine .inr ⟨m, Validator.builtin.failures m, s',
                Validator.Registry.finds_iff.mpr rfl, ?_, ?_, ?_⟩
              · rw [hrun]
                exact congrArg (·, s') hverdicts.1
              · rw [hrun]
                exact congrArg (·, s') hverdicts.2.1
              · rw [hrun]
                exact congrArg (·, s') hverdicts.2.2

end Run
end HpcBlueprint
