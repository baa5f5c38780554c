/-
  The blueprints that can be materialized.

  `Blueprint.WellFormed` says it without any pass: what holds of names, kinds, uses, schemas,
  of every text at its place, of the dependencies inside a group and of the deployment name.
  `materialize_eq_ok_iff` takes the run apart pass by pass and finds the same conditions.
-/
import HpcBlueprint.Proofs.Expand.Cycle
import HpcBlueprint.Proofs.Expand.Passes
import HpcBlueprint.Proofs.Expand.Structure

namespace HpcBlueprint

open Expand

/-! ## Texts at their places -/

/-- A value that is neither a list nor a map. -/
def Value.IsScalar (v : Value) : Prop :=
  (∀ items, v ≠ .list items) ∧ ∀ entries, v ≠ .map entries

/-- The texts of a blueprint, each with its position and the variables that it may refer to:
    the earlier ones inside a variable, and all of them anywhere else. -/
inductive Blueprint.Site (b : Blueprint) : Position → OrderedMap Value → String → Prop
  | inVar {before : OrderedMap Value} {name : String} {v : Value} {after : OrderedMap Value}
      {text : String} (split : b.vars = before ++ (name, v) :: after) (mem : text ∈ v.texts) :
      Site b .inVariable before text
  | inModule {i : Nat} {m : Module} {key : String} {v : Value} {text : String}
      (module : (i, m) ∈ b.modules) (setting : (key, v) ∈ m.settings) (mem : text ∈ v.texts) :
      Site b (.inModule m.id i) b.vars text
  | inValidator {entry : ValidatorEntry} {key : String} {v : Value} {text : String}
      (validator : entry ∈ b.validators) (input : (key, v) ∈ entry.inputs)
      (mem : text ∈ v.texts) : Site b .elsewhere b.vars text
  | inDefaults {key : String} {v : Value} {text : String}
      (entry : (key, v) ∈ b.backendDefaults.configuration) (mem : text ∈ v.texts) :
      Site b .elsewhere b.vars text
  | inBackend {g : Group} {backend : Backend} {key : String} {v : Value} {text : String}
      (group : g ∈ b.groups) (has : g.backend = some backend)
      (entry : (key, v) ∈ backend.configuration) (mem : text ∈ v.texts) :
      Site b .elsewhere b.vars text

/-- A module of group `i` may refer to an output: it sees the module, which declares the
    output as far as its schema is known. -/
def Blueprint.Offers (b : Blueprint) (own : String) (i : Nat) (module name : String) : Prop :=
  ∃ target, b.Sees own i module target ∧
    ∀ schema, target.schema = some schema → ∃ o ∈ schema.outputs, o.name = name

/-- What a text at a position may be, given the variables that it may refer to. -/
structure Blueprint.Resolvable (b : Blueprint) (position : Position) (known : OrderedMap Value)
    (text : String) : Prop where
  parses : ∃ e, Expression.parse text = .ok e
  vars_known : ∀ name, .var name ∈ Expression.references text → name ∈ known.keys
  /-- A variable inside a longer text comes to have a scalar value. -/
  vars_scalar : ∀ segments, Expression.parse text = .ok (.template segments) →
    ∀ name v, .ref (.var name) ∈ segments → (settle [] known).get? name = some v → v.IsScalar
  /-- An output is the whole text of a setting, and the module may refer to it. -/
  outputs_offered : ∀ module name, .output module name ∈ Expression.references text →
    Expression.parse text = .ok (.whole (.output module name)) ∧
      ∃ own i, position = .inModule own i ∧ b.Offers own i module name

/-- A text that names a single directory. -/
def IsDirectoryName (name : String) : Prop :=
  name ≠ "" ∧ name ≠ "." ∧ name ≠ ".." ∧ '/' ∉ name.toList ∧ '\\' ∉ name.toList

/-- A blueprint whose references can all be resolved. -/
structure Blueprint.WellFormed (b : Blueprint) : Prop where
  groups_nodup : b.groupNames.Nodup
  modules_nodup : b.moduleIds.Nodup
  one_kind : ∀ g ∈ b.groups, g.OneKind
  uses_seen : ∀ i m, (i, m) ∈ b.modules → ∀ used ∈ m.uses, b.MayUse i m used
  schemas_fit : ∀ i m, (i, m) ∈ b.modules → ∀ schema, m.schema = some schema → m.Fits schema
  texts_resolvable : ∀ position known text, b.Site position known text →
    b.Resolvable position known text
  groups_acyclic : ∀ g ∈ b.groups, g.Acyclic
  deployment_name : ∃ name, b.values.get? deploymentNameVar = some (.string name) ∧
    IsDirectoryName name

/-! ## One text -/

theorem Value.isScalar_iff {v : Value} : v.IsScalar ↔ ∃ t, v.scalarText = some t := by
  cases v <;> simp [Value.IsScalar, Value.scalarText]

theorem keys_settle_nil {known : OrderedMap Value} {name : String} :
    name ∈ (settle [] known).keys ↔ name ∈ known.keys := by
  simp [mem_keys_settle]

theorem provides_iff_offers {b : Blueprint} (distinct : b.moduleIds.Nodup) {position : Position}
    {vars : OrderedMap Value} {module name : String} :
    Scope.Provides ⟨vars, position, b⟩ module name ↔
      ∃ own i, position = .inModule own i ∧ b.Offers own i module name := by
  simp only [Scope.Provides, Blueprint.Offers, sees_iff distinct, Schema.hasOutput_iff]
  constructor
  · rintro ⟨own, i, hpos, hne, j, target, hmod, hle, hkind, hout⟩
    exact ⟨own, i, hpos, target, ⟨hne, j, hmod, hle, hkind⟩, hout⟩
  · rintro ⟨own, i, hpos, target, ⟨hne, j, hmod, hle, hkind⟩, hout⟩
    exact ⟨own, i, hpos, hne, j, target, hmod, hle, hkind, hout⟩

/-- A template is filled from its scope when it refers to known variables only and these
    have scalar values. -/
theorem fills_iff {s : Scope} {segments : List Segment} :
    s.Fills segments ↔
      (∀ name, .ref (.var name) ∈ segments → name ∈ s.vars.keys) ∧
      (∀ name v, .ref (.var name) ∈ segments → s.vars.get? name = some v → v.IsScalar) ∧
      ∀ module name, .ref (.output module name) ∉ segments := by
  constructor
  · intro h
    refine ⟨fun name hr => ?_, fun name v hr hv => ?_, fun module name hr => ?_⟩
    · obtain ⟨name', v, t, heq, hv, -⟩ := h _ hr
      rw [Reference.var.inj heq]
      exact OrderedMap.mem_keys.mpr ⟨v, OrderedMap.mem_of_get?_eq_some hv⟩
    · obtain ⟨name', v', t, heq, hv', ht⟩ := h _ hr
      rw [← Reference.var.inj heq, hv, Option.some.injEq] at hv'
      exact Value.isScalar_iff.mpr ⟨t, hv' ▸ ht⟩
    · obtain ⟨name', v, t, heq, -⟩ := h _ hr
      exact Reference.noConfusion heq
  · rintro ⟨hknown, hscalar, hnone⟩ r hr
    cases r with
    | output module name => exact absurd hr (hnone module name)
    | var name =>
        obtain ⟨v, hv⟩ := OrderedMap.exists_get?_eq_some (hknown name hr)
        obtain ⟨t, ht⟩ := Value.isScalar_iff.mp (hscalar name v hr hv)
        exact ⟨name, v, t, rfl, hv, ht⟩

/-- A longer text holds no reference to an output. -/
theorem Blueprint.Resolvable.not_output_of_template {b : Blueprint} {position : Position}
    {known : OrderedMap Value} {text : String} {segments : List Segment}
    (h : b.Resolvable position known text)
    (hparse : Expression.parse text = .ok (.template segments)) (module name : String) :
    .ref (.output module name) ∉ segments := by
  intro hr
  have hwhole := (h.outputs_offered module name
    (Expression.mem_references.mpr (Or.inr ⟨segments, hparse, hr⟩))).1
  rw [hparse] at hwhole
  cases hwhole

/-- A literal can be resolved anywhere. -/
theorem Blueprint.Resolvable.of_literal {b : Blueprint} {position : Position}
    {known : OrderedMap Value} {text : String} (hparse : Expression.parse text = .ok .literal) :
    b.Resolvable position known text where
  parses := ⟨_, hparse⟩
  vars_known := by simp [Expression.references_of_literal hparse]
  vars_scalar := by simp [hparse]
  outputs_offered := by simp [Expression.references_of_literal hparse]

/-- The whole reference to an output can be resolved where the output is offered. -/
theorem Blueprint.Resolvable.of_output {b : Blueprint} {position : Position}
    {known : OrderedMap Value} {text module name : String}
    (hparse : Expression.parse text = .ok (.whole (.output module name)))
    (offered : ∃ own i, position = .inModule own i ∧ b.Offers own i module name) :
    b.Resolvable position known text where
  parses := ⟨_, hparse⟩
  vars_known := by simp [Expression.references_of_whole hparse]
  vars_scalar := by simp [hparse]
  outputs_offered := by
    intro module' name' hr
    rw [Expression.references_of_whole hparse, List.mem_singleton, Reference.output.injEq] at hr
    obtain ⟨rfl, rfl⟩ := hr
    exact ⟨hparse, offered⟩

/-- The scope of a place admits a text exactly when the text is resolvable there. -/
theorem admits_iff_resolvable {b : Blueprint} (distinct : b.moduleIds.Nodup) {position : Position}
    {known : OrderedMap Value} {text : String} :
    Scope.Admits ⟨settle [] known, position, b⟩ text ↔ b.Resolvable position known text := by
  -- the conditions on the references of a text are those on its expression, kind by kind
  constructor
  · rintro ⟨e, hparse, hgrants⟩
    cases e with
    | literal => exact .of_literal hparse
    | whole r =>
        have hrefs := Expression.references_of_whole hparse
        cases r with
        | var known =>
            refine ⟨⟨_, hparse⟩, fun name hr => ?_, by simp [hparse], by simp [hrefs]⟩
            rw [hrefs, List.mem_singleton, Reference.var.injEq] at hr
            exact keys_settle_nil.mp (hr ▸ hgrants)
        | output module name =>
            exact .of_output hparse ((provides_iff_offers distinct).mp hgrants)
    | template segments =>
        have hrefs : ∀ r, r ∈ Expression.references text ↔ .ref r ∈ segments := by
          simp [Expression.mem_references, hparse]
        obtain ⟨hknown, hscalar, hnone⟩ := fills_iff.mp hgrants
        refine ⟨⟨_, hparse⟩, fun name hr => ?_, fun segments' hparse' => ?_,
          fun module name hr => ?_⟩
        · exact keys_settle_nil.mp (hknown name ((hrefs _).mp hr))
        · rw [hparse, Except.ok.injEq, Expression.template.injEq] at hparse'
          exact hparse' ▸ hscalar
        · exact absurd ((hrefs _).mp hr) (hnone module name)
  · intro h
    obtain ⟨e, hparse⟩ := h.parses
    refine ⟨e, hparse, ?_⟩
    cases e with
    | literal => trivial
    | whole r =>
        have hmem : r ∈ Expression.references text :=
          Expression.mem_references.mpr (Or.inl hparse)
        cases r with
        | var name => exact keys_settle_nil.mpr (h.vars_known name hmem)
        | output module name =>
            exact (provides_iff_offers distinct).mpr (h.outputs_offered module name hmem).2
    | template segments =>
        have hmem : ∀ r, .ref r ∈ segments → r ∈ Expression.references text := fun r hr =>
          Expression.mem_references.mpr (Or.inr ⟨segments, hparse, hr⟩)
        exact fills_iff.mpr ⟨fun name hr => keys_settle_nil.mpr (h.vars_known name (hmem _ hr)),
          h.vars_scalar segments hparse, h.not_output_of_template hparse⟩

/-! ## The run -/

theorem checkDeploymentName_eq_ok_iff {vars : OrderedMap Value} :
    checkDeploymentName vars = .ok () ↔
      ∃ name, vars.get? deploymentNameVar = some (.string name) ∧ IsDirectoryName name := by
  -- an empty name is no directory name either; it is looked for first to tell so
  have hname : ∀ name, isDirectoryName name = true ↔ IsDirectoryName name := by
    intro name
    have hbad : (name.toList.any fun c => c == '/' || c == '\\') = false ↔
        '/' ∉ name.toList ∧ '\\' ∉ name.toList := by
      rw [List.any_eq_false]
      constructor
      · intro h
        exact ⟨fun hc => absurd (h _ hc) (by decide), fun hc => absurd (h _ hc) (by decide)⟩
      · rintro ⟨hslash, hbackslash⟩ c hc
        have h₁ : c ≠ '/' := fun heq => hslash (heq ▸ hc)
        have h₂ : c ≠ '\\' := fun heq => hbackslash (heq ▸ hc)
        simp [h₁, h₂]
    simp only [isDirectoryName, IsDirectoryName, Bool.and_eq_true, Bool.not_eq_true', bne_iff_ne,
      hbad, String.isEmpty_eq_false_iff, and_assoc]
  unfold checkDeploymentName
  cases vars.get? deploymentNameVar with
  | none => simp
  | some v =>
      cases v with
      | string name =>
          simp only [Option.some.injEq, Value.string.injEq, exists_eq_left', ← hname]
          by_cases hempty : name.isEmpty
          · simp [hempty, isDirectoryName]
          · simp [hempty]
      | _ => simp

/-- What the passes resolve are the texts at all places of the blueprint. -/
theorem forall_site_iff {b : Blueprint} {P : Position → OrderedMap Value → String → Prop} :
    (∀ position known text, b.Site position known text → P position known text) ↔
      (∀ before name v after, b.vars = before ++ (name, v) :: after →
        ∀ t ∈ v.texts, P .inVariable before t) ∧
      (∀ i m, (i, m) ∈ b.modules → ∀ key v, (key, v) ∈ m.settings →
        ∀ t ∈ v.texts, P (.inModule m.id i) b.vars t) ∧
      (∀ entry ∈ b.validators, ∀ key v, (key, v) ∈ entry.inputs →
        ∀ t ∈ v.texts, P .elsewhere b.vars t) ∧
      (∀ key v, (key, v) ∈ b.backendDefaults.configuration →
        ∀ t ∈ v.texts, P .elsewhere b.vars t) ∧
      ∀ g ∈ b.groups, ∀ backend, g.backend = some backend →
        ∀ key v, (key, v) ∈ backend.configuration → ∀ t ∈ v.texts, P .elsewhere b.vars t := by
  constructor
  · intro h
    exact ⟨fun _ _ _ _ hsplit t ht => h _ _ t (.inVar hsplit ht),
      fun _ _ hm _ _ hv t ht => h _ _ t (.inModule hm hv ht),
      fun _ he _ _ hv t ht => h _ _ t (.inValidator he hv ht),
      fun _ _ hv t ht => h _ _ t (.inDefaults hv ht),
      fun _ hg _ hb _ _ hv t ht => h _ _ t (.inBackend hg hb hv ht)⟩
  · rintro ⟨hvars, hmodules, hvalidators, hdefaults, hbackends⟩ position known text hsite
    cases hsite with
    | inVar split mem => exact hvars _ _ _ _ split _ mem
    | inModule module setting mem => exact hmodules _ _ module _ _ setting _ mem
    | inValidator validator input mem => exact hvalidators _ validator _ _ input _ mem
    | inDefaults entry mem => exact hdefaults _ _ entry _ mem
    | inBackend group has entry mem => exact hbackends _ group _ has _ _ entry _ mem

namespace Blueprint

/-- A run that materializes a blueprint finds it well-formed and substitutes its variables. -/
theorem materialize_eq_ok_iff {b : Blueprint} {m : Materialized} :
    b.materialize = .ok m ↔ b.WellFormed ∧ m = ⟨b.substituted, b.usage⟩ := by
  have hpasses : b.materialize = .ok m ↔
      checkStructure b = .ok () ∧ checkSettings b = .ok () ∧
        checkDeploymentName b.values = .ok () ∧ checkCycles b.groups = .ok () ∧
        (∀ position known text, b.Site position known text →
          Scope.Admits ⟨settle [] known, position, b⟩ text) ∧
        m = ⟨b.substituted, b.usage⟩ := by
    -- the lemma of each pass, in the order of the run; together they visit all places
    simp only [materialize, bind_eq_ok, resolveVars_eq_ok_iff, resolveGroups_eq_ok_iff,
      resolveValidators_eq_ok_iff, resolveBackend_eq_ok_iff, resolveGroupBackends_eq_ok_iff,
      pure_eq_ok, forall_site_iff]
    constructor
    · rintro ⟨⟨⟩, hstructure, ⟨⟩, hsettings, _, ⟨hvars, rfl⟩, ⟨⟩, hname, _, ⟨hmodules, rfl⟩, ⟨⟩,
        hcycles, _, ⟨hvalidators, rfl⟩, _, ⟨hdefaults, rfl⟩, _, ⟨hbackends, rfl⟩, rfl⟩
      refine ⟨hstructure, hsettings, hname, hcycles,
        ⟨hvars, hmodules, hvalidators, hdefaults, List.forall_mem_map.mp hbackends⟩, ?_⟩
      simp only [substituted, List.map_map]
      rfl
    · rintro ⟨hstructure, hsettings, hname, hcycles,
        ⟨hvars, hmodules, hvalidators, hdefaults, hbackends⟩, rfl⟩
      refine ⟨(), hstructure, (), hsettings, _, ⟨hvars, rfl⟩, (), hname, _, ⟨hmodules, rfl⟩, (),
        hcycles, _, ⟨hvalidators, rfl⟩, _, ⟨hdefaults, rfl⟩, _,
        ⟨List.forall_mem_map.mpr hbackends, rfl⟩, ?_⟩
      simp only [substituted, List.map_map]
      rfl
  rw [hpasses, checkStructure_eq_ok_iff, checkSettings_eq_ok_iff, checkDeploymentName_eq_ok_iff]
  -- what a scope admits is resolvable, and the cycle search finds all cycles, only where module
  -- names are distinct, which the check of the structure has found
  constructor
  · rintro ⟨⟨hgroups, hids, hkinds, huses⟩, hfits, hname, hcycles, htexts, hm⟩
    exact ⟨⟨hgroups, hids, hkinds, huses, hfits, fun position known text hsite =>
      (admits_iff_resolvable hids).mp (htexts position known text hsite),
      (checkCycles_eq_ok_iff (nodup_ids_of_mem hids)).mp hcycles, hname⟩, hm⟩
  · rintro ⟨h, hm⟩
    exact ⟨⟨h.groups_nodup, h.modules_nodup, h.one_kind, h.uses_seen⟩, h.schemas_fit,
      h.deployment_name,
      (checkCycles_eq_ok_iff (nodup_ids_of_mem h.modules_nodup)).mpr h.groups_acyclic,
      fun position known text hsite =>
        (admits_iff_resolvable h.modules_nodup).mpr (h.texts_resolvable position known text hsite),
      hm⟩

/-- A blueprint can be materialized exactly when it is well-formed. -/
theorem materializes_iff_wellFormed {b : Blueprint} :
    (∃ m, b.materialize = .ok m) ↔ b.WellFormed := by
  constructor
  · rintro ⟨m, hm⟩
    exact (materialize_eq_ok_iff.mp hm).1
  · intro h
    exact ⟨_, materialize_eq_ok_iff.mpr ⟨h, rfl⟩⟩

end Blueprint
end HpcBlueprint
