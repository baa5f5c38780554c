/-
  Materializing an expanded blueprint once more.

  Substitution leaves a blueprint as it is exactly when the blueprint is closed.  So a
  second run returns what it was given exactly when that is closed and the references that
  were put together, if there are any, make no cycle and use no module that was unused.
-/
import HpcBlueprint.Proofs.Expand.Expansion
import HpcBlueprint.Proofs.NameSet

namespace HpcBlueprint

open Expand

/-- A schema fits a module whatever the values of its settings. -/
theorem Module.Fits.subst {m : Module} {schema : Schema} (h : m.Fits schema)
    (vars : OrderedMap Value) : (m.subst vars).Fits schema where
  settings_declared := by
    rw [Module.settings_subst, OrderedMap.keys_subst]
    exact h.settings_declared
  required_set := by
    rw [Module.settings_subst, OrderedMap.keys_subst]
    exact h.required_set
  outputs_declared := h.outputs_declared

namespace Blueprint

variable {b : Blueprint}

/-! ## Blueprints that substitution leaves as they are -/

/-- The parts of a blueprint that substitution may change. -/
theorem substituted_eq_self_iff_parts :
    b.substituted = b ↔
      b.values = b.vars ∧
      (∀ g ∈ b.groups, ∀ m ∈ g.modules, OrderedMap.subst b.values m.settings = m.settings) ∧
      (∀ v ∈ b.validators, OrderedMap.subst b.values v.inputs = v.inputs) ∧
      OrderedMap.subst b.values b.backendDefaults.configuration =
        b.backendDefaults.configuration ∧
      ∀ g ∈ b.groups, ∀ backend, g.backend = some backend →
        OrderedMap.subst b.values backend.configuration = backend.configuration := by
  -- names, kinds, uses and schemas are not substituted, so the other parts agree by definition
  constructor
  · intro h
    have hgroups : ∀ g ∈ b.groups, g.subst b.values = g :=
      map_eq_self_iff.mp (congrArg Blueprint.groups h)
    refine ⟨congrArg Blueprint.vars h, fun g hg m hm => ?_, fun v hv => ?_,
      congrArg (·.backendDefaults.configuration) h, fun g hg backend hbackend => ?_⟩
    · have hmodules := map_eq_self_iff.mp (congrArg Group.modules (hgroups g hg))
      exact congrArg Module.settings (hmodules m hm)
    · have hvalidators := map_eq_self_iff.mp (congrArg Blueprint.validators h)
      exact congrArg ValidatorEntry.inputs (hvalidators v hv)
    · have hsubst := congrArg Group.backend (hgroups g hg)
      rw [Group.subst, hbackend, Option.map_some, Option.some.injEq] at hsubst
      exact congrArg Backend.configuration hsubst
  · rintro ⟨hvars, hmodules, hvalidators, hdefaults, hbackends⟩
    have hgroups : b.groups.map (·.subst b.values) = b.groups := by
      refine map_eq_self_iff.mpr fun g hg => ?_
      have hms : g.modules.map (·.subst b.values) = g.modules :=
        map_eq_self_iff.mpr fun m hm => by rw [Module.subst, hmodules g hg m hm]
      have hbackend : g.backend.map (·.subst b.values) = g.backend := by
        cases hb : g.backend with
        | none => rfl
        | some backend => rw [Option.map_some, Backend.subst, hbackends g hg backend hb]
      rw [Group.subst, hms, hbackend]
    have hentries : b.validators.map (·.subst b.values) = b.validators :=
      map_eq_self_iff.mpr fun v hv => by rw [ValidatorEntry.subst, hvalidators v hv]
    rw [substituted, hgroups, hentries, Backend.subst, hdefaults, hvars]

/-- Substitution leaves a blueprint as it is exactly when it leaves every text in it. -/
theorem substituted_eq_self_iff (distinct : b.vars.Distinct) :
    b.substituted = b ↔ ∀ position known text, b.Site position known text →
      Value.substText (settle [] known) text = .string text := by
  have hvars : b.values = b.vars ↔ ∀ before name v after,
      b.vars = before ++ (name, v) :: after → v.subst (settle [] before) = v :=
    settle_eq_self_iff distinct
  rw [substituted_eq_self_iff_parts, forall_site_iff, hvars, ← forall_modules_iff]
  simp only [OrderedMap.subst_eq_self_iff, Value.subst_eq_self_iff]
  rfl

/-- A text that is left as it is, though it can be resolved, has nothing to be put in. -/
theorem closed_of_substText_eq (known : b.Known) {position : Position}
    {earlier : OrderedMap Value} {text : String}
    (literal : OrderedMap.IsLiteral (settle [] earlier)) (h : b.Resolvable position earlier text)
    (hfixed : Value.substText (settle [] earlier) text = .string text) :
    Expression.parse text = .ok .literal ∨ b.HoldsOutput position text := by
  have htemplate : ∀ segments, Expression.parse text ≠ .ok (.template segments) := by
    intro segments hparse
    obtain ⟨segments', hscan, rfl, r, hr⟩ := Expression.classifies_of_parse hparse
    have hnone := h.not_output_of_template hparse
    rw [Value.substText, hparse, Value.string.injEq] at hfixed
    exact fill_ne literal (Expression.scan_cuts hscan) hnone hr hfixed
  have hclosed := (closed_substText_iff known literal h).mpr
    fun segments hparse => absurd hparse (htemplate segments)
  exact hclosed text (by rw [hfixed, Value.texts_string]; exact List.mem_singleton_self text)

/-- Substitution leaves a blueprint that can be resolved exactly when it is closed. -/
theorem substituted_eq_self_iff_closed (distinct : b.vars.Distinct) (known : b.Known)
    (resolvable : ∀ position earlier text, b.Site position earlier text →
      b.Resolvable position earlier text) : b.substituted = b ↔ b.Closed := by
  rw [substituted_eq_self_iff distinct]
  constructor
  · intro hfixed
    have hliteral : ∀ before after, b.vars = before ++ after →
        OrderedMap.IsLiteral (settle [] before) := by
      intro before after hsplit
      -- a variable is closed behind literals, and an output cannot stand in one
      refine isLiteral_settle (fun earlier name v after hsplit hearlier => ?_) hsplit
      refine Value.forall_texts_subst.mpr fun text htext t ht => ?_
      have hsite : b.Site .inVariable earlier text := .inVar hsplit htext
      have htext := hfixed _ _ _ hsite
      have hclosed := closed_of_substText_eq known hearlier (resolvable _ _ _ hsite) htext
      rw [htext, Value.texts_string, List.mem_singleton] at ht
      rw [ht]
      exact hclosed.resolve_right not_holdsOutput_inVariable
    intro position earlier text hsite
    obtain ⟨after, hsplit⟩ := hsite.exists_vars_eq
    exact closed_of_substText_eq known (hliteral _ _ hsplit) (resolvable _ _ _ hsite)
      (hfixed _ _ _ hsite)
  · intro hclosed position earlier text hsite
    rcases hclosed _ _ _ hsite with hparse | ⟨own, i, module, name, -, hparse, -⟩
    · rw [Value.substText, hparse]
    · rw [Value.substText, hparse]

/-! ## Well-formedness of a resolved blueprint -/

/-- A text of a closed blueprint can be resolved. -/
theorem resolvable_of_closed {position : Position} {earlier : OrderedMap Value} {text : String}
    (h : Expression.parse text = .ok .literal ∨ b.HoldsOutput position text) :
    b.Resolvable position earlier text := by
  rcases h with hparse | ⟨own, i, module, name, hpos, hparse, target, schema, hsees, hschema, hout⟩
  · exact .of_literal hparse
  · refine .of_output hparse ⟨own, i, hpos, target, hsees, fun schema' hschema' => ?_⟩
    rw [hschema, Option.some.injEq] at hschema'
    exact hschema' ▸ hout

theorem groupNames_substituted : b.substituted.groupNames = b.groupNames := by
  simp [groupNames, substituted]

theorem moduleIds_substituted : b.substituted.moduleIds = b.moduleIds := by
  simp [moduleIds, modules_substituted]

theorem known_substituted (known : b.Known) : b.substituted.Known := by
  rintro g hg m hm
  obtain ⟨g', hg', rfl⟩ := List.mem_map.mp hg
  obtain ⟨m', hm', rfl⟩ := List.mem_map.mp hm
  exact known g' hg' m' hm'

theorem distinct_values (b : Blueprint) : b.values.Distinct :=
  distinct_settle OrderedMap.distinct_nil b.vars

/-- What holds of names, kinds, uses and schemas holds after resolving, too. -/
theorem WellFormed.substituted (h : b.WellFormed) (known : b.Known)
    (closed : b.substituted.Closed) (acyclic : ∀ g ∈ b.substituted.groups, g.Acyclic) :
    b.substituted.WellFormed where
  groups_nodup := by
    rw [groupNames_substituted]
    exact h.groups_nodup
  modules_nodup := by
    rw [moduleIds_substituted]
    exact h.modules_nodup
  one_kind := by
    intro g hg m hm n hn
    obtain ⟨g', hg', rfl⟩ := List.mem_map.mp hg
    obtain ⟨m', hm', rfl⟩ := List.mem_map.mp hm
    obtain ⟨n', hn', rfl⟩ := List.mem_map.mp hn
    exact h.one_kind g' hg' m' hm' n' hn'
  uses_seen := by
    intro i m hm used hused
    obtain ⟨m', hm', rfl⟩ := mem_modules_substituted.mp hm
    obtain ⟨target, hsees⟩ := h.uses_seen i m' hm' used hused
    exact ⟨_, sees_substituted.mpr ⟨target, hsees, rfl⟩⟩
  schemas_fit := by
    intro i m hm schema hschema
    obtain ⟨m', hm', rfl⟩ := mem_modules_substituted.mp hm
    exact (h.schemas_fit i m' hm' schema hschema).subst b.values
  texts_resolvable := fun position earlier text hsite =>
    resolvable_of_closed (closed position earlier text hsite)
  groups_acyclic := acyclic
  deployment_name := by
    -- closed variables are literals, so that settling them once more changes none
    have hfixed := (substituted_eq_self_iff_closed (distinct_values b) (known_substituted known)
      fun _ _ _ hsite => resolvable_of_closed (closed _ _ _ hsite)).mpr closed
    have hvalues : b.substituted.values = b.values := congrArg Blueprint.vars hfixed
    rw [hvalues]
    exact h.deployment_name

/-! ## Usage -/

/-- The references of a blueprint are those that stand in its texts. -/
theorem mem_references {r : Reference} : r ∈ b.references ↔
    ∃ position known text, b.Site position known text ∧ r ∈ Expression.references text := by
  simp only [references, List.mem_append, List.mem_flatMap, OrderedMap.mem_references]
  -- the kinds of places are listed in the order in which the references are gathered
  constructor
  · rintro ((((h | h) | h) | h) | h)
    · obtain ⟨name, v, text, hv, htext, hr⟩ := h
      obtain ⟨before, after, hsplit⟩ := List.append_of_mem hv
      exact ⟨_, _, text, .inVar hsplit htext, hr⟩
    · obtain ⟨⟨i, m⟩, hm, key, v, text, hv, htext, hr⟩ := h
      exact ⟨_, _, text, .inModule hm hv htext, hr⟩
    · obtain ⟨entry, hentry, key, v, text, hv, htext, hr⟩ := h
      exact ⟨_, _, text, .inValidator hentry hv htext, hr⟩
    · obtain ⟨key, v, text, hv, htext, hr⟩ := h
      exact ⟨_, _, text, .inDefaults hv htext, hr⟩
    · obtain ⟨g, hg, hr⟩ := h
      cases hbackend : g.backend with
      | none => simp [hbackend] at hr
      | some backend =>
          rw [hbackend, Option.map_some, Option.getD_some, OrderedMap.mem_references] at hr
          obtain ⟨key, v, text, hv, htext, hr⟩ := hr
          exact ⟨_, _, text, .inBackend hg hbackend hv htext, hr⟩
  · rintro ⟨position, known, text, hsite, hr⟩
    cases hsite with
    | @inVar _ name v after _ split mem =>
        have hvar : (name, v) ∈ b.vars := by simp [split]
        exact Or.inl (Or.inl (Or.inl (Or.inl ⟨_, _, text, hvar, mem, hr⟩)))
    | inModule module setting mem =>
        exact Or.inl (Or.inl (Or.inl (Or.inr ⟨_, module, _, _, text, setting, mem, hr⟩)))
    | inValidator validator input mem =>
        exact Or.inl (Or.inl (Or.inr ⟨_, validator, _, _, text, input, mem, hr⟩))
    | inDefaults entry mem => exact Or.inl (Or.inr ⟨_, _, text, entry, mem, hr⟩)
    | inBackend group has entry mem =>
        refine Or.inr ⟨_, group, ?_⟩
        rw [has, Option.map_some, Option.getD_some, OrderedMap.mem_references]
        exact ⟨_, _, text, entry, mem, hr⟩

/-- A closed blueprint uses no variables. -/
theorem Closed.usedVars_eq_nil (closed : b.Closed) : b.usage.usedVars = [] := by
  have hnone : ∀ position earlier text, b.Site position earlier text →
      ∀ name, .var name ∉ Expression.references text := by
    intro position earlier text hsite name hr
    rcases closed _ _ _ hsite with hparse | ⟨own, i, module, out, -, hparse, -⟩
    · simp [Expression.references_of_literal hparse] at hr
    · simp [Expression.references_of_whole hparse] at hr
  have hempty : b.references.filterMap Reference.var? = [] := by
    rw [List.filterMap_eq_nil_iff]
    intro r hr
    cases r with
    | output module name => rfl
    | var name =>
        obtain ⟨position, earlier, text, hsite, hr⟩ := mem_references.mp hr
        exact absurd hr (hnone position earlier text hsite name)
  rw [usage, hempty]
  rfl

end Blueprint

/-! ## The second run -/

/-- The second run on a resolved blueprint returns what it is given when the blueprint is
    closed and no reference that was put together makes a cycle or uses a module that was
    not used before. -/
theorem again_eq_ok_iff {f : Blueprint} (wellFormed : f.WellFormed) (known : f.Known) :
    Materialized.again ⟨f.substituted, f.usage⟩ = .ok ⟨f.substituted, f.usage⟩ ↔
      f.substituted.Closed ∧ (∀ g ∈ f.substituted.groups, g.Acyclic) ∧
        f.substituted.usage.unusedUses = f.usage.unusedUses := by
  have hclosed : (∀ position earlier text, f.substituted.Site position earlier text →
        f.substituted.Resolvable position earlier text) →
      (f.substituted.substituted = f.substituted ↔ f.substituted.Closed) :=
    Blueprint.substituted_eq_self_iff_closed f.distinct_values (Blueprint.known_substituted known)
  simp only [Materialized.again, bind_eq_ok, pure_eq_ok, Blueprint.materialize_eq_ok_iff]
  constructor
  · rintro ⟨_, ⟨hwellFormed, rfl⟩, heq⟩
    rw [Materialized.mk.injEq] at heq
    obtain ⟨hfixed, husage⟩ := heq
    have hunused := congrArg Usage.unusedUses husage
    exact ⟨(hclosed hwellFormed.texts_resolvable).mp hfixed, hwellFormed.groups_acyclic, hunused⟩
  · rintro ⟨closed, acyclic, hunused⟩
    have hwellFormed := wellFormed.substituted known closed acyclic
    -- the second run adds the variables that it uses, which are none, to those of the first
    refine ⟨_, ⟨hwellFormed, rfl⟩, ?_⟩
    have hused : NameSet.union [] f.usage.usedVars = f.usage.usedVars :=
      NameSet.ofList_of_sorted (NameSet.sorted_ofList _)
    rw [(hclosed hwellFormed.texts_resolvable).mpr closed, closed.usedVars_eq_nil, hused, hunused]

/-- Materializing an expanded blueprint once more returns the same exactly when it is closed
    and the references in it make no cycle and leave the same uses unused. -/
theorem Materialized.again_eq_self_iff {b : Blueprint} {s : Settings} {finished : List Finished}
    {m : Materialized} (h : b.expand s finished = .ok m) :
    m.again = .ok m ↔
      m.blueprint.Closed ∧ (∀ g ∈ m.blueprint.groups, g.Acyclic) ∧
        m.blueprint.usage.unusedUses = m.usage.unusedUses := by
  obtain ⟨f, hf, wellFormed, rfl⟩ := Blueprint.expand_eq_ok_iff.mp h
  exact again_eq_ok_iff wellFormed (Blueprint.known_of_unresolved hf)

theorem Materialized.again_eq_self_iff_seamed :
    Blueprint.seamed.expand Settings.empty [] = .ok Blueprint.seamedExpanded ∧
      (Blueprint.seamedExpanded.again = .ok Blueprint.seamedExpanded ↔
        Blueprint.seamedExpanded.blueprint.Closed ∧
          (∀ g ∈ Blueprint.seamedExpanded.blueprint.groups, g.Acyclic) ∧
          Blueprint.seamedExpanded.blueprint.usage.unusedUses =
            Blueprint.seamedExpanded.usage.unusedUses) :=
  ⟨Blueprint.expand_seamed, again_eq_self_iff Blueprint.expand_seamed⟩

/-- A second run may fail on what the first one returned. -/
theorem Materialized.exists_expand_again_ne :
    ∃ (b : Blueprint) (s : Settings) (finished : List Finished) (m : Materialized),
      b.expand s finished = .ok m ∧ m.again ≠ .ok m := by
  refine ⟨.seamed, Settings.empty, [], Blueprint.seamedExpanded, Blueprint.expand_seamed, ?_⟩
  have hagain : Blueprint.seamedExpanded.again =
      .error (.unresolved "$(vars.late)" .notYetDefined "vars.b") := by cbv
  rw [hagain]
  intro h
  cases h

end HpcBlueprint
