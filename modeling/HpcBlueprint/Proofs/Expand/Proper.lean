/-
  An expansion is as proper as what it is made of.

  Settings are merged in name by name, inputs are wired to texts, and substitution puts
  proper values in for texts under the same names.  So a proper blueprint with proper settings
  expands to a proper one, which is why it can be written down and read again.
-/
import HpcBlueprint.Proofs.Expand.Expansion
import HpcBlueprint.Proofs.Expand.Wiring

namespace HpcBlueprint

open Expand

/-! ## Substitution -/

/-- Proper values put in for texts leave a value proper. -/
theorem Value.Proper.subst {vars : OrderedMap Value} (hvars : OrderedMap.Proper vars) {v : Value}
    (h : v.Proper) : (v.subst vars).Proper := by
  induction v using nested with
  | null | bool | number => simp [Value.subst]
  | string text =>
      rw [Value.subst, substText]
      split
      · -- a text that is a reference to a variable becomes the value of the variable
        rename_i name _
        cases hget : OrderedMap.get? vars name with
        | none => exact .string text
        | some w => exact hvars.2 name w (OrderedMap.mem_of_get?_eq_some hget)
      · exact .string _
      · exact .string text
  | list items ih =>
      rw [Value.subst, substItems_eq_map, proper_list_iff]
      intro w hw
      obtain ⟨v, hv, rfl⟩ := List.mem_map.mp hw
      exact ih v hv (proper_list_iff.mp h v hv)
  | map entries ih =>
      obtain ⟨distinct, hentries⟩ := proper_map_iff.mp h
      have hsame : substEntries vars entries = OrderedMap.subst vars entries :=
        substEntries_eq_map vars entries
      rw [Value.subst, hsame, proper_map_iff]
      refine ⟨?_, fun k w hw => ?_⟩
      · rwa [OrderedMap.Distinct, OrderedMap.keys_subst]
      · obtain ⟨v, hv, rfl⟩ := OrderedMap.mem_subst.mp hw
        exact ih k v hv (hentries k v hv)

variable {vars : OrderedMap Value}

theorem OrderedMap.Proper.subst (hvars : Proper vars) {m : OrderedMap Value} (h : Proper m) :
    Proper (subst vars m) := by
  refine ⟨?_, fun k w hw => ?_⟩
  · rw [Distinct, keys_subst]
    exact h.1
  · obtain ⟨v, hv, rfl⟩ := mem_subst.mp hw
    exact (h.2 k v hv).subst hvars

theorem Expand.proper_settle {done : OrderedMap Value} (hdone : OrderedMap.Proper done)
    {entries : List (String × Value)} (hentries : ∀ k v, (k, v) ∈ entries → v.Proper) :
    OrderedMap.Proper (settle done entries) := by
  induction entries generalizing done with
  | nil => exact hdone
  | cons e rest ih =>
      obtain ⟨k, v⟩ := e
      exact ih (hdone.insert ((hentries k v List.mem_cons_self).subst hdone)) fun k' v' hmem =>
        hentries k' v' (List.mem_cons_of_mem _ hmem)

theorem Group.Proper.subst (hvars : OrderedMap.Proper vars) {g : Group} (h : g.Proper) :
    (g.subst vars).Proper where
  backend := by
    intro backend hbackend
    obtain ⟨backend', hbackend', rfl⟩ := Option.map_eq_some_iff.mp hbackend
    exact OrderedMap.Proper.subst hvars (h.backend backend' hbackend')
  modules := by
    intro m hm
    obtain ⟨m', hm', rfl⟩ := List.mem_map.mp hm
    exact OrderedMap.Proper.subst hvars (h.modules m' hm')

theorem Group.proper_withoutSchemas_iff {g : Group} : g.withoutSchemas.Proper ↔ g.Proper := by
  simp [Group.proper_iff, Group.withoutSchemas, Module.Proper, Module.withoutSchema]

/-! ## Wiring -/

namespace Module

theorem proper_foldl_wire {inputs : List String} {r : String → Reference}
    {settings : OrderedMap Value} (h : OrderedMap.Proper settings) :
    OrderedMap.Proper (inputs.foldl (fun s i => wire s i (r i)) settings) := by
  induction inputs generalizing settings with
  | nil => exact h
  | cons i rest ih =>
      rw [List.foldl_cons]
      refine ih ?_
      unfold wire
      split
      · exact h
      · exact h.insert (.string _)

theorem proper_wireUses {b : Blueprint} {inputs uses : List String} {settings : OrderedMap Value}
    (h : OrderedMap.Proper settings) : OrderedMap.Proper (wireUses b inputs settings uses) := by
  unfold wireUses
  induction uses generalizing settings with
  | nil => exact h
  | cons used rest ih =>
      rw [List.foldl_cons]
      refine ih ?_
      split
      · exact proper_foldl_wire h
      · exact h

/-- Inputs are wired to texts. -/
theorem Proper.wired {m : Module} (h : m.Proper) {b : Blueprint} :
    OrderedMap.Proper (m.wired b) := by
  cases hschema : m.schema with
  | none =>
      rw [Module.wired, hschema]
      exact h
  | some schema =>
      rw [wired_of_schema hschema]
      exact proper_foldl_wire (proper_wireUses h)

end Module

/-! ## The steps of an expansion -/

/-- What a run changes in a blueprint is proper. -/
structure Settings.Proper (s : Settings) : Prop where
  vars : OrderedMap.Proper s.vars
  backendDefaults : s.backendDefaults.Proper

namespace Blueprint

variable {b f : Blueprint} {s : Settings} {finished : List Finished}

theorem Proper.prepare (h : b.Proper) (hs : s.Proper) : (b.prepare s).Proper where
  validators := h.validators
  skipped := NameSet.sorted_union h.skipped s.skipped
  vars := h.vars.insertAll hs.vars.2
  backendDefaults := by
    change Backend.Proper (if s.backendDefaults.type.isEmpty then _ else _)
    split
    · exact h.backendDefaults
    · exact hs.backendDefaults
  groups := h.groups

/-- Schemas do not matter to whether a blueprint is proper. -/
theorem proper_withoutSchemas_iff : b.withoutSchemas.Proper ↔ b.Proper := by
  have hgroups : (∀ g ∈ b.withoutSchemas.groups, g.Proper) ↔ ∀ g ∈ b.groups, g.Proper := by
    rw [withoutSchemas, List.forall_mem_map]
    exact forall₂_congr fun g _ => Group.proper_withoutSchemas_iff
  exact ⟨fun h => ⟨h.validators, h.skipped, h.vars, h.backendDefaults, hgroups.mp h.groups⟩,
    fun h => ⟨h.validators, h.skipped, h.vars, h.backendDefaults, hgroups.mpr h.groups⟩⟩

theorem Proper.attach (h : b.Proper) {b' : Blueprint} (attached : b.attach finished = .ok b') :
    b'.Proper := by
  -- attaching can only have changed schemas, and these are not looked at
  rw [← proper_withoutSchemas_iff, (attach_eq_ok_iff.mp attached).1, proper_withoutSchemas_iff]
  exact h

theorem Proper.wire (h : b.Proper) : b.wire.Proper where
  validators := h.validators
  skipped := h.skipped
  vars := h.vars
  backendDefaults := h.backendDefaults
  groups := by
    intro g hg
    obtain ⟨g', hg', rfl⟩ := List.mem_map.mp hg
    refine ⟨(h.groups g' hg').backend, fun m hm => ?_⟩
    obtain ⟨m', hm', rfl⟩ := List.mem_map.mp hm
    exact Module.Proper.wired ((h.groups g' hg').modules m' hm')

theorem Proper.spreadBackend (h : b.Proper) : b.spreadBackend.Proper := by
  unfold Blueprint.spreadBackend
  split
  · exact h
  · refine ⟨h.validators, h.skipped, h.vars, h.backendDefaults, fun g hg => ?_⟩
    obtain ⟨g', hg', rfl⟩ := List.mem_map.mp hg
    have hg' := h.groups g' hg'
    split
    · refine ⟨fun backend hbackend => ?_, hg'.modules⟩
      rw [← Option.some.inj hbackend]
      exact h.backendDefaults
    · exact hg'

theorem Proper.withValidators (h : b.Proper) : b.withValidators.Proper := by
  unfold Blueprint.withValidators
  split
  · refine ⟨fun v hv => ?_, h.skipped, h.vars, h.backendDefaults, h.groups⟩
    rw [defaultValidators, List.mem_append] at hv
    rcases hv with hv | hv
    · simp only [List.mem_cons, List.not_mem_nil, or_false] at hv
      rcases hv with rfl | rfl | rfl <;> exact OrderedMap.proper_nil
    · split at hv
      · rw [List.mem_singleton.mp hv]
        simp [ValidatorEntry.Proper]
      · cases hv
  · exact h

theorem proper_of_unresolved (h : b.Proper) (hs : s.Proper)
    (unresolved : b.unresolved s finished = .ok f) : f.Proper := by
  simp only [Blueprint.unresolved, readied, bind_eq_ok, pure_eq_ok] at unresolved
  obtain ⟨ready, ⟨-, -, rfl⟩, attached, hattached, rfl⟩ := unresolved
  exact ((h.prepare hs).attach hattached).wire.spreadBackend.withValidators

theorem Proper.substituted (h : f.Proper) : f.substituted.Proper := by
  -- the variables are settled first, and their values go everywhere else
  have hvalues : OrderedMap.Proper f.values :=
    proper_settle OrderedMap.proper_nil h.vars.2
  refine ⟨fun v hv => ?_, h.skipped, hvalues, OrderedMap.Proper.subst hvalues h.backendDefaults,
    fun g hg => ?_⟩
  · obtain ⟨v', hv', rfl⟩ := List.mem_map.mp hv
    exact OrderedMap.Proper.subst hvalues (h.validators v' hv')
  · obtain ⟨g', hg', rfl⟩ := List.mem_map.mp hg
    exact (h.groups g' hg').subst hvalues

/-- Whatever a proper blueprint expands to with proper settings is proper. -/
theorem Proper.expand (h : b.Proper) (hs : s.Proper) {m : Materialized}
    (expands : b.expand s finished = .ok m) : m.blueprint.Proper := by
  obtain ⟨f, hf, -, rfl⟩ := expand_eq_ok_iff.mp expands
  exact (proper_of_unresolved h hs hf).substituted

end Blueprint
end HpcBlueprint
