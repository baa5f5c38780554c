/-
  Expanding what an expansion has made.

  An expansion leaves nothing to fill in: every supplied input is set, every terraform group
  has the default backend if there is one, and there are validators.  Substitution keeps all
  of this, so a second expansion with the same schemas goes straight to resolving.
-/
import HpcBlueprint.Proofs.Expand.Again
import HpcBlueprint.Proofs.Expand.Wiring

namespace HpcBlueprint

open Expand

namespace Blueprint

variable {b f : Blueprint} {s : Settings} {finished finished' : List Finished} {m : Materialized}

/-! ## Nothing to fill in -/

/-- A blueprint in which there is nothing to wire and no default to fill in. -/
structure Filled (b : Blueprint) : Prop where
  wired : b.IsWired
  backends : b.backendDefaults.isEmpty = false →
    ∀ g ∈ b.groups, g.isTerraform = true → g.backend.isSome = true
  validators : b.validators ≠ []

theorem Filled.filled_eq (h : b.Filled) : b.filled = b := by
  have hspread : b.spreadBackend = b := by
    unfold spreadBackend
    split
    · rfl
    · rename_i hdefaults
      have hgroups : b.groups.map (fun g =>
          if g.isTerraform && g.backend.isNone then { g with backend := some b.backendDefaults }
          else g) = b.groups := by
        refine map_eq_self_iff.mpr fun g hg => if_neg ?_
        rw [Bool.and_eq_true]
        rintro ⟨hterraform, hnone⟩
        have hsome := h.backends (by simpa using hdefaults) g hg hterraform
        rw [Option.isNone_iff_eq_none.mp hnone] at hsome
        cases hsome
      rw [hgroups]
  have hvalidators : b.withValidators = b := by
    rw [withValidators, if_neg]
    simpa using h.validators
  rw [filled, h.wired.wire, hspread, hvalidators]

theorem modules_spreadBackend (b : Blueprint) : b.spreadBackend.modules = b.modules := by
  rw [modules_eq_map_placed, placed_spreadBackend, modules_eq_map_placed]

theorem vars_spreadBackend (b : Blueprint) : b.spreadBackend.vars = b.vars := by
  unfold spreadBackend
  split <;> rfl

/-- Every terraform group has the default backend, if there is one. -/
theorem backends_spreadBackend (h : b.spreadBackend.backendDefaults.isEmpty = false) :
    ∀ g ∈ b.spreadBackend.groups, g.isTerraform = true → g.backend.isSome = true := by
  unfold spreadBackend at h ⊢
  split at h
  · rename_i hempty
    rw [hempty] at h
    cases h
  · rename_i hdefaults
    rw [if_neg hdefaults]
    intro g hg hterraform
    obtain ⟨g', -, rfl⟩ := List.mem_map.mp hg
    split
    · rfl
    · rename_i hhas
      rw [if_neg hhas] at hterraform
      rw [hterraform, Bool.true_and, Bool.not_eq_true, Option.isNone_eq_false_iff] at hhas
      exact hhas

/-- Wiring and defaults leave nothing to fill in. -/
theorem filled_filled (b : Blueprint) : b.filled.Filled := by
  have hwired : b.wire.spreadBackend.IsWired :=
    b.isWired_wire.of_modules_eq (modules_spreadBackend _) (vars_spreadBackend _)
  have hbackends := backends_spreadBackend (b := b.wire)
  unfold filled withValidators
  split
  · exact ⟨hwired, hbackends, by simp [defaultValidators]⟩
  · rename_i hvalidators
    exact ⟨hwired, hbackends, by simpa using hvalidators⟩

theorem isEmpty_subst (vars : OrderedMap Value) (backend : Backend) :
    (backend.subst vars).isEmpty = backend.isEmpty := by
  obtain ⟨type, configuration⟩ := backend
  cases configuration <;> rfl

theorem isTerraform_subst (vars : OrderedMap Value) (g : Group) :
    (g.subst vars).isTerraform = g.isTerraform := by
  simp [Group.isTerraform, Function.comp_def]

/-- Putting variables in leaves nothing to fill in. -/
theorem Filled.substituted (h : f.Filled) : f.substituted.Filled where
  wired := by
    refine h.wired.of_modules _ f.modules_substituted (fun _ => rfl) (fun _ => rfl) (fun _ => rfl)
      (fun m => ?_) fun name => keys_settle_nil
    rw [Module.settings_subst, OrderedMap.keys_subst]
  backends := by
    intro hdefaults g hg hterraform
    obtain ⟨g', hg', rfl⟩ := List.mem_map.mp hg
    rw [isTerraform_subst] at hterraform
    -- the defaults have the same type and names as before, and so are no less empty
    have hempty : f.backendDefaults.isEmpty = false := by
      rw [← isEmpty_subst f.values]
      exact hdefaults
    rw [Group.subst, Option.isSome_map]
    exact h.backends hempty g' hg' hterraform
  validators := by
    intro hnil
    exact h.validators (List.map_eq_nil_iff.mp hnil)

/-! ## Expanding again -/

/-- Settings that change nothing leave a blueprint that has the version already. -/
theorem prepare_empty (stamped : b.toolkitVersion = HpcBlueprint.toolkitVersion) :
    b.prepare Settings.empty = b := by
  obtain ⟨name, version, validators, level, skipped, vars, backendDefaults, groups⟩ := b
  subst stamped
  rfl

/-- What is resolved has the version of this toolkit. -/
theorem toolkitVersion_of_unresolved (h : b.unresolved s finished = .ok f) :
    f.toolkitVersion = HpcBlueprint.toolkitVersion := by
  simp only [unresolved, readied, attach, bind_eq_ok, pure_eq_ok] at h
  obtain ⟨ready, ⟨-, -, rfl⟩, attached, ⟨groups, -, rfl⟩, rfl⟩ := h
  unfold filled withValidators spreadBackend
  split <;> split <;> rfl

theorem filled_of_unresolved (h : b.unresolved s finished = .ok f) : f.Filled := by
  simp only [unresolved, bind_eq_ok, pure_eq_ok] at h
  obtain ⟨ready, -, attached, -, rfl⟩ := h
  exact filled_filled attached

theorem placed_substituted (f : Blueprint) :
    f.substituted.placed = f.placed.map fun (p, m) => (p, m.subst f.values) :=
  placedGroups_map (fun _ => rfl) 0 f.groups

/-- With the same schemas, an expansion of what an expansion has made resolves its references
    once more and does nothing else. -/
theorem expand_expanded (h : b.expand s finished = .ok m)
    (same : ∀ p n, (p, n) ∈ m.blueprint.placed → outcomeAt finished' p = outcomeAt finished p) :
    m.blueprint.expand Settings.empty finished' =
      m.blueprint.materialize.mapError .config := by
  obtain ⟨f, hf, -, rfl⟩ := expand_eq_ok_iff.mp h
  have hversion := toolkitVersion_of_unresolved hf
  have hattached : f.substituted.attach finished' = .ok f.substituted := by
    refine attach_eq_ok_iff.mpr ⟨rfl, fun p n hn => ?_⟩
    rw [same p n hn]
    rw [placed_substituted] at hn
    exact (attached_of_unresolved hf).map (h := Module.subst f.values) (fun _ => rfl) p n hn
  -- substitution has left nothing to wire or fill in, so resolving is all that remains
  have hfilled := (filled_of_unresolved hf).substituted.filled_eq
  rw [expand, readied, prepare_empty (b := f.substituted) hversion]
  -- a blueprint that fails the check of its structure fails it in both runs
  cases hcheck : checkStructure f.substituted with
  | error e =>
      rw [materialize, hcheck]
      rfl
  | ok _ =>
      have hcomplete : f.substituted.complete = f.substituted.materialize.mapError .config := by
        rw [complete, hfilled]
      exact (congrArg (· >>= complete) hattached).trans hcomplete

end Blueprint

/-- Where materializing an expansion once more returns the same, expanding it once more with
    the same schemas and without settings succeeds and returns the same blueprint. -/
theorem Materialized.expand_again {b : Blueprint} {s : Settings}
    {finished finished' : List Finished} {m : Materialized} (h : b.expand s finished = .ok m)
    (again : m.again = .ok m)
    (same : ∀ p n, (p, n) ∈ m.blueprint.placed →
      Blueprint.outcomeAt finished' p = Blueprint.outcomeAt finished p) :
    ∃ m', m.blueprint.expand Settings.empty finished' = .ok m' ∧ m'.blueprint = m.blueprint ∧
      m'.usage.unusedUses = m.usage.unusedUses := by
  simp only [Materialized.again, bind_eq_ok, pure_eq_ok] at again
  obtain ⟨n, hn, hsame⟩ := again
  have hexpand : m.blueprint.expand Settings.empty finished' = .ok n := by
    rw [Blueprint.expand_expanded h same, hn]
    rfl
  refine ⟨n, hexpand, ?_, ?_⟩
  · rw [← hsame]
  · rw [← hsame]

/-- A network and a cluster that uses it; what is not set is wired or filled in. -/
def Blueprint.layered : Blueprint where
  name := "layered"
  toolkitVersion := ""
  validators := []
  level := .warning
  skipped := []
  vars := [("deployment_name", .string "d"), ("zone", .string "z"),
    ("label", .string "$(vars.zone)-1")]
  backendDefaults := Backend.empty
  groups := [⟨"primary", none, [⟨"network", "./network", .terraform, [], [], [], none⟩]⟩,
    ⟨"cluster", none, [⟨"nodes", "./nodes", .terraform, ["network"],
      [("label", .string "$(vars.label)")], [], none⟩]⟩]

/-- The settings of its expansion. -/
def Settings.layered : Settings where
  vars := [("region", .string "r")]
  backendDefaults := ⟨"gcs", [("bucket", .string "$(vars.deployment_name)")]⟩
  level := some .error
  skipped := ["unwanted"]

namespace Blueprint

def networkSchema : Schema :=
  ⟨[⟨"region", "string", "", none, true⟩], [Output.named "subnet"], []⟩

def nodesSchema : Schema :=
  ⟨[⟨"subnet", "string", "", none, true⟩, ⟨"zone", "string", "", none, false⟩,
    ⟨"label", "string", "", none, false⟩], [], []⟩

/-- What the expansion makes of it. -/
def layeredExpanded : Materialized where
  blueprint :=
    { name := "layered"
      toolkitVersion := HpcBlueprint.toolkitVersion
      validators := [⟨Validator.deploymentVariableNotUsed, false, []⟩,
        ⟨Validator.moduleNotUsed, false, []⟩, ⟨Validator.sourcePinned, false, []⟩,
        ⟨Validator.zoneInRegion, false, [("zone", .string "z"), ("region", .string "r")]⟩]
      level := .error
      skipped := ["unwanted"]
      vars := [("deployment_name", .string "d"), ("zone", .string "z"), ("label", .string "z-1"),
        ("region", .string "r")]
      backendDefaults := ⟨"gcs", [("bucket", .string "d")]⟩
      groups := [⟨"primary", some ⟨"gcs", [("bucket", .string "d")]⟩,
          [⟨"network", "./network", .terraform, [], [("region", .string "r")], [],
            some networkSchema⟩]⟩,
        ⟨"cluster", some ⟨"gcs", [("bucket", .string "d")]⟩,
          [⟨"nodes", "./nodes", .terraform, ["network"], [("label", .string "z-1"),
            ("subnet", .string "$(network.subnet)"), ("zone", .string "z")], [],
            some nodesSchema⟩]⟩] }
  usage := ⟨["deployment_name", "label", "region", "zone"], []⟩

end Blueprint

open Blueprint in
theorem Materialized.expand_again_layered :
    ∃ m', Blueprint.layered.expand Settings.layered
        [⟨⟨1, 0⟩, .ok nodesSchema⟩, ⟨⟨0, 0⟩, .ok networkSchema⟩] = .ok layeredExpanded ∧
      layeredExpanded.again = .ok layeredExpanded ∧
      layeredExpanded.blueprint.expand Settings.empty
        [⟨⟨0, 0⟩, .ok networkSchema⟩, ⟨⟨1, 0⟩, .ok nodesSchema⟩] = .ok m' ∧
      m'.blueprint = layeredExpanded.blueprint ∧
      m'.usage.unusedUses = layeredExpanded.usage.unusedUses := by
  have hexpand : Blueprint.layered.expand Settings.layered
      [⟨⟨1, 0⟩, .ok nodesSchema⟩, ⟨⟨0, 0⟩, .ok networkSchema⟩] = .ok layeredExpanded :=
    eq_ok_of_toOption (by decide +kernel)
  have hagain : layeredExpanded.again = .ok layeredExpanded :=
    eq_ok_of_toOption (by decide +kernel)
  have hsame : ∀ p n, (p, n) ∈ layeredExpanded.blueprint.placed →
      outcomeAt [⟨⟨0, 0⟩, .ok networkSchema⟩, ⟨⟨1, 0⟩, .ok nodesSchema⟩] p =
        outcomeAt [⟨⟨1, 0⟩, .ok nodesSchema⟩, ⟨⟨0, 0⟩, .ok networkSchema⟩] p := by
    intro p n hn
    simp only [layeredExpanded, placed, placedGroups, placedModules, List.cons_append,
      List.nil_append, List.mem_cons, Prod.mk.injEq, List.not_mem_nil, or_false] at hn
    rcases hn with ⟨rfl, -⟩ | ⟨rfl, -⟩ <;> rfl
  obtain ⟨m', hm'⟩ := expand_again hexpand hagain hsame
  exact ⟨m', hexpand, hagain, hm'⟩

end HpcBlueprint
