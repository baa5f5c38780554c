/-
  The backends of expanded groups.

  The default backend is settled when settings are merged in.  It is copied into the groups that
  take it before anything is resolved, and the copies are resolved one by one; all are resolved
  with the same variables, so a copy is in the end what the default backend has become.  What
  else an expansion does leaves the outline of a group: its name, its backend and whether all
  its modules are terraform modules.
-/
import HpcBlueprint.Proofs.Expand.Overrides

namespace HpcBlueprint

/-! ## Outlines -/

/-- What the backend of a group depends on. -/
structure Group.Outline where
  name : String
  backend : Option Backend
  isTerraform : Bool

namespace Group

def outline (g : Group) : Outline := ⟨g.name, g.backend, g.isTerraform⟩

namespace Outline

/-- A group that has no backend takes the default one, if it is for it and there is one. -/
def spread (defaults : Backend) (o : Outline) : Outline :=
  { o with backend :=
      o.backend.or (if o.isTerraform && !defaults.isEmpty then some defaults else none) }

/-- A group with variables put into its backend. -/
def subst (vars : OrderedMap Value) (o : Outline) : Outline :=
  { o with backend := o.backend.map (·.subst vars) }

end Outline

theorem outline_withoutSchemas (g : Group) : g.withoutSchemas.outline = g.outline := by
  simp only [outline, withoutSchemas, isTerraform, List.all_map]
  rfl

/-- What a group takes from defaults that say anything can be told from its outline. -/
theorem outline_spread {defaults : Backend} (h : defaults.isEmpty = false) (g : Group) :
    (if g.isTerraform && g.backend.isNone then { g with backend := some defaults }
      else g).outline = g.outline.spread defaults := by
  cases hbackend : g.backend with
  | some own => simp [outline, Outline.spread, hbackend]
  | none =>
      cases hterraform : g.isTerraform with
      | true =>
          simp only [Option.isNone_none, Bool.and_self, if_true, outline, Outline.spread, hbackend,
            hterraform, h, Bool.not_false, Option.none_or]
          rw [← hterraform]
          rfl
      | false => simp [outline, Outline.spread, hbackend, hterraform]

theorem outline_subst (vars : OrderedMap Value) (g : Group) :
    (g.subst vars).outline = g.outline.subst vars := by
  simp only [outline, isTerraform, modules_subst, List.all_map]
  rfl

end Group

namespace Blueprint

variable {b b' f : Blueprint} {s : Settings} {finished : List Finished} {m : Materialized}

/-- The outlines of the groups in order. -/
def outlines (b : Blueprint) : List Group.Outline := b.groups.map Group.outline

/-! ## Outlines along an expansion -/

theorem outlines_withoutSchemas (b : Blueprint) : b.withoutSchemas.outlines = b.outlines := by
  rw [outlines, withoutSchemas, List.map_map, outlines]
  exact List.map_congr_left fun g _ => g.outline_withoutSchemas

theorem outlines_of_attach (h : b.attach finished = .ok b') : b'.outlines = b.outlines := by
  rw [← outlines_withoutSchemas, (attach_eq_ok_iff.mp h).1, outlines_withoutSchemas]

theorem outlines_wire (b : Blueprint) : b.wire.outlines = b.outlines := by
  rw [outlines, wire, List.map_map, outlines]
  refine List.map_congr_left fun g _ => ?_
  simp only [Function.comp_apply, Group.outline, Group.isTerraform, List.all_map]
  rfl

theorem outlines_spreadBackend (b : Blueprint) :
    b.spreadBackend.outlines = b.outlines.map (·.spread b.backendDefaults) := by
  rw [spreadBackend, outlines, outlines, List.map_map]
  cases hempty : b.backendDefaults.isEmpty with
  | true =>
      refine List.map_congr_left fun g _ => ?_
      simp [Group.Outline.spread, hempty]
  | false =>
      rw [if_neg Bool.false_ne_true, List.map_map]
      exact List.map_congr_left fun g _ => g.outline_spread hempty

theorem outlines_filled (b : Blueprint) :
    b.filled.outlines = b.outlines.map (·.spread b.backendDefaults) := by
  have hvalidators : ∀ c : Blueprint, c.withValidators.outlines = c.outlines := by
    intro c
    unfold withValidators
    split <;> rfl
  rw [filled, hvalidators, outlines_spreadBackend, outlines_wire]
  rfl

/-- When references are resolved, the merged default backend has been spread over the groups
    that the blueprint had in the beginning. -/
theorem outlines_of_unresolved (h : b.unresolved s finished = .ok f) :
    f.outlines = b.outlines.map (·.spread (b.merge s).backendDefaults) := by
  simp only [unresolved, readied, bind_eq_ok, pure_eq_ok] at h
  obtain ⟨_, ⟨-, -, rfl⟩, attached, hattach, rfl⟩ := h
  have hdefaults : attached.backendDefaults = (b.merge s).backendDefaults := by
    rw [(withoutSchemas_eq_iff.mp (attach_eq_ok_iff.mp hattach).1).1]
    rfl
  rw [outlines_filled, outlines_of_attach hattach, hdefaults]
  rfl

theorem outlines_substituted (f : Blueprint) :
    f.substituted.outlines = f.outlines.map (·.subst f.values) := by
  rw [outlines, substituted, List.map_map, outlines, List.map_map]
  exact List.map_congr_left fun g _ => g.outline_subst f.values

/-- The groups of an expansion have their own backends, or else the merged default one, with the
    variables of the expansion put in. -/
theorem outlines_of_expand (h : b.expand s finished = .ok m) :
    m.blueprint.outlines = b.outlines.map fun o =>
      (o.spread (b.merge s).backendDefaults).subst m.blueprint.vars := by
  obtain ⟨f, hf, -, rfl⟩ := expand_eq_ok_iff.mp h
  rw [outlines_substituted, outlines_of_unresolved hf, List.map_map]
  rfl

/-- The default backend of an expansion is the merged one with its variables put in. -/
theorem backendDefaults_of_expand (h : b.expand s finished = .ok m) :
    m.blueprint.backendDefaults = (b.merge s).backendDefaults.subst m.blueprint.vars := by
  obtain ⟨f, hf, -, rfl⟩ := expand_eq_ok_iff.mp h
  rw [← backendDefaults_of_unresolved hf]
  rfl

end Blueprint

/-! ## The backend of one group -/

/-- A group takes the default backend if it declares none itself, all its modules are terraform
    modules and the default one says anything. -/
def Group.TakesDefault (defaults : Backend) (g : Group) : Prop :=
  g.backend = none ∧ (∀ n ∈ g.modules, n.kind = .terraform) ∧
    (defaults.type ≠ "" ∨ defaults.configuration ≠ [])

theorem Group.takesDefault_iff {defaults : Backend} {g : Group} :
    g.TakesDefault defaults ↔
      g.backend = none ∧ (g.isTerraform && !defaults.isEmpty) = true := by
  simp [TakesDefault, isTerraform, Backend.isEmpty, Decidable.imp_iff_not_or]

/-- A group of a blueprint and what an expansion has made of it, where `defaults` are the merged
    defaults. -/
structure Group.Backed (defaults : Backend) (expanded : Blueprint) (g g' : Group) : Prop where
  name_eq : g'.name = g.name
  declared : ∀ own, g.backend = some own →
    g'.backend = some ⟨own.type, OrderedMap.subst expanded.vars own.configuration⟩
  taken : g.TakesDefault defaults → g'.backend = some expanded.backendDefaults
  bare : g.backend = none → ¬ g.TakesDefault defaults → g'.backend = none

namespace Blueprint

variable {b : Blueprint} {s : Settings} {finished : List Finished} {m : Materialized}

/-- The outline that an expansion gives a group says which backend it has. -/
theorem backed_of_outline {defaults : Backend} {expanded : Blueprint} {g g' : Group}
    (houtline : g'.outline = (g.outline.spread defaults).subst expanded.vars)
    (hdefaults : expanded.backendDefaults = defaults.subst expanded.vars) :
    g.Backed defaults expanded g' := by
  obtain ⟨hname, hbackend, -⟩ := Group.Outline.mk.inj houtline
  refine ⟨hname, fun own hown => ?_, fun htakes => ?_, fun hnone htakes => ?_⟩
  · rw [hbackend, Group.outline, hown]
    rfl
  · obtain ⟨hnone, hspread⟩ := Group.takesDefault_iff.mp htakes
    simp only [hbackend, Group.outline, Group.Outline.spread, hnone, Option.none_or, hspread,
      if_true, Option.map_some, hdefaults]
  · have hspread : ¬ (g.isTerraform && !defaults.isEmpty) = true := fun h =>
      htakes (Group.takesDefault_iff.mpr ⟨hnone, h⟩)
    simp only [hbackend, Group.outline, Group.Outline.spread, hnone, Option.none_or, hspread,
      Bool.false_eq_true, if_false, Option.map_none]

/-- Every group of an expansion has the backend that it declares, with variables put into its
    configuration and nowhere else, or the default backend of the expansion if it takes the
    merged one, or none. -/
theorem backends_of_expand (h : b.expand s finished = .ok m) :
    List.Forall₂ (fun g g' => g.Backed (b.merge s).backendDefaults m.blueprint g')
      b.groups m.blueprint.groups := by
  have houtlines := outlines_of_expand h
  rw [outlines, outlines, List.map_map, ← List.forall₂_eq_eq_eq, List.forall₂_map_left_iff,
    List.forall₂_map_right_iff] at houtlines
  exact houtlines.flip.imp fun _ _ hg => backed_of_outline hg (backendDefaults_of_expand h)

/-- A group with a backend of its own, one that takes the default backend and one that is none
    of terraform's. -/
def housed : Blueprint where
  name := "housed"
  toolkitVersion := ""
  validators := [⟨Validator.moduleNotUsed, false, []⟩]
  level := .warning
  skipped := []
  vars := [("deployment_name", .string "d")]
  backendDefaults := ⟨"local", []⟩
  groups := [⟨"store", some ⟨"s3", [("bucket", .string "$(vars.deployment_name)-own")]⟩,
      [⟨"disk", "./disk", .terraform, [], [], [], none⟩]⟩,
    ⟨"network", none, [⟨"vpc", "./vpc", .terraform, [], [], [], none⟩]⟩,
    ⟨"image", none, [⟨"base", "./base", .packer, [], [], [], none⟩]⟩]

/-- Settings that replace the default backend. -/
def rehoused : Settings :=
  { Settings.empty with backendDefaults := ⟨"gcs", [("bucket", .string "$(vars.deployment_name)")]⟩ }

/-- What the expansion makes of it. -/
def housedExpanded : Materialized where
  blueprint := { housed with
    toolkitVersion := HpcBlueprint.toolkitVersion
    backendDefaults := ⟨"gcs", [("bucket", .string "d")]⟩
    groups := [⟨"store", some ⟨"s3", [("bucket", .string "d-own")]⟩,
        [⟨"disk", "./disk", .terraform, [], [], [], some ⟨[], [], []⟩⟩]⟩,
      ⟨"network", some ⟨"gcs", [("bucket", .string "d")]⟩,
        [⟨"vpc", "./vpc", .terraform, [], [], [], some ⟨[], [], []⟩⟩]⟩,
      ⟨"image", none, [⟨"base", "./base", .packer, [], [], [], some ⟨[], [], []⟩⟩]⟩] }
  usage := ⟨["deployment_name"], []⟩

theorem backends_of_expand_housed :
    housed.expand rehoused [⟨⟨2, 0⟩, .ok ⟨[], [], []⟩⟩, ⟨⟨0, 0⟩, .ok ⟨[], [], []⟩⟩,
        ⟨⟨1, 0⟩, .ok ⟨[], [], []⟩⟩] = .ok housedExpanded ∧
      List.Forall₂ (fun g g' => g.Backed (housed.merge rehoused).backendDefaults
        housedExpanded.blueprint g') housed.groups housedExpanded.blueprint.groups := by
  have hexpand : housed.expand rehoused [⟨⟨2, 0⟩, .ok ⟨[], [], []⟩⟩, ⟨⟨0, 0⟩, .ok ⟨[], [], []⟩⟩,
      ⟨⟨1, 0⟩, .ok ⟨[], [], []⟩⟩] = .ok housedExpanded :=
    eq_ok_of_toOption (by decide +kernel)
  exact ⟨hexpand, backends_of_expand hexpand⟩

end Blueprint
end HpcBlueprint
