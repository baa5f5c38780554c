/-
  What an expansion resolves.

  `Blueprint.unresolved` is what an expansion has made of a blueprint when it begins to
  resolve: settings are merged in, schemas attached, inputs wired and defaults filled in.
  Its variables have distinct names and all its modules have schemas, and the expansion
  succeeds exactly when it is well-formed.
-/
import HpcBlueprint.Expand.Run
import HpcBlueprint.Proofs.Expand.Attach
import HpcBlueprint.Proofs.Expand.Closed
import Mathlib

namespace HpcBlueprint

open Expand

namespace Blueprint

variable {b f : Blueprint} {s : Settings} {finished : List Finished} {m : Materialized}

/-- The blueprint whose references an expansion resolves. -/
def unresolved (b : Blueprint) (s : Settings) (finished : List Finished) :
    Except Error Blueprint := do
  let b ← b.readied s
  let b ← b.attach finished
  return b.filled

/-- An expansion succeeds when it gets as far as resolving and finds a well-formed
    blueprint; then it substitutes the variables of that one. -/
theorem expand_eq_ok_iff :
    b.expand s finished = .ok m ↔
      ∃ f, b.unresolved s finished = .ok f ∧ f.WellFormed ∧ m = ⟨f.substituted, f.usage⟩ := by
  simp only [expand, unresolved, complete, bind_eq_ok, pure_eq_ok, mapError_eq_ok,
    materialize_eq_ok_iff]
  constructor
  · rintro ⟨ready, hready, attached, hattached, hm⟩
    exact ⟨attached.filled, ⟨ready, hready, attached, hattached, rfl⟩, hm⟩
  · rintro ⟨_, ⟨ready, hready, attached, hattached, rfl⟩, hm⟩
    exact ⟨ready, hready, attached, hattached, hm⟩

/-! ## What is attached and filled in -/

theorem placed_spreadBackend (b : Blueprint) : b.spreadBackend.placed = b.placed := by
  unfold spreadBackend
  split
  · rfl
  · have hplaced := placedGroups_map (h := id) (f := fun g =>
        if g.isTerraform && g.backend.isNone then { g with backend := some b.backendDefaults }
        else g) (fun g => by split <;> simp) 0 b.groups
    rw [placed, hplaced]
    exact List.map_id'' (fun _ => rfl) _

theorem placed_wire (b : Blueprint) :
    b.wire.placed = b.placed.map fun (p, m) => (p, { m with settings := m.wired b }) :=
  placedGroups_map (h := fun m => { m with settings := m.wired b }) (fun _ => rfl) 0 b.groups

/-- Wiring and defaults leave schemas attached. -/
theorem attached_filled {outcome : Place → Except Error Schema}
    (h : Attached outcome b.placed) : Attached outcome b.filled.placed := by
  have hspread : Attached outcome b.wire.spreadBackend.placed := by
    rw [placed_spreadBackend, placed_wire]
    exact h.map (h := fun m => { m with settings := m.wired b }) fun _ => rfl
  unfold filled withValidators
  split
  · exact hspread
  · exact hspread

/-- What is resolved has the schemas that were looked up. -/
theorem attached_of_unresolved (h : b.unresolved s finished = .ok f) :
    Attached (outcomeAt finished) f.placed := by
  simp only [unresolved, bind_eq_ok, pure_eq_ok] at h
  obtain ⟨ready, -, attached, hattached, rfl⟩ := h
  exact attached_filled (attach_eq_ok_iff.mp hattached).2

/-- The schemas of all modules in what is resolved are known. -/
theorem known_of_unresolved (h : b.unresolved s finished = .ok f) : f.Known := by
  intro g hg m hm
  obtain ⟨p, hmem⟩ := exists_mem_placed hg hm
  obtain ⟨schema, -, hschema⟩ := attached_of_unresolved h p m hmem
  exact ⟨schema, hschema⟩

/-- Wiring and defaults leave the variables. -/
theorem vars_filled (b : Blueprint) : b.filled.vars = b.vars := by
  unfold filled withValidators spreadBackend
  split <;> split <;> rfl

/-- Merging settings keeps the names of variables distinct. -/
theorem distinct_of_unresolved (distinct : b.vars.Distinct)
    (h : b.unresolved s finished = .ok f) : f.vars.Distinct := by
  simp only [unresolved, readied, attach, bind_eq_ok, pure_eq_ok] at h
  obtain ⟨ready, ⟨-, -, rfl⟩, attached, ⟨groups, hgroups, rfl⟩, rfl⟩ := h
  rw [vars_filled]
  exact OrderedMap.distinct_insertAll distinct s.vars

/-! ## Closed expansions -/

/-- An expanded blueprint is closed exactly when no reference is put together on the way. -/
theorem closed_iff_seamless (distinct : b.vars.Distinct) (h : b.expand s finished = .ok m) :
    ∃ f, b.unresolved s finished = .ok f ∧ (m.blueprint.Closed ↔ f.Seamless) := by
  obtain ⟨f, hf, wellFormed, rfl⟩ := expand_eq_ok_iff.mp h
  exact ⟨f, hf, closed_substituted_iff (distinct_of_unresolved distinct hf) wellFormed
    (known_of_unresolved hf)⟩

/-- A blueprint in which a variable begins a reference that the text behind it completes. -/
def seamed : Blueprint where
  name := "t"
  toolkitVersion := ""
  validators := [⟨Validator.moduleNotUsed, false, []⟩]
  level := .warning
  skipped := []
  vars := [("deployment_name", .string "d"), ("open", .string "$"),
    ("b", .string "$(vars.open)(vars.late)"), ("late", .number (.int 1))]
  backendDefaults := Backend.empty
  groups := []

/-- What the expansion makes of it. -/
def seamedExpanded : Materialized where
  blueprint := { seamed with
    toolkitVersion := HpcBlueprint.toolkitVersion
    vars := [("deployment_name", .string "d"), ("open", .string "$"),
      ("b", .string "$(vars.late)"), ("late", .number (.int 1))] }
  usage := ⟨["open"], []⟩

theorem distinct_vars_seamed : seamed.vars.Distinct := by
  unfold OrderedMap.Distinct
  decide

theorem expand_seamed : seamed.expand Settings.empty [] = .ok seamedExpanded := by cbv

theorem closed_iff_seamless_seamed :
    seamed.vars.Distinct ∧ seamed.expand Settings.empty [] = .ok seamedExpanded ∧
      ∃ f, seamed.unresolved Settings.empty [] = .ok f ∧
        (seamedExpanded.blueprint.Closed ↔ f.Seamless) :=
  ⟨distinct_vars_seamed, expand_seamed, closed_iff_seamless distinct_vars_seamed expand_seamed⟩

/-- An expansion that succeeds may leave a reference to a variable. -/
theorem exists_expand_not_closed :
    ∃ (b : Blueprint) (s : Settings) (finished : List Finished) (m : Materialized),
      b.vars.Distinct ∧ b.expand s finished = .ok m ∧ ¬ m.blueprint.Closed := by
  refine ⟨seamed, Settings.empty, [], seamedExpanded, distinct_vars_seamed, expand_seamed, ?_⟩
  intro closed
  have hsite : seamedExpanded.blueprint.Site .inVariable
      [("deployment_name", .string "d"), ("open", .string "$")] "$(vars.late)" :=
    .inVar rfl (Value.texts_string _ ▸ List.mem_singleton_self _)
  have hparse : Expression.parse "$(vars.late)" = .ok (.whole (.var "late")) := by cbv
  rcases closed _ _ _ hsite with hliteral | houtput
  · rw [hparse] at hliteral
    cases hliteral
  · exact not_holdsOutput_inVariable houtput

end Blueprint
end HpcBlueprint
