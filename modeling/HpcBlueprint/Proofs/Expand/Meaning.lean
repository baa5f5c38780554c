/-
  What wired inputs mean.

  An unset input is wired to its supplier: the output of the first used module that has one of
  its name, else the variable of its name.  Wiring writes the reference as a text and resolving
  reads it back, so the input means its supplier exactly when the reference is proper.  Names
  of modules, outputs and variables are not checked, so it need not be.
-/
import HpcBlueprint.Proofs.Expand.Repeat
import HpcBlueprint.Proofs.Expand.WellFormed
import HpcBlueprint.Proofs.Reference.Proper

namespace HpcBlueprint

open Expand

/-! ## Suppliers -/

/-- The first used module that has an output of this name. -/
def Blueprint.giver? (b : Blueprint) (uses : List String) (name : String) : Option String :=
  uses.find? fun used => (b.usedSchema used).any (·.hasOutput name)

/-- What an input is wired to. -/
def Blueprint.supplier? (b : Blueprint) (uses : List String) (name : String) :
    Option Reference :=
  ((b.giver? uses name).map fun used => .output used name).or
    (if name ∈ b.vars.keys then some (.var name) else none)

namespace Module

variable {b : Blueprint} {m : Module} {schema : Schema} {settings : OrderedMap Value}
  {input name : String} {inputs uses : List String}

/-- What is set stays, and an input that is not gets the reference. -/
theorem get?_wire {r : Reference} :
    (wire settings input r).get? name =
      (settings.get? name).or (if name = input then some (.string r.text) else none) := by
  by_cases hset : input ∈ settings.keys
  · rw [wire_of_mem hset]
    by_cases heq : name = input
    · obtain ⟨v, hv⟩ := OrderedMap.exists_get?_eq_some hset
      rw [heq, hv, Option.some_or]
    · rw [if_neg heq, Option.or_none]
  · have hunset : settings.contains input = false := by
      rw [← Bool.not_eq_true, OrderedMap.contains_iff]
      exact hset
    rw [wire, hunset, if_neg Bool.false_ne_true, OrderedMap.get?_insert]
    by_cases heq : name = input
    · subst heq
      rw [OrderedMap.get?_eq_none_iff.mpr hset]
      simp
    · simp [heq]

theorem get?_foldl_wire {r : String → Reference} :
    (inputs.foldl (fun s i => wire s i (r i)) settings).get? name =
      (settings.get? name).or (if name ∈ inputs then some (.string (r name).text) else none) := by
  induction inputs generalizing settings with
  | nil => simp
  | cons i rest ih =>
      rw [List.foldl_cons, ih, get?_wire, Option.or_assoc]
      congr 1
      by_cases heq : name = i
      · simp [heq]
      · simp [heq]

/-- Of the used modules, the first that has an output of the input's name supplies it. -/
theorem get?_wireUses :
    (wireUses b inputs settings uses).get? name =
      (settings.get? name).or (if name ∈ inputs then
        (b.giver? uses name).map fun used => .string (Reference.output used name).text
      else none) := by
  unfold wireUses Blueprint.giver?
  -- a used module is passed over if it has no known schema or no output of the name
  induction uses generalizing settings with
  | nil => simp
  | cons used rest ih =>
      rw [List.foldl_cons, ih]
      cases hused : b.usedSchema used with
      | none => rw [List.find?_cons_of_neg (by simp [hused])]
      | some s =>
          dsimp only
          rw [wireUse, get?_foldl_wire, Option.or_assoc]
          congr 1
          by_cases hinput : name ∈ inputs
          · cases houtput : s.hasOutput name with
            | false =>
                rw [List.find?_cons_of_neg (by simp [hused, houtput])]
                simp [houtput]
            | true =>
                rw [List.find?_cons_of_pos (by simp [hused, houtput])]
                simp [houtput, hinput]
          · simp [hinput]

/-- Wiring sets the declared inputs that are not set, each to its supplier. -/
theorem get?_wired (known : m.schema = some schema) :
    (m.wired b).get? name =
      (m.settings.get? name).or (if schema.hasInput name = true then
        (b.supplier? m.uses name).map fun r => .string r.text
      else none) := by
  have hinput : name ∈ schema.inputs.map (·.name) ↔ schema.hasInput name = true := by
    simp [Schema.hasInput]
  rw [wired_of_schema known, wireVars, get?_foldl_wire, get?_wireUses, Option.or_assoc]
  congr 1
  simp only [List.mem_filter, hinput, OrderedMap.contains_iff, Blueprint.supplier?]
  by_cases hdeclared : schema.hasInput name = true
  · cases b.giver? m.uses name with
    | some used => simp [hdeclared]
    | none =>
        by_cases hvar : name ∈ b.vars.keys
        · simp [hdeclared, hvar]
        · simp [hdeclared, hvar]
  · simp [hdeclared]

end Module

namespace Blueprint

variable {b : Blueprint} {i : Nat} {m : Module} {schema : Schema} {name : String}
  {r : Reference}

theorem modules_filled (b : Blueprint) :
    b.filled.modules = b.modules.map fun (k, m) => (k, { m with settings := m.wired b }) := by
  have hvalidators : ∀ c : Blueprint, c.withValidators.modules = c.modules := by
    intro c
    unfold withValidators
    split <;> rfl
  rw [filled, hvalidators, modules_spreadBackend, modules_wire]

theorem module?_filled (b : Blueprint) (id : String) :
    b.filled.module? id =
      (b.module? id).map fun (k, m) => (k, { m with settings := m.wired b }) := by
  rw [module?, modules_filled, List.find?_map, module?]
  rfl

/-! ## Meaning -/

/-- A setting of a module in group `i` that is written as this reference means it. -/
structure Means (b : Blueprint) (i : Nat) (m : Module) (r : Reference) : Prop where
  /-- It refers to this and to nothing else. -/
  refers : Expression.references r.text = [r]
  /-- An output of a module stays a reference, whatever the variables are, and the module
      depends on the other one. -/
  output : ∀ used name, r = .output used name →
    (∀ vars path, Scope.resolve ⟨vars, .inModule m.id i, b.filled⟩ path (.string r.text) =
      .ok (.string r.text)) ∧
    used ∈ targets { m with settings := m.wired b }
  /-- A variable is replaced by its value. -/
  var : ∀ name, r = .var name → ∀ vars path v, OrderedMap.get? vars name = some v →
    Scope.resolve ⟨vars, .inModule m.id i, b.filled⟩ path (.string r.text) = .ok v

/-- A module that supplies an input is one of those used, and has the output. -/
theorem of_giver?_eq_some {uses : List String} {used : String}
    (h : b.giver? uses name = some used) :
    used ∈ uses ∧ ∃ s, b.usedSchema used = some s ∧ s.hasOutput name = true := by
  unfold giver? at h
  have hany := List.find?_some h
  rw [Option.any_eq_true] at hany
  exact ⟨List.mem_of_find?_eq_some h, hany⟩

theorem supplier?_eq_output {uses : List String} {used output : String}
    (h : b.supplier? uses name = some (.output used output)) :
    b.giver? uses name = some used ∧ output = name := by
  unfold supplier? at h
  cases hgiver : b.giver? uses name with
  | some used' =>
      rw [hgiver] at h
      simp only [Option.map_some, Option.some_or, Option.some.injEq,
        Reference.output.injEq] at h
      exact ⟨congrArg some h.1, h.2.symm⟩
  | none =>
      rw [hgiver] at h
      simp at h

/-- The use lists that pass the check of the structure lead to modules whose outputs may be
    referred to. -/
theorem provides_of_giver {vars : OrderedMap Value} {used : String}
    (structured : checkStructure b = .ok ()) (module : (i, m) ∈ b.modules)
    (giver : b.giver? m.uses name = some used) :
    Scope.Provides ⟨vars, .inModule m.id i, b.filled⟩ used name := by
  obtain ⟨-, distinct, -, mayUse⟩ := checkStructure_eq_ok_iff.mp structured
  obtain ⟨hused, s, hs, houtput⟩ := of_giver?_eq_some giver
  obtain ⟨target, hsees⟩ := mayUse i m module used hused
  obtain ⟨hne, j, htarget, hle, hkind⟩ := (sees_iff distinct).mp hsees
  refine (Scope.provides_iff rfl).mpr
    ⟨hne, j, { target with settings := target.wired b }, ?_, hle, hkind, ?_⟩
  · show b.filled.module? used = _
    rw [module?_filled, htarget]
    rfl
  · intro schema hschema
    have htargetSchema : target.schema = some s := by
      rw [usedSchema, htarget, Option.bind_some] at hs
      exact hs
    have hschema : target.schema = some schema := hschema
    rw [htargetSchema, Option.some.injEq] at hschema
    rw [← hschema]
    exact houtput

/-- An unset input is wired to its supplier, and means it exactly when the reference is
    proper: its names have name characters only, and its module is not named like the
    variables. -/
theorem wired_means_iff (structured : checkStructure b = .ok ()) (module : (i, m) ∈ b.modules)
    (known : m.schema = some schema) (declared : schema.hasInput name = true)
    (unset : name ∉ m.settings.keys) (supplied : b.supplier? m.uses name = some r) :
    (m.wired b).get? name = some (.string r.text) ∧ (b.Means i m r ↔ r.IsProper) := by
  have hwired : (m.wired b).get? name = some (.string r.text) := by
    rw [Module.get?_wired known, OrderedMap.get?_eq_none_iff.mpr unset, if_pos declared, supplied]
    rfl
  refine ⟨hwired, fun h => ?_, fun proper => ?_⟩
  · -- everything that is read from a text is proper
    have hr : r ∈ Expression.references r.text := h.refers ▸ List.mem_singleton_self r
    rcases Expression.mem_references.mp hr with hwhole | ⟨segments, htemplate, hmem⟩
    · exact (Expression.parse_eq_whole_iff.mp hwhole).2
    · obtain ⟨_, hscan, rfl, -⟩ := Expression.classifies_of_parse htemplate
      exact Expression.isProper_of_mem_scanFrom hscan hmem
  · have hparse := Expression.parse_text_iff.mpr proper
    have hreferences := Expression.references_of_whole hparse
    have hresolve : ∀ vars path w, Scope.Grants ⟨vars, .inModule m.id i, b.filled⟩ (.whole r) →
        w = Value.substText vars r.text →
        Scope.resolve ⟨vars, .inModule m.id i, b.filled⟩ path (.string r.text) = .ok w := by
      rintro vars path w hgrants rfl
      rw [Scope.resolve]
      exact Scope.resolveText_eq_ok_iff.mpr ⟨⟨_, hparse, hgrants⟩, rfl⟩
    refine ⟨hreferences, ?_, ?_⟩
    · rintro used output rfl
      obtain ⟨giver, rfl⟩ := supplier?_eq_output supplied
      constructor
      · intro vars path
        refine hresolve vars path _ (provides_of_giver structured module giver) ?_
        rw [Value.substText, hparse]
      · -- the reference is among those of the wired settings
        have hmem : Reference.output used output ∈ (m.wired b).references :=
          OrderedMap.mem_references.mpr ⟨output, _, _, OrderedMap.mem_of_get?_eq_some hwired,
            Value.texts_string _ ▸ List.mem_singleton_self _,
            hreferences ▸ List.mem_singleton_self _⟩
        exact List.mem_filterMap.mpr ⟨_, hmem, rfl⟩
    · rintro name' rfl vars path v hv
      refine hresolve vars path v ?_ ?_
      · exact OrderedMap.mem_keys.mpr ⟨v, OrderedMap.mem_of_get?_eq_some hv⟩
      · rw [Value.substText, hparse]
        simp [hv]

/-- A module that needs a network and uses a module of this name. -/
def networked (used : String) : Module :=
  ⟨"vm", "modules/vm", .terraform, [used], [], [],
    some ⟨[⟨"network_id", "string", "", none, true⟩], [], []⟩⟩

/-- A module of this name that has a network, and one that needs it. -/
def withNetwork (used : String) : Blueprint where
  name := "t"
  toolkitVersion := ""
  validators := []
  level := .warning
  skipped := []
  vars := [("deployment_name", .string "d")]
  backendDefaults := Backend.empty
  groups := [⟨"g", none,
    [⟨used, "modules/net", .terraform, [], [], [],
      some ⟨[], [Output.named "network_id"], []⟩⟩, networked used]⟩]

theorem networked_mem (used : String) : (0, networked used) ∈ (withNetwork used).modules :=
  List.mem_cons_of_mem _ (List.mem_singleton_self _)

/-- The name of a network without a dot can be written, so the input means its output. -/
theorem wired_means_iff_net :
    checkStructure (withNetwork "net") = .ok () ∧
      (withNetwork "net").supplier? ["net"] "network_id" = some (.output "net" "network_id") ∧
      (withNetwork "net").Means 0 (networked "net") (.output "net" "network_id") := by
  have hstructure : checkStructure (withNetwork "net") = .ok () :=
    eq_ok_of_toOption (by decide +kernel)
  have hsupplier : (withNetwork "net").supplier? ["net"] "network_id" =
      some (.output "net" "network_id") := by decide
  have hproper : (Reference.output "net" "network_id").IsProper := by decide
  have hmeans := (wired_means_iff hstructure (networked_mem "net") rfl (by decide)
    List.not_mem_nil hsupplier).2
  exact ⟨hstructure, hsupplier, hmeans.mpr hproper⟩

/-- Wiring may write a reference that resolving refuses: the name of the used module has a
    dot. -/
theorem exists_wired_refused :
    ∃ b m used name, checkStructure b = .ok () ∧ (0, m) ∈ b.modules ∧ used ∈ m.uses ∧
      name ∉ m.settings.keys ∧
      (m.wired b).get? name = some (.string (Reference.output used name).text) ∧
      ∀ vars path, ∃ e, Scope.resolve ⟨vars, .inModule m.id 0, b.filled⟩ path
        (.string (Reference.output used name).text) =
          .error (.invalidReference (.malformed e) path) := by
  refine ⟨withNetwork "net.main", networked "net.main", "net.main", "network_id", ?_,
    networked_mem _, List.mem_singleton_self _, List.not_mem_nil, ?_, fun vars path => ?_⟩
  · exact eq_ok_of_toOption (by decide +kernel)
  · decide +kernel
  · have hparse : Expression.parse (Reference.output "net.main" "network_id").text =
        .error (.badName "net.main.network_id") := by decide +kernel
    refine ⟨.badName "net.main.network_id", ?_⟩
    rw [Scope.resolve, Scope.resolveText, hparse]

end Blueprint
end HpcBlueprint
