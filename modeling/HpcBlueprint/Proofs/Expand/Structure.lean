/-
  What the checks on the shape of a blueprint decide.

  `checkStructure` accepts exactly the blueprints whose group and module names are distinct,
  whose groups have one kind of module each, and whose modules use what they may use.
  `checkSettings` accepts exactly those whose modules fit their schemas.
-/
import HpcBlueprint.Expand.Structure
import HpcBlueprint.Proofs.Blueprint.Modules
import HpcBlueprint.Proofs.OrderedMap

namespace HpcBlueprint

/-! ## What is checked -/

/-- All modules of a group are provisioned by the same tool. -/
def Group.OneKind (g : Group) : Prop := ∀ m ∈ g.modules, ∀ n ∈ g.modules, m.kind = n.kind

/-- What the module `own` of group `i` may refer to by the name `id`: another module, which
    is provisioned by terraform and does not stand in a later group. -/
def Blueprint.Sees (b : Blueprint) (own : String) (i : Nat) (id : String) (target : Module) :
    Prop :=
  id ≠ own ∧ ∃ j, (j, target) ∈ b.modules ∧ target.id = id ∧ j ≤ i ∧ target.kind = .terraform

/-- A module in group `i` may use a module of this name. -/
def Blueprint.MayUse (b : Blueprint) (i : Nat) (m : Module) (used : String) : Prop :=
  ∃ target, b.Sees m.id i used target

/-- A module sets declared inputs only, sets every required one, and lists declared
    outputs only. -/
structure Module.Fits (m : Module) (schema : Schema) : Prop where
  settings_declared : ∀ key ∈ m.settings.keys, ∃ input ∈ schema.inputs, input.name = key
  required_set : ∀ input ∈ schema.inputs, input.isRequired = true →
    input.name ∈ m.settings.keys
  outputs_declared : ∀ o ∈ m.outputs, ∃ declared ∈ schema.outputs, declared.name = o.name

theorem Schema.hasInput_iff {s : Schema} {name : String} :
    s.hasInput name = true ↔ ∃ input ∈ s.inputs, input.name = name := by
  simp [Schema.hasInput]

theorem Schema.hasOutput_iff {s : Schema} {name : String} :
    s.hasOutput name = true ↔ ∃ output ∈ s.outputs, output.name = name := by
  simp [Schema.hasOutput]

namespace Expand

/-! ## Names and kinds -/

/-- Names that are distinct and not among those seen before. -/
def Fresh (seen names : List String) : Prop := names.Nodup ∧ ∀ x ∈ names, x ∉ seen

theorem fresh_cons {seen names : List String} {x : String} :
    Fresh seen (x :: names) ↔ x ∉ seen ∧ Fresh (x :: seen) names := by
  unfold Fresh
  rw [List.nodup_cons, List.forall_mem_cons]
  constructor
  · rintro ⟨⟨hx, hnodup⟩, hseen, hall⟩
    refine ⟨hseen, hnodup, fun y hy hmem => ?_⟩
    rcases List.mem_cons.mp hmem with rfl | hmem
    · exact hx hy
    · exact hall y hy hmem
  · rintro ⟨hseen, hnodup, hall⟩
    refine ⟨⟨fun hx => hall x hx List.mem_cons_self, hnodup⟩, hseen, fun y hy hmem => ?_⟩
    exact hall y hy (List.mem_cons_of_mem _ hmem)

theorem fresh_append {seen front back : List String} :
    Fresh seen (front ++ back) ↔ Fresh seen front ∧ Fresh (front.reverse ++ seen) back := by
  induction front generalizing seen with
  | nil => simp [Fresh]
  | cons x rest ih =>
      rw [List.cons_append, fresh_cons, ih, fresh_cons, List.reverse_cons, List.append_assoc,
        List.singleton_append, and_assoc]

theorem fresh_nil {names : List String} : Fresh [] names ↔ names.Nodup := by
  simp [Fresh]

/-- The pass over the modules of a group collects their names, which are new and distinct,
    and compares every kind with the first one. -/
theorem checkModules_eq_ok_iff {group : String} {i j : Nat} {first : Option ModuleKind}
    {seen seen' : List String} {ms : List Module} :
    checkModules group i first j seen ms = .ok seen' ↔
      Fresh seen (ms.map (·.id)) ∧
        (∀ kind, first = some kind → ∀ m ∈ ms, kind = m.kind) ∧
        seen' = (ms.map (·.id)).reverse ++ seen := by
  induction ms generalizing j seen with
  | nil => simp [checkModules, Fresh, eq_comm]
  | cons m rest ih =>
      -- one step: the name is new, and the kind is that of the first module if there is one
      have hstep : checkModules group i first j seen (m :: rest) = .ok seen' ↔
          m.id ∉ seen ∧ (∀ kind, first = some kind → kind = m.kind) ∧
            checkModules group i first (j + 1) (m.id :: seen) rest = .ok seen' := by
        rw [checkModules.eq_def]
        by_cases hseen : m.id ∈ seen
        · simp [hseen]
        · cases first with
          | none => simp [hseen]
          | some kind =>
              by_cases hkind : kind = m.kind
              · simp [hseen, hkind]
              · simp [hseen, hkind]
      rw [hstep, ih, List.map_cons, fresh_cons, List.reverse_cons, List.append_assoc,
        List.singleton_append]
      simp only [List.forall_mem_cons]
      constructor
      · rintro ⟨hm, hfirst, hfresh, hkinds, hseen'⟩
        exact ⟨⟨hm, hfresh⟩, fun kind hk => ⟨hfirst kind hk, hkinds kind hk⟩, hseen'⟩
      · rintro ⟨⟨hm, hfresh⟩, hkinds, hseen'⟩
        exact ⟨hm, fun kind hk => (hkinds kind hk).1, hfresh, fun kind hk => (hkinds kind hk).2,
          hseen'⟩

/-- Comparing every kind with the first one finds out whether there is one kind. -/
theorem oneKind_iff_head {g : Group} :
    g.OneKind ↔
      ∀ kind, g.modules.head?.map (·.kind) = some kind → ∀ m ∈ g.modules, kind = m.kind := by
  unfold Group.OneKind
  cases g.modules with
  | nil => simp
  | cons first rest =>
      simp only [List.head?_cons, Option.map_some, Option.some.injEq, forall_eq']
      constructor
      · intro h m hm
        exact h first List.mem_cons_self m hm
      · intro h m hm n hn
        exact (h m hm).symm.trans (h n hn)

/-- The module names of some groups in order. -/
def idsOf (groups : List Group) : List String := groups.flatMap fun g => g.modules.map (·.id)

theorem moduleIds_eq_idsOf (b : Blueprint) : b.moduleIds = idsOf b.groups := by
  have hfrom : ∀ i groups,
      (Blueprint.modulesFrom i groups).map (·.2.id) = idsOf groups := by
    intro i groups
    induction groups generalizing i with
    | nil => rfl
    | cons g rest ih =>
        simp only [Blueprint.modulesFrom, List.map_append, List.map_map, ih]
        rfl
  exact hfrom 0 b.groups

/-- Where the module names of a blueprint are distinct, those of each group are. -/
theorem nodup_ids_of_mem {b : Blueprint} (distinct : b.moduleIds.Nodup) :
    ∀ g ∈ b.groups, (g.modules.map (·.id)).Nodup := by
  rw [moduleIds_eq_idsOf, idsOf, List.nodup_flatMap] at distinct
  exact distinct.1

theorem checkGroups_eq_ok_iff {i : Nat} {names ids : List String} {groups : List Group} :
    checkGroups i names ids groups = .ok () ↔
      Fresh names (groups.map (·.name)) ∧ Fresh ids (idsOf groups) ∧
        ∀ g ∈ groups, g.OneKind := by
  induction groups generalizing i names ids with
  | nil => simp [checkGroups, idsOf, Fresh]
  | cons g rest ih =>
      have hids : idsOf (g :: rest) = g.modules.map (·.id) ++ idsOf rest := rfl
      rw [checkGroups, hids, List.map_cons, fresh_cons, fresh_append, List.forall_mem_cons]
      by_cases hname : g.name ∈ names
      · simp [hname]
      · simp only [List.contains_iff_mem, hname, if_false, bind_eq_ok, checkModules_eq_ok_iff,
          ih, ← oneKind_iff_head]
        constructor
        · rintro ⟨_, ⟨hnew, hkind, rfl⟩, hnames, hrest, hkinds⟩
          exact ⟨⟨not_false, hnames⟩, ⟨hnew, hrest⟩, hkind, hkinds⟩
        · rintro ⟨⟨-, hnames⟩, ⟨hnew, hrest⟩, hkind, hkinds⟩
          exact ⟨_, ⟨hnew, hkind, rfl⟩, hnames, hrest, hkinds⟩

/-! ## Visiting modules -/

/-- A check of every module accepts when it does at each one, in the number of its group. -/
theorem eachGroup_eq_ok_iff {check : Nat → Nat → Module → Except ConfigError Unit}
    {P : Nat → Module → Prop} (spec : ∀ i j m, check i j m = .ok () ↔ P i m) {i : Nat}
    {groups : List Group} :
    eachGroup check i groups = .ok () ↔
      ∀ k m, (k, m) ∈ Blueprint.modulesFrom i groups → P k m := by
  have heach : ∀ i j ms, eachModule check i j ms = .ok () ↔ ∀ m ∈ ms, P i m := by
    intro i j ms
    induction ms generalizing j with
    | nil => simp [eachModule]
    | cons m rest ih => simp [eachModule, spec, ih]
  induction groups generalizing i with
  | nil => simp [eachGroup, Blueprint.modulesFrom]
  | cons g rest ih =>
      simp only [eachGroup, checkBind_eq_ok, heach, ih, Blueprint.modulesFrom,
        List.mem_append, List.mem_map, Prod.mk.injEq]
      constructor
      · rintro ⟨hg, hrest⟩ k m (⟨m', hm, rfl, rfl⟩ | hmem)
        · exact hg m' hm
        · exact hrest k m hmem
      · intro hall
        exact ⟨fun m hm => hall i m (Or.inl ⟨m, hm, rfl, rfl⟩),
          fun k m hmem => hall k m (Or.inr hmem)⟩

/-! ## Uses -/

/-- Where names are distinct, what a module sees is what the look-up of the name finds. -/
theorem sees_iff {b : Blueprint} (distinct : b.moduleIds.Nodup) {own id : String} {i : Nat}
    {target : Module} :
    b.Sees own i id target ↔
      id ≠ own ∧ ∃ j, b.module? id = some (j, target) ∧ j ≤ i ∧ target.kind = .terraform := by
  simp only [Blueprint.Sees, Blueprint.module?_eq_some_iff distinct, and_assoc]

theorem checkUse_eq_ok_iff {b : Blueprint} (distinct : b.moduleIds.Nodup) {i : Nat} {m : Module}
    {used path : String} : checkUse b i m used path = .ok () ↔ b.MayUse i m used := by
  simp only [Blueprint.MayUse, sees_iff distinct]
  unfold checkUse
  cases hmod : b.module? used with
  | none => simp
  | some found =>
      obtain ⟨j, target⟩ := found
      by_cases hself : used = m.id
      · simp [hself]
      · by_cases hlater : i < j
        · have hle : ¬ j ≤ i := by omega
          simp [hself, hlater, hle]
        · have hle : j ≤ i := by omega
          cases hkind : target.kind with
          | packer => simp [hself, hlater, hkind]
          | terraform => simp [hself, hlater, hkind, hle]

theorem checkUseList_eq_ok_iff {b : Blueprint} (distinct : b.moduleIds.Nodup) {i j k : Nat}
    {m : Module} {uses : List String} :
    checkUseList b i j m k uses = .ok () ↔ ∀ used ∈ uses, b.MayUse i m used := by
  induction uses generalizing k with
  | nil => simp [checkUseList]
  | cons used rest ih => simp [checkUseList, checkUse_eq_ok_iff distinct, ih]

/-- The shape of a blueprint passes when all names are distinct, groups have one kind of
    module each, and modules use what they may use. -/
theorem checkStructure_eq_ok_iff {b : Blueprint} :
    checkStructure b = .ok () ↔
      b.groupNames.Nodup ∧ b.moduleIds.Nodup ∧ (∀ g ∈ b.groups, g.OneKind) ∧
        ∀ i m, (i, m) ∈ b.modules → ∀ used ∈ m.uses, b.MayUse i m used := by
  have huses : b.moduleIds.Nodup →
      (eachGroup (fun i j m => checkUseList b i j m 0 m.uses) 0 b.groups = .ok () ↔
        ∀ i m, (i, m) ∈ b.modules → ∀ used ∈ m.uses, b.MayUse i m used) := by
    intro hids
    exact eachGroup_eq_ok_iff (P := fun i m => ∀ used ∈ m.uses, b.MayUse i m used)
      fun _ _ _ => checkUseList_eq_ok_iff hids
  rw [checkStructure, checkBind_eq_ok, checkGroups_eq_ok_iff, fresh_nil, fresh_nil,
    ← moduleIds_eq_idsOf]
  constructor
  · rintro ⟨⟨hgroups, hids, hkinds⟩, hall⟩
    exact ⟨hgroups, hids, hkinds, (huses hids).mp hall⟩
  · rintro ⟨hgroups, hids, hkinds, hall⟩
    exact ⟨⟨hgroups, hids, hkinds⟩, (huses hids).mpr hall⟩

/-! ## Schemas -/

theorem checkOutputs_eq_ok_iff {m : Module} {schema : Schema} {path : String} {k : Nat}
    {outputs : List Output} :
    checkOutputs m schema path k outputs = .ok () ↔
      ∀ o ∈ outputs, schema.hasOutput o.name = true := by
  induction outputs generalizing k with
  | nil => simp [checkOutputs]
  | cons o rest ih =>
      rw [checkOutputs, List.forall_mem_cons]
      by_cases ho : schema.hasOutput o.name = true
      · simp [ho, ih]
      · simp [ho]

theorem checkModule_eq_ok_iff {m : Module} {schema : Schema} {path : String} :
    checkModule m schema path = .ok () ↔ m.Fits schema := by
  have hsettings : m.settings.keys.find? (!schema.hasInput ·) = none ↔
      ∀ key ∈ m.settings.keys, ∃ input ∈ schema.inputs, input.name = key := by
    simp [Schema.hasInput_iff]
  have hrequired :
      schema.inputs.find? (fun i => i.isRequired && !m.settings.contains i.name) = none ↔
        ∀ input ∈ schema.inputs, input.isRequired = true → input.name ∈ m.settings.keys := by
    simp [OrderedMap.contains_iff]
  have houtputs : checkOutputs m schema path 0 m.outputs = .ok () ↔
      ∀ o ∈ m.outputs, ∃ declared ∈ schema.outputs, declared.name = o.name := by
    simp only [checkOutputs_eq_ok_iff, Schema.hasOutput_iff]
  have hsplit : checkModule m schema path = .ok () ↔
      m.settings.keys.find? (!schema.hasInput ·) = none ∧
        schema.inputs.find? (fun i => i.isRequired && !m.settings.contains i.name) = none ∧
        checkOutputs m schema path 0 m.outputs = .ok () := by
    unfold checkModule
    cases m.settings.keys.find? (!schema.hasInput ·) with
    | some key => simp
    | none =>
        cases schema.inputs.find? (fun i => i.isRequired && !m.settings.contains i.name) with
        | some input => simp
        | none => simp
  rw [hsplit, hsettings, hrequired, houtputs]
  constructor
  · rintro ⟨h₁, h₂, h₃⟩
    exact ⟨h₁, h₂, h₃⟩
  · rintro ⟨h₁, h₂, h₃⟩
    exact ⟨h₁, h₂, h₃⟩

theorem checkSettings_eq_ok_iff {b : Blueprint} :
    checkSettings b = .ok () ↔
      ∀ i m, (i, m) ∈ b.modules → ∀ schema, m.schema = some schema → m.Fits schema := by
  refine eachGroup_eq_ok_iff (P := fun _ m => ∀ schema, m.schema = some schema → m.Fits schema) ?_
  intro i j m
  cases hschema : m.schema with
  | none => simp
  | some schema => simp [checkModule_eq_ok_iff]

end Expand
end HpcBlueprint
