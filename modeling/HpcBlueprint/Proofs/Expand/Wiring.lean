/-
  What wiring sets.

  An input is supplied if a used module has an output of its name or if there is a variable of
  its name.  Wiring sets exactly the declared inputs that are supplied and keeps whatever is
  set, so a module that sets all of them is left as it is.
-/
import HpcBlueprint.Expand.Wiring
import HpcBlueprint.Proofs.Blueprint.Modules
import HpcBlueprint.Proofs.Expand.Settled
import HpcBlueprint.Proofs.OrderedMap

namespace HpcBlueprint

/-! ## Setting inputs -/

namespace Module

variable {settings : OrderedMap Value} {input name : String}

theorem wire_of_mem (h : input ∈ settings.keys) (r : Reference) :
    wire settings input r = settings := by
  rw [wire, OrderedMap.contains_iff.mpr h, if_pos rfl]

theorem mem_keys_wire {r : Reference} :
    name ∈ (wire settings input r).keys ↔ name = input ∨ name ∈ settings.keys := by
  unfold wire
  split
  · rename_i hset
    have hmem := OrderedMap.contains_iff.mp hset
    constructor
    · exact Or.inr
    · rintro (rfl | h)
      · exact hmem
      · exact h
  · exact OrderedMap.mem_keys_insert

/-- Wiring inputs one after the other sets each of them. -/
theorem mem_keys_foldl_wire {inputs : List String} {r : String → Reference} :
    name ∈ (inputs.foldl (fun s i => wire s i (r i)) settings).keys ↔
      name ∈ inputs ∨ name ∈ settings.keys := by
  induction inputs generalizing settings with
  | nil => simp
  | cons i rest ih =>
      rw [List.foldl_cons, ih, mem_keys_wire, List.mem_cons, or_left_comm, or_assoc]

theorem foldl_wire_of_subset {inputs : List String} {r : String → Reference}
    (h : ∀ i ∈ inputs, i ∈ settings.keys) :
    inputs.foldl (fun s i => wire s i (r i)) settings = settings := by
  induction inputs with
  | nil => rfl
  | cons i rest ih =>
      rw [List.foldl_cons, wire_of_mem (h i List.mem_cons_self)]
      exact ih fun i' hi' => h i' (List.mem_cons_of_mem _ hi')

end Module

/-! ## What is supplied -/

namespace Blueprint

variable {b : Blueprint} {uses : List String} {name : String}

/-- The outputs of a module that is used by this name, if its schema is known. -/
def usedSchema (b : Blueprint) (used : String) : Option Schema :=
  (b.module? used).bind (·.2.schema)

/-- A module with this use list is given a value for an input. -/
def Supplies (b : Blueprint) (uses : List String) (name : String) : Prop :=
  (∃ used ∈ uses, ∃ schema, b.usedSchema used = some schema ∧ schema.hasOutput name = true) ∨
    name ∈ b.vars.keys

/-- A change of modules that keeps names and schemas, and one of variables that keeps names,
    leave what is supplied. -/
theorem supplies_iff_of_modules {b' : Blueprint} {h : Module → Module}
    (modules : b'.modules = b.modules.map fun (k, m) => (k, h m))
    (hid : ∀ m, (h m).id = m.id) (hschema : ∀ m, (h m).schema = m.schema)
    (hvars : ∀ name, name ∈ b'.vars.keys ↔ name ∈ b.vars.keys) :
    b'.Supplies uses name ↔ b.Supplies uses name := by
  have hused : ∀ used, b'.usedSchema used = b.usedSchema used := by
    intro used
    have hfind : b'.module? used = (b.module? used).map fun (k, m) => (k, h m) := by
      rw [module?, modules, List.find?_map, module?]
      congr 2
      funext entry
      exact congrArg (· == used) (hid entry.2)
    rw [usedSchema, usedSchema, hfind, Option.bind_map]
    congr 1
    funext entry
    exact hschema entry.2
  simp only [Supplies, hused, hvars]

end Blueprint

namespace Module

variable {b : Blueprint} {m : Module} {schema : Schema} {name : String}

/-- Wires the inputs for which any of the used modules has an output. -/
def wireUses (b : Blueprint) (inputs : List String) (settings : OrderedMap Value)
    (uses : List String) : OrderedMap Value :=
  uses.foldl (fun settings used =>
    match b.usedSchema used with
    | some s => wireUse inputs settings used s
    | none => settings) settings

theorem wired_of_schema (hschema : m.schema = some schema) :
    m.wired b = wireVars (schema.inputs.map (·.name))
      (wireUses b (schema.inputs.map (·.name)) m.settings m.uses) b.vars := by
  rw [wired, hschema]
  rfl

theorem mem_keys_wireUses {inputs uses : List String} {settings : OrderedMap Value} :
    name ∈ (wireUses b inputs settings uses).keys ↔
      name ∈ settings.keys ∨ name ∈ inputs ∧
        ∃ used ∈ uses, ∃ s, b.usedSchema used = some s ∧ s.hasOutput name = true := by
  unfold wireUses
  induction uses generalizing settings with
  | nil => simp
  | cons used rest ih =>
      rw [List.foldl_cons, ih]
      cases hused : b.usedSchema used with
      | none => simp [hused]
      | some s =>
          -- this use sets the inputs that it has outputs for, the others see to theirs
          simp only [wireUse, mem_keys_foldl_wire, List.mem_filter, List.exists_mem_cons_iff, hused,
            Option.some.injEq, exists_eq_left']
          tauto

/-- Wiring sets the declared inputs that are supplied. -/
theorem mem_keys_wired (hschema : m.schema = some schema) :
    name ∈ (m.wired b).keys ↔
      name ∈ m.settings.keys ∨
        (∃ input ∈ schema.inputs, input.name = name) ∧ b.Supplies m.uses name := by
  -- variables are wired last, so they come first here
  rw [wired_of_schema hschema, wireVars, mem_keys_foldl_wire, mem_keys_wireUses,
    List.mem_filter, OrderedMap.contains_iff, List.mem_map, Blueprint.Supplies]
  constructor
  · rintro (⟨hinput, hvar⟩ | hset | ⟨hinput, hused⟩)
    · exact Or.inr ⟨hinput, Or.inr hvar⟩
    · exact Or.inl hset
    · exact Or.inr ⟨hinput, Or.inl hused⟩
  · rintro (hset | ⟨hinput, hused | hvar⟩)
    · exact Or.inr (Or.inl hset)
    · exact Or.inr (Or.inr ⟨hinput, hused⟩)
    · exact Or.inl ⟨hinput, hvar⟩

/-- Where every output of a used module that fits an input is set, no use wires anything. -/
theorem wireUses_of_set {inputs uses : List String} {settings : OrderedMap Value}
    (h : ∀ used ∈ uses, ∀ s, b.usedSchema used = some s → ∀ name ∈ inputs,
      s.hasOutput name = true → name ∈ settings.keys) :
    wireUses b inputs settings uses = settings := by
  unfold wireUses
  induction uses with
  | nil => rfl
  | cons used rest ih =>
      have hrest := ih fun used' hused' => h used' (List.mem_cons_of_mem _ hused')
      rw [List.foldl_cons]
      cases hused : b.usedSchema used with
      | none => exact hrest
      | some s =>
          have hstep : wireUse inputs settings used s = settings := by
            refine foldl_wire_of_subset fun name hname => ?_
            obtain ⟨hname, houtput⟩ := List.mem_filter.mp hname
            exact h used List.mem_cons_self s hused name hname houtput
          dsimp only
          rw [hstep]
          exact hrest

/-- A module sets all its declared inputs that are supplied. -/
def Supplied (b : Blueprint) (m : Module) : Prop :=
  ∀ schema, m.schema = some schema → ∀ input ∈ schema.inputs,
    b.Supplies m.uses input.name → input.name ∈ m.settings.keys

/-- Nothing is wired where everything that is supplied is set. -/
theorem Supplied.wired (h : m.Supplied b) : m.wired b = m.settings := by
  cases hschema : m.schema with
  | none => rw [Module.wired, hschema]
  | some schema =>
      have hset : ∀ name ∈ schema.inputs.map (·.name), b.Supplies m.uses name →
          name ∈ m.settings.keys := by
        intro name hname hsupplies
        obtain ⟨input, hinput, rfl⟩ := List.mem_map.mp hname
        exact h schema hschema input hinput hsupplies
      have huses : wireUses b (schema.inputs.map (·.name)) m.settings m.uses = m.settings :=
        wireUses_of_set fun used hused s hs name hname houtput =>
          hset name hname (Or.inl ⟨used, hused, s, hs, houtput⟩)
      rw [wired_of_schema hschema, huses, wireVars]
      refine foldl_wire_of_subset fun name hname => ?_
      obtain ⟨hname, hvar⟩ := List.mem_filter.mp hname
      exact hset name hname (Or.inr (OrderedMap.contains_iff.mp hvar))

/-- A wired module sets everything that is supplied. -/
theorem supplied_wired (b : Blueprint) (m : Module) :
    Supplied b { m with settings := m.wired b } := by
  intro schema hschema input hinput hsupplies
  exact (mem_keys_wired (m := m) hschema).mpr (Or.inr ⟨⟨input, hinput, rfl⟩, hsupplies⟩)

end Module

/-! ## Blueprints -/

namespace Blueprint

variable {b : Blueprint}

/-- Every module sets all its declared inputs that are supplied. -/
def IsWired (b : Blueprint) : Prop := ∀ g ∈ b.groups, ∀ m ∈ g.modules, m.Supplied b

/-- A change of a blueprint that keeps what wiring reads keeps it wired. -/
theorem IsWired.of_modules {b' : Blueprint} (h : b.IsWired) (change : Module → Module)
    (modules : b'.modules = b.modules.map fun (k, m) => (k, change m))
    (hid : ∀ m, (change m).id = m.id) (hschema : ∀ m, (change m).schema = m.schema)
    (huses : ∀ m, (change m).uses = m.uses)
    (hsettings : ∀ m, (change m).settings.keys = m.settings.keys)
    (hvars : ∀ name, name ∈ b'.vars.keys ↔ name ∈ b.vars.keys) : b'.IsWired := by
  refine forall_modules_iff.mp fun k m hm => ?_
  rw [modules, List.mem_map] at hm
  obtain ⟨⟨k', m⟩, hm, heq⟩ := hm
  obtain ⟨rfl, rfl⟩ := Prod.mk.inj heq
  intro schema hs input hinput hsupplies
  rw [hschema] at hs
  rw [huses, supplies_iff_of_modules modules hid hschema hvars] at hsupplies
  rw [hsettings]
  exact forall_modules_iff.mpr h k' m hm schema hs input hinput hsupplies

theorem IsWired.of_modules_eq {b' : Blueprint} (h : b.IsWired) (modules : b'.modules = b.modules)
    (vars : b'.vars = b.vars) : b'.IsWired := by
  refine h.of_modules id ?_ (fun _ => rfl) (fun _ => rfl) (fun _ => rfl)
    (fun _ => rfl) fun name => by rw [vars]
  rw [modules]
  exact (List.map_id'' (fun _ => rfl) _).symm

theorem IsWired.wire (h : b.IsWired) : b.wire = b := by
  have hgroups : b.groups.map (fun g =>
      { g with modules := g.modules.map fun m => { m with settings := m.wired b } }) =
      b.groups := by
    refine map_eq_self_iff.mpr fun g hg => ?_
    have hmodules : g.modules.map (fun m => { m with settings := m.wired b }) = g.modules :=
      map_eq_self_iff.mpr fun m hm => by rw [(h g hg m hm).wired]
    rw [hmodules]
  rw [Blueprint.wire, hgroups]

theorem modules_wire (b : Blueprint) :
    b.wire.modules = b.modules.map fun (k, m) => (k, { m with settings := m.wired b }) :=
  modulesFrom_map (h := fun m => { m with settings := m.wired b }) (fun _ => rfl) 0 b.groups

theorem supplies_wire {uses : List String} {name : String} :
    b.wire.Supplies uses name ↔ b.Supplies uses name :=
  supplies_iff_of_modules (h := fun m => { m with settings := m.wired b }) b.modules_wire
    (fun _ => rfl) (fun _ => rfl) fun _ => Iff.rfl

theorem isWired_wire (b : Blueprint) : b.wire.IsWired := by
  intro g hg m hm
  obtain ⟨g', hg', rfl⟩ := List.mem_map.mp hg
  obtain ⟨m', hm', rfl⟩ := List.mem_map.mp hm
  intro schema hschema input hinput hsupplies
  exact Module.supplied_wired b m' schema hschema input hinput (supplies_wire.mp hsupplies)

end Blueprint
end HpcBlueprint
