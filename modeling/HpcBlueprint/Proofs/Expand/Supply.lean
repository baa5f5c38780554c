/-
  What wiring adds to the settings of a module, and in which order.

  Wiring walks the use list, and for every entry the declared inputs, and sets what is not set
  yet; then it walks the declared inputs once more for the variables.  An input that an earlier
  entry has set is passed over by every later one, so repeated inputs and repeated entries add
  nothing.  What is added can therefore be read off the blueprint before wiring: each unset
  input stands once, under the first entry that has it.
-/
import HpcBlueprint.Proofs.Expand.Meaning

namespace HpcBlueprint

/-! ## What a module is given -/

namespace Blueprint

/-- A module of this id has a schema that declares an output of this name. -/
def declares (b : Blueprint) (used name : String) : Bool :=
  b.modules.any fun (_, m) => m.id == used && m.schema.any (·.hasOutput name)

/-- The first entry of a use list that declares an output of this name. -/
def firstUse? (b : Blueprint) (uses : List String) (name : String) : Option String :=
  uses.find? (b.declares · name)

end Blueprint

namespace Module

/-- The declared inputs that are not set explicitly, each once and in schema order. -/
def unset (m : Module) (schema : Schema) : List String :=
  (schema.inputs.map (·.name)).eraseDups.filter (!m.settings.contains ·)

/-- The unset inputs for which this is the first entry of the use list, with its outputs. -/
def fromUse (b : Blueprint) (m : Module) (schema : Schema) (used : String) : OrderedMap Value :=
  ((m.unset schema).filter (b.firstUse? m.uses · == some used)).map fun i =>
    (i, .string (Reference.output used i).text)

/-- The unset inputs for which there is no entry but a variable, with their variables. -/
def fromVars (b : Blueprint) (m : Module) (schema : Schema) : OrderedMap Value :=
  ((m.unset schema).filter fun i => (b.firstUse? m.uses i).isNone && b.vars.contains i).map
    fun i => (i, .string (Reference.var i).text)

/-- The explicit settings, then what the use list gives, entry by entry, then what the
    variables give.  A module without a schema is given nothing. -/
def completed (b : Blueprint) (m : Module) : OrderedMap Value :=
  match m.schema with
  | none => m.settings
  | some schema =>
      m.settings ++ m.uses.eraseDups.flatMap (m.fromUse b schema) ++ m.fromVars b schema

end Module

/-! ## First occurrences -/

/-- Taking the first occurrences and filtering can be done in either order. -/
theorem eraseDups_filter (p : String → Bool) (l : List String) :
    (l.filter p).eraseDups = l.eraseDups.filter p := by
  -- the tail is filtered before its first occurrences are taken, so the induction is on length
  induction hlen : l.length using Nat.strong_induction_on generalizing l with
  | _ n ih =>
      cases l with
      | nil => rfl
      | cons x rest =>
          have hshorter : ((rest.filter fun y => !y == x)).length < n := by
            have hle := List.length_filter_le (fun y => !y == x) rest
            rw [List.length_cons] at hlen
            omega
          have hrest := ih _ hshorter (rest.filter fun y => !y == x) rfl
          have hcomm : (rest.filter p).filter (fun y => !y == x) =
              (rest.filter fun y => !y == x).filter p := List.filter_comm ..
          cases hx : p x with
          | true =>
              rw [List.filter_cons_of_pos hx, List.eraseDups_cons, List.eraseDups_cons,
                List.filter_cons_of_pos hx, hcomm, hrest]
          | false =>
              have hfalse : ¬ p x = true := by simp [hx]
              have hkeep : (rest.filter fun y => !y == x).filter p = rest.filter p := by
                rw [List.filter_filter]
                refine List.filter_congr fun y _ => ?_
                by_cases hy : y = x
                · simp [hy, hx]
                · simp [hy]
              rw [List.filter_cons_of_neg hfalse, List.eraseDups_cons,
                List.filter_cons_of_neg hfalse, ← hrest, hkeep]

/-- The first occurrences in a list are its head and those of the tail that differ from it. -/
theorem eraseDups_cons_eq (x : String) (l : List String) :
    (x :: l).eraseDups = x :: l.eraseDups.filter (!· == x) := by
  rw [List.eraseDups_cons, eraseDups_filter]

/-- What contributes nothing may be dropped. -/
theorem flatMap_filter_of_nil {β : Type} {p : String → Bool} {f : String → List β}
    {l : List String} (h : ∀ x ∈ l, p x = false → f x = []) :
    (l.filter p).flatMap f = l.flatMap f := by
  induction l with
  | nil => rfl
  | cons x rest ih =>
      have hrest := ih fun y hy => h y (List.mem_cons_of_mem _ hy)
      cases hx : p x with
      | true => rw [List.filter_cons_of_pos hx, List.flatMap_cons, List.flatMap_cons, hrest]
      | false =>
          rw [List.filter_cons_of_neg (by simp [hx]), List.flatMap_cons,
            h x List.mem_cons_self hx, List.nil_append, hrest]

/-! ## One walk over the inputs -/

namespace Module

variable {b : Blueprint} {m : Module} {schema : Schema} {settings : OrderedMap Value}
  {inputs uses : List String}

/-- Wiring inputs one after the other appends those that are not set, each once. -/
theorem foldl_wire_eq {r : String → Reference} :
    inputs.foldl (fun s i => wire s i (r i)) settings =
      settings ++ (inputs.eraseDups.filter (!settings.contains ·)).map fun i =>
        (i, .string (r i).text) := by
  -- whether the first input is set or gets set, later occurrences of it wire nothing
  induction inputs generalizing settings with
  | nil => simp
  | cons i rest ih =>
      rw [List.foldl_cons, ih, eraseDups_cons_eq]
      by_cases hset : i ∈ settings.keys
      · have hcontains : settings.contains i = true := OrderedMap.contains_iff.mpr hset
        have hkeep : ∀ j ∈ rest.eraseDups, (!settings.contains j) =
            (!settings.contains j && !j == i) := by
          intro j _
          by_cases hj : j = i
          · simp [hj, hcontains]
          · simp [hj]
        rw [wire_of_mem hset, List.filter_cons_of_neg (by simp [hcontains]), List.filter_filter,
          List.filter_congr hkeep]
      · have hcontains : settings.contains i = false := by
          rw [← Bool.not_eq_true, OrderedMap.contains_iff]
          exact hset
        have hwire : wire settings i (r i) = settings ++ [(i, .string (r i).text)] := by
          rw [wire, hcontains, if_neg Bool.false_ne_true, OrderedMap.insert_of_not_mem hset]
        have hkeep : ∀ j ∈ rest.eraseDups,
            (!OrderedMap.contains (settings ++ [(i, Value.string (r i).text)]) j) =
              (!settings.contains j && !j == i) := by
          intro j _
          rw [Bool.eq_iff_iff]
          simp [← Bool.not_eq_true, OrderedMap.contains_iff]
        rw [hwire, List.filter_cons_of_pos (by simp [hcontains]), List.filter_filter,
          List.filter_congr hkeep, List.map_cons, List.append_assoc, List.singleton_append]

/-! ## The walk over the use list -/

/-- One entry appends the inputs it has among those that are not set. -/
theorem wireUses_singleton (used : String) :
    wireUses b inputs settings [used] =
      settings ++ (inputs.eraseDups.filter fun i =>
        !settings.contains i && (b.usedSchema used).any (·.hasOutput i)).map fun i =>
          (i, .string (Reference.output used i).text) := by
  rw [wireUses, List.foldl_cons, List.foldl_nil]
  cases b.usedSchema used with
  | none => simp
  | some s =>
      dsimp only
      rw [wireUse, foldl_wire_eq, eraseDups_filter, List.filter_filter]
      rfl

/-- The first entry that has an input is the head, or else the first of the tail. -/
theorem giver?_cons (used : String) (name : String) :
    b.giver? (used :: uses) name =
      if (b.usedSchema used).any (·.hasOutput name) then some used else b.giver? uses name := by
  unfold Blueprint.giver?
  rw [List.find?_cons]
  cases (b.usedSchema used).any (·.hasOutput name) <;> rfl

/-- An entry that does not have an input is not the first to have it. -/
theorem giver?_beq_of_any_eq_false {used name : String}
    (h : (b.usedSchema used).any (·.hasOutput name) = false) :
    (b.giver? uses name == some used) = false := by
  rw [beq_eq_false_iff_ne]
  intro hgiver
  obtain ⟨-, s, hs, houtput⟩ := Blueprint.of_giver?_eq_some hgiver
  rw [hs, Option.any_some, houtput] at h
  cases h

theorem giver?_cons_beq_self (used name : String) :
    (b.giver? (used :: uses) name == some used) =
      (b.usedSchema used).any (·.hasOutput name) := by
  rw [giver?_cons]
  cases hgives : (b.usedSchema used).any (·.hasOutput name) with
  | true => rw [if_pos rfl, beq_self_eq_true]
  | false => rw [if_neg Bool.false_ne_true, giver?_beq_of_any_eq_false hgives]

theorem giver?_cons_beq_of_ne {used other : String} (h : other ≠ used) (name : String) :
    (b.giver? (used :: uses) name == some other) =
      (!(b.usedSchema used).any (·.hasOutput name) && b.giver? uses name == some other) := by
  rw [giver?_cons]
  cases (b.usedSchema used).any (·.hasOutput name) with
  | true => simp [Ne.symm h]
  | false => simp

/-- The inputs that are set after the walk over the use list. -/
theorem contains_wireUses {i : String} (h : i ∈ inputs) :
    (wireUses b inputs settings uses).contains i =
      (settings.contains i || (b.giver? uses i).isSome) := by
  rw [Bool.eq_iff_iff, OrderedMap.contains_iff, mem_keys_wireUses, Bool.or_eq_true,
    OrderedMap.contains_iff, Blueprint.giver?, List.find?_isSome]
  simp [h, Option.any_eq_true]

/-- Wiring from a use list appends, entry by entry, the inputs that the entry is the first to
    have among those that are not set. -/
theorem wireUses_eq :
    wireUses b inputs settings uses =
      settings ++ uses.eraseDups.flatMap fun used =>
        (inputs.eraseDups.filter fun i =>
          !settings.contains i && b.giver? uses i == some used).map fun i =>
            (i, .string (Reference.output used i).text) := by
  induction uses generalizing settings with
  | nil => simp [wireUses]
  | cons used rest ih =>
      have hwalk : wireUses b inputs settings (used :: rest) =
          wireUses b inputs (wireUses b inputs settings [used]) rest := rfl
      have hset : ∀ i ∈ inputs.eraseDups, (wireUses b inputs settings [used]).contains i =
          (settings.contains i || (b.usedSchema used).any (·.hasOutput i)) := by
        intro i hi
        rw [contains_wireUses (List.mem_eraseDups.mp hi), giver?_cons]
        cases (b.usedSchema used).any (·.hasOutput i) <;> rfl
      -- nothing is left to a later repetition of the head
      have hagain : ∀ i ∈ inputs.eraseDups, ¬
          (!(wireUses b inputs settings [used]).contains i && b.giver? rest i == some used) =
            true := by
        intro i hi
        rw [hset i hi]
        cases hgives : (b.usedSchema used).any (·.hasOutput i) with
        | true => simp
        | false => simp [giver?_beq_of_any_eq_false hgives]
      have hrest : ∀ other ≠ used, ∀ i ∈ inputs.eraseDups,
          (!(wireUses b inputs settings [used]).contains i && b.giver? rest i == some other) =
            (!settings.contains i && b.giver? (used :: rest) i == some other) := by
        intro other hne i hi
        rw [hset i hi, giver?_cons_beq_of_ne hne, Bool.not_or, Bool.and_assoc]
      rw [hwalk, ih, eraseDups_cons_eq, List.flatMap_cons, ← List.append_assoc]
      simp only [giver?_cons_beq_self]
      rw [← wireUses_singleton, ← flatMap_filter_of_nil (p := (!· == used))]
      · congr 1
        refine List.flatMap_congr fun other hother => ?_
        have hne : other ≠ used := by simpa using (List.mem_filter.mp hother).2
        rw [List.filter_congr (hrest other hne)]
      · intro other _ hother
        obtain rfl : other = used := by simpa using hother
        rw [List.filter_eq_nil_iff.mpr hagain, List.map_nil]

end Module

/-! ## All settings -/

namespace Blueprint

variable {b : Blueprint}

/-- Where ids are distinct, the module that is looked up is the only one of its id. -/
theorem any_usedSchema (distinct : b.moduleIds.Nodup) (used name : String) :
    (b.usedSchema used).any (·.hasOutput name) = b.declares used name := by
  have hused : ∀ s, b.usedSchema used = some s ↔
      ∃ k m, (k, m) ∈ b.modules ∧ m.id = used ∧ m.schema = some s := by
    intro s
    rw [usedSchema, Option.bind_eq_some_iff]
    constructor
    · rintro ⟨⟨k, m⟩, hmodule, hschema⟩
      obtain ⟨hmem, hid⟩ := (module?_eq_some_iff distinct).mp hmodule
      exact ⟨k, m, hmem, hid, hschema⟩
    · rintro ⟨k, m, hmem, hid, hschema⟩
      exact ⟨(k, m), (module?_eq_some_iff distinct).mpr ⟨hmem, hid⟩, hschema⟩
  rw [Bool.eq_iff_iff, Option.any_eq_true, declares, List.any_eq_true]
  simp only [hused, Prod.exists, Bool.and_eq_true, beq_iff_eq, Option.any_eq_true]
  constructor
  · rintro ⟨s, ⟨k, m, hmem, hid, hschema⟩, houtput⟩
    exact ⟨k, m, hmem, hid, s, hschema, houtput⟩
  · rintro ⟨k, m, hmem, hid, s, hschema, houtput⟩
    exact ⟨s, ⟨k, m, hmem, hid, hschema⟩, houtput⟩

theorem giver?_eq_firstUse? (distinct : b.moduleIds.Nodup) (uses : List String) (name : String) :
    b.giver? uses name = b.firstUse? uses name := by
  have hgives : (fun used => (b.usedSchema used).any (·.hasOutput name)) = (b.declares · name) :=
    funext fun used => any_usedSchema distinct used name
  rw [giver?, firstUse?, hgives]

/-- What wiring makes of the settings of a module. -/
theorem wired_eq_completed (distinct : b.moduleIds.Nodup) (m : Module) :
    m.wired b = m.completed b := by
  cases hschema : m.schema with
  | none => rw [Module.wired, Module.completed, hschema]
  | some schema =>
      have huses : Module.wireUses b (schema.inputs.map (·.name)) m.settings m.uses =
          m.settings ++ m.uses.eraseDups.flatMap (m.fromUse b schema) := by
        rw [Module.wireUses_eq]
        congr 1
        refine List.flatMap_congr fun used _ => ?_
        rw [Module.fromUse, Module.unset, List.filter_filter]
        simp only [giver?_eq_firstUse? distinct, Bool.and_comm]
      -- a variable is taken where neither the settings nor an entry have the input
      have hvars : ∀ i ∈ (schema.inputs.map (·.name)).eraseDups,
          (!(Module.wireUses b (schema.inputs.map (·.name)) m.settings m.uses).contains i &&
              b.vars.contains i) =
            ((b.firstUse? m.uses i).isNone && b.vars.contains i && !m.settings.contains i) := by
        intro i hi
        rw [Module.contains_wireUses (List.mem_eraseDups.mp hi), giver?_eq_firstUse? distinct,
          Bool.not_or, Option.not_isSome, Bool.and_assoc, Bool.and_comm]
      rw [Module.wired_of_schema hschema, Module.wireVars, Module.foldl_wire_eq, eraseDups_filter,
        List.filter_filter, List.filter_congr hvars, huses, Module.completed, hschema]
      dsimp only
      rw [Module.fromVars, Module.unset, List.filter_filter]

theorem supplier?_eq_match (distinct : b.moduleIds.Nodup) (uses : List String) (name : String) :
    b.supplier? uses name =
      match b.firstUse? uses name with
      | some used => some (.output used name)
      | none => if name ∈ b.vars.keys then some (.var name) else none := by
  rw [supplier?, giver?_eq_firstUse? distinct]
  cases b.firstUse? uses name <;> rfl

/-- Wiring completes the settings of every module and changes nothing else: an input that is
    not set explicitly is set to the output of the first entry of the use list that declares
    it, else to the variable of its name, else it stays unset.  Wiring again changes
    nothing. -/
theorem wire_completes (distinct : b.moduleIds.Nodup) :
    b.wire = { b with groups := b.groups.map fun g =>
      { g with modules := g.modules.map fun m => { m with settings := m.completed b } } } ∧
    (∀ (m : Module) (schema : Schema), m.schema = some schema → ∀ input ∈ schema.inputs,
      input.name ∉ m.settings.keys →
      (m.completed b).get? input.name =
        match b.firstUse? m.uses input.name with
        | some used => some (.string (Reference.output used input.name).text)
        | none =>
            if input.name ∈ b.vars.keys then some (.string (Reference.var input.name).text)
            else none) ∧
    b.wire.wire = b.wire := by
  refine ⟨?_, ?_, b.isWired_wire.wire⟩
  · simp only [wire, wired_eq_completed distinct]
  · intro m schema known input declared unset
    have hdeclared : schema.hasInput input.name = true :=
      Schema.hasInput_iff.mpr ⟨input, declared, rfl⟩
    rw [← wired_eq_completed distinct, Module.get?_wired known,
      OrderedMap.get?_eq_none_iff.mpr unset, Option.none_or, if_pos hdeclared,
      supplier?_eq_match distinct]
    cases b.firstUse? m.uses input.name with
    | some used => rfl
    | none =>
        by_cases hvar : input.name ∈ b.vars.keys
        · simp [hvar]
        · simp [hvar]

/-- A module that declares some inputs twice and uses another one twice. -/
def contender : Module :=
  ⟨"vm", "modules/vm", .terraform, ["disk", "net", "disk"], [("labels", .null)], [],
    some ⟨["region", "zone", "labels", "network_id", "zone", "memory", "path"].map
      fun name => ⟨name, "string", "", none, false⟩, [], []⟩⟩

/-- Two modules with an output of the same name, and one that uses both of them. -/
def contended : Blueprint where
  name := "t"
  toolkitVersion := ""
  validators := []
  level := .warning
  skipped := []
  vars := [("zone", .string "a"), ("region", .string "r"), ("labels", .map [])]
  backendDefaults := Backend.empty
  groups := [⟨"g", none,
    [⟨"net", "modules/net", .terraform, [], [], [],
      some ⟨[], [Output.named "network_id", Output.named "zone"], []⟩⟩,
    ⟨"disk", "modules/disk", .terraform, [], [], [],
      some ⟨[], [Output.named "path", Output.named "zone"], []⟩⟩,
    contender]⟩]

/-- The disk comes first in the use list, so its zone is taken; the labels stay null, and
    nothing has the memory. -/
theorem wire_completes_contended :
    contended.moduleIds.Nodup ∧
      contended.wire.groups.map (·.modules.map (·.settings)) =
        [[[], [],
          [("labels", .null), ("zone", .string "$(disk.zone)"), ("path", .string "$(disk.path)"),
            ("network_id", .string "$(net.network_id)"), ("region", .string "$(vars.region)")]]] ∧
      contended.wire.wire = contended.wire := by
  have distinct : contended.moduleIds.Nodup := by decide
  obtain ⟨hwire, -, hagain⟩ := wire_completes distinct
  refine ⟨distinct, ?_, hagain⟩
  rw [hwire]
  decide +kernel

end Blueprint
end HpcBlueprint
