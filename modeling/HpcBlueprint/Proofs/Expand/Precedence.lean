/-
  What wins where settings overlap.

  A variable may be set in the blueprint, in a file of settings and by overrides.  Overrides are
  put into the variables of the file, and these into the blueprint's; each time a known name
  keeps its place and takes the new value.  So names stand where the weakest source that has
  them puts them, while values come from the strongest: the last override, then the file, then
  the blueprint.
-/
import HpcBlueprint.Proofs.Expand.Overrides
import HpcBlueprint.Proofs.NameSet
import HpcBlueprint.Proofs.Yaml.Yields
import HpcBlueprint.Run.Expansion

namespace HpcBlueprint

/-! ## Overrides of variables -/

namespace Overrides

/-- An override of a variable has two sides, of which the right one is a literal. -/
def IsAssignment (pair : String) : Prop :=
  '=' ∈ pair.toList ∧ ∃ v, Value.parse (text pair) = .ok v

theorem isAssignment_iff {pair : String} :
    IsAssignment pair ↔ '=' ∈ pair.toList ∧ (Value.parse (text pair)).toOption.isSome = true := by
  rw [IsAssignment]
  cases Value.parse (text pair) <;> simp [Except.toOption]

instance : DecidablePred IsAssignment := fun _ => decidable_of_iff' _ isAssignment_iff

/-- The names and values of overrides in order. -/
def assigned (pairs : List String) : OrderedMap Value :=
  pairs.filterMap fun pair => (Value.parse (text pair)).toOption.map fun v => (key pair, v)

/-- The names of overrides in the order in which they are first given. -/
def named (pairs : List String) : List String := (pairs.map key).eraseDups

/-- The value that is given last for a name. -/
def value? (pairs : List String) (name : String) : Option Value :=
  (last? pairs name).bind fun t => (Value.parse t).toOption

theorem assigned_cons {pair : String} {v : Value} (h : Value.parse (text pair) = .ok v)
    (pairs : List String) : assigned (pair :: pairs) = (key pair, v) :: assigned pairs := by
  rw [assigned, List.filterMap_cons, h]
  rfl

theorem map_fst_assigned {pairs : List String} (h : ∀ pair ∈ pairs, IsAssignment pair) :
    (assigned pairs).map (·.1) = pairs.map key := by
  induction pairs with
  | nil => rfl
  | cons pair rest ih =>
      obtain ⟨⟨-, v, hv⟩, hrest⟩ := List.forall_mem_cons.mp h
      rw [assigned_cons hv, List.map_cons, List.map_cons, ih hrest]

theorem get?_reverse_assigned {pairs : List String} (h : ∀ pair ∈ pairs, IsAssignment pair)
    (name : String) : OrderedMap.get? (assigned pairs).reverse name = value? pairs name := by
  induction pairs using List.reverseRecOn with
  | nil => rfl
  | append_singleton pairs pair ih =>
      obtain ⟨hpairs, hpair⟩ := List.forall_mem_append.mp h
      obtain ⟨-, v, hv⟩ := hpair pair (List.mem_singleton_self _)
      have hassigned : assigned (pairs ++ [pair]) = assigned pairs ++ [(key pair, v)] := by
        rw [assigned, List.filterMap_append, ← assigned, ← assigned, assigned_cons hv]
        rfl
      rw [hassigned, List.reverse_concat, OrderedMap.get?_cons, ih hpairs, value?, value?,
        last?_concat]
      by_cases hname : name = key pair
      · rw [if_pos hname, if_pos hname.symm, Option.bind_some, hv]
        rfl
      · rw [if_neg hname, if_neg (Ne.symm hname)]

end Overrides

namespace Settings

variable {s : Settings} {o : Overrides}

theorem overrideVars_eq {pairs : List String} (h : ∀ pair ∈ pairs, Overrides.IsAssignment pair) :
    s.overrideVars pairs = ⟨{ s with vars := s.vars.insertAll (Overrides.assigned pairs) }, none⟩ := by
  induction pairs generalizing s with
  | nil => rfl
  | cons pair rest ih =>
      obtain ⟨⟨hsides, v, hv⟩, hrest⟩ := List.forall_mem_cons.mp h
      have hpair : varOfPair pair = .ok (Overrides.key pair, v) := by
        rw [varOfPair, Overrides.splitPair_eq hsides]
        simp only [bind, Except.bind, hv]
      rw [overrideVars, hpair, Overrides.assigned_cons hv]
      exact ih hrest

/-- Overrides that are well-formed can all be applied. -/
theorem override_eq (hvars : ∀ pair ∈ o.vars, Overrides.IsAssignment pair)
    (hbackend : ∀ pair ∈ o.backend, '=' ∈ pair.toList)
    (hlevel : ∀ name, o.level = some name → (ValidationLevel.ofName? name).isSome = true) :
    s.override o = ⟨{
      vars := s.vars.insertAll (Overrides.assigned o.vars)
      backendDefaults :=
        if o.backend.isEmpty then s.backendDefaults else Overrides.described o.backend
      level := (o.level.bind ValidationLevel.ofName?).or s.level
      skipped := s.skipped.union (o.skipped.filter fun n => !n.isEmpty) }, none⟩ := by
  have hback : ∀ t : Settings, t.overrideBackend o.backend = ⟨{ t with backendDefaults :=
      if o.backend.isEmpty then t.backendDefaults else Overrides.described o.backend }, none⟩ := by
    intro t
    by_cases hne : o.backend = []
    · rw [hne]
      rfl
    · rw [overrideBackend_eq_described t hne hbackend,
        if_neg (by rwa [List.isEmpty_iff])]
  have hlev : ∀ t : Settings, t.overrideLevel o.level =
      ⟨{ t with level := (o.level.bind ValidationLevel.ofName?).or t.level }, none⟩ := by
    intro t
    cases hgiven : o.level with
    | none => rfl
    | some name =>
        obtain ⟨level, hname⟩ := Option.isSome_iff_exists.mp (hlevel name hgiven)
        simp only [overrideLevel, hname, Option.bind_some, Option.some_or]
  simp only [override, overrideVars_eq hvars, Overridden.andThen, hback, hlev, skip]

/-! ## Settings of a file -/

/-- What a file of settings leaves open: it has no level and skips no validators. -/
structure Filed (s : Settings) : Prop where
  distinct : s.vars.Distinct
  level : s.level = none
  skipped : s.skipped = []

theorem filed_empty : Filed empty := ⟨OrderedMap.distinct_nil, rfl, rfl⟩

end Settings

theorem yields_valuesDecoder :
    Yaml.Decoder.Yields valuesDecoder OrderedMap.Distinct :=
  (Yaml.Decoder.Yields.any _).map fun entries _ =>
    OrderedMap.distinct_insertAll OrderedMap.distinct_nil entries

namespace Settings

theorem yields_decoder : Yaml.Decoder.Yields decoder Filed := by
  refine Yaml.Decoder.Yields.record (Q := Filed) filed_empty (fun name s filed => ?_) ?_
  · split
    · exact yields_valuesDecoder.map fun vars distinct => ⟨distinct, filed.level, filed.skipped⟩
    · exact (Yaml.Decoder.Yields.any _).map fun backend _ =>
        ⟨filed.distinct, filed.level, filed.skipped⟩
  · rintro s _ filed ⟨⟩
    exact filed

theorem filed_of_load {fs : FileSystem} {file : String} {s : Settings}
    (h : load fs file = .ok s) : s.Filed := by
  simp only [load, bind_eq_ok, ofText, ofDocument, mapError_eq_ok] at h
  obtain ⟨text, -, hread⟩ := h
  exact yields_decoder.ofText hread

end Settings

namespace Blueprint

variable {b f : Blueprint} {s : Settings} {o : Overrides} {finished : List Finished}

/-! ## The blueprint under both -/

/-- What is made of a blueprint under the variables of a file and under overrides. -/
structure Under (b : Blueprint) (file : OrderedMap Value) (o : Overrides) (made : Blueprint) :
    Prop where
  /-- Names stand where the weakest source that has them puts them. -/
  keys : made.vars.keys = b.vars.keys ++ file.keys.filter (· ∉ b.vars.keys) ++
    (Overrides.named o.vars).filter fun name => name ∉ b.vars.keys ∧ name ∉ file.keys
  distinct : made.vars.Distinct
  /-- Values come from the strongest source that has them. -/
  get? : ∀ name, made.vars.get? name =
    ((Overrides.value? o.vars name).or (file.get? name)).or (b.vars.get? name)
  level : made.level = (o.level.bind ValidationLevel.ofName?).getD b.level
  skipped : ∀ name, name ∈ made.skipped ↔ name ∈ b.skipped ∨ (name ∈ o.skipped ∧ name ≠ "")

theorem keys_merged {file : OrderedMap Value} (distinct : file.Distinct)
    (hvars : ∀ pair ∈ o.vars, Overrides.IsAssignment pair) :
    (b.vars.insertAll (file.insertAll (Overrides.assigned o.vars))).keys =
      b.vars.keys ++ file.keys.filter (· ∉ b.vars.keys) ++
        (Overrides.named o.vars).filter fun name => name ∉ b.vars.keys ∧ name ∉ file.keys := by
  have hset : (file.insertAll (Overrides.assigned o.vars)).keys.Nodup :=
    OrderedMap.distinct_insertAll distinct _
  rw [OrderedMap.keys_insertAll, ← OrderedMap.keys, eraseDups_of_nodup hset,
    OrderedMap.keys_insertAll, Overrides.map_fst_assigned hvars, List.filter_append,
    List.filter_filter, ← List.append_assoc, Overrides.named]
  simp only [Bool.decide_and]

theorem get?_merged {file : OrderedMap Value} (distinct : file.Distinct)
    (hvars : ∀ pair ∈ o.vars, Overrides.IsAssignment pair) (name : String) :
    (b.vars.insertAll (file.insertAll (Overrides.assigned o.vars))).get? name =
      ((Overrides.value? o.vars name).or (file.get? name)).or (b.vars.get? name) := by
  have hset : OrderedMap.Distinct (file.insertAll (Overrides.assigned o.vars)) :=
    OrderedMap.distinct_insertAll distinct _
  rw [OrderedMap.get?_insertAll, OrderedMap.get?_reverse hset, OrderedMap.get?_insertAll,
    Overrides.get?_reverse_assigned hvars]

/-- Merging in the settings of a file with overrides puts the blueprint under both. -/
theorem under_merge (distinct : b.vars.Distinct) (filed : s.Filed)
    (hvars : ∀ pair ∈ o.vars, Overrides.IsAssignment pair) (backend : Backend) :
    b.Under s.vars o (b.merge {
      vars := s.vars.insertAll (Overrides.assigned o.vars)
      backendDefaults := backend
      level := (o.level.bind ValidationLevel.ofName?).or s.level
      skipped := s.skipped.union (o.skipped.filter fun name => !name.isEmpty) }) where
  keys := keys_merged filed.distinct hvars
  distinct := OrderedMap.distinct_insertAll distinct _
  get? := get?_merged filed.distinct hvars
  level := by rw [merge, filed.level, Option.or_none]
  skipped := by
    intro name
    rw [merge, NameSet.mem_union, filed.skipped, NameSet.mem_union, List.mem_filter,
      Bool.not_eq_true', ← Bool.not_eq_true, String.isEmpty_iff]
    simp

/-- An expansion leaves variables, level and skipped validators as merged until it resolves. -/
theorem eq_merged_of_unresolved (h : b.unresolved s finished = .ok f) :
    f.vars = (b.merge s).vars ∧ f.level = (b.merge s).level ∧ f.skipped = (b.merge s).skipped := by
  simp only [unresolved, readied, attach, bind_eq_ok, pure_eq_ok] at h
  obtain ⟨ready, ⟨-, -, rfl⟩, attached, ⟨groups, -, rfl⟩, rfl⟩ := h
  unfold filled withValidators spreadBackend
  split <;> split <;> exact ⟨rfl, rfl, rfl⟩

theorem Under.of_unresolved {file : OrderedMap Value} (under : b.Under file o (b.merge s))
    (h : b.unresolved s finished = .ok f) : b.Under file o f := by
  obtain ⟨hvars, hlevel, hskipped⟩ := eq_merged_of_unresolved h
  exact ⟨hvars ▸ under.keys, hvars ▸ under.distinct, hvars ▸ under.get?, hlevel ▸ under.level,
    hskipped ▸ under.skipped⟩

/-- Resolving leaves the level and the skipped validators. -/
theorem eq_merged_of_expand {m : Materialized} (h : b.expand s finished = .ok m) :
    m.blueprint.level = (b.merge s).level ∧ m.blueprint.skipped = (b.merge s).skipped := by
  obtain ⟨f, hf, -, rfl⟩ := expand_eq_ok_iff.mp h
  exact (eq_merged_of_unresolved hf).2

end Blueprint

namespace Run

/-! ## The settings of a run -/

/-- The settings of a run before its overrides: those of its file, if it has one. -/
def filed (fs : FileSystem) (o : Options) : Except ConfigError Settings :=
  match o.settingsFile with
  | some file => Settings.load fs file
  | none => .ok Settings.empty

theorem filed_eq_ok {fs : FileSystem} {o : Options} {file : Settings} (h : filed fs o = .ok file) :
    file.Filed ∧ settings fs o = (file.override o.overrides).toExcept := by
  unfold filed at h
  unfold settings
  cases hfile : o.settingsFile with
  | none =>
      rw [hfile] at h
      cases h
      exact ⟨Settings.filed_empty, rfl⟩
  | some name =>
      rw [hfile] at h
      dsimp only at h ⊢
      rw [h]
      exact ⟨Settings.filed_of_load h, rfl⟩

/-- Overrides that are well-formed apply to whatever the file of a run says, and an expansion
    works with a blueprint under both: names in the order of blueprint, file and overrides,
    values of the last override, else the file, else the blueprint. -/
theorem expansion_under_settings (fs : FileSystem) (o : Options) {file : Settings}
    (hfile : filed fs o = .ok file)
    (hvars : ∀ pair ∈ o.overrides.vars, Overrides.IsAssignment pair)
    (hbackend : ∀ pair ∈ o.overrides.backend, '=' ∈ pair.toList)
    (hlevel : ∀ name, o.overrides.level = some name →
      (ValidationLevel.ofName? name).isSome = true) :
    ∃ s, settings fs o = .ok s ∧ ∀ b : Blueprint, b.vars.Distinct →
      b.Under file.vars o.overrides (b.merge s) ∧
      (∀ finished f, b.unresolved s finished = .ok f → b.Under file.vars o.overrides f) ∧
      ∀ finished m, b.expand s finished = .ok m →
        m.blueprint.level = (b.merge s).level ∧ m.blueprint.skipped = (b.merge s).skipped := by
  obtain ⟨hfiled, hsettings⟩ := filed_eq_ok hfile
  rw [Settings.override_eq hvars hbackend hlevel] at hsettings
  refine ⟨_, hsettings, fun b distinct => ?_⟩
  have under := Blueprint.under_merge distinct hfiled hvars
    (if o.overrides.backend.isEmpty then file.backendDefaults
      else Overrides.described o.overrides.backend)
  exact ⟨under, fun _ _ => under.of_unresolved, fun _ _ => Blueprint.eq_merged_of_expand⟩

/-- A working directory with a file of settings. -/
def settled : FileSystem :=
  ⟨[(["s.yaml"], .file (.text "vars:\n  zone: z\n  size: 2\n  name: f\n"))], []⟩

/-- Overrides of variables that the file sets, that the blueprint sets and that are new. -/
def crowded : Options where
  blueprint := "bp.yaml"
  settingsFile := some "s.yaml"
  overrides := {
    vars := ["more=1", "size=3", "more=a=b", "deployment_name=e", "size=[4]"]
    backend := []
    level := some "error"
    skipped := ["", "x"] }

theorem expansion_under_settings_crowded :
    ∃ file s, filed settled crowded = .ok file ∧
      (∀ pair ∈ crowded.overrides.vars, Overrides.IsAssignment pair) ∧
      settings settled crowded = .ok s ∧
      (Blueprint.seamed.merge s).vars.keys =
        ["deployment_name", "open", "b", "late", "zone", "size", "name", "more"] ∧
      (Blueprint.seamed.merge s).vars.get? "more" = some (.string "a=b") ∧
      Blueprint.seamed.Under file.vars crowded.overrides (Blueprint.seamed.merge s) := by
  have hfile : filed settled crowded = .ok { Settings.empty with
      vars := [("zone", .string "z"), ("size", .number (.int 2)), ("name", .string "f")] } :=
    eq_ok_of_toOption (by decide +kernel)
  have hvars : ∀ pair ∈ crowded.overrides.vars, Overrides.IsAssignment pair := by decide +kernel
  obtain ⟨s, hs, hunder⟩ := expansion_under_settings settled crowded hfile hvars (by decide)
    (by decide +kernel)
  have under := (hunder Blueprint.seamed Blueprint.distinct_vars_seamed).1
  refine ⟨_, s, hfile, hvars, hs, ?_, ?_, under⟩
  · rw [under.keys]
    decide +kernel
  · rw [under.get?]
    decide +kernel

end Run
end HpcBlueprint
