/-
  Attaching schemas.

  A blueprint has its schemas attached if every module has the schema that its look-up found.
  Attaching succeeds with exactly the blueprint that has its schemas attached and is the same
  but for schemas.
-/
import HpcBlueprint.Expand.Lookup
import HpcBlueprint.Proofs.Blueprint.Modules
import HpcBlueprint.Proofs.Blueprint.RoundTrip

namespace HpcBlueprint

/-! ## Schemas that are not looked at -/

theorem Module.withoutSchema_eq_iff {m n : Module} :
    n.withoutSchema = m.withoutSchema ↔ n = { m with schema := n.schema } := by
  obtain ⟨id, source, kind, uses, settings, outputs, schema⟩ := n
  simp [Module.withoutSchema]

theorem Group.withoutSchemas_eq_iff {g g' : Group} :
    g'.withoutSchemas = g.withoutSchemas ↔
      g' = { g with modules := g'.modules } ∧
        g'.modules.map Module.withoutSchema = g.modules.map Module.withoutSchema := by
  obtain ⟨name, backend, modules⟩ := g'
  simp [Group.withoutSchemas, and_assoc]

theorem Blueprint.withoutSchemas_eq_iff {b b' : Blueprint} :
    b'.withoutSchemas = b.withoutSchemas ↔
      b' = { b with groups := b'.groups } ∧
        b'.groups.map Group.withoutSchemas = b.groups.map Group.withoutSchemas := by
  obtain ⟨name, version, validators, level, skipped, vars, backendDefaults, groups⟩ := b'
  simp [Blueprint.withoutSchemas, and_assoc]

namespace Blueprint

variable {outcome : Place → Except Error Schema}

/-! ## Modules at their places -/

theorem placedModules_map (h : Module → Module) (i j : Nat) (ms : List Module) :
    placedModules i j (ms.map h) = (placedModules i j ms).map fun (p, m) => (p, h m) := by
  induction ms generalizing j with
  | nil => rfl
  | cons m rest ih => rw [List.map_cons, placedModules, ih, placedModules, List.map_cons]

theorem placedGroups_map {f : Group → Group} {h : Module → Module}
    (spec : ∀ g, (f g).modules = g.modules.map h) (i : Nat) (groups : List Group) :
    placedGroups i (groups.map f) = (placedGroups i groups).map fun (p, m) => (p, h m) := by
  induction groups generalizing i with
  | nil => rfl
  | cons g rest ih =>
      rw [List.map_cons, placedGroups, ih, spec, placedModules_map, placedGroups, List.map_append]

/-- Places tell the groups of modules. -/
theorem modules_eq_map_placed (b : Blueprint) :
    b.modules = b.placed.map fun (p, m) => (p.group, m) := by
  have hmodules : ∀ i j ms,
      (placedModules i j ms).map (fun (p, m) => (p.group, m)) = ms.map fun m => (i, m) := by
    intro i j ms
    induction ms generalizing j with
    | nil => rfl
    | cons m rest ih => rw [placedModules, List.map_cons, ih, List.map_cons]
  have hgroups : ∀ i groups,
      modulesFrom i groups = (placedGroups i groups).map fun (p, m) => (p.group, m) := by
    intro i groups
    induction groups generalizing i with
    | nil => rfl
    | cons g rest ih => rw [modulesFrom, ih, placedGroups, List.map_append, hmodules]
  exact hgroups 0 b.groups

theorem exists_mem_placed {b : Blueprint} {g : Group} {m : Module} (hg : g ∈ b.groups)
    (hm : m ∈ g.modules) : ∃ p, (p, m) ∈ b.placed := by
  obtain ⟨k, hk⟩ := exists_mem_modules hg hm
  rw [modules_eq_map_placed, List.mem_map] at hk
  obtain ⟨⟨p, n⟩, hmem, heq⟩ := hk
  obtain ⟨-, rfl⟩ := Prod.mk.inj heq
  exact ⟨p, hmem⟩

/-! ## Attached schemas -/

/-- The modules at all places have the schemas that their look-ups found. -/
def Attached (outcome : Place → Except Error Schema) (placed : List (Place × Module)) : Prop :=
  ∀ p m, (p, m) ∈ placed → ∃ schema, outcome p = .ok schema ∧ m.schema = some schema

theorem attached_nil : Attached outcome [] := fun _ _ h => absurd h List.not_mem_nil

theorem attached_cons {p : Place} {m : Module} {rest : List (Place × Module)} :
    Attached outcome ((p, m) :: rest) ↔
      (∃ schema, outcome p = .ok schema ∧ m.schema = some schema) ∧ Attached outcome rest := by
  constructor
  · intro h
    exact ⟨h p m List.mem_cons_self, fun p' m' h' => h p' m' (List.mem_cons_of_mem _ h')⟩
  · rintro ⟨hm, hrest⟩ p' m' h
    rcases List.mem_cons.mp h with heq | h
    · obtain ⟨rfl, rfl⟩ := Prod.mk.inj heq
      exact hm
    · exact hrest p' m' h

theorem attached_append {front back : List (Place × Module)} :
    Attached outcome (front ++ back) ↔ Attached outcome front ∧ Attached outcome back := by
  induction front with
  | nil => simp [attached_nil]
  | cons entry rest ih =>
      obtain ⟨p, m⟩ := entry
      rw [List.cons_append, attached_cons, attached_cons, ih, and_assoc]

/-- What is attached stays attached, as long as modules keep their schemas. -/
theorem Attached.map {placed : List (Place × Module)} {h : Module → Module}
    (attached : Attached outcome placed) (hschema : ∀ m, (h m).schema = m.schema) :
    Attached outcome (placed.map fun (p, m) => (p, h m)) := by
  intro p m hm
  obtain ⟨⟨p', m'⟩, hm', heq⟩ := List.mem_map.mp hm
  obtain ⟨rfl, rfl⟩ := Prod.mk.inj heq
  rw [hschema]
  exact attached p' m' hm'

/-! ## Attaching -/

theorem attachModules_eq_ok_iff {i j : Nat} {ms ns : List Module} :
    attachModules outcome i j ms = .ok ns ↔
      ns.map Module.withoutSchema = ms.map Module.withoutSchema ∧
        Attached outcome (placedModules i j ns) := by
  -- attaching keeps the order, so the two lists are walked together
  induction ms generalizing j ns with
  | nil =>
      rw [attachModules, Except.ok.injEq, List.map_nil, List.map_eq_nil_iff]
      constructor
      · rintro rfl
        exact ⟨rfl, attached_nil⟩
      · rintro ⟨rfl, -⟩
        rfl
  | cons m rest ih =>
      simp only [attachModules, bind_eq_ok, pure_eq_ok, ih]
      constructor
      · rintro ⟨schema, hschema, ns', ⟨hsame, hattached⟩, rfl⟩
        exact ⟨by rw [List.map_cons, List.map_cons, hsame]; rfl,
          attached_cons.mpr ⟨⟨schema, hschema, rfl⟩, hattached⟩⟩
      · rintro ⟨hsame, hattached⟩
        cases ns with
        | nil => cases hsame
        | cons n ns =>
            obtain ⟨hn, hsame⟩ := List.cons.inj hsame
            obtain ⟨⟨schema, hschema, hfound⟩, hattached⟩ := attached_cons.mp hattached
            refine ⟨schema, hschema, ns, ⟨hsame, hattached⟩, ?_⟩
            rw [← hfound, ← Module.withoutSchema_eq_iff.mp hn]

theorem attachGroups_eq_ok_iff {i : Nat} {groups done : List Group} :
    attachGroups outcome i groups = .ok done ↔
      done.map Group.withoutSchemas = groups.map Group.withoutSchemas ∧
        Attached outcome (placedGroups i done) := by
  induction groups generalizing i done with
  | nil =>
      rw [attachGroups, Except.ok.injEq, List.map_nil, List.map_eq_nil_iff]
      constructor
      · rintro rfl
        exact ⟨rfl, attached_nil⟩
      · rintro ⟨rfl, -⟩
        rfl
  | cons g rest ih =>
      simp only [attachGroups, bind_eq_ok, pure_eq_ok, ih, attachModules_eq_ok_iff]
      constructor
      · rintro ⟨ms, ⟨hms, hfirst⟩, done', ⟨hsame, hrest⟩, rfl⟩
        have hgroup : Group.withoutSchemas { g with modules := ms } = g.withoutSchemas :=
          Group.withoutSchemas_eq_iff.mpr ⟨rfl, hms⟩
        exact ⟨by rw [List.map_cons, List.map_cons, hgroup, hsame],
          attached_append.mpr ⟨hfirst, hrest⟩⟩
      · rintro ⟨hsame, hattached⟩
        cases done with
        | nil => cases hsame
        | cons g' done =>
            obtain ⟨hgroup, hsame⟩ := List.cons.inj hsame
            obtain ⟨hfirst, hrest⟩ := attached_append.mp hattached
            obtain ⟨hg', hms⟩ := Group.withoutSchemas_eq_iff.mp hgroup
            exact ⟨g'.modules, ⟨hms, hfirst⟩, done, ⟨hsame, hrest⟩, by rw [← hg']⟩

/-- Attaching makes the blueprint that is the same but for schemas, and has these attached. -/
theorem attach_eq_ok_iff {b b' : Blueprint} {finished : List Finished} :
    b.attach finished = .ok b' ↔
      b'.withoutSchemas = b.withoutSchemas ∧ Attached (outcomeAt finished) b'.placed := by
  simp only [attach, bind_eq_ok, pure_eq_ok, attachGroups_eq_ok_iff, withoutSchemas_eq_iff]
  constructor
  · rintro ⟨groups, ⟨hsame, hattached⟩, rfl⟩
    exact ⟨⟨rfl, hsame⟩, hattached⟩
  · rintro ⟨⟨hb', hsame⟩, hattached⟩
    exact ⟨b'.groups, ⟨hsame, hattached⟩, hb'.symm⟩

end Blueprint
end HpcBlueprint
