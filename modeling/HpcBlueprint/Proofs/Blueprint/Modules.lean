/-
  The modules of a blueprint with the numbers of their groups.

  A module belongs to the group of its number, and where module names are distinct, looking a
  name up is membership in `modules`.
-/
import HpcBlueprint.Blueprint.Basic
import Mathlib.Data.List.Nodup

namespace HpcBlueprint
namespace Blueprint

/-- A module of the groups from number `i` on stands in the group of its number. -/
theorem mem_modulesFrom {i k : Nat} {groups : List Group} {m : Module} :
    (k, m) ∈ modulesFrom i groups ↔ ∃ n g, groups[n]? = some g ∧ k = i + n ∧ m ∈ g.modules := by
  induction groups generalizing i with
  | nil => simp [modulesFrom]
  | cons g rest ih =>
      simp only [modulesFrom, List.mem_append, List.mem_map, Prod.mk.injEq, ih]
      constructor
      · rintro (⟨m', hm, rfl, rfl⟩ | ⟨n, g', hg, rfl, hm⟩)
        · exact ⟨0, g, rfl, rfl, hm⟩
        · exact ⟨n + 1, g', hg, by omega, hm⟩
      · rintro ⟨n, g', hg, rfl, hm⟩
        cases n with
        | zero =>
            rw [List.getElem?_cons_zero, Option.some.injEq] at hg
            exact Or.inl ⟨m, hg ▸ hm, rfl, rfl⟩
        | succ n => exact Or.inr ⟨n, g', hg, by omega, hm⟩

theorem mem_modules {b : Blueprint} {k : Nat} {m : Module} :
    (k, m) ∈ b.modules ↔ ∃ g, b.groups[k]? = some g ∧ m ∈ g.modules := by
  rw [modules, mem_modulesFrom]
  constructor
  · rintro ⟨n, g, hg, rfl, hm⟩
    exact ⟨g, by rw [Nat.zero_add]; exact hg, hm⟩
  · rintro ⟨g, hg, hm⟩
    exact ⟨k, g, hg, (Nat.zero_add k).symm, hm⟩

/-- Every module of a group is a module of the blueprint. -/
theorem exists_mem_modules {b : Blueprint} {g : Group} {m : Module} (hg : g ∈ b.groups)
    (hm : m ∈ g.modules) : ∃ k, (k, m) ∈ b.modules := by
  obtain ⟨k, hk⟩ := List.mem_iff_getElem?.mp hg
  exact ⟨k, mem_modules.mpr ⟨g, hk, hm⟩⟩

theorem forall_modules_iff {b : Blueprint} {P : Module → Prop} :
    (∀ k m, (k, m) ∈ b.modules → P m) ↔ ∀ g ∈ b.groups, ∀ m ∈ g.modules, P m := by
  constructor
  · intro h g hg m hm
    obtain ⟨k, hmem⟩ := exists_mem_modules hg hm
    exact h k m hmem
  · intro h k m hmem
    obtain ⟨g, hg, hm⟩ := mem_modules.mp hmem
    exact h g (List.mem_of_getElem? hg) m hm

theorem modulesFrom_map {f : Group → Group} {h : Module → Module}
    (spec : ∀ g, (f g).modules = g.modules.map h) (i : Nat) (groups : List Group) :
    modulesFrom i (groups.map f) = (modulesFrom i groups).map fun (k, m) => (k, h m) := by
  induction groups generalizing i with
  | nil => rfl
  | cons g rest ih =>
      simp only [List.map_cons, modulesFrom, ih, spec, List.map_append, List.map_map]
      rfl

/-! ## Looking modules up -/

/-- The module names of a blueprint in order. -/
def moduleIds (b : Blueprint) : List String := b.modules.map (·.2.id)

/-- What a look-up finds is a module of that name. -/
theorem mem_of_module?_eq_some {b : Blueprint} {id : String} {k : Nat} {m : Module}
    (h : b.module? id = some (k, m)) : (k, m) ∈ b.modules ∧ m.id = id := by
  refine ⟨List.mem_of_find?_eq_some h, ?_⟩
  simpa using List.find?_some h

theorem module?_eq_some_iff {b : Blueprint} (distinct : b.moduleIds.Nodup) {id : String}
    {k : Nat} {m : Module} :
    b.module? id = some (k, m) ↔ (k, m) ∈ b.modules ∧ m.id = id := by
  constructor
  · exact mem_of_module?_eq_some
  · rintro ⟨hmem, rfl⟩
    cases hfind : b.module? m.id with
    | none =>
        have hne := List.find?_eq_none.mp hfind (k, m) hmem
        simp at hne
    | some found =>
        obtain ⟨k', m'⟩ := found
        obtain ⟨hmem', hid⟩ := mem_of_module?_eq_some hfind
        have heq : (k', m') = (k, m) :=
          List.inj_on_of_nodup_map distinct hmem' hmem hid
        rw [heq]

end Blueprint
end HpcBlueprint
