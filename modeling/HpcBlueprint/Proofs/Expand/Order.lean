/-
  The order in which the modules of a blueprint can be provisioned.

  A module comes after every module whose output one of its settings is, and no module comes
  before one of an earlier group.  No check of the run says so for the whole blueprint: a
  reference to the module itself and one to a later group fail where they stand, and the
  cycle search looks at one group at a time.  Going along references the number of the group
  never grows, so a cycle would lie inside one group, where the search has found none.
-/
import HpcBlueprint.Proofs.Expand.WellFormed
import Mathlib.Data.List.Perm.Subperm

namespace HpcBlueprint

/-! ## Ordering a finite list -/

/-- A list over which a relation never leads back can be put in an order in which nothing is
    related to what comes after it. -/
theorem exists_perm_pairwise_not {α : Type} {R : α → α → Prop}
    (acyclic : ∀ x, ¬ Relation.TransGen R x x) (l : List α) :
    ∃ order : List α, order.Perm l ∧ order.Pairwise fun x y => ¬ R x y := by
  classical
  induction hlength : l.length generalizing l with
  | zero =>
      rw [List.length_eq_zero_iff] at hlength
      exact ⟨[], hlength ▸ .refl _, .nil⟩
  | succ n ih =>
      have hne : l ≠ [] := by
        rintro rfl
        simp at hlength
      -- something in the list is related to nothing in it: it comes first
      obtain ⟨first, hfirst, hfree⟩ : ∃ x ∈ l, ∀ y ∈ l, ¬ R x y := by
        by_contra hall
        push Not at hall
        obtain ⟨x, -, hx⟩ := Expand.exists_cycle_of_successors hne hall
        exact acyclic x hx
      obtain ⟨rest, hperm, hrest⟩ := ih (l.erase first) (by
        rw [List.length_erase_of_mem hfirst, hlength, Nat.add_sub_cancel])
      refine ⟨first :: rest, (hperm.cons first).trans (List.perm_cons_erase hfirst).symm, ?_⟩
      exact List.pairwise_cons.mpr
        ⟨fun y hy => hfree y (List.mem_of_mem_erase (hperm.mem_iff.mp hy)), hrest⟩

/-! ## References between modules -/

/-- A text of the module's settings is exactly a reference to an output of a module of this
    name. -/
def Module.RefersTo (m : Module) (id : String) : Prop :=
  ∃ key v, (key, v) ∈ m.settings ∧
    ∃ text ∈ v.texts, ∃ name, Expression.parse text = .ok (.whole (.output id name))

namespace Blueprint

variable {b : Blueprint} {p q : Nat × Module}

/-- A module of the blueprint refers to another one; both are given with the numbers of their
    groups. -/
def Refers (b : Blueprint) (p q : Nat × Module) : Prop :=
  p ∈ b.modules ∧ q ∈ b.modules ∧ p.2.RefersTo q.2.id

/-- An order in which the modules of a blueprint can be provisioned. -/
structure ProvisioningOrder (b : Blueprint) (order : List (Nat × Module)) : Prop where
  perm : order.Perm b.modules
  distinct : (order.map (·.2.id)).Nodup
  groups_ascend : order.Pairwise fun p q => p.1 ≤ q.1
  /-- What a module refers to stands before it. -/
  referred_before : ∀ front i m back, order = front ++ (i, m) :: back →
    ∀ id, m.RefersTo id → ∃ p ∈ front, p.2.id = id

/-- What a module of a well-formed blueprint refers to is another module, of its own group or
    an earlier one. -/
theorem WellFormed.exists_of_refersTo (wellFormed : b.WellFormed) {i : Nat} {m : Module}
    {id : String} (hm : (i, m) ∈ b.modules) (h : m.RefersTo id) :
    ∃ j n, (j, n) ∈ b.modules ∧ n.id = id ∧ n.id ≠ m.id ∧ j ≤ i := by
  obtain ⟨key, v, hsetting, text, htext, name, hparse⟩ := h
  have hresolvable := wellFormed.texts_resolvable _ _ _ (.inModule hm hsetting htext)
  obtain ⟨-, own, k, hposition, target, ⟨hne, j, hmem, rfl, hle, -⟩, -⟩ :=
    hresolvable.outputs_offered id name (Expression.mem_references.mpr (Or.inl hparse))
  obtain ⟨rfl, rfl⟩ := Expand.Position.inModule.inj hposition
  exact ⟨j, target, hmem, rfl, hne, hle⟩

theorem WellFormed.group_le_of_refers (wellFormed : b.WellFormed) (h : b.Refers p q) :
    q.1 ≤ p.1 := by
  obtain ⟨hp, hq, hrefers⟩ := h
  obtain ⟨j, n, hn, hid, -, hle⟩ := wellFormed.exists_of_refersTo hp hrefers
  have heq : (j, n) = q := List.inj_on_of_nodup_map wellFormed.modules_nodup hn hq hid
  rw [← heq]
  exact hle

/-- Inside a group a reference is a dependency of the cycle search. -/
theorem needs_of_refers (h : b.Refers p q) (hgroup : q.1 = p.1) {g : Group}
    (hg : b.groups[p.1]? = some g) : g.Needs p.2.id q.2.id := by
  obtain ⟨hp, hq, key, v, hsetting, text, htext, name, hparse⟩ := h
  obtain ⟨gp, hgp, hmp⟩ := mem_modules.mp hp
  obtain ⟨gq, hgq, hmq⟩ := mem_modules.mp hq
  rw [hgroup] at hgq
  obtain rfl : gp = g := Option.some.inj (hgp.symm.trans hg)
  obtain rfl : gq = gp := Option.some.inj (hgq.symm.trans hg)
  refine ⟨p.2, hmp, rfl, ⟨q.2, hmq, rfl⟩, name, ?_⟩
  have hreference : .output q.2.id name ∈ v.references := List.mem_flatMap.mpr
    ⟨text, htext, Expression.mem_references.mpr (Or.inl hparse)⟩
  exact List.mem_flatMap.mpr ⟨(key, v), hsetting, hreference⟩

/-! ## The order -/

/-- What has to be provisioned before a module: what stands in an earlier group and what the
    module refers to. -/
def Follows (b : Blueprint) (p q : Nat × Module) : Prop :=
  p ∈ b.modules ∧ q ∈ b.modules ∧ (q.1 < p.1 ∨ p.2.RefersTo q.2.id)

theorem WellFormed.group_le_of_follows (wellFormed : b.WellFormed) (h : b.Follows p q) :
    q.1 ≤ p.1 := by
  obtain ⟨hp, hq, hlt | hrefers⟩ := h
  · exact hlt.le
  · exact wellFormed.group_le_of_refers ⟨hp, hq, hrefers⟩

/-- A way back to the number of a group runs through dependencies inside the group. -/
theorem WellFormed.needs_of_transGen_follows (wellFormed : b.WellFormed)
    (h : Relation.TransGen b.Follows p q) : q.1 ≤ p.1 ∧
      (q.1 = p.1 → ∀ g, b.groups[p.1]? = some g → Relation.TransGen g.Needs p.2.id q.2.id) := by
  have hstep : ∀ {r s : Nat × Module}, b.Follows r s → s.1 = r.1 →
      ∀ g, b.groups[r.1]? = some g → g.Needs r.2.id s.2.id := by
    rintro r s ⟨hr, hs, hlt | hrefers⟩ heq g hg
    · exact absurd heq hlt.ne
    · exact needs_of_refers ⟨hr, hs, hrefers⟩ heq hg
  induction h with
  | single h => exact ⟨wellFormed.group_le_of_follows h, fun heq g hg => .single (hstep h heq g hg)⟩
  | tail _ h ih =>
      obtain ⟨hle, hneeds⟩ := ih
      have hle' := wellFormed.group_le_of_follows h
      refine ⟨hle'.trans hle, fun heq g hg => ?_⟩
      -- the number of the group has not changed on the way
      have hmid := Nat.le_antisymm hle (heq ▸ hle')
      exact (hneeds hmid g hg).tail (hstep h (heq.trans hmid.symm) g (hmid ▸ hg))

theorem WellFormed.acyclic_follows (wellFormed : b.WellFormed) :
    ∀ p, ¬ Relation.TransGen b.Follows p p := by
  intro p h
  obtain ⟨_, ⟨hp, -⟩, -⟩ := Relation.TransGen.head'_iff.mp h
  obtain ⟨g, hg, -⟩ := mem_modules.mp hp
  have hneeds := (wellFormed.needs_of_transGen_follows h).2 rfl g hg
  exact wellFormed.groups_acyclic g (List.mem_of_getElem? hg) _ hneeds

theorem WellFormed.exists_provisioningOrder (wellFormed : b.WellFormed) :
    ∃ order, b.ProvisioningOrder order := by
  obtain ⟨order, hperm, hpairwise⟩ :=
    exists_perm_pairwise_not wellFormed.acyclic_follows b.modules
  refine ⟨order, hperm, ?_, ?_, ?_⟩
  · exact (hperm.map _).nodup_iff.mpr wellFormed.modules_nodup
  · refine hpairwise.imp_of_mem fun {p q} hp hq hnot => ?_
    by_contra hlt
    exact hnot ⟨hperm.mem_iff.mp hp, hperm.mem_iff.mp hq, Or.inl (Nat.lt_of_not_le hlt)⟩
  · rintro front i m back rfl id hrefers
    have hm : (i, m) ∈ b.modules := hperm.mem_iff.mp (by simp)
    obtain ⟨j, n, hn, rfl, hne, -⟩ := wellFormed.exists_of_refersTo hm hrefers
    have hfollows : b.Follows (i, m) (j, n) := ⟨hm, hn, Or.inr hrefers⟩
    rcases List.mem_append.mp (hperm.mem_iff.mpr hn) with hfront | hback
    · exact ⟨(j, n), hfront, rfl⟩
    · rcases List.mem_cons.mp hback with heq | hback
      · exact absurd (congrArg (·.2.id) heq) hne
      · -- what comes later is not referred to
        exact absurd hfollows
          ((List.pairwise_cons.mp (List.pairwise_append.mp hpairwise).2.1).1 _ hback)

/-- In a blueprint that can be materialized no module refers to itself, through however many
    others and over all groups, and the modules can be provisioned in order. -/
theorem refers_acyclic_and_ordered {m : Materialized} (h : b.materialize = .ok m) :
    (∀ p, ¬ Relation.TransGen b.Refers p p) ∧ ∃ order, b.ProvisioningOrder order := by
  have wellFormed := (materialize_eq_ok_iff.mp h).1
  refine ⟨fun p hp => wellFormed.acyclic_follows p ?_, wellFormed.exists_provisioningOrder⟩
  exact hp.lift id fun _ _ hrefers => ⟨hrefers.1, hrefers.2.1, Or.inr hrefers.2.2⟩

/-- A blueprint whose first module refers to the second one, and a later group to the first. -/
def staggered : Blueprint where
  name := "t"
  toolkitVersion := HpcBlueprint.toolkitVersion
  validators := []
  level := .warning
  skipped := []
  vars := [("deployment_name", .string "d")]
  backendDefaults := Backend.empty
  groups := [
    ⟨"first", none, [
      ⟨"a", "modules/a", .terraform, [], [("x", .string "$(b.out)")], [], none⟩,
      ⟨"b", "modules/b", .terraform, [], [], [], none⟩]⟩,
    ⟨"second", none, [
      ⟨"c", "modules/c", .terraform, [], [("x", .list [.string "$(a.out)"])], [], none⟩]⟩]

theorem materialize_staggered : staggered.materialize = .ok ⟨staggered, Usage.empty⟩ := by
  with_unfolding_all rfl

theorem refers_acyclic_and_ordered_staggered :
    staggered.materialize = .ok ⟨staggered, Usage.empty⟩ ∧
      (∀ p, ¬ Relation.TransGen staggered.Refers p p) ∧
        ∃ order, staggered.ProvisioningOrder order :=
  ⟨materialize_staggered, refers_acyclic_and_ordered materialize_staggered⟩

end Blueprint
end HpcBlueprint
