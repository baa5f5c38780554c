/-
  What the cycle search finds.

  The countdown leaves what leads to a cycle, and trimming keeps of that what a cycle leads to.
  So the search finds the modules that lie on a cycle or on the way from one to another, each
  once and in order, and it finds nothing exactly when the dependencies are acyclic.
-/
import HpcBlueprint.Expand.Materialize
import HpcBlueprint.Proofs.Blueprint.Modules
import HpcBlueprint.Proofs.Except
import HpcBlueprint.Proofs.Expand.Countdown
import HpcBlueprint.Proofs.NameSet

namespace HpcBlueprint
namespace Expand
namespace Dependencies

variable {d : Dependencies} {left : List String} {x : String}

/-! ## Trimming -/

theorem mem_dropUnneeded :
    x ∈ d.dropUnneeded left ↔ x ∈ left ∧ ∃ y ∈ left, d.Needs y x := by
  simp only [dropUnneeded, Needs, List.mem_filter, List.any_eq_true, Bool.and_eq_true,
    List.contains_iff_mem]
  constructor
  · rintro ⟨hx, ⟨m, needs⟩, hmem, hleft, hneeds⟩
    exact ⟨hx, m, hleft, needs, hmem, hneeds⟩
  · rintro ⟨hx, y, hleft, needs, hmem, hneeds⟩
    exact ⟨hx, (y, needs), hmem, hleft, hneeds⟩

theorem dropUnneeded_sublist (d : Dependencies) (left : List String) :
    (d.dropUnneeded left).Sublist left :=
  List.filter_sublist

theorem trim_sublist (d : Dependencies) (left : List String) : (d.trim left).Sublist left := by
  induction left using trim.induct d with
  | case1 left hlt ih =>
      rw [trim, if_pos hlt]
      exact ih.trans (dropUnneeded_sublist d left)
  | case2 left hlt =>
      rw [trim, if_neg hlt]

/-- Trimming ends when there is nothing more to drop. -/
theorem dropUnneeded_trim (d : Dependencies) (left : List String) :
    d.dropUnneeded (d.trim left) = d.trim left := by
  induction left using trim.induct d with
  | case1 left hlt ih =>
      rw [trim, if_pos hlt]
      exact ih
  | case2 left hlt =>
      rw [trim, if_neg hlt]
      exact (dropUnneeded_sublist d left).eq_of_length_le (Nat.le_of_not_lt hlt)

/-- What is always depended on by something of its kind is never dropped. -/
theorem mem_trim_of_forall {P : String → Prop} (needed : ∀ x, P x → ∃ y, d.Needs y x ∧ P y)
    (h : ∀ x, P x → x ∈ left) : ∀ x, P x → x ∈ d.trim left := by
  induction left using trim.induct d with
  | case1 left hlt ih =>
      rw [trim, if_pos hlt]
      refine ih fun x hx => ?_
      obtain ⟨y, hneeds, hy⟩ := needed x hx
      exact mem_dropUnneeded.mpr ⟨h x hx, y, h y hy, hneeds⟩
  | case2 left hlt =>
      rw [trim, if_neg hlt]
      exact h

/-! ## Between cycles -/

/-- A module that depends on itself, through however many others, depends on this one so too,
    or is this one. -/
def ReachedFromCycle (d : Dependencies) (x : String) : Prop :=
  ∃ y, Relation.TransGen d.Needs y y ∧ Relation.ReflTransGen d.Needs y x

/-- A cycle leads to what leads to a cycle when dependencies are followed backwards. -/
theorem reachedFromCycle_iff :
    d.ReachedFromCycle x ↔ LeadsToCycle (Function.swap d.Needs) x := by
  simp only [ReachedFromCycle, LeadsToCycle, Relation.transGen_swap, Relation.reflTransGen_swap,
    and_comm]

theorem mem_trim_blocked_iff (graph : d.IsGraph) :
    x ∈ d.trim d.blocked ↔ LeadsToCycle d.Needs x ∧ d.ReachedFromCycle x := by
  constructor
  · intro hx
    refine ⟨(mem_blocked_iff graph).mp ((trim_sublist d d.blocked).subset hx), ?_⟩
    -- whatever is kept is depended on by something that is kept
    refine reachedFromCycle_iff.mpr (leadsToCycle_of_successors (fun x hx => ?_) hx)
    rw [← dropUnneeded_trim] at hx
    exact (mem_dropUnneeded.mp hx).2
  · rintro ⟨hleads, hreached⟩
    refine mem_trim_of_forall (P := fun x => LeadsToCycle d.Needs x ∧ d.ReachedFromCycle x)
      ?_ (fun x hx => (mem_blocked_iff graph).mpr hx.1) x ⟨hleads, hreached⟩
    rintro x ⟨hleads, hreached⟩
    obtain ⟨y, hneeds, hy⟩ := (reachedFromCycle_iff.mp hreached).exists_next
    exact ⟨y, hneeds, hleads.of_next hneeds, reachedFromCycle_iff.mpr hy⟩

/-- The search finds nothing exactly when the dependencies are acyclic. -/
theorem findCycle_eq_none_iff_acyclic (graph : d.IsGraph) : d.findCycle = none ↔ d.Acyclic := by
  have hempty : d.findCycle = none ↔ d.blocked = [] := by
    simp [findCycle]
  rw [hempty, List.eq_nil_iff_forall_not_mem]
  simp only [mem_blocked_iff graph]
  constructor
  · intro h x hcycle
    exact h x ⟨x, .refl, hcycle⟩
  · rintro hacyclic x ⟨y, -, hcycle⟩
    exact hacyclic y hcycle

theorem findCycle_eq_some_iff {members : List String} :
    d.findCycle = some members ↔ d.blocked ≠ [] ∧ d.trim d.blocked = members := by
  by_cases hempty : d.blocked = []
  · simp [findCycle, hempty]
  · simp [findCycle, hempty]

/-- The countdown comes to an empty queue, and never lowers a count that is not positive.  The
    search finds nothing exactly when the dependencies are acyclic, and otherwise the modules that
    both lead to a cycle and are led to by one, each once and in the order of the list. -/
theorem findCycle_between_cycles (graph : d.IsGraph) :
    (∃ c, Countdown.Reaches d (Countdown.start d) c ∧ c.queue = []) ∧
    (∀ c id, Countdown.Lowers d c id → ∃ n, c.counts.get? id = some n ∧ 0 < n) ∧
    (d.findCycle = none ↔ d.Acyclic) ∧
    ∀ members, d.findCycle = some members →
      members.Nodup ∧ members.Sublist (d.map (·.1)) ∧
        ∀ id, id ∈ members ↔ LeadsToCycle d.Needs id ∧ d.ReachedFromCycle id := by
  refine ⟨⟨_, Countdown.reaches_run d _⟩, fun c id h => h.pos graph,
    findCycle_eq_none_iff_acyclic graph, fun members h => ?_⟩
  obtain ⟨-, rfl⟩ := findCycle_eq_some_iff.mp h
  have hsublist : (d.trim d.blocked).Sublist (d.map (·.1)) :=
    (trim_sublist d d.blocked).trans List.filter_sublist
  exact ⟨hsublist.nodup graph.distinct, hsublist, fun id => mem_trim_blocked_iff graph⟩

/-- Two cycles, a module between them, one that depends on the first and one that the second
    depends on. -/
def twoCycles : Dependencies :=
  [("tail", ["a"]), ("a", ["b"]), ("b", ["a", "between"]), ("between", ["c"]),
   ("c", ["c", "root"]), ("root", [])]

theorem isGraph_twoCycles : twoCycles.IsGraph where
  distinct := by decide
  sets := by decide
  closed := by decide

/-- The modules of the two cycles and the one between them are found, and neither the one that
    only depends on a cycle nor the one that a cycle only depends on. -/
theorem findCycle_between_cycles_two :
    twoCycles.IsGraph ∧ twoCycles.findCycle = some ["a", "b", "between", "c"] ∧
      (∀ c id, Countdown.Lowers twoCycles c id → ∃ n, c.counts.get? id = some n ∧ 0 < n) ∧
      ¬ twoCycles.Acyclic ∧
      ∀ id, id ∈ ["a", "b", "between", "c"] ↔
        LeadsToCycle twoCycles.Needs id ∧ twoCycles.ReachedFromCycle id := by
  have hfound : twoCycles.findCycle = some ["a", "b", "between", "c"] := by decide +kernel
  obtain ⟨-, hcounts, hnone, hmembers⟩ := findCycle_between_cycles isGraph_twoCycles
  refine ⟨isGraph_twoCycles, hfound, hcounts, fun hacyclic => ?_, (hmembers _ hfound).2.2⟩
  rw [hnone.mpr hacyclic] at hfound
  cases hfound

end Dependencies

end Expand

/-! ## Groups -/

/-- A module of a group depends on another of the same group whose output a setting of it
    refers to. -/
def Group.Needs (g : Group) (x y : String) : Prop :=
  ∃ m ∈ g.modules, m.id = x ∧ (∃ n ∈ g.modules, n.id = y) ∧
    ∃ name, .output y name ∈ m.settings.references

/-- No module of a group depends on itself, through however many others. -/
def Group.Acyclic (g : Group) : Prop := ∀ x, ¬ Relation.TransGen g.Needs x x

namespace Expand

theorem mem_targets {m : Module} {id : String} :
    id ∈ targets m ↔ ∃ name, .output id name ∈ m.settings.references := by
  rw [targets, List.mem_filterMap]
  constructor
  · rintro ⟨r, hr, hid⟩
    cases r with
    | var name => simp [Reference.module?] at hid
    | output module name =>
        rw [Reference.module?, Option.some.injEq] at hid
        exact ⟨name, hid ▸ hr⟩
  · rintro ⟨name, hr⟩
    exact ⟨_, hr, rfl⟩

theorem needs_groupDependencies {g : Group} {x y : String} :
    (groupDependencies g).Needs x y ↔ g.Needs x y := by
  simp only [Dependencies.Needs, groupDependencies, List.mem_map, Prod.mk.injEq]
  constructor
  · rintro ⟨needs, ⟨m, hm, rfl, rfl⟩, hy⟩
    rw [List.mem_filter, NameSet.mem_ofList, mem_targets, List.any_eq_true] at hy
    obtain ⟨hname, n, hn, hid⟩ := hy
    exact ⟨m, hm, rfl, ⟨n, hn, eq_of_beq hid⟩, hname⟩
  · rintro ⟨m, hm, rfl, ⟨n, hn, rfl⟩, hname⟩
    refine ⟨_, ⟨m, hm, rfl, rfl⟩, ?_⟩
    rw [List.mem_filter, NameSet.mem_ofList, mem_targets, List.any_eq_true]
    exact ⟨hname, n, hn, beq_self_eq_true n.id⟩

theorem map_fst_groupDependencies (g : Group) :
    (groupDependencies g).map (·.1) = g.modules.map (·.id) := by
  rw [groupDependencies, List.map_map]
  rfl

theorem isGraph_groupDependencies {g : Group} (distinct : (g.modules.map (·.id)).Nodup) :
    (groupDependencies g).IsGraph where
  distinct := (map_fst_groupDependencies g).symm ▸ distinct
  sets := by
    intro entry hentry
    obtain ⟨m, -, rfl⟩ := List.mem_map.mp hentry
    exact (NameSet.sorted_ofList _).nodup.filter _
  closed := by
    intro entry hentry y hy
    obtain ⟨m, -, rfl⟩ := List.mem_map.mp hentry
    rw [map_fst_groupDependencies]
    obtain ⟨n, hn, hid⟩ := List.any_eq_true.mp (List.mem_filter.mp hy).2
    exact List.mem_map.mpr ⟨n, hn, eq_of_beq hid⟩

/-- The dependencies of all groups pass when no module of a group depends on itself. -/
theorem checkCycles_eq_ok_iff {groups : List Group}
    (distinct : ∀ g ∈ groups, (g.modules.map (·.id)).Nodup) :
    checkCycles groups = .ok () ↔ ∀ g ∈ groups, g.Acyclic := by
  induction groups with
  | nil => simp [checkCycles]
  | cons g rest ih =>
      obtain ⟨hdistinct, hrest⟩ := List.forall_mem_cons.mp distinct
      have hneeds : (groupDependencies g).Needs = g.Needs := by
        funext x y
        exact propext needs_groupDependencies
      have hacyclic : (groupDependencies g).findCycle = none ↔ g.Acyclic := by
        rw [Dependencies.findCycle_eq_none_iff_acyclic (isGraph_groupDependencies hdistinct),
          Dependencies.Acyclic, hneeds, Group.Acyclic]
      rw [checkCycles, List.forall_mem_cons, ← hacyclic, ← ih hrest]
      cases (groupDependencies g).findCycle with
      | some members => simp
      | none => simp

end Expand
end HpcBlueprint
