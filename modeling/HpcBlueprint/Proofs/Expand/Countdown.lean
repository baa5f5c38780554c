/-
  What the countdown takes away.

  A module waits for those of its dependencies that have not been taken away; this is what its
  count is, so no count is lowered below zero.  The queue holds the modules that wait for
  nothing more.  Whatever leads to a cycle waits for something that leads to one, so it is never
  taken away; and when the queue is empty, everything left waits for something left, so it leads
  to a cycle.
-/
import HpcBlueprint.Expand.Cycle
import HpcBlueprint.Proofs.OrderedMap
import Mathlib.Data.Fintype.EquivFin
import Mathlib.Logic.Relation
import Mathlib.Order.WellFounded

namespace HpcBlueprint
namespace Expand

/-! ## Cycles of a relation -/

/-- Something leads along a relation to an element that leads back to itself. -/
def LeadsToCycle {α : Type} (R : α → α → Prop) (x : α) : Prop :=
  ∃ y, Relation.ReflTransGen R x y ∧ Relation.TransGen R y y

section Relation

variable {α : Type} {R : α → α → Prop} {l : List α} {x : α}

/-- What leads to a cycle has a successor that does. -/
theorem LeadsToCycle.exists_next (h : LeadsToCycle R x) : ∃ y, R x y ∧ LeadsToCycle R y := by
  obtain ⟨y, hxy, hyy⟩ := h
  rcases Relation.ReflTransGen.cases_head hxy with rfl | ⟨z, hxz, hzy⟩
  · -- `x` lies on the cycle, so its successor there does too
    obtain ⟨z, hxz, hzx⟩ := Relation.TransGen.head'_iff.mp hyy
    exact ⟨z, hxz, x, hzx, hyy⟩
  · exact ⟨z, hxz, y, hzy, hyy⟩

theorem LeadsToCycle.of_next {y : α} (hxy : R x y) (h : LeadsToCycle R y) : LeadsToCycle R x := by
  obtain ⟨z, hyz, hzz⟩ := h
  exact ⟨z, .head hxy hyz, hzz⟩

/-- Where everything in a list has a successor in it, some element reaches itself. -/
theorem exists_cycle_of_successors (hne : l ≠ []) (h : ∀ x ∈ l, ∃ y ∈ l, R x y) :
    ∃ x ∈ l, Relation.TransGen R x x := by
  classical
  by_contra hacyclic
  push Not at hacyclic
  let S := {x // x ∈ l.toFinset}
  -- going backwards along `R` inside the list would be well-founded
  let back : S → S → Prop := fun a b => Relation.TransGen R b.1 a.1
  have : IsTrans S back := ⟨fun _ _ _ hab hbc => hbc.trans hab⟩
  have : Std.Irrefl back := ⟨fun a ha => hacyclic a.1 (List.mem_toFinset.mp a.2) ha⟩
  have hwf : WellFounded back := Finite.wellFounded_of_trans_of_irrefl back
  obtain ⟨first, hfirst⟩ := List.exists_mem_of_ne_nil l hne
  obtain ⟨last, -, hlast⟩ := hwf.has_min Set.univ
    ⟨⟨first, List.mem_toFinset.mpr hfirst⟩, trivial⟩
  obtain ⟨next, hnext, hstep⟩ := h last.1 (List.mem_toFinset.mp last.2)
  exact hlast ⟨next, List.mem_toFinset.mpr hnext⟩ trivial (.single hstep)

/-- Where everything in a list has a successor in it, everything in it leads to a cycle. -/
theorem leadsToCycle_of_successors (h : ∀ x ∈ l, ∃ y ∈ l, R x y) (hx : x ∈ l) :
    LeadsToCycle R x := by
  classical
  -- the part of the list to which `x` leads has all its successors too
  let reached := l.filter fun y => Relation.ReflTransGen R x y
  have hmem : ∀ y, y ∈ reached ↔ y ∈ l ∧ Relation.ReflTransGen R x y := by
    intro y
    simp [reached, List.mem_filter]
  have hreached : x ∈ reached := (hmem x).mpr ⟨hx, .refl⟩
  obtain ⟨y, hy, hcycle⟩ := exists_cycle_of_successors (List.ne_nil_of_mem hreached)
    fun y hy => by
      obtain ⟨hyl, hxy⟩ := (hmem y).mp hy
      obtain ⟨z, hz, hyz⟩ := h y hyl
      exact ⟨z, (hmem z).mpr ⟨hz, hxy.tail hyz⟩, hyz⟩
  exact ⟨y, ((hmem y).mp hy).2, hcycle⟩

end Relation

/-! ## Dependencies -/

namespace Dependencies

/-- One module is listed with another among those that it depends on. -/
def Needs (d : Dependencies) (x y : String) : Prop := ∃ needs, (x, needs) ∈ d ∧ y ∈ needs

instance (d : Dependencies) (x y : String) : Decidable (d.Needs x y) :=
  decidable_of_iff (∃ entry ∈ d, entry.1 = x ∧ y ∈ entry.2) <| by
    constructor
    · rintro ⟨⟨_, needs⟩, hmem, rfl, hy⟩
      exact ⟨needs, hmem, hy⟩
    · rintro ⟨needs, hmem, hy⟩
      exact ⟨(x, needs), hmem, rfl, hy⟩

/-- Nothing depends on itself, through however many others. -/
def Acyclic (d : Dependencies) : Prop := ∀ x, ¬ Relation.TransGen d.Needs x x

/-- Every module is listed once, with a set of modules of the list. -/
structure IsGraph (d : Dependencies) : Prop where
  distinct : (d.map (·.1)).Nodup
  sets : ∀ entry ∈ d, entry.2.Nodup
  closed : ∀ entry ∈ d, ∀ y ∈ entry.2, y ∈ d.map (·.1)

variable {d : Dependencies} {id other gone : String} {needs : NameSet}

theorem needs_iff (distinct : (d.map (·.1)).Nodup) (h : (id, needs) ∈ d) :
    d.Needs id other ↔ other ∈ needs := by
  constructor
  · rintro ⟨needs', hmem, hother⟩
    have heq : (id, needs') = (id, needs) := List.inj_on_of_nodup_map distinct hmem h rfl
    rwa [← (Prod.mk.inj heq).2]
  · intro hother
    exact ⟨needs, h, hother⟩

theorem needs_cons {entry : String × NameSet} {rest : Dependencies} :
    Needs (entry :: rest) id other ↔ (entry.1 = id ∧ other ∈ entry.2) ∨ Needs rest id other := by
  simp only [Needs, List.mem_cons, or_and_right, exists_or]
  refine or_congr_left ?_
  constructor
  · rintro ⟨needs, rfl, hother⟩
    exact ⟨rfl, hother⟩
  · rintro ⟨rfl, hother⟩
    exact ⟨entry.2, rfl, hother⟩

theorem nodup_ids_filter (distinct : (d.map (·.1)).Nodup) (p : String × NameSet → Bool) :
    ((d.filter p).map (·.1)).Nodup :=
  (List.filter_sublist.map _).nodup distinct

theorem mem_of_needs (h : d.Needs id other) : id ∈ d.map (·.1) := by
  obtain ⟨needs, hmem, -⟩ := h
  exact List.mem_map.mpr ⟨(id, needs), hmem, rfl⟩

end Dependencies

/-! ## What a step of the countdown does -/

namespace Countdown

variable {d : Dependencies} {c c' : Countdown} {id other gone : String} {needs : NameSet}
  {taken : List String}

theorem get?_lower : (c.lower id).counts.get? other =
    (c.counts.get? other).map fun n => if other = id then n - 1 else n := by
  unfold lower
  cases hn : c.counts.get? id with
  | none =>
      by_cases heq : other = id
      · rw [heq, hn, Option.map_none]
      · simp [heq]
  | some n =>
      dsimp only
      rw [OrderedMap.get?_insert]
      by_cases heq : other = id
      · rw [heq, hn]
        simp
      · simp [heq]

theorem queue_lower : (c.lower id).queue =
    if c.counts.get? id = some 1 then c.queue ++ [id] else c.queue := by
  unfold lower
  cases c.counts.get? id with
  | none => simp
  | some n =>
      have hone : n - 1 = 0 ↔ n = 1 := by omega
      simp only [hone, Option.some.injEq]

/-- A count is lowered when its module depends on the one that is taken away. -/
theorem get?_release (distinct : (d.map (·.1)).Nodup) :
    (release gone d c).counts.get? id =
      (c.counts.get? id).map fun n => if d.Needs id gone then n - 1 else n := by
  induction d generalizing c with
  | nil => simp [release, Dependencies.Needs]
  | cons entry rest ih =>
      obtain ⟨k, needs⟩ := entry
      obtain ⟨hk, hrest⟩ := List.nodup_cons.mp distinct
      have hnot : ¬ Dependencies.Needs rest k gone := fun h => hk (Dependencies.mem_of_needs h)
      simp only [release, ih hrest, Dependencies.needs_cons, List.contains_iff_mem]
      by_cases heq : k = id
      · subst heq
        by_cases hgone : gone ∈ needs
        · simp [hgone, hnot, get?_lower, Function.comp_def]
        · simp [hgone, hnot]
      · by_cases hgone : gone ∈ needs
        · simp [hgone, heq, Ne.symm heq, get?_lower]
        · simp [hgone, heq]

/-- The modules that wait for nothing but the one that is taken away. -/
def freed (d : Dependencies) (gone : String) (c : Countdown) : List String :=
  (d.filter fun (id, needs) => needs.contains gone && c.counts.get? id == some 1).map (·.1)

/-- A module is queued when its count comes to zero. -/
theorem queue_release (distinct : (d.map (·.1)).Nodup) :
    (release gone d c).queue = c.queue ++ freed d gone c := by
  unfold freed
  induction d generalizing c with
  | nil => simp [release]
  | cons entry rest ih =>
      obtain ⟨k, needs⟩ := entry
      obtain ⟨hk, hrest⟩ := List.nodup_cons.mp distinct
      rw [release, ih hrest]
      by_cases hgone : needs.contains gone = true
      · -- the counts of the other modules are as they were
        have hothers : ∀ entry ∈ rest, (c.lower k).counts.get? entry.1 = c.counts.get? entry.1 := by
          intro entry hentry
          have hne : entry.1 ≠ k := fun heq => hk (List.mem_map.mpr ⟨entry, hentry, heq⟩)
          rw [get?_lower]
          simp [hne]
        have hfilter : (rest.filter fun (id, needs) =>
              needs.contains gone && (c.lower k).counts.get? id == some 1) =
            rest.filter fun (id, needs) => needs.contains gone && c.counts.get? id == some 1 :=
          List.filter_congr fun entry hentry => by simp only [hothers entry hentry]
        rw [if_pos hgone, hfilter, queue_lower, List.filter_cons]
        by_cases hone : c.counts.get? k = some 1
        · simp only [hone, hgone, if_true, BEq.rfl, Bool.and_self, List.map_cons,
            List.append_assoc, List.singleton_append]
        · have hne : (c.counts.get? k == some 1) = false := beq_eq_false_iff_ne.mpr hone
          simp only [hone, hne, if_false, Bool.and_false, Bool.false_eq_true]
      · rw [if_neg hgone, List.filter_cons, Bool.not_eq_true] at *
        simp only [hgone, Bool.false_and, Bool.false_eq_true, if_false]

/-! ## What the countdown has counted -/

/-- How many modules of a set have not been taken away. -/
def waitsFor (taken : List String) (needs : NameSet) : Nat := needs.countP (· ∉ taken)

theorem waitsFor_eq_zero_iff : waitsFor taken needs = 0 ↔ ∀ y ∈ needs, y ∈ taken := by
  simp [waitsFor, List.countP_eq_zero]

/-- Taking one more module away is one module fewer to wait for, where it was waited for. -/
theorem waitsFor_concat (set : needs.Nodup) (fresh : gone ∉ taken) :
    waitsFor taken needs =
      waitsFor (taken ++ [gone]) needs + if gone ∈ needs then 1 else 0 := by
  induction needs with
  | nil => simp [waitsFor]
  | cons y rest ih =>
      obtain ⟨hy, hrest⟩ := List.nodup_cons.mp set
      have ih := ih hrest
      unfold waitsFor at ih ⊢
      rw [List.countP_cons, List.countP_cons, ih]
      by_cases heq : gone = y
      · subst heq
        simp [hy, fresh]
      · have hiff : y ∉ taken ++ [gone] ↔ y ∉ taken := by simp [Ne.symm heq]
        simp only [hiff, List.mem_cons, heq, false_or]
        omega

/-- What holds of the countdown when these modules have been taken away. -/
structure Counted (d : Dependencies) (taken : List String) (c : Countdown) : Prop where
  /-- A module waits for those of its dependencies that are left. -/
  counts : ∀ entry ∈ d, c.counts.get? entry.1 = some (waitsFor taken entry.2 : Int)
  /-- A module that waits for nothing has been taken away or is queued. -/
  settled : ∀ entry ∈ d, entry.1 ∈ taken ++ c.queue ↔ ∀ y ∈ entry.2, y ∈ taken
  nodup : (taken ++ c.queue).Nodup
  free : ∀ id ∈ taken ++ c.queue, ¬ LeadsToCycle d.Needs id

theorem counted_start (graph : d.IsGraph) : Counted d [] (start d) := by
  have hcounts : (start d).counts = d.map fun (id, needs) => (id, (needs.length : Int)) := by
    refine OrderedMap.ofList_of_distinct ?_
    rw [OrderedMap.Distinct, OrderedMap.keys, List.map_map]
    exact graph.distinct
  have hdistinct : (start d).counts.Distinct := by
    rw [hcounts, OrderedMap.Distinct, OrderedMap.keys, List.map_map]
    exact graph.distinct
  have hqueue : ∀ entry ∈ d, entry.1 ∈ (start d).queue ↔ entry.2 = [] := by
    rintro ⟨id, needs⟩ hentry
    simp only [start, List.mem_map, List.mem_filter, List.isEmpty_iff]
    constructor
    · rintro ⟨entry, ⟨hmem, hempty⟩, heq⟩
      have heq : entry = (id, needs) := List.inj_on_of_nodup_map graph.distinct hmem hentry heq
      rwa [heq] at hempty
    · intro hempty
      exact ⟨(id, needs), ⟨hentry, hempty⟩, rfl⟩
  refine ⟨fun entry hentry => ?_, fun entry hentry => ?_, ?_, fun id hid => ?_⟩
  · refine OrderedMap.get?_eq_some_of_mem hdistinct ?_
    rw [hcounts, List.mem_map]
    refine ⟨entry, hentry, ?_⟩
    simp [waitsFor]
  · rw [List.nil_append, hqueue entry hentry]
    simp [List.eq_nil_iff_forall_not_mem]
  · exact Dependencies.nodup_ids_filter graph.distinct _
  · -- a module that depends on nothing leads nowhere
    obtain ⟨entry, hentry, rfl⟩ := List.mem_map.mp hid
    obtain ⟨hmem, hempty⟩ := List.mem_filter.mp hentry
    intro hleads
    obtain ⟨y, hneeds, -⟩ := hleads.exists_next
    rw [Dependencies.needs_iff graph.distinct hmem, List.isEmpty_iff.mp hempty] at hneeds
    exact List.not_mem_nil hneeds

section Step

variable {rest : List String}

/-- What stands first in the queue has not been taken away. -/
theorem Counted.not_mem_taken (h : Counted d taken c) (hqueue : c.queue = gone :: rest) :
    gone ∉ taken := by
  have hnodup := h.nodup
  rw [hqueue] at hnodup
  exact fun hmem => (List.nodup_append.mp hnodup).2.2 gone hmem gone List.mem_cons_self rfl

theorem Counted.mem_freed_iff (graph : d.IsGraph) (h : Counted d taken c)
    {entry : String × NameSet} (hentry : entry ∈ d) :
    entry.1 ∈ freed d gone c ↔ gone ∈ entry.2 ∧ waitsFor taken entry.2 = 1 := by
  have hone : c.counts.get? entry.1 = some 1 ↔ waitsFor taken entry.2 = 1 := by
    rw [h.counts entry hentry, Option.some.injEq]
    omega
  simp only [freed, List.mem_map, List.mem_filter, Bool.and_eq_true, List.contains_iff_mem,
    beq_iff_eq]
  constructor
  · rintro ⟨entry', ⟨hmem, hgone, hcount⟩, heq⟩
    obtain rfl : entry' = entry := List.inj_on_of_nodup_map graph.distinct hmem hentry heq
    exact ⟨hgone, hone.mp hcount⟩
  · rintro ⟨hgone, hcount⟩
    exact ⟨entry, ⟨hentry, hgone, hone.mpr hcount⟩, rfl⟩

/-- With the freed modules in the queue, it holds again what waits for nothing more. -/
theorem Counted.mem_freed_or_iff (graph : d.IsGraph) (h : Counted d taken c)
    (fresh : gone ∉ taken) {entry : String × NameSet} (hentry : entry ∈ d) :
    entry.1 ∈ (taken ++ c.queue) ++ freed d gone c ↔ ∀ y ∈ entry.2, y ∈ taken ++ [gone] := by
  have hwaits := waitsFor_concat (graph.sets entry hentry) fresh
  rw [List.mem_append, h.settled entry hentry, h.mem_freed_iff graph hentry,
    ← waitsFor_eq_zero_iff, ← waitsFor_eq_zero_iff]
  by_cases hgone : gone ∈ entry.2
  · simp only [hgone, if_true, true_and] at hwaits ⊢
    omega
  · simp only [hgone, if_false, false_and, or_false] at hwaits ⊢
    omega

/-- A freed module has waited until now, so it is not queued twice. -/
theorem Counted.nodup_freed (graph : d.IsGraph) (h : Counted d taken c) :
    ((taken ++ c.queue) ++ freed d gone c).Nodup := by
  rw [List.nodup_append]
  refine ⟨h.nodup, Dependencies.nodup_ids_filter graph.distinct _, ?_⟩
  rintro id hid _ hid' rfl
  obtain ⟨entry, hentry, rfl⟩ := List.mem_map.mp hid'
  have hmem := List.mem_of_mem_filter hentry
  have hone := ((h.mem_freed_iff graph hmem).mp hid').2
  have hzero := waitsFor_eq_zero_iff.mpr ((h.settled entry hmem).mp hid)
  omega

/-- All that a freed module depends on has been taken away, and nothing of that leads to a
    cycle. -/
theorem Counted.free_freed (graph : d.IsGraph) (h : Counted d taken c)
    (hqueue : c.queue = gone :: rest) (hid : id ∈ freed d gone c) :
    ¬ LeadsToCycle d.Needs id := by
  intro hleads
  obtain ⟨entry, hentry, rfl⟩ := List.mem_map.mp hid
  have hmem := List.mem_of_mem_filter hentry
  obtain ⟨y, hneeds, hy⟩ := hleads.exists_next
  have htaken := (h.mem_freed_or_iff graph (h.not_mem_taken hqueue) hmem).mp
    (List.mem_append_right _ hid) y ((Dependencies.needs_iff graph.distinct hmem).mp hneeds)
  refine h.free y ?_ hy
  rw [hqueue]
  rcases List.mem_append.mp htaken with hmem | hmem
  · exact List.mem_append_left _ hmem
  · rw [List.mem_singleton.mp hmem]
    exact List.mem_append_right _ List.mem_cons_self

/-- A step takes the first module of the queue away. -/
theorem Counted.release (graph : d.IsGraph) (h : Counted d taken c)
    (hqueue : c.queue = gone :: rest) :
    Counted d (taken ++ [gone]) (Countdown.release gone d { c with queue := rest }) := by
  have hfresh := h.not_mem_taken hqueue
  -- the module taken moves to the front part, and those that waited for it alone join the queue
  have hnext : (taken ++ [gone]) ++ (Countdown.release gone d { c with queue := rest }).queue =
      (taken ++ c.queue) ++ freed d gone c := by
    rw [queue_release graph.distinct, hqueue]
    simp [freed]
  refine ⟨fun entry hentry => ?_, fun entry hentry => ?_, ?_, fun id hid => ?_⟩
  · have hneeds : d.Needs entry.1 gone ↔ gone ∈ entry.2 :=
      Dependencies.needs_iff graph.distinct hentry
    rw [get?_release graph.distinct, h.counts entry hentry,
      waitsFor_concat (graph.sets entry hentry) hfresh, Option.map_some, Option.some.injEq]
    simp only [hneeds]
    split
    · omega
    · omega
  · rw [hnext]
    exact h.mem_freed_or_iff graph hfresh hentry
  · rw [hnext]
    exact h.nodup_freed graph
  · rw [hnext] at hid
    rcases List.mem_append.mp hid with hold | hnew
    · exact h.free id hold
    · exact h.free_freed graph hqueue hnew

end Step

/-! ## Runs of the countdown -/

/-- The countdown comes from one state to another. -/
def Reaches (d : Dependencies) : Countdown → Countdown → Prop :=
  Relation.ReflTransGen fun c c' => c.next? d = some c'

theorem exists_counted (graph : d.IsGraph) (h : Reaches d (start d) c) :
    ∃ taken, Counted d taken c := by
  induction h with
  | refl => exact ⟨[], counted_start graph⟩
  | @tail c c' _ hnext ih =>
      obtain ⟨taken, hcounted⟩ := ih
      unfold next? at hnext
      split at hnext
      · cases hnext
      · rename_i gone rest hqueue
        rw [← Option.some.inj hnext]
        exact ⟨taken ++ [gone], hcounted.release graph hqueue⟩

/-- The countdown ends with an empty queue. -/
theorem reaches_run (d : Dependencies) (c : Countdown) :
    Reaches d c (c.run d) ∧ (c.run d).queue = [] := by
  induction c using run.induct d with
  | case1 c c' hnext ih =>
      rw [run, hnext]
      exact ⟨.head hnext ih.1, ih.2⟩
  | case2 c hnext =>
      have hrun : c.run d = c := by
        rw [run]
        split
        · rename_i c' hnext'
          rw [hnext] at hnext'
          cases hnext'
        · rfl
      rw [hrun]
      refine ⟨.refl, ?_⟩
      unfold next? at hnext
      split at hnext
      · assumption
      · cases hnext

/-- A state of the countdown in which the count of this module is about to be lowered: the first
    module of the queue is being taken away, and the modules in front have been seen to. -/
inductive Lowers (d : Dependencies) : Countdown → String → Prop
  | intro {c : Countdown} {gone id : String} {queue : List String} {front back : Dependencies}
      {needs : NameSet} (reached : Reaches d (start d) c) (first : c.queue = gone :: queue)
      (split : d = front ++ (id, needs) :: back) (waits : gone ∈ needs) :
      Lowers d (release gone front { c with queue }) id

/-- A count that is lowered is positive. -/
theorem Lowers.pos (graph : d.IsGraph) (h : Lowers d c id) :
    ∃ n, c.counts.get? id = some n ∧ 0 < n := by
  cases h with
  | @intro c gone _ queue front back needs reached first split waits =>
      obtain ⟨taken, hcounted⟩ := exists_counted graph reached
      have hdistinct := graph.distinct
      rw [split, List.map_append, List.map_cons, List.nodup_append] at hdistinct
      have hnot : ¬ Dependencies.Needs front id gone := fun hneeds =>
        hdistinct.2.2 id (Dependencies.mem_of_needs hneeds) id List.mem_cons_self rfl
      have hentry : (id, needs) ∈ d := split ▸ List.mem_append_right _ List.mem_cons_self
      have hfresh : gone ∉ taken := hcounted.not_mem_taken first
      refine ⟨waitsFor taken needs, ?_, ?_⟩
      · rw [get?_release hdistinct.1, hcounted.counts _ hentry]
        simp [hnot]
      · have hne : waitsFor taken needs ≠ 0 := fun hzero =>
          hfresh (waitsFor_eq_zero_iff.mp hzero gone waits)
        omega

end Countdown

/-! ## What is left -/

/-- What the countdown leaves is what leads to a cycle. -/
theorem Dependencies.mem_blocked_iff {d : Dependencies} (graph : d.IsGraph) {id : String} :
    id ∈ d.blocked ↔ LeadsToCycle d.Needs id := by
  obtain ⟨hreaches, hqueue⟩ := Countdown.reaches_run d (Countdown.start d)
  obtain ⟨taken, hcounted⟩ := Countdown.exists_counted graph hreaches
  have hsettled := hcounted.settled
  rw [hqueue, List.append_nil] at hsettled
  have hmem : ∀ entry ∈ d, entry.1 ∈ d.blocked ↔ entry.1 ∉ taken := by
    intro entry hentry
    have hpos : 0 < (Countdown.waitsFor taken entry.2 : Int) ↔ entry.1 ∉ taken := by
      rw [hsettled entry hentry, ← Countdown.waitsFor_eq_zero_iff]
      omega
    simp only [blocked, List.mem_filter, hcounted.counts entry hentry, Option.any_some,
      decide_eq_true_eq, hpos, and_iff_right_iff_imp]
    exact fun _ => List.mem_map.mpr ⟨entry, hentry, rfl⟩
  constructor
  · -- something that is left waits for something that is left
    refine leadsToCycle_of_successors fun x hx => ?_
    obtain ⟨entry, hentry, rfl⟩ := List.mem_map.mp (List.mem_of_mem_filter hx)
    have hnot := (hmem entry hentry).mp hx
    rw [hsettled entry hentry] at hnot
    push Not at hnot
    obtain ⟨y, hy, hleft⟩ := hnot
    obtain ⟨next, hnext, rfl⟩ := List.mem_map.mp (graph.closed entry hentry y hy)
    exact ⟨next.1, (hmem next hnext).mpr hleft, entry.2, hentry, hy⟩
  · intro hleads
    obtain ⟨y, hneeds, -⟩ := hleads.exists_next
    obtain ⟨entry, hentry, rfl⟩ := List.mem_map.mp (mem_of_needs hneeds)
    refine (hmem entry hentry).mpr fun htaken => ?_
    exact hcounted.free _ (List.mem_append_left _ htaken) hleads

end Expand
end HpcBlueprint
