/-
  Attaching schemas that were looked up at once.

  Every module has a task that looks up its schema.  Any task that is still running may be the
  next to complete; its outcome is then filed under the place of its module, and when none is
  running the places are gone through in order and their outcomes taken out of the register.  The
  outcomes that have come in and those that are still to come are together always the same, so
  the order of completion is that of any permutation, and the register does not show it.
-/
import HpcBlueprint.Proofs.Expand.Attach
import HpcBlueprint.Proofs.Except
import Mathlib.Data.List.Induction
import Mathlib.Data.List.Nodup
import Mathlib.Data.List.Perm.Basic
import Mathlib.Logic.Function.Basic
import Mathlib.Logic.Relation

namespace HpcBlueprint
namespace Blueprint

/-! ## Tasks -/

/-- A task that looks up the schema of the module at a place. -/
structure Task where
  place : Place
  source : String
  kind : ModuleKind

/-- The tasks of a blueprint in the order in which they are started. -/
def tasks (b : Blueprint) : List Task := b.placed.map fun (p, m) => ⟨p, m.source, m.kind⟩

/-- A task that has completed. -/
def Task.finish (outcome : Task → Except Error Schema) (t : Task) : Finished :=
  ⟨t.place, outcome t⟩

/-- Tasks that are running, and those that have completed in the order in which they did. -/
structure Gathering where
  running : List Task
  finished : List Finished

/-- Any task that is running may be the next to complete. -/
inductive Gathering.Completes (outcome : Task → Except Error Schema) : Gathering → Gathering → Prop
  | next {front back : List Task} {t : Task} {finished : List Finished} :
      Completes outcome ⟨front ++ t :: back, finished⟩
        ⟨front ++ back, finished ++ [t.finish outcome]⟩

/-- The tasks of a blueprint have all completed, in some order. -/
def Gathered (b : Blueprint) (outcome : Task → Except Error Schema) (finished : List Finished) :
    Prop :=
  Relation.ReflTransGen (Gathering.Completes outcome) ⟨b.tasks, []⟩ ⟨[], finished⟩

/-! ## The register -/

/-- Outcomes that are filed under places. -/
abbrev Register := Place → Option (Except Error Schema)

/-- Files what came of a task, in place of anything that was filed under the same place. -/
def Register.file (r : Register) (f : Finished) : Register :=
  Function.update r f.place (some f.outcome)

/-- What is filed when tasks have completed. -/
def Register.of (finished : List Finished) : Register := finished.foldl Register.file fun _ => none

/-- What has been filed under a place. -/
def Register.outcome (r : Register) (p : Place) : Except Error Schema :=
  (r p).getD (.error .lookupLost)

/-- What is left when the outcome at a place has been taken out. -/
def Register.remove (r : Register) (p : Place) : Register := Function.update r p none

/-- Going through a blueprint while outcomes are taken out of a register. -/
abbrev Draining (α : Type) : Type := StateT Register (Except Error) α

/-- Takes out what has been filed under a place. -/
def take (p : Place) : Draining Schema := fun r =>
  match r p with
  | none => .error .lookupLost
  | some outcome => outcome.map fun schema => (schema, r.remove p)

/-- Attaches schemas to the modules of a group from number `j` on. -/
def drainModules (i : Nat) : Nat → List Module → Draining (List Module)
  | _, [] => return []
  | j, m :: rest => do
    let schema ← take ⟨i, j⟩
    return { m with schema := some schema } :: (← drainModules i (j + 1) rest)

/-- Attaches schemas to the modules of the groups from number `i` on. -/
def drainGroups : Nat → List Group → Draining (List Group)
  | _, [] => return []
  | i, g :: rest => do
    let modules ← drainModules i 0 g.modules
    return { g with modules } :: (← drainGroups (i + 1) rest)

/-- The blueprint with the schemas that are taken out of a register. -/
def drain (b : Blueprint) (r : Register) : Except Error Blueprint := do
  let (groups, _) ← (drainGroups 0 b.groups).run r
  return { b with groups }

variable {b : Blueprint} {outcome outcome' : Place → Except Error Schema} {r : Register}

/-! ## Places -/

theorem of_mem_placedModules {i j : Nat} {ms : List Module} {p : Place} {m : Module}
    (h : (p, m) ∈ placedModules i j ms) : p.group = i ∧ j ≤ p.module := by
  induction ms generalizing j with
  | nil => exact absurd h List.not_mem_nil
  | cons first rest ih =>
      rcases List.mem_cons.mp h with heq | h
      · obtain ⟨rfl, rfl⟩ := Prod.mk.inj heq
        exact ⟨rfl, Nat.le_refl j⟩
      · exact ⟨(ih h).1, Nat.le_of_succ_le (ih h).2⟩

theorem of_mem_placedGroups {i : Nat} {groups : List Group} {p : Place} {m : Module}
    (h : (p, m) ∈ placedGroups i groups) : i ≤ p.group := by
  induction groups generalizing i with
  | nil => exact absurd h List.not_mem_nil
  | cons g rest ih =>
      rcases List.mem_append.mp h with h | h
      · exact Nat.le_of_eq (of_mem_placedModules h).1.symm
      · exact Nat.le_of_succ_le (ih h)

theorem nodup_placedModules (i j : Nat) (ms : List Module) :
    ((placedModules i j ms).map (·.1)).Nodup := by
  induction ms generalizing j with
  | nil => exact List.nodup_nil
  | cons m rest ih =>
      rw [placedModules, List.map_cons, List.nodup_cons]
      refine ⟨fun h => ?_, ih (j + 1)⟩
      obtain ⟨⟨p, n⟩, hmem, heq⟩ := List.mem_map.mp h
      have hle := (of_mem_placedModules hmem).2
      rw [show p = ⟨i, j⟩ from heq] at hle
      exact Nat.not_succ_le_self j hle

theorem nodup_placedGroups (i : Nat) (groups : List Group) :
    ((placedGroups i groups).map (·.1)).Nodup := by
  induction groups generalizing i with
  | nil => exact List.nodup_nil
  | cons g rest ih =>
      rw [placedGroups, List.map_append, List.nodup_append]
      refine ⟨nodup_placedModules i 0 g.modules, ih (i + 1), ?_⟩
      rintro _ hfirst _ hrest rfl
      obtain ⟨⟨p, m⟩, hp, rfl⟩ := List.mem_map.mp hfirst
      obtain ⟨⟨q, n⟩, hq, heq⟩ := List.mem_map.mp hrest
      have hle := of_mem_placedGroups hq
      rw [show q = p from heq, (of_mem_placedModules hp).1] at hle
      exact Nat.not_succ_le_self i hle

/-- No two tasks are for one place. -/
theorem nodup_tasks (b : Blueprint) : (b.tasks.map (·.place)).Nodup := by
  rw [tasks, List.map_map]
  exact nodup_placedGroups 0 b.groups

/-! ## What is attached depends on outcomes at places -/

theorem attachModules_congr {i j : Nat} {ms : List Module}
    (h : ∀ p m, (p, m) ∈ placedModules i j ms → outcome p = outcome' p) :
    attachModules outcome i j ms = attachModules outcome' i j ms := by
  induction ms generalizing j with
  | nil => rfl
  | cons m rest ih =>
      rw [attachModules, attachModules, h _ _ List.mem_cons_self,
        ih fun p n hn => h p n (List.mem_cons_of_mem _ hn)]

theorem attachGroups_congr {i : Nat} {groups : List Group}
    (h : ∀ p m, (p, m) ∈ placedGroups i groups → outcome p = outcome' p) :
    attachGroups outcome i groups = attachGroups outcome' i groups := by
  induction groups generalizing i with
  | nil => rfl
  | cons g rest ih =>
      rw [attachGroups, attachGroups,
        attachModules_congr fun p m hm => h p m (List.mem_append_left _ hm),
        ih fun p m hm => h p m (List.mem_append_right _ hm)]

/-! ## The first failure -/

/-- The look-up at a place failed, and none at the places before it did. -/
def FirstFailure (outcome : Place → Except Error Schema) (placed : List (Place × Module))
    (e : Error) : Prop :=
  ∃ front p m back, placed = front ++ (p, m) :: back ∧
    (∀ q n, (q, n) ∈ front → ∃ schema, outcome q = .ok schema) ∧ outcome p = .error e

/-- The look-ups at all places succeeded. -/
def AllFound (outcome : Place → Except Error Schema) (placed : List (Place × Module)) : Prop :=
  ∀ p m, (p, m) ∈ placed → ∃ schema, outcome p = .ok schema

theorem firstFailure_nil {e : Error} : ¬ FirstFailure outcome [] e := by
  rintro ⟨front, p, m, back, h, -⟩
  cases front <;> cases h

theorem firstFailure_cons {p : Place} {m : Module} {rest : List (Place × Module)} {e : Error} :
    FirstFailure outcome ((p, m) :: rest) e ↔
      outcome p = .error e ∨ (∃ schema, outcome p = .ok schema) ∧ FirstFailure outcome rest e := by
  constructor
  · rintro ⟨front, q, n, back, hsplit, hfront, hq⟩
    cases front with
    | nil =>
        obtain ⟨heq, -⟩ := List.cons.inj hsplit
        obtain ⟨rfl, rfl⟩ := Prod.mk.inj heq
        exact Or.inl hq
    | cons first front =>
        obtain ⟨rfl, rfl⟩ := List.cons.inj hsplit
        exact Or.inr ⟨hfront p m List.mem_cons_self, front, q, n, back, rfl,
          fun q' n' h => hfront q' n' (List.mem_cons_of_mem _ h), hq⟩
  · rintro (hp | ⟨hp, front, q, n, back, rfl, hfront, hq⟩)
    · exact ⟨[], p, m, rest, rfl, fun _ _ h => absurd h List.not_mem_nil, hp⟩
    · refine ⟨(p, m) :: front, q, n, back, rfl, fun q' n' h => ?_, hq⟩
      rcases List.mem_cons.mp h with heq | h
      · obtain ⟨rfl, rfl⟩ := Prod.mk.inj heq
        exact hp
      · exact hfront q' n' h

theorem allFound_cons {p : Place} {m : Module} {rest : List (Place × Module)} :
    AllFound outcome ((p, m) :: rest) ↔
      (∃ schema, outcome p = .ok schema) ∧ AllFound outcome rest := by
  constructor
  · intro h
    exact ⟨h p m List.mem_cons_self, fun q n hq => h q n (List.mem_cons_of_mem _ hq)⟩
  · rintro ⟨hp, hrest⟩ q n hq
    rcases List.mem_cons.mp hq with heq | hq
    · obtain ⟨rfl, rfl⟩ := Prod.mk.inj heq
      exact hp
    · exact hrest q n hq

theorem firstFailure_append {front back : List (Place × Module)} {e : Error} :
    FirstFailure outcome (front ++ back) e ↔
      FirstFailure outcome front e ∨ AllFound outcome front ∧ FirstFailure outcome back e := by
  induction front with
  | nil => simp [firstFailure_nil, AllFound]
  | cons entry rest ih =>
      obtain ⟨p, m⟩ := entry
      rw [List.cons_append, firstFailure_cons, ih, firstFailure_cons, allFound_cons, and_or_left,
        or_assoc, and_assoc]

/-- A list of look-ups has a first failure, unless all succeed. -/
theorem allFound_or_firstFailure (outcome : Place → Except Error Schema)
    (placed : List (Place × Module)) :
    AllFound outcome placed ∨ ∃ e, FirstFailure outcome placed e := by
  induction placed with
  | nil => exact Or.inl fun _ _ h => absurd h List.not_mem_nil
  | cons entry rest ih =>
      obtain ⟨p, m⟩ := entry
      simp only [allFound_cons, firstFailure_cons]
      cases hp : outcome p with
      | error e => exact Or.inr ⟨e, Or.inl rfl⟩
      | ok schema => exact ih.imp (⟨⟨schema, rfl⟩, ·⟩) fun ⟨e, he⟩ => ⟨e, Or.inr ⟨⟨schema, rfl⟩, he⟩⟩

/-- If all look-ups succeed, none is the first that failed. -/
theorem AllFound.not_firstFailure {placed : List (Place × Module)} (h : AllFound outcome placed)
    (e : Error) : ¬ FirstFailure outcome placed e := by
  rintro ⟨front, p, m, back, rfl, -, hp⟩
  obtain ⟨schema, hok⟩ := h p m (List.mem_append_right _ List.mem_cons_self)
  rw [hp] at hok
  cases hok

theorem attachModules_eq_error_iff {i j : Nat} {ms : List Module} {e : Error} :
    attachModules outcome i j ms = .error e ↔ FirstFailure outcome (placedModules i j ms) e := by
  induction ms generalizing j with
  | nil => simp [attachModules, placedModules, firstFailure_nil]
  | cons m rest ih =>
      simp only [attachModules, placedModules, firstFailure_cons, ← ih, Bind.bind, Pure.pure,
        Except.pure, exceptBind_eq_error, reduceCtorEq, and_false, exists_false, or_false,
        exists_and_right]

theorem exists_attachModules_eq_ok_iff {i j : Nat} {ms : List Module} :
    (∃ ns, attachModules outcome i j ms = .ok ns) ↔ AllFound outcome (placedModules i j ms) := by
  constructor
  · rintro ⟨ns, hns⟩
    refine (allFound_or_firstFailure outcome _).resolve_right fun ⟨e, he⟩ => ?_
    rw [attachModules_eq_error_iff.mpr he] at hns
    cases hns
  · intro h
    cases hms : attachModules outcome i j ms with
    | error e => exact absurd (attachModules_eq_error_iff.mp hms) (h.not_firstFailure e)
    | ok ns => exact ⟨ns, rfl⟩

theorem attachGroups_eq_error_iff {i : Nat} {groups : List Group} {e : Error} :
    attachGroups outcome i groups = .error e ↔ FirstFailure outcome (placedGroups i groups) e := by
  induction groups generalizing i with
  | nil => simp [attachGroups, placedGroups, firstFailure_nil]
  | cons g rest ih =>
      simp only [attachGroups, placedGroups, firstFailure_append, ← ih, Bind.bind, Pure.pure,
        Except.pure, exceptBind_eq_error, reduceCtorEq, and_false, exists_false, or_false,
        exists_and_right, attachModules_eq_error_iff, exists_attachModules_eq_ok_iff]

/-- Attaching fails with the first failure, and with nothing else. -/
theorem attach_eq_error_iff {finished : List Finished} {e : Error} :
    b.attach finished = .error e ↔ FirstFailure (outcomeAt finished) b.placed e := by
  rw [placed, ← attachGroups_eq_error_iff]
  simp only [attach, Bind.bind, Pure.pure, Except.pure, exceptBind_eq_error, reduceCtorEq,
    and_false, exists_false, or_false]

/-! ## Draining the register -/

/-- What is left in a register when the outcomes at places have been taken out. -/
def Register.clear (r : Register) (placed : List (Place × Module)) : Register :=
  placed.foldl (fun r (p, _) => r.remove p) r

/-- Nothing else is taken out. -/
theorem Register.outcome_remove_of_ne {p q : Place} (h : p ≠ q) :
    (r.remove q).outcome p = r.outcome p := by
  rw [Register.outcome, Register.remove, Function.update_of_ne h, Register.outcome]

theorem Register.outcome_clear_of_forall_ne {placed : List (Place × Module)} {p : Place}
    (h : ∀ q m, (q, m) ∈ placed → p ≠ q) : (r.clear placed).outcome p = r.outcome p := by
  induction placed generalizing r with
  | nil => rfl
  | cons entry rest ih =>
      rw [Register.clear, List.foldl_cons, ← Register.clear,
        ih fun q m hq => h q m (List.mem_cons_of_mem _ hq),
        Register.outcome_remove_of_ne (h entry.1 entry.2 List.mem_cons_self)]

/-- Taking out an outcome yields it, as long as it has not been taken out before. -/
theorem take_eq (p : Place) (r : Register) :
    take p r = (r.outcome p).map fun schema => (schema, r.remove p) := by
  rw [take, Register.outcome]
  cases r p <;> rfl

/-- The outcome of a later module is still in the register when its turn comes. -/
theorem drainModules_eq (i j : Nat) (ms : List Module) (r : Register) :
    drainModules i j ms r =
      (attachModules r.outcome i j ms).map fun ns => (ns, r.clear (placedModules i j ms)) := by
  induction ms generalizing j r with
  | nil => rfl
  | cons m rest ih =>
      -- only the outcome at this place is gone, and the modules behind it stand at other places
      have hlater : attachModules (r.remove ⟨i, j⟩).outcome i (j + 1) rest =
          attachModules r.outcome i (j + 1) rest := by
        refine attachModules_congr fun p n hp => Register.outcome_remove_of_ne ?_
        rintro rfl
        exact Nat.not_succ_le_self j (of_mem_placedModules hp).2
      have hstep : drainModules i j (m :: rest) r =
          (take ⟨i, j⟩ r).bind fun (schema, r') => (drainModules i (j + 1) rest r').bind
            fun (ns, r'') => .ok ({ m with schema := some schema } :: ns, r'') := rfl
      rw [hstep, take_eq, attachModules]
      cases r.outcome ⟨i, j⟩ with
      | error e => rfl
      | ok schema =>
          simp only [Except.map, Except.bind, Bind.bind, ih, hlater]
          cases attachModules r.outcome i (j + 1) rest <;> rfl

theorem drainGroups_eq (i : Nat) (groups : List Group) (r : Register) :
    drainGroups i groups r =
      (attachGroups r.outcome i groups).map fun done => (done, r.clear (placedGroups i groups)) := by
  induction groups generalizing i r with
  | nil => rfl
  | cons g rest ih =>
      -- what is taken out for a group is at none of the places of later groups
      have hlater : attachGroups (r.clear (placedModules i 0 g.modules)).outcome (i + 1) rest =
          attachGroups r.outcome (i + 1) rest := by
        refine attachGroups_congr fun p m hp => Register.outcome_clear_of_forall_ne ?_
        rintro q n hq rfl
        have hle := of_mem_placedGroups hp
        rw [(of_mem_placedModules hq).1] at hle
        exact Nat.not_succ_le_self i hle
      have hstep : drainGroups i (g :: rest) r =
          (drainModules i 0 g.modules r).bind fun (ms, r') => (drainGroups (i + 1) rest r').bind
            fun (done, r'') => .ok ({ g with modules := ms } :: done, r'') := rfl
      have hclear : r.clear (placedGroups i (g :: rest)) =
          (r.clear (placedModules i 0 g.modules)).clear (placedGroups (i + 1) rest) :=
        List.foldl_append
      rw [hstep, drainModules_eq, attachGroups, hclear]
      cases attachModules r.outcome i 0 g.modules with
      | error e => rfl
      | ok ms =>
          simp only [Except.map, Except.bind, Bind.bind, ih, hlater]
          cases attachGroups r.outcome (i + 1) rest <;> rfl

/-- Taking each outcome out when it is needed is the same as looking it up. -/
theorem drain_eq (b : Blueprint) (r : Register) :
    b.drain r = (attachGroups r.outcome 0 b.groups).map fun groups => { b with groups } := by
  have hstep : b.drain r =
      (drainGroups 0 b.groups r).bind fun (groups, _) => .ok { b with groups } := rfl
  rw [hstep, drainGroups_eq]
  cases attachGroups r.outcome 0 b.groups <;> rfl

theorem attach_eq (b : Blueprint) (finished : List Finished) :
    b.attach finished =
      (attachGroups (outcomeAt finished) 0 b.groups).map fun groups => { b with groups } := by
  rw [attach]
  cases attachGroups (outcomeAt finished) 0 b.groups <;> rfl

/-! ## Outcomes that have been filed -/

/-- What completed for a place is found there, if no place is used twice. -/
theorem outcomeAt_of_mem {finished : List Finished} {f : Finished}
    (hnodup : (finished.map (·.place)).Nodup) (hf : f ∈ finished) :
    outcomeAt finished f.place = f.outcome := by
  induction finished with
  | nil => exact absurd hf List.not_mem_nil
  | cons first rest ih =>
      obtain ⟨hfirst, hrest⟩ := List.nodup_cons.mp hnodup
      rcases List.mem_cons.mp hf with rfl | hf
      · simp only [outcomeAt, List.find?_cons, beq_self_eq_true]
      · have hne : first.place ≠ f.place := fun heq =>
          hfirst (List.mem_map.mpr ⟨f, hf, heq.symm⟩)
        rw [outcomeAt, List.find?_cons_of_neg (by simpa using hne), ← outcomeAt, ih hrest hf]

theorem Register.of_append (finished : List Finished) (f : Finished) :
    Register.of (finished ++ [f]) = (Register.of finished).file f :=
  List.foldl_concat ..

/-- What completed for a place is filed under it, if no place is used twice. -/
theorem Register.outcome_of_mem {finished : List Finished} {f : Finished}
    (hnodup : (finished.map (·.place)).Nodup) (hf : f ∈ finished) :
    (Register.of finished).outcome f.place = f.outcome := by
  induction finished using List.reverseRecOn with
  | nil => exact absurd hf List.not_mem_nil
  | append_singleton front last ih =>
      rw [List.map_append, List.nodup_append] at hnodup
      obtain ⟨hfront, -, hlast⟩ := hnodup
      rw [Register.of_append, Register.outcome, Register.file]
      rcases List.mem_append.mp hf with hf | hf
      · have hne : f.place ≠ last.place :=
          hlast f.place (List.mem_map_of_mem hf) last.place (List.mem_singleton_self _)
        rw [Function.update_of_ne hne, ← Register.outcome, ih hfront hf]
      · rw [List.mem_singleton.mp hf, Function.update_self]
        rfl

/-! ## Runs of tasks -/

/-- What has come in and what is still to come are together always the same. -/
theorem Gathering.Completes.perm {outcome : Task → Except Error Schema} {g g' : Gathering}
    (h : g.Completes outcome g') :
    (g'.finished ++ g'.running.map (·.finish outcome)).Perm
      (g.finished ++ g.running.map (·.finish outcome)) := by
  obtain @⟨front, back, t, done⟩ := h
  simp only [List.map_append, List.map_cons, List.append_assoc, List.singleton_append]
  exact List.Perm.append_left done List.perm_middle.symm

/-- When all tasks have completed, each has once. -/
theorem Gathered.perm {outcome : Task → Except Error Schema} {finished : List Finished}
    (h : b.Gathered outcome finished) : finished.Perm (b.tasks.map (·.finish outcome)) := by
  have hrun : ∀ g, Relation.ReflTransGen (Gathering.Completes outcome) ⟨b.tasks, []⟩ g →
      (g.finished ++ g.running.map (·.finish outcome)).Perm (b.tasks.map (·.finish outcome)) := by
    intro g hg
    induction hg with
    | refl => rfl
    | tail _ hstep ih => exact hstep.perm.trans ih
  simpa using hrun _ h

/-- Tasks may complete in any order. -/
theorem gathered_of_perm (outcome : Task → Except Error Schema) {order : List Task}
    (h : order.Perm b.tasks) : b.Gathered outcome (order.map (·.finish outcome)) := by
  -- by induction on the order: its first task is somewhere among those that are running, and
  -- when it has completed the rest of the order is one of the tasks that are left
  have hrun : ∀ (order running : List Task) (finished : List Finished), order.Perm running →
      Relation.ReflTransGen (Gathering.Completes outcome) ⟨running, finished⟩
        ⟨[], finished ++ order.map (·.finish outcome)⟩ := by
    intro order
    induction order with
    | nil =>
        intro running finished hperm
        rw [← hperm.nil_eq, List.map_nil, List.append_nil]
    | cons t order ih =>
        intro running finished hperm
        obtain ⟨front, back, rfl⟩ := List.append_of_mem (hperm.subset List.mem_cons_self)
        have hrest : order.Perm (front ++ back) := (hperm.trans List.perm_middle).cons_inv
        have hdone := ih (front ++ back) (finished ++ [t.finish outcome]) hrest
        rw [List.append_assoc, List.singleton_append] at hdone
        exact Relation.ReflTransGen.head .next hdone
  exact hrun order b.tasks [] h

/-! ## Attaching what has been gathered -/

section Gathered

variable {outcome : Task → Except Error Schema} {finished : List Finished}

theorem mem_tasks_of_placed {p : Place} {m : Module} (h : (p, m) ∈ b.placed) :
    ⟨p, m.source, m.kind⟩ ∈ b.tasks :=
  List.mem_map.mpr ⟨(p, m), h, rfl⟩

theorem Gathered.nodup (h : b.Gathered outcome finished) : (finished.map (·.place)).Nodup := by
  rw [(h.perm.map (·.place)).nodup_iff, List.map_map]
  exact nodup_tasks b

theorem Gathered.mem (h : b.Gathered outcome finished) {t : Task} (ht : t ∈ b.tasks) :
    t.finish outcome ∈ finished :=
  h.perm.mem_iff.mpr (List.mem_map_of_mem ht)

/-- The look-up at the place of a task has the outcome of this task. -/
theorem Gathered.outcomeAt_place (h : b.Gathered outcome finished) {t : Task}
    (ht : t ∈ b.tasks) : outcomeAt finished t.place = outcome t :=
  outcomeAt_of_mem h.nodup (h.mem ht)

theorem Gathered.outcome_register (h : b.Gathered outcome finished) {t : Task}
    (ht : t ∈ b.tasks) : (Register.of finished).outcome t.place = outcome t :=
  Register.outcome_of_mem h.nodup (h.mem ht)

/-- The register that is drained says the same of each module as the completed tasks. -/
theorem Gathered.drain_eq_attach (h : b.Gathered outcome finished) :
    b.drain (.of finished) = b.attach finished := by
  rw [drain_eq, attach_eq, attachGroups_congr]
  intro p m hm
  have ht := mem_tasks_of_placed hm
  exact (h.outcome_register ht).trans (h.outcomeAt_place ht).symm

/-- The order of completion does not matter. -/
theorem Gathered.attach_eq_attach (h : b.Gathered outcome finished) {finished' : List Finished}
    (h' : b.Gathered outcome finished') : b.attach finished = b.attach finished' := by
  rw [attach_eq, attach_eq, attachGroups_congr]
  intro p m hm
  have ht := mem_tasks_of_placed hm
  exact (h.outcomeAt_place ht).trans (h'.outcomeAt_place ht).symm

/-- Tasks do not depend on schemas that are there already. -/
theorem tasks_withoutSchemas (b : Blueprint) : b.withoutSchemas.tasks = b.tasks := by
  rw [tasks, tasks, placed, withoutSchemas, placedGroups_map fun _ => rfl, List.map_map]
  rfl

/-- If all tasks succeed, each module has the schema that its own task found. -/
theorem Gathered.exists_attach_eq_ok (h : b.Gathered outcome finished)
    (hok : ∀ t ∈ b.tasks, ∃ schema, outcome t = .ok schema) :
    ∃ b', b.attach finished = .ok b' ∧ b'.withoutSchemas = b.withoutSchemas ∧
      ∀ p m, (p, m) ∈ b'.placed →
        ∃ schema, outcome ⟨p, m.source, m.kind⟩ = .ok schema ∧ m.schema = some schema := by
  have hall : AllFound (outcomeAt finished) b.placed := by
    intro p m hm
    have ht := mem_tasks_of_placed hm
    rw [h.outcomeAt_place ht]
    exact hok _ ht
  cases hattach : b.attach finished with
  | error e => exact absurd (attach_eq_error_iff.mp hattach) (hall.not_firstFailure e)
  | ok b' =>
      obtain ⟨hsame, hattached⟩ := attach_eq_ok_iff.mp hattach
      refine ⟨b', rfl, hsame, fun p m hm => ?_⟩
      -- the module has a schema now, but its source and kind, and so its task, are the same
      have ht : ⟨p, m.source, m.kind⟩ ∈ b.tasks := by
        rw [← tasks_withoutSchemas, ← hsame, tasks_withoutSchemas]
        exact mem_tasks_of_placed hm
      rw [← h.outcomeAt_place ht]
      exact hattached p m hm

/-- The first task that fails is reported. -/
theorem Gathered.attach_eq_error (h : b.Gathered outcome finished) {front back : List Task}
    {t : Task} {e : Error} (hsplit : b.tasks = front ++ t :: back)
    (hfront : ∀ u ∈ front, ∃ schema, outcome u = .ok schema) (ht : outcome t = .error e) :
    b.attach finished = .error e := by
  have hmem : ∀ u ∈ front ++ t :: back, outcomeAt finished u.place = outcome u := fun u hu =>
    h.outcomeAt_place (hsplit ▸ hu)
  -- the split of the tasks is one of the modules at their places
  obtain ⟨before, others, hplaced, rfl, hothers⟩ := List.map_eq_append_iff.mp hsplit
  obtain ⟨⟨p, m⟩, after, rfl, rfl, -⟩ := List.map_eq_cons_iff.mp hothers
  refine attach_eq_error_iff.mpr ⟨before, p, m, after, hplaced, fun q n hq => ?_, ?_⟩
  · have hu := List.mem_map_of_mem (f := fun (p, m) => (⟨p, m.source, m.kind⟩ : Task)) hq
    rw [hmem _ (List.mem_append_left _ hu)]
    exact hfront _ hu
  · rw [hmem _ (List.mem_append_right _ List.mem_cons_self), ht]

end Gathered

/-- The tasks may complete in any order, and it makes no difference in which: if all succeed,
    each module has the schema that was found for its source and kind and nothing else has
    changed, and otherwise the first that fails in the order of the modules is reported. -/
theorem attach_whatever_order (b : Blueprint) (outcome : Task → Except Error Schema) :
    (∀ order : List Task, order.Perm b.tasks →
      b.Gathered outcome (order.map (·.finish outcome))) ∧
    ∃ result : Except Error Blueprint,
      (∀ finished, b.Gathered outcome finished →
        b.drain (.of finished) = result ∧ b.attach finished = result) ∧
      ((∀ t ∈ b.tasks, ∃ schema, outcome t = .ok schema) →
        ∃ b', result = .ok b' ∧ b'.withoutSchemas = b.withoutSchemas ∧
          ∀ p m, (p, m) ∈ b'.placed →
            ∃ schema, outcome ⟨p, m.source, m.kind⟩ = .ok schema ∧ m.schema = some schema) ∧
      ∀ front t back e, b.tasks = front ++ t :: back →
        (∀ u ∈ front, ∃ schema, outcome u = .ok schema) → outcome t = .error e →
        result = .error e := by
  have hinorder := gathered_of_perm outcome (List.Perm.refl b.tasks)
  refine ⟨fun order h => gathered_of_perm outcome h,
    b.attach (b.tasks.map (·.finish outcome)), fun finished h => ?_,
    hinorder.exists_attach_eq_ok, fun front t back e => hinorder.attach_eq_error⟩
  exact ⟨h.drain_eq_attach.trans (h.attach_eq_attach hinorder), h.attach_eq_attach hinorder⟩

/-- Two groups, of two modules and of one. -/
def paired : Blueprint :=
  let unit (source : String) : Module := ⟨source, source, .terraform, [], [], [], none⟩
  ⟨"paired", "", [], .warning, [], [], Backend.empty,
    [⟨"network", none, [unit "vpc", unit "dns"]⟩, ⟨"cluster", none, [unit "login"]⟩]⟩

/-- Look-ups that find an empty schema, but for some sources. -/
def lacking (sources : List String) (t : Task) : Except Error Schema :=
  if t.source ∈ sources then .error (.fetch (.unsupported t.source)) else .ok ⟨[], [], []⟩

/-- The last module is the first whose failure comes in, but the failure of the module in front
    of it is reported; where nothing fails the modules get their schemas. -/
theorem attach_whatever_order_paired :
    paired.drain (.of (paired.tasks.reverse.map (·.finish (lacking ["dns", "login"])))) =
        .error (.fetch (.unsupported "dns")) ∧
      ∃ b', paired.drain (.of (paired.tasks.reverse.map (·.finish (lacking [])))) = .ok b' ∧
        b'.withoutSchemas = paired.withoutSchemas := by
  constructor
  · obtain ⟨horders, result, hresult, -, hfirst⟩ :=
      attach_whatever_order paired (lacking ["dns", "login"])
    have hreversed := horders paired.tasks.reverse (List.reverse_perm _)
    rw [(hresult _ hreversed).1]
    refine hfirst [⟨⟨0, 0⟩, "vpc", .terraform⟩] ⟨⟨0, 1⟩, "dns", .terraform⟩
      [⟨⟨1, 0⟩, "login", .terraform⟩] _ rfl (fun u hu => ?_) rfl
    rw [List.mem_singleton.mp hu]
    exact ⟨_, rfl⟩
  · obtain ⟨horders, result, hresult, hok, -⟩ := attach_whatever_order paired (lacking [])
    have hreversed := horders paired.tasks.reverse (List.reverse_perm _)
    obtain ⟨b', hb', hsame, -⟩ := hok fun t _ => ⟨_, if_neg List.not_mem_nil⟩
    exact ⟨b', (hresult _ hreversed).1.trans hb', hsame⟩

end Blueprint
end HpcBlueprint
