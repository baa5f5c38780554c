/-
  Cycles among the modules of a group.

  `findCycle` takes the modules in order, each with the set of modules it depends on. A
  countdown takes away a module that waits for nothing, counts down where it was waited for,
  and goes on with whatever comes to wait for nothing. Of what it leaves, modules on which
  nothing that is left depends are dropped again and again. What then remains lies on a cycle
  or between two.
-/
import HpcBlueprint.OrderedMap

namespace HpcBlueprint.Expand

/-- Modules in order, each with the modules it depends on. -/
abbrev Dependencies := List (String × NameSet)

/-! ## Counting down -/

/-- The state of a countdown. -/
structure Countdown where
  /-- How many modules each module still waits for. The counts are integers, so that one that
      is lowered too often would go below zero and not stay there. -/
  counts : OrderedMap Int
  /-- The modules that have come to wait for nothing and are still to be taken away. -/
  queue : List String

namespace Countdown

/-- Every module waits for all that it depends on. -/
def start (d : Dependencies) : Countdown where
  counts := OrderedMap.ofList (d.map fun (id, needs) => (id, (needs.length : Int)))
  queue := (d.filter (·.2.isEmpty)).map (·.1)

/-- Lets a module wait for one module fewer. It is queued when it waits for none. -/
def lower (c : Countdown) (id : String) : Countdown :=
  match c.counts.get? id with
  | none => c
  | some n =>
    { counts := c.counts.insert id (n - 1)
      queue := if n - 1 = 0 then c.queue ++ [id] else c.queue }

/-- Lowers the counts of those of some modules that depend on the one that is taken away. -/
def release (gone : String) : Dependencies → Countdown → Countdown
  | [], c => c
  | (id, needs) :: rest, c =>
    release gone rest (if needs.contains gone then c.lower id else c)

/-- Takes the first module of the queue away. -/
def next? (d : Dependencies) (c : Countdown) : Option Countdown :=
  match c.queue with
  | [] => none
  | gone :: rest => some (release gone d { c with queue := rest })

/-! Every step takes one module from the queue, and one comes to the queue only when a positive
    count is lowered. -/

/-- The counts that are positive, added up. -/
def waiting : OrderedMap Int → Nat
  | [] => 0
  | (_, n) :: rest => n.toNat + waiting rest

/-- What is still to be counted down or taken away. -/
def pending (c : Countdown) : Nat := c.queue.length + waiting c.counts

theorem waiting_insert {counts : OrderedMap Int} {id : String} {n : Int}
    (h : counts.get? id = some n) (k : Int) :
    waiting (counts.insert id k) + n.toNat = waiting counts + k.toNat := by
  induction counts with
  | nil => simp [OrderedMap.get?] at h
  | cons entry rest ih =>
      obtain ⟨other, m⟩ := entry
      by_cases heq : other = id
      · have hm : m = n := by simpa [OrderedMap.get?, heq] using h
        simp only [OrderedMap.insert, heq, beq_self_eq_true, if_true, waiting, hm]
        omega
      · have hne : (other == id) = false := beq_eq_false_iff_ne.mpr heq
        have hne' : (id == other) = false := beq_eq_false_iff_ne.mpr (Ne.symm heq)
        have hrest : OrderedMap.get? rest id = some n := by
          simpa [OrderedMap.get?, List.lookup_cons, hne'] using h
        have := ih hrest
        simp only [OrderedMap.insert, hne, Bool.false_eq_true, if_false, waiting]
        omega

theorem pending_lower_le (c : Countdown) (id : String) : (c.lower id).pending ≤ c.pending := by
  unfold lower
  split
  · exact Nat.le_refl _
  · rename_i n hn
    have hwaiting := waiting_insert hn (n - 1)
    by_cases hzero : n - 1 = 0
    · simp only [pending, hzero, if_true, List.length_append, List.length_singleton]
      rw [hzero] at hwaiting
      omega
    · simp only [pending, hzero, if_false]
      omega

theorem pending_release_le (gone : String) (d : Dependencies) (c : Countdown) :
    (release gone d c).pending ≤ c.pending := by
  induction d generalizing c with
  | nil => exact Nat.le_refl _
  | cons entry rest ih =>
      refine Nat.le_trans (ih _) ?_
      split
      · exact pending_lower_le c entry.1
      · exact Nat.le_refl _

theorem pending_next?_lt {d : Dependencies} {c c' : Countdown} (h : c.next? d = some c') :
    c'.pending < c.pending := by
  unfold next? at h
  split at h
  · cases h
  · rename_i gone rest hqueue
    have hle := pending_release_le gone d { c with queue := rest }
    rw [← Option.some.inj h]
    simp only [pending, hqueue, List.length_cons] at hle ⊢
    omega

/-- Takes modules away until the queue is empty. -/
def run (d : Dependencies) (c : Countdown) : Countdown :=
  match _h : c.next? d with
  | some c' => run d c'
  | none => c
termination_by c.pending
decreasing_by exact pending_next?_lt _h

end Countdown

/-! ## Modules on cycles and between cycles -/

namespace Dependencies

/-- The modules that wait for something when the countdown has ended. -/
def blocked (d : Dependencies) : List String :=
  let counts := ((Countdown.start d).run d).counts
  (d.map (·.1)).filter fun id => (counts.get? id).any (0 < ·)

/-- Keeps the modules that one that is left depends on. -/
def dropUnneeded (d : Dependencies) (left : List String) : List String :=
  left.filter fun id => d.any fun (m, needs) => left.contains m && needs.contains id

/-- Drops modules on which nothing that is left depends, until there are none. -/
def trim (d : Dependencies) (left : List String) : List String :=
  if (d.dropUnneeded left).length < left.length then trim d (d.dropUnneeded left) else left
termination_by left.length

/-- The modules on cycles and between cycles, in order; none if there is no cycle. -/
def findCycle (d : Dependencies) : Option (List String) :=
  if d.blocked.isEmpty then none else some (d.trim d.blocked)

end Dependencies

end HpcBlueprint.Expand
