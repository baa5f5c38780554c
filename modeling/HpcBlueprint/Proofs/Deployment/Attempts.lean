/-
  What a sequence of attempts leaves in a deployment directory.

  An attempt asks the gate and writes only if it is let through; the write may end early.
  Each file of the deployment then holds what the last attempt that replaced it wrote there,
  whatever the other attempts did and wherever they stopped.
-/
import HpcBlueprint.Deployment.Gate
import HpcBlueprint.Proofs.Deployment.Writing
import Mathlib.Data.List.Induction

namespace HpcBlueprint

/-- Nothing stands where a path leads, nor below. -/
def FileSystem.Absent (fs : FileSystem) (path : String) : Prop :=
  ∀ loc, fs.lexical path <+: loc → fs.node? loc = none

namespace Deployment

open FileSystem

variable {dir : String} {start fs fs' : FileSystem}

/-- No file and no directory but the root. -/
def bare : FileSystem := ⟨[], []⟩

theorem absent_bare : bare.Absent "d" := by
  intro loc hloc
  cases loc with
  | nil => exact absurd (List.prefix_nil.mp hloc) (by decide)
  | cons name rest => rfl

/-! ## One attempt -/

/-- What comes of an attempt to write a deployment. -/
inductive Outcome
  /-- The gate refuses it. -/
  | refused
  /-- A failure ends the write after some files have been replaced. -/
  | stopped (replaced : Nat)
  | written
deriving DecidableEq

/-- An attempt to write a deployment. -/
structure Attempt where
  blueprint : Blueprint
  now : Instant
  permission : Permission
  outcome : Outcome

/-- The number of files that an attempt replaces; the files come in a fixed order. -/
def Attempt.replaced (a : Attempt) : Nat :=
  match a.outcome with
  | .refused => 0
  | .stopped replaced => replaced
  | .written => 3

/-- What is done to a tree by attempts on a deployment directory. -/
inductive Takes (dir : String) : Attempt → FileSystem → FileSystem → Prop
  | refused {b : Blueprint} {now : Instant} {p : Permission} {fs : FileSystem} {reason : Refusal}
      (gate : checkOverwrite fs dir b p = .error reason) : Takes dir ⟨b, now, p, .refused⟩ fs fs
  | stopped {b : Blueprint} {now : Instant} {p : Permission} {fs fs' : FileSystem} {k : Nat}
      (gate : checkOverwrite fs dir b p = .ok ()) (stops : Stops fs b dir now k fs') :
      Takes dir ⟨b, now, p, .stopped k⟩ fs fs'
  | written {b : Blueprint} {now : Instant} {p : Permission} {fs fs' : FileSystem}
      (gate : checkOverwrite fs dir b p = .ok ()) (writes : write fs b dir now = (.ok (), fs')) :
      Takes dir ⟨b, now, p, .written⟩ fs fs'

theorem Takes.keeps {a : Attempt} (h : Takes dir a fs fs') : Keeps fs fs' := by
  cases h with
  | refused gate => exact .refl fs
  | stopped gate stops => exact stops.keeps
  | written gate writes => exact keeps_of_write writes

/-- An attempt replaces the first files and leaves the others as they were. -/
theorem Takes.file? {a : Attempt} (h : Takes dir a fs fs') {i : Nat} {r : Replacement}
    (hr : (replacements a.blueprint dir a.now)[i]? = some r) :
    fs'.file? (fs.lexical r.path) =
      if i < a.replaced then some (.text r.text) else fs.file? (fs.lexical r.path) := by
  cases h with
  | refused gate => rfl
  | stopped gate stops => exact stops.file? hr
  | written gate writes =>
      have hi : i < 3 := (List.getElem?_eq_some_iff.mp hr).1
      rw [Attempt.replaced, if_pos hi]
      exact file?_of_write writes (List.mem_of_getElem? hr)

/-! ## Sequences of attempts -/

/-- A change that others make: nothing in the deployment directory, and no directory is taken
    away. -/
structure Elsewhere (dir : String) (earlier later : FileSystem) : Prop
    extends Keeps earlier later where
  same : ∀ loc, earlier.lexical dir <+: loc → later.node? loc = earlier.node? loc

/-- The trees that attempts on a deployment directory lead to, one after the other. -/
inductive Runs (dir : String) (start : FileSystem) : List Attempt → FileSystem → Prop
  | start : Runs dir start [] start
  | attempt {attempts : List Attempt} {a : Attempt} {fs fs' : FileSystem}
      (before : Runs dir start attempts fs) (takes : Takes dir a fs fs') :
      Runs dir start (attempts ++ [a]) fs'
  | elsewhere {attempts : List Attempt} {fs fs' : FileSystem}
      (before : Runs dir start attempts fs) (change : Elsewhere dir fs fs') :
      Runs dir start attempts fs'

theorem Runs.keeps {attempts : List Attempt} (h : Runs dir start attempts fs) :
    Keeps start fs := by
  induction h with
  | start => exact .refl start
  | attempt _ takes ih => exact ih.trans takes.keeps
  | elsewhere _ change ih => exact ih.trans change.toKeeps

/-- The last attempt that replaced the file of a number. -/
def lastReplacing (i : Nat) (attempts : List Attempt) : Option Attempt :=
  (attempts.filter (i < ·.replaced)).getLast?

theorem lastReplacing_append (i : Nat) (attempts : List Attempt) (a : Attempt) :
    lastReplacing i (attempts ++ [a]) =
      if i < a.replaced then some a else lastReplacing i attempts := by
  by_cases h : i < a.replaced <;> simp [lastReplacing, h]

theorem mem_of_lastReplacing {i : Nat} {attempts : List Attempt} {a : Attempt}
    (h : lastReplacing i attempts = some a) : a ∈ attempts ∧ i < a.replaced := by
  obtain ⟨hmem, hreplaced⟩ := List.mem_filter.mp (List.mem_of_getLast? h)
  exact ⟨hmem, of_decide_eq_true hreplaced⟩

/-- The last attempt that replaced a file is also the last one that replaced a later file, if
    it went so far. -/
theorem lastReplacing_of_le {i j : Nat} (hij : i ≤ j) {attempts : List Attempt} {a : Attempt}
    (h : lastReplacing i attempts = some a) (hj : j < a.replaced) :
    lastReplacing j attempts = some a := by
  induction attempts using List.reverseRecOn with
  | nil => cases h
  | append_singleton earlier last ih =>
      rw [lastReplacing_append] at h ⊢
      split at h
      · cases h
        rw [if_pos hj]
      · -- what did not come to the earlier file did not come to the later one
        rename_i hnot
        rw [if_neg (by omega)]
        exact ih h

/-- A file of the deployment holds what the last attempt that replaced it wrote. -/
theorem Runs.file? {attempts : List Attempt} (absent : start.Absent dir)
    (h : Runs dir start attempts fs) {i : Nat} {path : String} {text : Attempt → String}
    (hpath : start.lexical dir <+: start.lexical path)
    (hfile : ∀ a : Attempt, ∃ r, (replacements a.blueprint dir a.now)[i]? = some r ∧
      r.path = path ∧ r.text = text a) :
    fs.file? (start.lexical path) = (lastReplacing i attempts).map fun a => .text (text a) := by
  induction h with
  | start => simp [FileSystem.file?, absent _ hpath, lastReplacing]
  | @attempt attempts a fs fs' before takes ih =>
      obtain ⟨r, hr, rfl, hr_text⟩ := hfile a
      rw [← before.keeps.lexical, takes.file? hr, before.keeps.lexical, lastReplacing_append]
      split
      · rw [hr_text]
        rfl
      · exact ih
  | elsewhere before change ih =>
      rw [← ih]
      refine file?_congr (change.same _ ?_)
      rw [before.keeps.lexical]
      exact hpath

/-- The expanded blueprint in the directory is that of the last attempt that replaced it. -/
theorem Runs.artifact {attempts : List Attempt} (absent : start.Absent dir)
    (h : Runs dir start attempts fs) :
    fs.file? (fs.lexical (artifactPath dir)) =
      (lastReplacing 0 attempts).map fun a => .text a.blueprint.render := by
  rw [h.keeps.lexical]
  refine h.file? absent ?_ fun a =>
    ⟨replacementIn (artifactsDir dir) artifactName a.blueprint.render, rfl, rfl,
      replacementIn_text _ _ _⟩
  rw [lexical_artifactPath]
  exact List.prefix_append _ _

/-- The record in the directory is that of the last attempt that replaced it. -/
theorem Runs.record {attempts : List Attempt} (absent : start.Absent dir)
    (h : Runs dir start attempts fs) :
    fs.file? (fs.lexical (recordPath dir)) =
      (lastReplacing 1 attempts).map fun a => .text (recordOf a.blueprint a.now).render := by
  rw [h.keeps.lexical]
  refine h.file? absent ?_ fun a =>
    ⟨replacementIn (artifactsDir dir) recordName (recordOf a.blueprint a.now).render, rfl, rfl,
      replacementIn_text _ _ _⟩
  rw [lexical_recordPath]
  exact List.prefix_append _ _

end Deployment
end HpcBlueprint
