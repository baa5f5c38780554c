/-
  What a deployment keeps from one attempt to the next.

  Without force an attempt is let through only if nothing stands at the deployment directory,
  or if the expanded blueprint in it can be read and its successor keeps the version and all
  groups.  Once an expanded blueprint has been put in place the directory is there for good,
  so each attempt that replaces it succeeds the last one that did, and by transitivity all of
  them.
-/
import HpcBlueprint.Proofs.Blueprint.Document
import HpcBlueprint.Proofs.Deployment.Attempts
import HpcBlueprint.Proofs.Files.Passage

namespace HpcBlueprint

open FileSystem

/-! ## Successors -/

namespace Blueprint

/-- A blueprint keeps the toolkit version and all groups of another one. -/
structure Succeeds (new old : Blueprint) : Prop where
  version : new.toolkitVersion = old.toolkitVersion
  groups : ∀ g ∈ old.groupNames, g ∈ new.groupNames

theorem Succeeds.trans {b₁ b₂ b₃ : Blueprint} (h₁ : b₂.Succeeds b₁) (h₂ : b₃.Succeeds b₂) :
    b₃.Succeeds b₁ :=
  ⟨h₂.version.trans h₁.version, fun g hg => h₂.groups g (h₁.groups g hg)⟩

/-- The text of a blueprint either cannot be loaded from a file or loads as the same document. -/
def ReadsBack (b : Blueprint) (file : String) : Prop :=
  ∀ old, ofArtifact (some file) b.render = .ok old → old.toTree = b.toTree

end Blueprint

namespace Deployment

variable {dir : String} {start fs fs' : FileSystem}

/-! ## The gate -/

theorem succeeds_of_checkSuccessor {old new : Blueprint} {p : Permission}
    (h : checkSuccessor dir old new p = .ok ()) : new.Succeeds old := by
  unfold checkSuccessor at h
  split at h
  · cases h
  · rename_i hversion
    split at h
    · cases h
    · split at h
      · cases h
      · rename_i hremoved
        refine ⟨(not_not.mp hversion).symm, fun g hg => ?_⟩
        have hkept := List.find?_eq_none.mp hremoved g hg
        simpa using hkept

/-- Where something stands, a blueprint is let through without force only as the successor of
    the one that can be read there. -/
theorem exists_previous_of_checkOverwrite {new : Blueprint} {p : Permission}
    (contains : fs.contains dir = true) (unforced : p.force = false)
    (h : checkOverwrite fs dir new p = .ok ()) :
    ∃ old, previous fs dir = .ok old ∧ new.Succeeds old := by
  unfold checkOverwrite at h
  rw [contains, unforced] at h
  split at h
  · rename_i hfree
    cases hfree
  · split at h
    · cases h
    · split at h
      · cases h
      · obtain ⟨old, hold, hsuccessor⟩ := bind_eq_ok.mp h
        exact ⟨old, hold, succeeds_of_checkSuccessor hsuccessor⟩

theorem previous_eq_ok {old : Blueprint} (h : previous fs dir = .ok old) :
    ∃ text, fs.read (artifactPath dir) = .ok text ∧
      Blueprint.ofArtifact (some (artifactPath dir)) text = .ok old := by
  unfold previous at h
  dsimp only at h
  split at h
  · cases h
  · rename_i text hread
    split at h
    · rename_i b hloads
      cases h
      exact ⟨text, hread, hloads⟩
    · cases h

/-! ## The directory stays -/

/-- The expanded blueprint is only replaced in a directory that is there. -/
theorem isDirectory_of_applyAll {b : Blueprint} {now : Instant} {k : Nat} (named : dir ≠ "")
    (hk : 0 < k) (h : fs.applyAll (((replacements b dir now).take k).flatMap Replacement.steps) =
      (.ok (), fs')) : fs.isDirectory dir = true := by
  obtain ⟨n, rfl⟩ := Nat.exists_eq_succ_of_ne_zero (Nat.ne_of_gt hk)
  rw [replacements, List.take_succ_cons, List.flatMap_cons, applyAll_append_eq_ok] at h
  obtain ⟨mid, hartifact, -⟩ := h
  simp only [Replacement.steps, Replacement.prepare, List.cons_append, applyAll_cons_eq_ok]
    at hartifact
  obtain ⟨made, hcreate, -⟩ := hartifact
  have hlocate := (FileStep.apply_create_eq_ok hcreate).1
  have hmarker : markerDir dir ≠ "" := Path.join_ne_empty (by decide)
  have hartifacts : artifactsDir dir ≠ "" := Path.join_ne_empty (by decide)
  -- from the new content up to the deployment directory
  obtain ⟨_, hlocate, -⟩ := isDirectory_eq_true_iff.mp
    (isDirectory_of_locate_join hartifacts (by decide) hlocate)
  obtain ⟨_, hlocate, -⟩ := isDirectory_eq_true_iff.mp
    (isDirectory_of_locate_join hmarker (by decide) hlocate)
  exact isDirectory_of_locate_join named (by decide) hlocate

theorem Takes.isDirectory {a : Attempt} (named : dir ≠ "") (h : Takes dir a fs fs')
    (replaced : 0 < a.replaced) : fs'.isDirectory dir = true := by
  cases h with
  | refused gate => exact absurd replaced (Nat.lt_irrefl 0)
  | stopped gate stops =>
      cases stops with
      | making passes => exact absurd replaced (Nat.lt_irrefl 0)
      | replacing directories before next during =>
          exact ((Replacement.keeps_of_applyAll before).trans during.keeps).isDirectory
            (isDirectory_of_applyAll named replaced before)
  | @written b now p _ _ gate writes =>
      obtain ⟨made, -, happlied⟩ := write_eq_ok_iff.mp writes
      have hall : (replacements b dir now).take 3 = replacements b dir now := rfl
      rw [← hall] at happlied
      exact (Replacement.keeps_of_applyAll happlied).isDirectory
        (isDirectory_of_applyAll named replaced happlied)

/-- A deployment in the working directory itself cannot be written while that is missing. -/
theorem Takes.eq_of_no_workingDir {a : Attempt} (h : Takes "" a fs fs')
    (missing : fs.node? fs.workingDir ≠ some .directory) : a.replaced = 0 ∧ fs' = fs := by
  -- all paths that are made are relative, and a relative path starts at the working directory
  have hnowhere : ∀ path ∈ Path.ancestors (artifactsDir ""), ∀ loc,
      fs.locate path ≠ .ok loc ∧ fs.locate (withoutSlashes path) ≠ .ok loc := by
    have hrelative : ∀ path ∈ Path.ancestors (artifactsDir ""),
        Path.isAbsolute path = false ∧ Path.isAbsolute (withoutSlashes path) = false := by decide
    have hstart : ∀ path loc, Path.isAbsolute path = false → fs.locate path ≠ .ok loc := by
      intro path loc habsolute hlocate
      have hnode := node?_start_of_locate hlocate
      rw [FileSystem.start, habsolute] at hnode
      exact missing hnode
    intro path hpath loc
    obtain ⟨hplain, htrimmed⟩ := hrelative path hpath
    exact ⟨hstart path loc hplain, hstart _ loc htrimmed⟩
  have hfails : ∀ made,
      fs.makeDirectories (Path.ancestors (artifactsDir "")) ≠ (.ok (), made) := by
    intro made hmade
    obtain ⟨e, he⟩ := (makeDirectories_of_locate_ne_ok hnowhere).2 (by decide)
    rw [hmade] at he
    cases he
  cases h with
  | refused gate => exact ⟨rfl, rfl⟩
  | stopped gate stops =>
      cases stops with
      | making passes => exact ⟨rfl, passes.eq_of_locate_ne_ok hnowhere⟩
      | replacing directories before next during => exact absurd directories (hfails _)
  | written gate writes =>
      obtain ⟨made, hmade, -⟩ := write_eq_ok_iff.mp writes
      exact absurd hmade (hfails made)

theorem lexical_empty (fs : FileSystem) : fs.lexical "" = fs.workingDir := rfl

theorem Runs.replaced_eq_zero {attempts : List Attempt} (absent : start.Absent "")
    (h : Runs "" start attempts fs) :
    fs.node? fs.workingDir = none ∧ ∀ a ∈ attempts, a.replaced = 0 := by
  induction h with
  | start => exact ⟨absent _ (List.prefix_refl _), fun _ ha => absurd ha List.not_mem_nil⟩
  | attempt before takes ih =>
      obtain ⟨hnone, hbefore⟩ := ih
      obtain ⟨hzero, rfl⟩ := takes.eq_of_no_workingDir (by simp [hnone])
      refine ⟨hnone, fun a ha => ?_⟩
      rcases List.mem_append.mp ha with ha | ha
      · exact hbefore a ha
      · rw [List.mem_singleton.mp ha, hzero]
  | elsewhere before change ih =>
      rw [change.workingDir, ← lexical_empty, change.same _ (List.prefix_refl _)]
      exact ih

/-- Once an attempt has replaced the expanded blueprint, the directory is there. -/
theorem Runs.isDirectory {attempts : List Attempt} (absent : start.Absent dir)
    (h : Runs dir start attempts fs) {a : Attempt} (ha : a ∈ attempts) (replaced : 0 < a.replaced) :
    fs.isDirectory dir = true := by
  by_cases named : dir = ""
  · subst named
    exact absurd ((h.replaced_eq_zero absent).2 a ha) (Nat.ne_of_gt replaced)
  · induction h with
    | start => exact absurd ha List.not_mem_nil
    | attempt before takes ih =>
        rcases List.mem_append.mp ha with ha | ha
        · exact takes.keeps.isDirectory (ih ha)
        · rw [List.mem_singleton.mp ha] at replaced
          exact takes.isDirectory named replaced
    | elsewhere before change ih => exact change.toKeeps.isDirectory (ih ha)

/-! ## Succession -/

/-- An attempt that replaces the expanded blueprint succeeds the last one that did. -/
theorem Runs.succeeds_of_takes {attempts : List Attempt} (absent : start.Absent dir)
    (h : Runs dir start attempts fs) {a y : Attempt} (takes : Takes dir y fs fs')
    (unforced : y.permission.force = false) (replaced : 0 < y.replaced)
    (last : lastReplacing 0 attempts = some a)
    (readsBack : a.blueprint.ReadsBack (artifactPath dir)) :
    y.blueprint.Succeeds a.blueprint := by
  obtain ⟨hmem, ha⟩ := mem_of_lastReplacing last
  have hcontains := contains_of_isDirectory (h.isDirectory absent hmem ha)
  have hgate : checkOverwrite fs dir y.blueprint y.permission = .ok () := by
    cases takes with
    | refused gate => exact absurd replaced (Nat.lt_irrefl 0)
    | stopped gate stops => exact gate
    | written gate writes => exact gate
  obtain ⟨old, hold, hsucceeds⟩ := exists_previous_of_checkOverwrite hcontains unforced hgate
  -- the blueprint that the gate has read is the one that the last attempt put there
  obtain ⟨text, hread, hloads⟩ := previous_eq_ok hold
  obtain ⟨loc, hlocate, hfile⟩ := read_eq_ok_iff.mp hread
  rw [locate_eq_ok hlocate, h.artifact absent, last, Option.map_some, Option.some.injEq,
    Content.text.injEq] at hfile
  have hsame : old.toTree = a.blueprint.toTree := readsBack old (hfile ▸ hloads)
  refine ⟨hsucceeds.version.trans (Blueprint.toolkitVersion_eq_of_toTree_eq hsame), ?_⟩
  rw [← Blueprint.groupNames_eq_of_toTree_eq hsame]
  exact hsucceeds.groups

/-- The attempts that replaced the expanded blueprint succeed one another. -/
theorem Runs.pairwise_succeeds {attempts : List Attempt} (absent : start.Absent dir)
    (h : Runs dir start attempts fs) (unforced : ∀ a ∈ attempts, a.permission.force = false)
    (readsBack : ∀ a ∈ attempts, a.blueprint.ReadsBack (artifactPath dir)) :
    (attempts.filter (0 < ·.replaced)).Pairwise fun x y => y.blueprint.Succeeds x.blueprint := by
  induction h with
  | start => exact .nil
  | @attempt attempts y fs fs' before takes ih =>
      have hearlier := ih (fun a ha => unforced a (List.mem_append_left _ ha))
        fun a ha => readsBack a (List.mem_append_left _ ha)
      rw [List.filter_append, List.pairwise_append]
      refine ⟨hearlier, List.Pairwise.filter _ (List.pairwise_singleton _ y), ?_⟩
      intro x hx y' hy'
      obtain ⟨hy', hreplaced⟩ := List.mem_filter.mp hy'
      rw [List.mem_singleton.mp hy'] at hreplaced ⊢
      -- the last one before follows every other one
      obtain ⟨front, a, hfront⟩ : ∃ front a, attempts.filter (0 < ·.replaced) = front ++ [a] :=
        ⟨_, _, (List.dropLast_concat_getLast (List.ne_nil_of_mem hx)).symm⟩
      have hlast : lastReplacing 0 attempts = some a := by
        rw [lastReplacing, hfront, List.getLast?_concat]
      have hy : y.blueprint.Succeeds a.blueprint :=
        before.succeeds_of_takes absent takes
          (unforced y (List.mem_append_right _ (List.mem_singleton_self y)))
          (of_decide_eq_true hreplaced) hlast
          (readsBack a (List.mem_append_left _ (mem_of_lastReplacing hlast).1))
      rw [hfront] at hx hearlier
      rcases List.mem_append.mp hx with hx | hx
      · exact ((List.pairwise_append.mp hearlier).2.2 x hx a (List.mem_singleton_self a)).trans hy
      · rw [List.mem_singleton.mp hx]
        exact hy
  | elsewhere before change ih => exact ih unforced readsBack

/-- Without force, of two attempts that were both written the later one keeps the toolkit
    version and every group of the earlier one. -/
theorem groups_kept_without_force {attempts : List Attempt} (absent : start.Absent dir)
    (runs : Runs dir start attempts fs)
    (unforced : ∀ a ∈ attempts, a.permission.force = false)
    (readsBack : ∀ a ∈ attempts, a.blueprint.ReadsBack (artifactPath dir)) {i j : Nat}
    (order : i < j) {x y : Attempt} (hx : attempts[i]? = some x) (hy : attempts[j]? = some y)
    (earlier : x.outcome = .written) (later : y.outcome = .written) :
    (∀ g ∈ x.blueprint.groupNames, g ∈ y.blueprint.groupNames) ∧
      y.blueprint.toolkitVersion = x.blueprint.toolkitVersion := by
  have hreplaced : ∀ a : Attempt, a.outcome = .written → decide (0 < a.replaced) = true := by
    intro a ha
    simp [Attempt.replaced, ha]
  have hpairs := List.pairwise_filter.mp (runs.pairwise_succeeds absent unforced readsBack)
  obtain ⟨hi, rfl⟩ := List.getElem?_eq_some_iff.mp hx
  obtain ⟨hj, rfl⟩ := List.getElem?_eq_some_iff.mp hy
  have hsucceeds := List.pairwise_iff_getElem.mp hpairs i j hi hj order (hreplaced _ earlier)
    (hreplaced _ later)
  exact ⟨hsucceeds.groups, hsucceeds.version⟩

/-- A blueprint of groups without modules. -/
def grouped (names : List String) : Blueprint :=
  ⟨"", "v", [], .warning, [], [], Backend.empty, names.map (⟨·, none, []⟩)⟩

/-- A deployment is written, and then written again with one more group. -/
def grown : List Attempt := [
  ⟨grouped ["a"], ⟨0, 0⟩, ⟨false, false⟩, .written⟩,
  ⟨grouped ["a", "b"], ⟨0, 0⟩, ⟨true, false⟩, .written⟩]

def beforeGrowth : FileSystem := (write bare (grouped ["a"]) "d" ⟨0, 0⟩).2

def afterGrowth : FileSystem := (write beforeGrowth (grouped ["a", "b"]) "d" ⟨0, 0⟩).2

theorem runs_grown : Runs "d" bare grown afterGrowth := by
  obtain ⟨hfirst, hgate, hsecond⟩ :
      (write bare (grouped ["a"]) "d" ⟨0, 0⟩).1 = .ok () ∧
        checkOverwrite beforeGrowth "d" (grouped ["a", "b"]) ⟨true, false⟩ = .ok () ∧
        (write beforeGrowth (grouped ["a", "b"]) "d" ⟨0, 0⟩).1 = .ok () := by decide +kernel
  have hwritten : write bare (grouped ["a"]) "d" ⟨0, 0⟩ = (.ok (), beforeGrowth) := by
    rw [beforeGrowth, ← hfirst]
  have hagain : write beforeGrowth (grouped ["a", "b"]) "d" ⟨0, 0⟩ = (.ok (), afterGrowth) := by
    rw [afterGrowth, ← hsecond]
  have hfree : checkOverwrite bare "d" (grouped ["a"]) ⟨false, false⟩ = .ok () := by
    decide +kernel
  exact .attempt (.attempt .start (.written hfree hwritten)) (.written hgate hagain)

theorem readsBack_of_toOption {b : Blueprint} {file : String}
    (h : (Blueprint.ofArtifact (some file) b.render).toOption = some b) : b.ReadsBack file := by
  intro old hold
  rw [hold] at h
  rw [Option.some.inj h]

theorem groups_kept_without_force_grown :
    bare.Absent "d" ∧ Runs "d" bare grown afterGrowth ∧
      (∀ a ∈ grown, a.permission.force = false) ∧
      (∀ a ∈ grown, a.blueprint.ReadsBack (artifactPath "d")) ∧
      ∃ x y, grown[0]? = some x ∧ grown[1]? = some y ∧ x.outcome = .written ∧
        y.outcome = .written ∧ (∀ g ∈ x.blueprint.groupNames, g ∈ y.blueprint.groupNames) ∧
        y.blueprint.toolkitVersion = x.blueprint.toolkitVersion := by
  have hunforced : ∀ a ∈ grown, a.permission.force = false := by simp [grown]
  have hfirst : (grouped ["a"]).ReadsBack (artifactPath "d") :=
    readsBack_of_toOption (by decide +kernel)
  have hsecond : (grouped ["a", "b"]).ReadsBack (artifactPath "d") :=
    readsBack_of_toOption (by decide +kernel)
  have hreads : ∀ a ∈ grown, a.blueprint.ReadsBack (artifactPath "d") := by
    intro a ha
    simp only [grown, List.mem_cons, List.not_mem_nil, or_false] at ha
    rcases ha with rfl | rfl
    · exact hfirst
    · exact hsecond
  exact ⟨absent_bare, runs_grown, hunforced, hreads, _, _, rfl, rfl, rfl, rfl,
    groups_kept_without_force absent_bare runs_grown hunforced hreads Nat.zero_lt_one rfl rfl
      rfl rfl⟩

end Deployment
end HpcBlueprint
