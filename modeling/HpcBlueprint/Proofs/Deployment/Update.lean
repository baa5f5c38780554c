/-
  Which deployments can be updated once they are written.

  After a write the gate finds a managed directory with an expanded blueprint in it, so what
  it says of the same blueprint depends on one thing only: whether the text of that blueprint
  can be loaded.  An expansion puts the values of variables into other values and may so nest
  them more deeply than any text is read, however shallow the blueprint was; such a deployment
  is written, and can then be neither updated nor recognised.
-/
import HpcBlueprint.Proofs.Blueprint.Rendered
import HpcBlueprint.Proofs.Deployment.Succession
import HpcBlueprint.Proofs.Expand.Proper
import HpcBlueprint.Proofs.Yaml.Characters

namespace HpcBlueprint

open FileSystem

variable {fs fs' : FileSystem}

/-! ## What can be read after a write -/

theorem FileSystem.contains_empty (fs : FileSystem) : fs.contains "" = false := by
  rw [Bool.eq_false_iff]
  intro h
  obtain ⟨loc, n, hfind⟩ := contains_eq_true_iff.mp h
  exact (locate_eq_ok_iff.mp (find_eq_ok_iff.mp hfind).1).2.1 rfl

theorem Replacement.exists_locate_of_applyAll_steps {r : Replacement}
    (h : fs.applyAll r.steps = (.ok (), fs')) : ∃ loc, fs'.locate r.path = .ok loc := by
  simp only [steps, prepare, List.cons_append, List.nil_append, applyAll_cons_eq_ok] at h
  -- the last step renames to the path, so the path led somewhere then
  obtain ⟨made, -, filled, -, renamed, hrenamed, hend⟩ := h
  have hfinal : fs' = renamed := (Prod.mk.inj hend).2.symm
  subst hfinal
  have hkeeps := FileStep.keeps_of_apply hrenamed
  simp only [FileStep.apply, bind_eq_ok] at hrenamed
  obtain ⟨source, -, target, htarget, -⟩ := hrenamed
  exact ⟨target, hkeeps.locate htarget⟩

/-- A value inside some lists. -/
def Value.inLists : Nat → Value → Value
  | 0, v => v
  | n + 1, v => .list [Value.inLists n v]

namespace Deployment

variable {b : Blueprint} {dir : String} {now : Instant}

theorem replacementIn_artifact_path (dir text : String) :
    (replacementIn (artifactsDir dir) artifactName text).path = artifactPath dir := rfl

theorem locate_artifactPath_of_write (h : write fs b dir now = (.ok (), fs')) :
    fs'.locate (artifactPath dir) = .ok (fs'.lexical (artifactPath dir)) := by
  obtain ⟨made, -, happlied⟩ := write_eq_ok_iff.mp h
  rw [replacements, List.flatMap_cons, applyAll_append_eq_ok] at happlied
  obtain ⟨mid, hartifact, hothers⟩ := happlied
  obtain ⟨loc, hlocate⟩ := Replacement.exists_locate_of_applyAll_steps hartifact
  have hlater := (Replacement.keeps_of_applyAll hothers).locate hlocate
  rw [replacementIn_artifact_path] at hlater
  rw [← locate_eq_ok hlater]
  exact hlater

theorem file?_artifactPath_of_write (h : write fs b dir now = (.ok (), fs')) :
    fs'.file? (fs'.lexical (artifactPath dir)) = some (.text b.render) := by
  have hfile := file?_of_write h (r := replacementIn (artifactsDir dir) artifactName b.render)
    List.mem_cons_self
  rw [replacementIn_artifact_path, replacementIn_text] at hfile
  rw [(keeps_of_write h).lexical]
  exact hfile

theorem read_artifactPath_of_write (h : write fs b dir now = (.ok (), fs')) :
    fs'.read (artifactPath dir) = .ok b.render :=
  read_eq_ok_iff.mpr ⟨_, locate_artifactPath_of_write h, file?_artifactPath_of_write h⟩

theorem isDirectory_markerDir_of_write (h : write fs b dir now = (.ok (), fs')) :
    fs'.isDirectory (markerDir dir) = true := by
  have hmarker : markerDir dir ≠ "" := Path.join_ne_empty (by decide)
  have hartifacts : artifactsDir dir ≠ "" := Path.join_ne_empty (by decide)
  obtain ⟨_, hlocate, -⟩ := isDirectory_eq_true_iff.mp
    (isDirectory_of_locate_join hartifacts (by decide) (locate_artifactPath_of_write h))
  exact isDirectory_of_locate_join hmarker (by decide) hlocate

theorem isDirectory_of_write (named : dir ≠ "") (h : write fs b dir now = (.ok (), fs')) :
    fs'.isDirectory dir = true := by
  obtain ⟨_, hlocate, -⟩ := isDirectory_eq_true_iff.mp (isDirectory_markerDir_of_write h)
  exact isDirectory_of_locate_join named (by decide) hlocate

/-! ## The gate after a write -/

theorem previous_of_write (h : write fs b dir now = (.ok (), fs')) :
    previous fs' dir =
      (Blueprint.ofArtifact (some (artifactPath dir)) b.render).mapError
        fun e => .invalidArtifact e.message := by
  have hread := read_artifactPath_of_write h
  unfold previous
  dsimp only
  rw [hread]
  dsimp only
  cases Blueprint.ofArtifact (some (artifactPath dir)) b.render with
  | ok old => rfl
  | error e => rfl

/-- After a write only what has been written there is left to ask about. -/
theorem checkOverwrite_of_write (named : dir ≠ "") (h : write fs b dir now = (.ok (), fs'))
    (new : Blueprint) (overwrite : Bool) :
    checkOverwrite fs' dir new ⟨overwrite, false⟩ =
      (previous fs' dir).bind fun old => checkSuccessor dir old new ⟨overwrite, false⟩ := by
  have hfile : fs'.isFile (artifactPath dir) = true := isFile_eq_true_iff.mpr
    ⟨fs'.lexical (artifactPath dir), .text b.render, locate_artifactPath_of_write h,
      file?_artifactPath_of_write h⟩
  rw [checkOverwrite, contains_of_isDirectory (isDirectory_of_write named h),
    isDirectory_markerDir_of_write h, hfile]
  simp only [Bool.not_true, Bool.or_self, Bool.false_eq_true, if_false]
  rfl

/-- A blueprint succeeds itself, as it is loaded, whenever overwriting is asked for. -/
theorem checkSuccessor_withoutSchemas (dir : String) (b : Blueprint) (p : Permission) :
    checkSuccessor dir b.withoutSchemas b p =
      if p.overwrite then .ok () else .error (.overwriteNotRequested dir) := by
  have hgroups : b.withoutSchemas.groupNames = b.groupNames := by
    simp [Blueprint.groupNames, Blueprint.withoutSchemas, Group.withoutSchemas]
  have hremoved : removedGroup? b.withoutSchemas b = none := by
    rw [removedGroup?, hgroups, List.find?_eq_none]
    intro g hg
    simpa using hg
  have hversion : b.withoutSchemas.toolkitVersion = b.toolkitVersion := rfl
  rw [checkSuccessor, if_neg (not_not.mpr hversion), hremoved]
  cases p.overwrite <;> rfl

/-! ## Updating -/

/-- A blueprint may be written again where it is, if this is asked for and not else. -/
structure Updatable (fs : FileSystem) (dir : String) (b : Blueprint) : Prop where
  requested : checkOverwrite fs dir b ⟨true, false⟩ = .ok ()
  unrequested : checkOverwrite fs dir b ⟨false, false⟩ = .error (.overwriteNotRequested dir)

theorem not_updatable_empty : ¬ Updatable fs "" b := by
  intro h
  have hgate : checkOverwrite fs "" b ⟨false, false⟩ = .ok () := by
    rw [checkOverwrite, contains_empty]
    rfl
  rw [h.unrequested] at hgate
  cases hgate

theorem updatable_of_loads (named : dir ≠ "") (h : write fs b dir now = (.ok (), fs'))
    (loads : Blueprint.ofArtifact (some (artifactPath dir)) b.render = .ok b.withoutSchemas) :
    Updatable fs' dir b := by
  have hgate : ∀ overwrite, checkOverwrite fs' dir b ⟨overwrite, false⟩ =
      if overwrite then .ok () else .error (.overwriteNotRequested dir) := by
    intro overwrite
    rw [checkOverwrite_of_write named h, previous_of_write h, loads]
    exact checkSuccessor_withoutSchemas dir b ⟨overwrite, false⟩
  exact ⟨hgate true, hgate false⟩

theorem checkOverwrite_of_not_loads (named : dir ≠ "") (h : write fs b dir now = (.ok (), fs'))
    {e : ConfigError} (fails : Blueprint.ofArtifact (some (artifactPath dir)) b.render = .error e)
    (new : Blueprint) (overwrite : Bool) :
    checkOverwrite fs' dir new ⟨overwrite, false⟩ = .error (.invalidArtifact e.message) := by
  rw [checkOverwrite_of_write named h, previous_of_write h, fails]
  rfl

/-- What an expansion has produced and a write has put into a directory can be updated exactly
    if the directory has a name and the document stays within what is read; beyond that every
    update is refused because the expanded blueprint is invalid. -/
theorem updatable_iff_depth_le {settings : Settings} {finished : List Finished} {m : Materialized}
    (proper : b.Proper) (settled : settings.Proper) (expands : b.expand settings finished = .ok m)
    (renders : m.blueprint.toTree.Renders)
    (writes : write fs m.blueprint dir now = (.ok (), fs')) :
    (Updatable fs' dir m.blueprint ↔
      dir ≠ "" ∧ m.blueprint.toTree.depth ≤ Yaml.Node.maxDepth) ∧
    (dir ≠ "" → Yaml.Node.maxDepth < m.blueprint.toTree.depth → ∀ overwrite, ∃ message,
      checkOverwrite fs' dir m.blueprint ⟨overwrite, false⟩ =
        .error (.invalidArtifact message)) := by
  have hproper := proper.expand settled expands
  have hdeep : dir ≠ "" → Yaml.Node.maxDepth < m.blueprint.toTree.depth → ∀ overwrite, ∃ message,
      checkOverwrite fs' dir m.blueprint ⟨overwrite, false⟩ =
        .error (.invalidArtifact message) := by
    intro hnamed hlt overwrite
    obtain ⟨e, he⟩ := Blueprint.ofArtifact_render_of_tooDeep renders hlt
    exact ⟨_, checkOverwrite_of_not_loads hnamed writes he m.blueprint overwrite⟩
  refine ⟨⟨fun hupdatable => ?_, fun ⟨hnamed, hle⟩ => ?_⟩, hdeep⟩
  · have hnamed : dir ≠ "" := by
      rintro rfl
      exact not_updatable_empty hupdatable
    refine ⟨hnamed, Nat.le_of_not_lt fun hlt => ?_⟩
    -- a document too deep would be refused even though an update is asked for
    obtain ⟨message, hrefused⟩ := hdeep hnamed hlt true
    rw [hupdatable.requested] at hrefused
    cases hrefused
  · exact updatable_of_loads hnamed writes (Blueprint.ofArtifact_render hproper renders hle)

/-- A variable inside some lists, and another one that has the first inside some more. -/
def nested (inner outer : Nat) : Blueprint where
  name := "nested"
  toolkitVersion := ""
  validators := [⟨Validator.moduleNotUsed, true, []⟩]
  level := .warning
  skipped := []
  vars := [("deployment_name", .string "d"), ("inner", Value.inLists inner .null),
    ("outer", Value.inLists outer (.string "$(vars.inner)"))]
  backendDefaults := Backend.empty
  groups := []

/-- What the expansion makes of it. -/
def nestedExpanded (inner outer : Nat) : Materialized where
  blueprint := { nested inner outer with
    toolkitVersion := HpcBlueprint.toolkitVersion
    vars := [("deployment_name", .string "d"), ("inner", Value.inLists inner .null),
      ("outer", Value.inLists (outer + inner) .null)] }
  usage := ⟨["inner"], []⟩

/-- What is there after that has been written. -/
def nestedWritten (inner outer : Nat) : FileSystem :=
  (write bare (nestedExpanded inner outer).blueprint "d" ⟨0, 0⟩).2

theorem write_nestedExpanded (inner outer : Nat)
    (h : (write bare (nestedExpanded inner outer).blueprint "d" ⟨0, 0⟩).1 = .ok ()) :
    write bare (nestedExpanded inner outer).blueprint "d" ⟨0, 0⟩ =
      (.ok (), nestedWritten inner outer) := by
  rw [nestedWritten, ← h]

theorem updatable_iff_depth_le_nested :
    (nested 1 2).Proper ∧ Settings.empty.Proper ∧
      (nested 1 2).expand Settings.empty [] = .ok (nestedExpanded 1 2) ∧
      (nestedExpanded 1 2).blueprint.toTree.Renders ∧
      write bare (nestedExpanded 1 2).blueprint "d" ⟨0, 0⟩ = (.ok (), nestedWritten 1 2) ∧
      (Updatable (nestedWritten 1 2) "d" (nestedExpanded 1 2).blueprint ↔
        "d" ≠ "" ∧ (nestedExpanded 1 2).blueprint.toTree.depth ≤ Yaml.Node.maxDepth) ∧
      ("d" ≠ "" → Yaml.Node.maxDepth < (nestedExpanded 1 2).blueprint.toTree.depth →
        ∀ overwrite, ∃ message,
          checkOverwrite (nestedWritten 1 2) "d" (nestedExpanded 1 2).blueprint
            ⟨overwrite, false⟩ = .error (.invalidArtifact message)) := by
  have hproper : (nested 1 2).Proper :=
    { validators := by simp [nested, ValidatorEntry.Proper]
      skipped := by simp [nested, NameSet.Sorted]
      vars := by simp [nested, Value.inLists]
      backendDefaults := by simp [nested, Backend.Proper, Backend.empty]
      groups := by simp [nested] }
  have hsettings : Settings.empty.Proper :=
    { vars := by simp [Settings.empty]
      backendDefaults := by simp [Settings.empty, Backend.Proper, Backend.empty] }
  have hexpands : (nested 1 2).expand Settings.empty [] = .ok (nestedExpanded 1 2) :=
    eq_ok_of_toOption (by decide +kernel)
  have hdepth : (nestedExpanded 1 2).blueprint.toTree.depth = 5 := by decide +kernel
  have hread : (Yaml.Stream.ofText
      (Yaml.Printer.render (nestedExpanded 1 2).blueprint.toTree)).complete = true ∧
      (nestedExpanded 1 2).blueprint.toTree.shownBy
        (nestedExpanded 1 2).blueprint.toTree.writtenNode = true := by
    have hascii : Text.IsAscii (Yaml.Printer.render (nestedExpanded 1 2).blueprint.toTree) := by
      decide +kernel
    rw [Yaml.Tree.writtenNode, Yaml.Stream.ofText_of_isAscii hascii]
    decide +kernel
  have hrenders : (nestedExpanded 1 2).blueprint.toTree.Renders :=
    { complete := fun _ => hread.1
      shown := fun _ => hread.2
      tooDeep := fun hlt => by
        rw [hdepth] at hlt
        exact absurd hlt (by decide) }
  have hwrites := write_nestedExpanded 1 2 (by decide +kernel)
  exact ⟨hproper, hsettings, hexpands, hrenders, hwrites,
    updatable_iff_depth_le hproper hsettings hexpands hrenders hwrites⟩

/-- A blueprint that stays within what is read is expanded beyond it and written, and no update
    of it is let through. -/
theorem exists_written_not_updatable :
    ∃ (b : Blueprint) (m : Materialized) (fs' : FileSystem),
      b.toTree.depth ≤ Yaml.Node.maxDepth ∧ b.expand Settings.empty [] = .ok m ∧
        write bare m.blueprint "d" ⟨0, 0⟩ = (.ok (), fs') ∧
      ∀ overwrite, ∃ message, checkOverwrite fs' "d" m.blueprint ⟨overwrite, false⟩ =
        .error (.invalidArtifact message) := by
  have hshallow : (nested 1 126).toTree.depth ≤ Yaml.Node.maxDepth := by decide +kernel
  have hexpands : (nested 1 126).expand Settings.empty [] = .ok (nestedExpanded 1 126) :=
    eq_ok_of_toOption (by decide +kernel)
  have hwrites := write_nestedExpanded 1 126 (by decide +kernel)
  have hascii : Text.IsAscii (nestedExpanded 1 126).blueprint.render := by decide +kernel
  have hfails : (Blueprint.ofArtifact (some (artifactPath "d"))
      (nestedExpanded 1 126).blueprint.render).toOption = none := by
    rw [Blueprint.ofArtifact, Yaml.Decoder.ofText, Yaml.Stream.ofText_of_isAscii hascii]
    decide +kernel
  obtain ⟨e, he⟩ := exists_eq_error_of_toOption hfails
  exact ⟨nested 1 126, nestedExpanded 1 126, nestedWritten 1 126, hshallow, hexpands, hwrites,
    fun overwrite => ⟨_, checkOverwrite_of_not_loads (by decide) hwrites he _ overwrite⟩⟩

end Deployment
end HpcBlueprint
