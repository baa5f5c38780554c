/-
  Deployments in trees that differ at hidden places.

  The gate, the record that is compared and the write look at a blueprint and at files of the
  deployment, and not at services or at files of metadata.  So in two trees that differ in
  nothing else a deployment is let through or not, and written in the same way; only the time
  in its record depends on when that is.
-/
import HpcBlueprint.Proofs.Catalog.Overlooked
import HpcBlueprint.Proofs.Deployment.Writing
import HpcBlueprint.Run.Creation
import Mathlib.Data.List.Forall2

namespace HpcBlueprint

open FileSystem

variable {hidden : Location → Prop} {here : Location} {fs fs' : FileSystem} {dir : String}
  {b b' : Blueprint}

/-! ## Steps with different contents -/

namespace Replacement

/-- The same replacement, but for the new content. -/
structure SameBut (R : Content → Content → Prop) (r r' : Replacement) : Prop where
  path : r'.path = r.path
  beside : r'.beside = r.beside
  text : R (.text r.text) (.text r'.text)

theorem SameBut.steps {R : Content → Content → Prop} {r r' : Replacement} (h : SameBut R r r') :
    List.Forall₂ (FileStep.SameBut R) r.steps r'.steps := by
  obtain ⟨hpath, hbeside, htext⟩ := h
  rw [Replacement.steps, Replacement.steps, prepare, prepare, hpath, hbeside]
  exact .cons (.create _) (.cons (.write _ htext) (.cons (.rename _ _) .nil))

end Replacement

namespace Deployment

/-! ## What services do not change -/

section Services

variable (b : Blueprint)

theorem hash_withoutServices : b.withoutServices.hash = b.hash := by
  rw [Blueprint.hash, Blueprint.hash, Blueprint.render_withoutServices]

theorem recordOf_withoutServices (now : Instant) :
    recordOf b.withoutServices now = recordOf b now := by
  have hversion : b.withoutServices.toolkitVersion = b.toolkitVersion := rfl
  rw [recordOf, recordOf, hash_withoutServices, hversion, Blueprint.groupNames_withoutServices]

theorem groupLine_withoutServices (g : Group) : groupLine g.withoutServices = groupLine g := by
  have hname : g.withoutServices.name = g.name := rfl
  have hlength : g.withoutServices.modules.length = g.modules.length := List.length_map ..
  rw [groupLine, groupLine, hname, hlength]

theorem instructions_withoutServices (dir : String) :
    instructions b.withoutServices dir = instructions b dir := by
  have hname : b.withoutServices.deploymentName? = b.deploymentName? := rfl
  have hversion : b.withoutServices.toolkitVersion = b.toolkitVersion := rfl
  have hlines : b.withoutServices.groups.map groupLine = b.groups.map groupLine := by
    rw [Blueprint.withoutServices, List.map_map]
    refine List.map_congr_left fun g _ => ?_
    rw [Function.comp_apply, groupLine_withoutServices]
  unfold instructions
  rw [hname, hversion, hlines]

theorem write_withoutServices (fs : FileSystem) (dir : String) (now : Instant) :
    write fs b.withoutServices dir now = write fs b dir now := by
  have hreplacements : replacements b.withoutServices dir now = replacements b dir now := by
    rw [replacements, replacements, Blueprint.render_withoutServices, recordOf_withoutServices,
      instructions_withoutServices]
  rw [write, write, hreplacements]

theorem checkOverwrite_withoutServices (fs : FileSystem) (dir : String) (p : Permission) :
    checkOverwrite fs dir b.withoutServices p = checkOverwrite fs dir b p := by
  have hsuccessor : ∀ old,
      checkSuccessor dir old b.withoutServices p = checkSuccessor dir old b p := by
    intro old
    rw [checkSuccessor, checkSuccessor, removedGroup?, removedGroup?,
      Blueprint.groupNames_withoutServices]
    rfl
  unfold checkOverwrite
  simp only [hsuccessor]

end Services

/-! ## The gate -/

/-- The files of a deployment have other names than those of metadata. -/
theorem bypasses_artifactsDir (metadata : IsMetadata hidden)
    (hdir : Path.Bypasses hidden here dir) :
    Path.Bypasses hidden here (markerDir dir) ∧ Path.Bypasses hidden here (artifactsDir dir) := by
  have hmarker : Path.Bypasses hidden here (markerDir dir) :=
    metadata.bypasses_join_name hdir (by decide) (by decide)
  exact ⟨hmarker, metadata.bypasses_join_name hmarker (by decide) (by decide)⟩

/-- The gate decides alike about blueprints that differ in services. -/
theorem checkOverwrite_of_twins (metadata : IsMetadata hidden) (h : fs.Twins hidden here fs')
    (hdir : Path.Bypasses hidden here dir) (hb : InvImage Eq Blueprint.withoutServices b b')
    (p : Permission) : checkOverwrite fs' dir b' p = checkOverwrite fs dir b p := by
  obtain ⟨hmarker, hartifacts⟩ := bypasses_artifactsDir metadata hdir
  have hartifact := h.agreeAlong
    (metadata.bypasses_join_name hartifacts (show Path.IsName artifactName by decide) (by decide))
  have hprevious : previous fs' dir = previous fs dir := by
    unfold previous
    dsimp only
    rw [artifactPath, hartifact.read]
  rw [← checkOverwrite_withoutServices b', ← checkOverwrite_withoutServices b,
    show b.withoutServices = b'.withoutServices from hb]
  unfold checkOverwrite
  rw [(h.agreeAlong hdir).contains, (h.agreeAlong hmarker).isDirectory, artifactPath,
    hartifact.isFile, hprevious]

/-- The record that stands there names the same blueprint. -/
theorem isUnchanged_of_twins (metadata : IsMetadata hidden) (h : fs.Twins hidden here fs')
    (hdir : Path.Bypasses hidden here dir) (hb : InvImage Eq Blueprint.withoutServices b b') :
    Run.isUnchanged fs' dir b' = Run.isUnchanged fs dir b := by
  have hrecord := h.agreeAlong (metadata.bypasses_join_name (bypasses_artifactsDir metadata hdir).2
    (show Path.IsName recordName by decide) (by decide))
  have hread : readRecord fs' dir = readRecord fs dir := by
    unfold readRecord
    dsimp only
    rw [recordPath, hrecord.contains, hrecord.read]
  have hhash : b'.hash = b.hash := by
    rw [← hash_withoutServices b', ← hash_withoutServices b,
      show b.withoutServices = b'.withoutServices from hb]
  unfold Run.isUnchanged
  rw [hread, hhash]

/-! ## Writing -/

/-- Contents that are the same, but for the time that the record of a deployment names. -/
inductive UpToTime (now now' : Instant) : Content → Content → Prop
  | same (c : Content) : UpToTime now now' c c
  | record (b : Blueprint) :
      UpToTime now now' (.text (recordOf b now).render) (.text (recordOf b now').render)

/-- Trees that do not differ in contents do not differ in more than the time. -/
theorem apart_upToTime (h : Apart hidden here Eq fs fs') (now now' : Instant) :
    Apart hidden here (UpToTime now now') fs fs' := by
  refine h.mono fun c c' hc => ?_
  subst hc
  exact .same c

theorem sameBut_replacementIn {R : Content → Content → Prop} (dir name : String)
    {text text' : String} (h : R (.text text) (.text text')) :
    Replacement.SameBut R (replacementIn dir name text) (replacementIn dir name text') :=
  ⟨rfl, rfl, h⟩

/-- A write at another time replaces the same files, and only the record by another text. -/
theorem sameBut_replacements (b : Blueprint) (dir : String) (now now' : Instant) :
    List.Forall₂ (Replacement.SameBut (UpToTime now now')) (replacements b dir now)
      (replacements b dir now') := by
  have hsame : ∀ text, UpToTime now now' (.text text) (.text text) := fun _ => .same _
  have hrecord : UpToTime now now' (.text (recordOf b now).render)
      (.text (recordOf b now').render) := .record b
  exact .cons (sameBut_replacementIn _ artifactName (hsame b.render))
    (.cons (sameBut_replacementIn _ recordName hrecord)
      (.cons (sameBut_replacementIn dir instructionsName (hsame (instructions b dir))) .nil))

/-- Replacing a file in a directory comes by no hidden place. -/
theorem bypasses_replacementIn (metadata : IsMetadata hidden) {name : String} (text : String)
    (hdir : Path.Bypasses hidden here dir) (hname : Path.IsName name)
    (hbeside : Path.IsName (Path.withExtension name "tmp"))
    (hother : name ≠ Schema.metadataFile ∧ Path.withExtension name "tmp" ≠ Schema.metadataFile) :
    ∀ step ∈ (replacementIn dir name text).steps, step.Bypasses hidden here := by
  have hpath := metadata.bypasses_join_name hdir hname hother.1
  have hnext := metadata.bypasses_join_name hdir hbeside hother.2
  have hparent :
      ¬ hidden (Path.leads here (Path.join dir (Path.withExtension name "tmp"))).dropLast := by
    rw [Path.leads_join_name hbeside, List.dropLast_concat]
    exact hdir.not_hidden
  -- the steps go to the file and to the one beside it, both in the same directory
  intro step hstep
  simp only [Replacement.steps, Replacement.prepare, replacementIn, List.cons_append,
    List.nil_append, List.mem_cons, List.not_mem_nil, or_false] at hstep
  rcases hstep with rfl | rfl | rfl
  · exact ⟨hnext, hparent⟩
  · exact hnext
  · exact ⟨hnext, hpath⟩

theorem bypasses_replacements (metadata : IsMetadata hidden) (hdir : Path.Bypasses hidden here dir)
    (b : Blueprint) (now : Instant) :
    ∀ step ∈ (replacements b dir now).flatMap Replacement.steps, step.Bypasses hidden here := by
  have hartifacts := (bypasses_artifactsDir metadata hdir).2
  intro step hstep
  obtain ⟨r, hr, hstep⟩ := List.mem_flatMap.mp hstep
  simp only [replacements, List.mem_cons, List.not_mem_nil, or_false] at hr
  rcases hr with rfl | rfl | rfl
  · exact bypasses_replacementIn metadata _ hartifacts (by decide) (by decide) (by decide) _ hstep
  · exact bypasses_replacementIn metadata _ hartifacts (by decide) (by decide) (by decide) _ hstep
  · exact bypasses_replacementIn metadata _ hdir (by decide) (by decide) (by decide) _ hstep

/-- A deployment is written to both trees or fails to be for the same reason, and the trees come
    to differ at most in the time of writing. -/
theorem sameEnd_write (metadata : IsMetadata hidden) (hdir : Path.Bypasses hidden here dir)
    (h : Apart hidden here Eq fs fs') (hb : InvImage Eq Blueprint.withoutServices b b')
    (now now' : Instant) :
    SameEnd Eq (Apart hidden here (UpToTime now now')) (write fs b dir now)
      (write fs' b' dir now') := by
  have hmaking : ∀ p ∈ Path.ancestors (artifactsDir dir), Path.Bypasses hidden here p :=
    fun p hp => (bypasses_artifactsDir metadata hdir).2.of_passed metadata.not_hidden_nil
      (Path.passed_of_mem_ancestorsWithin hp)
  have hmade := (apart_upToTime h now now').makeDirectories hmaking
  rw [← write_withoutServices b', ← show b.withoutServices = b'.withoutServices from hb,
    write_withoutServices b, write, write]
  generalize fs.makeDirectories (Path.ancestors (artifactsDir dir)) = r,
    fs'.makeDirectories (Path.ancestors (artifactsDir dir)) = r' at hmade
  cases hmade with
  | error e hnext => exact .error e hnext
  | ok _ hnext =>
      have hsteps := List.rel_flatMap (sameBut_replacements b dir now now') fun _ _ h => h.steps
      exact hnext.applyAll .same hsteps (bypasses_replacements metadata hdir b now)

end Deployment
end HpcBlueprint
