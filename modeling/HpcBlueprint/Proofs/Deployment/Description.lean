/-
  Whether the record of a deployment describes the expanded blueprint beside it.

  The two files are replaced one after the other.  They are of the same attempt unless the
  last one that replaced the expanded blueprint ended before it came to the record: then the
  record goes on naming the blueprint before, and so does the report that nothing changed.
-/
import HpcBlueprint.Proofs.Deployment.Attempts
import HpcBlueprint.Proofs.Deployment.Record
import HpcBlueprint.Proofs.Digest.Compare
import HpcBlueprint.Run.Creation

namespace HpcBlueprint

open Deployment FileSystem

variable {ω : Type} {dir : String} {start fs : FileSystem} {attempts : List Attempt}

/-! ## Creating a deployment -/

namespace Run

variable {t : Tools ω} {o : Options} {d : Destination} {now : Instant} {s s' : Catalog.State ω}

theorem cleared_eq_ok_iff {x : Expansion} :
    cleared fs d x = .ok dir ↔ deploymentDir d.out x.result.blueprint = .ok dir ∧
      checkOverwrite fs dir x.result.blueprint d.permission = .ok () := by
  simp only [cleared, bind_eq_ok, mapError_eq_ok, pure_eq_ok]
  constructor
  · rintro ⟨found, hfound, ⟨⟩, hgate, rfl⟩
    exact ⟨hfound, hgate⟩
  · rintro ⟨hdir, hgate⟩
    exact ⟨dir, hdir, (), hgate, rfl⟩

/-- A deployment that was created was let through and written, and the report on it compares
    the record that stood there before. -/
theorem create_eq_ok {c : Created} (h : create t o d now s = (.ok c, s')) :
    c.isUnchanged = isUnchanged (expand t o s).2.files c.dir c.expansion.result.blueprint ∧
      Takes c.dir ⟨c.expansion.result.blueprint, now, d.permission, .written⟩
        (expand t o s).2.files s'.files := by
  unfold create at h
  split at h
  · cases h
  · rename_i x mid hexpand
    rw [hexpand]
    split at h
    · cases h
    · rename_i found hcleared
      dsimp only at h
      split at h
      · rename_i fs' hwrite
        cases h
        dsimp only
        exact ⟨rfl, .written (cleared_eq_ok_iff.mp hcleared).2 hwrite⟩
      · cases h

/-- A call to create a deployment is at most one attempt on its directory. -/
theorem runs_create (h : Runs dir start attempts (expand t o s).2.files)
    (hdir : ∀ x, (expand t o s).1 = .ok x → deploymentDir d.out x.result.blueprint = .ok dir) :
    ∃ more, Runs dir start (attempts ++ more) (create t o d now s).2.files ∧
      more.length ≤ 1 ∧ ∀ a ∈ more, a.permission = d.permission := by
  have hsame : Runs dir start (attempts ++ []) (expand t o s).2.files := by
    rwa [List.append_nil]
  unfold create
  split
  · rename_i mid hexpand
    rw [hexpand] at hsame
    exact ⟨[], hsame, Nat.zero_le 1, fun _ ha => absurd ha List.not_mem_nil⟩
  · rename_i x mid hexpand
    rw [hexpand] at h hsame hdir
    have hx := hdir x rfl
    split
    · exact ⟨[], hsame, Nat.zero_le 1, fun _ ha => absurd ha List.not_mem_nil⟩
    · rename_i found hcleared
      obtain ⟨hfound, hgate⟩ := cleared_eq_ok_iff.mp hcleared
      have hfound_dir : found = dir := Except.ok.inj (hfound.symm.trans hx)
      subst hfound_dir
      dsimp only
      split
      · rename_i fs' hwrite
        exact ⟨[⟨x.result.blueprint, now, d.permission, .written⟩],
          .attempt h (.written hgate hwrite), Nat.le_refl 1, by simp⟩
      · rename_i fs' hwrite
        obtain ⟨k, hstops⟩ := exists_stops_of_write_eq_error hwrite
        exact ⟨[⟨x.result.blueprint, now, d.permission, .stopped k⟩],
          .attempt h (.stopped hgate hstops), Nat.le_refl 1, by simp⟩

theorem readRecord_of_read {r : Record} (h : fs.read (recordPath dir) = .ok r.render) :
    readRecord fs dir =
      match Instant.ofText? (r.writtenAt.render "Z") with
      | some time => .ok (some { r with writtenAt := time })
      | none => .error (.badRecord (recordPath dir)) := by
  have hcontains : fs.contains (recordPath dir) = true := by
    obtain ⟨loc, hlocate, hfile⟩ := read_eq_ok_iff.mp h
    exact contains_eq_true_iff.mpr
      ⟨loc, _, find_eq_ok_iff.mpr ⟨hlocate, file?_eq_some_iff.mp hfile⟩⟩
  rw [readRecord]
  simp only [hcontains, if_true, h, Record.ofText?_render]
  cases Instant.ofText? (r.writtenAt.render "Z") <;> rfl

/-- A blueprint counts as unchanged if the record names its hash. -/
theorem isUnchanged_eq {r : Record} (h : fs.read (recordPath dir) = .ok r.render)
    (b : Blueprint) :
    isUnchanged fs dir b =
      ((Instant.ofText? (r.writtenAt.render "Z")).isSome &&
        Digest.sameDigest b.hash r.blueprintHash) := by
  unfold isUnchanged
  rw [readRecord_of_read h]
  cases Instant.ofText? (r.writtenAt.render "Z") with
  | none => simp only [Option.isSome_none, Bool.false_and]
  | some time => simp only [Option.isSome_some, Bool.true_and]

end Run

/-! ## The two files -/

namespace Deployment

theorem Attempt.one_lt_replaced {a : Attempt} (h : 0 < a.replaced)
    (hbetween : a.outcome ≠ .stopped 1) : 1 < a.replaced := by
  unfold Attempt.replaced at h ⊢
  split at h
  · cases h
  · rename_i k houtcome
    have hk : k ≠ 1 := by
      rintro rfl
      exact hbetween houtcome
    omega
  · decide

/-- A file that holds what some attempt wrote reads as that. -/
theorem read_of_isFile {path : String} {last : Option Attempt} {text : Attempt → String}
    (hfile : fs.file? (fs.lexical path) = last.map fun a => .text (text a))
    (h : fs.isFile path = true) : ∃ a, last = some a ∧ fs.read path = .ok (text a) := by
  obtain ⟨loc, content, hlocate, hcontent⟩ := isFile_eq_true_iff.mp h
  rw [locate_eq_ok hlocate, hfile] at hcontent
  obtain ⟨a, rfl, rfl⟩ := Option.map_eq_some_iff.mp hcontent
  refine ⟨a, rfl, read_eq_ok_iff.mpr ⟨loc, hlocate, ?_⟩⟩
  rw [locate_eq_ok hlocate, hfile, Option.map_some]

end Deployment

/-- The digest tells two texts apart, if they differ. -/
def Sha256.Distinguishes (x y : String) : Prop := digest x = digest y → x = y

namespace Deployment

/-! ## An interrupted deployment -/

/-- A blueprint that has only a name. -/
def namedOnly (name : String) : Blueprint := ⟨name, "", [], .warning, [], [], Backend.empty, []⟩

/-- A deployment is written, and then overwritten as far as the expanded blueprint. -/
def interrupted : List Attempt := [
  ⟨namedOnly "a", ⟨0, 0⟩, ⟨false, false⟩, .written⟩,
  ⟨namedOnly "b", ⟨0, 0⟩, ⟨false, true⟩, .stopped 1⟩]

def beforeInterruption : FileSystem := (write bare (namedOnly "a") "d" ⟨0, 0⟩).2

def directoriesThere : FileSystem :=
  (beforeInterruption.makeDirectories (Path.ancestors (artifactsDir "d"))).2

def atInterruption : FileSystem :=
  (directoriesThere.applyAll
    (((replacements (namedOnly "b") "d" ⟨0, 0⟩).take 1).flatMap Replacement.steps)).2

theorem interrupted_steps :
    (write bare (namedOnly "a") "d" ⟨0, 0⟩).1 = .ok () ∧
      (beforeInterruption.makeDirectories (Path.ancestors (artifactsDir "d"))).1 = .ok () ∧
      (directoriesThere.applyAll
        (((replacements (namedOnly "b") "d" ⟨0, 0⟩).take 1).flatMap Replacement.steps)).1 =
          .ok () ∧
      atInterruption.isFile (artifactPath "d") = true ∧
      atInterruption.isFile (recordPath "d") = true := by
  decide +kernel

theorem stops_atInterruption :
    Stops beforeInterruption (namedOnly "b") "d" ⟨0, 0⟩ 1 atInterruption := by
  obtain ⟨-, hmake, happly, -, -⟩ := interrupted_steps
  have hmade : beforeInterruption.makeDirectories (Path.ancestors (artifactsDir "d")) =
      (.ok (), directoriesThere) := by
    rw [directoriesThere, ← hmake]
  have happlied : directoriesThere.applyAll
      (((replacements (namedOnly "b") "d" ⟨0, 0⟩).take 1).flatMap Replacement.steps) =
        (.ok (), atInterruption) := by
    rw [atInterruption, ← happly]
  exact .replacing hmade happlied rfl (.start _ _)

theorem runs_interrupted : Runs "d" bare interrupted atInterruption := by
  obtain ⟨hwrite, -⟩ := interrupted_steps
  have hwritten : write bare (namedOnly "a") "d" ⟨0, 0⟩ = (.ok (), beforeInterruption) := by
    rw [beforeInterruption, ← hwrite]
  have hgate : checkOverwrite bare "d" (namedOnly "a") ⟨false, false⟩ = .ok () := by
    decide +kernel
  have hforced : checkOverwrite beforeInterruption "d" (namedOnly "b") ⟨false, true⟩ = .ok () := by
    rw [checkOverwrite, Bool.or_true, if_pos rfl]
  exact .attempt (.attempt .start (.written hgate hwritten))
    (.stopped hforced stops_atInterruption)

/-! ## The record and the expanded blueprint -/

/-- When both files are there, each is of the last attempt that replaced it, and the record
    names the digest of the expanded blueprint exactly if the attempt that replaced the latter
    did not end between the two, or had a blueprint of the same hash before it.  Outside this
    case a blueprint that is reported as unchanged has the text that the file holds. -/
theorem record_describes_artifact_iff (absent : start.Absent dir)
    (runs : Runs dir start attempts fs) (artifact : fs.isFile (artifactPath dir) = true)
    (record : fs.isFile (recordPath dir) = true) :
    ∃ a r json, lastReplacing 0 attempts = some a ∧ lastReplacing 1 attempts = some r ∧
      fs.read (artifactPath dir) = .ok a.blueprint.render ∧
      fs.read (recordPath dir) = .ok json ∧ Record.hashIn? json = some r.blueprint.hash ∧
      (Record.hashIn? json = some (Sha256.digest a.blueprint.render) ↔
        (a.outcome = .stopped 1 → r.blueprint.hash = a.blueprint.hash)) ∧
      ∀ {ω : Type} (t : Run.Tools ω) (o : Run.Options) (d : Run.Destination) (now : Instant)
        (s s' : Catalog.State ω) (c : Run.Created), (Run.expand t o s).2.files = fs →
        Run.create t o d now s = (.ok c, s') → c.dir = dir → c.isUnchanged = true →
        Record.hashIn? json = some c.expansion.result.blueprint.hash ∧
          (a.outcome ≠ .stopped 1 →
            Sha256.Distinguishes a.blueprint.render c.expansion.result.blueprint.render →
            a.blueprint.render = c.expansion.result.blueprint.render) := by
  obtain ⟨a, ha, hartifact⟩ := read_of_isFile (runs.artifact absent) artifact
  obtain ⟨r, hr, hrecord⟩ := read_of_isFile (runs.record absent) record
  have hhash : Record.hashIn? (recordOf r.blueprint r.now).render = some r.blueprint.hash :=
    Record.hashIn?_render (recordOf r.blueprint r.now)
  -- an attempt that replaced the expanded blueprint and did not end right then went on to the
  -- record
  have hsame : a.outcome ≠ .stopped 1 → r = a := by
    intro hbetween
    have hlast := lastReplacing_of_le (Nat.zero_le 1) ha
      (Attempt.one_lt_replaced (mem_of_lastReplacing ha).2 hbetween)
    exact Option.some.inj (hr.symm.trans hlast)
  refine ⟨a, r, _, ha, hr, hartifact, hrecord, hhash, ?_, ?_⟩
  · rw [hhash, Option.some.injEq]
    constructor
    · intro h _
      exact h
    · intro h
      by_cases hbetween : a.outcome = .stopped 1
      · exact h hbetween
      · rw [hsame hbetween]
        rfl
  · intro ω t o d now s s' c hfs hcreate hdir hunchanged
    have hreport := (Run.create_eq_ok hcreate).1
    rw [hfs, hdir, hunchanged, Run.isUnchanged_eq hrecord, eq_comm, Bool.and_eq_true] at hreport
    have hnamed : c.expansion.result.blueprint.hash = r.blueprint.hash :=
      Digest.eq_of_sameDigest hreport.2
    refine ⟨by rw [hhash, hnamed], fun hbetween hdistinguishes => ?_⟩
    rw [hsame hbetween] at hnamed
    exact hdistinguishes hnamed.symm

theorem record_describes_artifact_iff_interrupted :
    bare.Absent "d" ∧ Runs "d" bare interrupted atInterruption ∧
      atInterruption.isFile (artifactPath "d") = true ∧
      atInterruption.isFile (recordPath "d") = true ∧
      ∃ json, atInterruption.read (recordPath "d") = .ok json ∧
        Record.hashIn? json = some (namedOnly "a").hash ∧
        (Record.hashIn? json = some (Sha256.digest (namedOnly "b").render) ↔
          (namedOnly "a").hash = (namedOnly "b").hash) := by
  obtain ⟨-, -, -, hartifact, hrecord⟩ := interrupted_steps
  obtain ⟨a, r, json, ha, hr, -, hread, hhash, hiff, -⟩ :=
    record_describes_artifact_iff absent_bare runs_interrupted hartifact hrecord
  cases ha
  cases hr
  refine ⟨absent_bare, runs_interrupted, hartifact, hrecord, json, hread, hhash, ?_⟩
  exact hiff.trans ⟨fun h => h rfl, fun h _ => h⟩

/-- The record may be of another blueprint than the one beside it, and so may be the blueprint
    that is reported as unchanged. -/
theorem exists_record_of_other_artifact :
    ∃ attempts fs text json b, bare.Absent "d" ∧ Runs "d" bare attempts fs ∧
      fs.isFile (artifactPath "d") = true ∧ fs.isFile (recordPath "d") = true ∧
      fs.read (artifactPath "d") = .ok text ∧ fs.read (recordPath "d") = .ok json ∧
      Record.hashIn? json ≠ some (Sha256.digest text) ∧
      Run.isUnchanged fs "d" b = true ∧ text ≠ b.render := by
  obtain ⟨-, -, -, hartifact, hrecord⟩ := interrupted_steps
  have hhash : (namedOnly "a").hash ≠ (namedOnly "b").hash := by decide +kernel
  have htime : (Instant.ofText? ((Instant.mk 0 0).render "Z")).isSome = true := by decide +kernel
  obtain ⟨a, ha, htext⟩ := read_of_isFile (runs_interrupted.artifact absent_bare) hartifact
  obtain ⟨r, hr, hjson⟩ := read_of_isFile (runs_interrupted.record absent_bare) hrecord
  cases ha
  cases hr
  refine ⟨interrupted, atInterruption, _, _, namedOnly "a", absent_bare, runs_interrupted,
    hartifact, hrecord, htext, hjson, ?_, ?_, ?_⟩
  · rw [Record.hashIn?_render]
    exact fun h => hhash (Option.some.inj h)
  · rw [Run.isUnchanged_eq hjson]
    exact Bool.and_eq_true_iff.mpr ⟨htime, Digest.sameDigest_self _⟩
  · exact fun h => hhash (congrArg Sha256.digest h.symm)

end Deployment

end HpcBlueprint
