/-
  What the gate decides.

  A missing directory and force let everything through.  Behind them six conditions stand in a
  fixed order: a blueprint is let through exactly if all of them hold, and otherwise it is
  refused for the first one that does not.  The refusal tells which version, path or group is
  meant, and what to do about it.
-/
import HpcBlueprint.Proofs.Deployment.Succession
import HpcBlueprint.Proofs.Run.Refusal

namespace HpcBlueprint

open FileSystem

namespace Deployment

variable {fs : FileSystem} {dir : String} {old new : Blueprint} {p : Permission} {r : Refusal}

/-! ## The conditions -/

/-- What has to hold before a blueprint is written over the one in a directory. -/
inductive Condition
  /-- The marker is a directory. -/
  | managed
  /-- The expanded blueprint is a file. -/
  | recorded
  /-- The file can be loaded as a blueprint. -/
  | legible
  | sameVersion
  /-- Overwriting is asked for. -/
  | requested
  | groupsKept
deriving DecidableEq

/-- The conditions in the order in which they are asked. -/
def Condition.inOrder : List Condition :=
  [.managed, .recorded, .legible, .sameVersion, .requested, .groupsKept]

/-- The expanded blueprint in a directory can be loaded. -/
def Loads (fs : FileSystem) (dir : String) (old : Blueprint) : Prop :=
  ∃ text, fs.read (artifactPath dir) = .ok text ∧
    Blueprint.ofArtifact (some (artifactPath dir)) text = .ok old

/-- The expanded blueprint in a directory is no text, or the text of no blueprint. -/
def Illegible (fs : FileSystem) (dir reason : String) : Prop :=
  (∃ e, fs.read (artifactPath dir) = .error e ∧ reason = e.message) ∨
    ∃ text e, fs.read (artifactPath dir) = .ok text ∧
      Blueprint.ofArtifact (some (artifactPath dir)) text = .error e ∧ reason = e.message

/-- What a condition says of a directory and the blueprint that is to be written to it. -/
def Condition.Holds (fs : FileSystem) (dir : String) (new : Blueprint) (p : Permission) :
    Condition → Prop
  | managed => fs.isDirectory (markerDir dir) = true
  | recorded => fs.isFile (artifactPath dir) = true
  | legible => ∃ old, Loads fs dir old
  | sameVersion => ∀ old, Loads fs dir old → old.toolkitVersion = new.toolkitVersion
  | requested => p.overwrite = true
  | groupsKept => ∀ old, Loads fs dir old → ∀ g ∈ old.groupNames, g ∈ new.groupNames

/-- A condition is the first one that does not hold. -/
def Condition.FirstBroken (fs : FileSystem) (dir : String) (new : Blueprint) (p : Permission)
    (c : Condition) : Prop :=
  ∃ before after, inOrder = before ++ c :: after ∧ (∀ b ∈ before, b.Holds fs dir new p) ∧
    ¬ c.Holds fs dir new p

/-- The condition that a refusal finds broken. -/
def broken : Refusal → Condition
  | .notManaged _ => .managed
  | .missingArtifact _ _ => .recorded
  | .invalidArtifact _ => .legible
  | .versionMismatch _ _ _ => .sameVersion
  | .overwriteNotRequested _ => .requested
  | .groupRemoved _ => .groupsKept

/-- A refusal tells the truth about a directory: it names the directory, the reason why the
    blueprint in it cannot be loaded, both versions, or the first group of the blueprint before
    that the new one lacks. -/
def Tells (fs : FileSystem) (dir : String) (new : Blueprint) : Refusal → Prop
  | .notManaged d => d = dir
  | .missingArtifact d artifact => d = dir ∧ artifact = artifactPath dir
  | .invalidArtifact reason => Illegible fs dir reason
  | .versionMismatch d previous current => d = dir ∧ current = new.toolkitVersion ∧
      ∃ old, Loads fs dir old ∧ previous = old.toolkitVersion
  | .overwriteNotRequested d => d = dir
  | .groupRemoved g => ∃ old before after, Loads fs dir old ∧
      old.groupNames = before ++ g :: after ∧ (∀ kept ∈ before, kept ∈ new.groupNames) ∧
        g ∉ new.groupNames

/-! ## The blueprint before -/

theorem previous_eq_ok_iff : previous fs dir = .ok old ↔ Loads fs dir old := by
  constructor
  · exact previous_eq_ok
  · rintro ⟨text, hread, hloads⟩
    unfold previous
    dsimp only
    rw [hread]
    dsimp only
    rw [hloads]

theorem previous_eq_error_iff :
    previous fs dir = .error r ↔ ∃ reason, r = .invalidArtifact reason ∧ Illegible fs dir reason := by
  unfold previous
  dsimp only
  cases hread : fs.read (artifactPath dir) with
  | error e => simp [Illegible, hread, eq_comm]
  | ok text =>
      cases hloads : Blueprint.ofArtifact (some (artifactPath dir)) text with
      | ok b => simp [Illegible, hread, hloads]
      | error e => simp [Illegible, hread, hloads, eq_comm]

theorem Loads.eq {other : Blueprint} (h : Loads fs dir old) (h' : Loads fs dir other) :
    other = old := by
  rw [← previous_eq_ok_iff] at h h'
  exact Except.ok.inj (h'.symm.trans h)

theorem not_loads_of_illegible {reason : String} (h : Illegible fs dir reason) :
    ¬ ∃ old, Loads fs dir old := by
  rintro ⟨old, hloads⟩
  rw [← previous_eq_ok_iff, previous_eq_error_iff.mpr ⟨reason, rfl, h⟩] at hloads
  cases hloads

theorem removedGroup?_eq_none_iff :
    removedGroup? old new = none ↔ ∀ g ∈ old.groupNames, g ∈ new.groupNames := by
  simp [removedGroup?]

theorem removedGroup?_eq_some_iff {g : String} :
    removedGroup? old new = some g ↔ ∃ before after, old.groupNames = before ++ g :: after ∧
      (∀ kept ∈ before, kept ∈ new.groupNames) ∧ g ∉ new.groupNames := by
  rw [removedGroup?, List.find?_eq_some_iff_append]
  constructor
  · rintro ⟨hmissing, before, after, hsplit, hkept⟩
    exact ⟨before, after, hsplit, by simpa using hkept, by simpa using hmissing⟩
  · rintro ⟨before, after, hsplit, hkept, hmissing⟩
    exact ⟨by simpa using hmissing, before, after, hsplit, by simpa using hkept⟩

/-! ## One decision after the other -/

/-- Over nothing, or by force, everything may be written. -/
theorem checkOverwrite_of_free (h : fs.contains dir = false ∨ p.force = true) :
    checkOverwrite fs dir new p = .ok () := by
  have hfree : (!fs.contains dir || p.force) = true := by simpa using h
  rw [checkOverwrite, if_pos hfree]

/-- Where something stands and nothing is forced, the directory is asked about first and the
    blueprint in it afterwards. -/
theorem checkOverwrite_of_contains (contains : fs.contains dir = true)
    (unforced : p.force = false) :
    checkOverwrite fs dir new p =
      if fs.isDirectory (markerDir dir) = true then
        if fs.isFile (artifactPath dir) = true then
          (previous fs dir).bind fun old => checkSuccessor dir old new p
        else .error (.missingArtifact dir (artifactPath dir))
      else .error (.notManaged dir) := by
  rw [checkOverwrite, contains, unforced]
  cases fs.isDirectory (markerDir dir) with
  | false => rfl
  | true =>
      cases fs.isFile (artifactPath dir) with
      | false => rfl
      | true => rfl

/-- What a comparison of two blueprints lets through meets the last three conditions. -/
theorem checkSuccessor_eq_ok_iff :
    checkSuccessor dir old new p = .ok () ↔ old.toolkitVersion = new.toolkitVersion ∧
      p.overwrite = true ∧ ∀ g ∈ old.groupNames, g ∈ new.groupNames := by
  rw [← removedGroup?_eq_none_iff, checkSuccessor]
  by_cases hversion : old.toolkitVersion = new.toolkitVersion
  · cases p.overwrite with
    | false => simp [hversion]
    | true => cases removedGroup? old new <;> simp [hversion]
  · simp [hversion]

/-- A comparison of two blueprints refuses the first of the last three conditions that fails. -/
theorem checkSuccessor_eq_error_iff :
    checkSuccessor dir old new p = .error r ↔
      (old.toolkitVersion ≠ new.toolkitVersion ∧
        r = .versionMismatch dir old.toolkitVersion new.toolkitVersion) ∨
      (old.toolkitVersion = new.toolkitVersion ∧ p.overwrite = false ∧
        r = .overwriteNotRequested dir) ∨
      (old.toolkitVersion = new.toolkitVersion ∧ p.overwrite = true ∧
        ∃ g, removedGroup? old new = some g ∧ r = .groupRemoved g) := by
  rw [checkSuccessor]
  by_cases hversion : old.toolkitVersion = new.toolkitVersion
  · cases p.overwrite with
    | false => simp [hversion, @eq_comm _ r]
    | true => cases removedGroup? old new <;> simp [hversion, @eq_comm _ r]
  · simp [hversion, @eq_comm _ r]

/-- What is let through over something that stands there meets all conditions. -/
theorem holds_of_checkOverwrite (contains : fs.contains dir = true) (unforced : p.force = false)
    (h : checkOverwrite fs dir new p = .ok ()) (c : Condition) : c.Holds fs dir new p := by
  rw [checkOverwrite_of_contains contains unforced] at h
  split at h
  · rename_i hmanaged
    split at h
    · rename_i hrecorded
      obtain ⟨old, hprevious, hsuccessor⟩ := exceptBind_eq_ok.mp h
      have hloads := previous_eq_ok_iff.mp hprevious
      obtain ⟨hversion, hrequested, hgroups⟩ := checkSuccessor_eq_ok_iff.mp hsuccessor
      cases c with
      | managed => exact hmanaged
      | recorded => exact hrecorded
      | legible => exact ⟨old, hloads⟩
      | sameVersion => exact fun other hother => hloads.eq hother ▸ hversion
      | requested => exact hrequested
      | groupsKept => exact fun other hother => hloads.eq hother ▸ hgroups
    · cases h
  · cases h

/-- What a comparison with the blueprint of the artifact refuses is refused for the first
    condition that does not hold, and it is told which. -/
theorem refused_of_checkSuccessor (managed : Condition.Holds fs dir new p .managed)
    (recorded : Condition.Holds fs dir new p .recorded) (loads : Loads fs dir old)
    (h : checkSuccessor dir old new p = .error r) :
    (broken r).FirstBroken fs dir new p ∧ Tells fs dir new r := by
  have hlegible : Condition.Holds fs dir new p .legible := ⟨old, loads⟩
  have hsame : old.toolkitVersion = new.toolkitVersion →
      Condition.Holds fs dir new p .sameVersion :=
    fun hversion other hother => loads.eq hother ▸ hversion
  rcases checkSuccessor_eq_error_iff.mp h with ⟨hversion, rfl⟩ |
    ⟨hversion, hunrequested, rfl⟩ | ⟨hversion, hoverwrite, g, hremoved, rfl⟩
  · exact ⟨⟨[.managed, .recorded, .legible], _, rfl, by simp [managed, recorded, hlegible],
      fun hsame => hversion (hsame old loads)⟩, rfl, rfl, old, loads, rfl⟩
  · refine ⟨⟨[.managed, .recorded, .legible, .sameVersion], _, rfl, ?_, ?_⟩, rfl⟩
    · simp [managed, recorded, hlegible, hsame hversion]
    · exact Bool.eq_false_iff.mp hunrequested
  · have hrequested : Condition.Holds fs dir new p .requested := hoverwrite
    obtain ⟨before, after, hsplit, hkept, hmissing⟩ := removedGroup?_eq_some_iff.mp hremoved
    have hgroup : g ∈ old.groupNames := hsplit ▸ List.mem_append_right before List.mem_cons_self
    refine ⟨⟨[.managed, .recorded, .legible, .sameVersion, .requested], _, rfl, ?_,
      fun hgroups => hmissing (hgroups old loads g hgroup)⟩, old, before, after, loads,
      hsplit, hkept, hmissing⟩
    simp [managed, recorded, hlegible, hsame hversion, hrequested]

/-- What is refused over something that stands there is refused for the first condition that
    does not hold, and it is told which. -/
theorem refused_of_checkOverwrite (contains : fs.contains dir = true)
    (unforced : p.force = false) (h : checkOverwrite fs dir new p = .error r) :
    (broken r).FirstBroken fs dir new p ∧ Tells fs dir new r := by
  rw [checkOverwrite_of_contains contains unforced] at h
  split at h
  · rename_i hdirectory
    have hmanaged : Condition.Holds fs dir new p .managed := hdirectory
    split at h
    · rename_i hfile
      have hrecorded : Condition.Holds fs dir new p .recorded := hfile
      cases hprevious : previous fs dir with
      | error e =>
          rw [hprevious] at h
          cases h
          obtain ⟨reason, rfl, hillegible⟩ := previous_eq_error_iff.mp hprevious
          exact ⟨⟨[.managed, .recorded], _, rfl, by simp [hmanaged, hrecorded],
            not_loads_of_illegible hillegible⟩, hillegible⟩
      | ok old =>
          rw [hprevious] at h
          exact refused_of_checkSuccessor hmanaged hrecorded (previous_eq_ok_iff.mp hprevious) h
    · rename_i hmissing
      have hunrecorded : ¬ Condition.Holds fs dir new p .recorded := hmissing
      cases h
      exact ⟨⟨[.managed], _, rfl, by simp [hmanaged], hunrecorded⟩, rfl, rfl⟩
  · rename_i hforeign
    have hunmanaged : ¬ Condition.Holds fs dir new p .managed := hforeign
    cases h
    exact ⟨⟨[], _, rfl, fun _ hb => absurd hb List.not_mem_nil, hunmanaged⟩, rfl⟩

/-! ## The decision -/

/-- At most one condition is the first that does not hold. -/
theorem Condition.FirstBroken.unique {c c' : Condition} (h : c.FirstBroken fs dir new p)
    (h' : c'.FirstBroken fs dir new p) : c = c' := by
  classical
  have hfind : ∀ c : Condition, c.FirstBroken fs dir new p →
      inOrder.find? (fun b => decide ¬ b.Holds fs dir new p) = some c := by
    rintro c ⟨before, after, hsplit, hkept, hbroken⟩
    exact List.find?_eq_some_iff_append.mpr
      ⟨decide_eq_true hbroken, before, after, hsplit, by simpa using hkept⟩
  exact Option.some.inj ((hfind c h).symm.trans (hfind c' h'))

/-- For one broken condition there is one refusal that tells the truth. -/
theorem Tells.unique {r' : Refusal} (h : Tells fs dir new r) (h' : Tells fs dir new r')
    (same : broken r = broken r') : r = r' := by
  cases r with
  | notManaged d => cases r' <;> cases same; rw [h, h']
  | missingArtifact d a => cases r' <;> cases same; rw [h.1, h.2, h'.1, h'.2]
  | invalidArtifact reason =>
      cases r' <;> cases same
      have hprevious := previous_eq_error_iff.mpr ⟨_, rfl, h⟩
      rw [previous_eq_error_iff.mpr ⟨_, rfl, h'⟩] at hprevious
      exact (Except.error.inj hprevious).symm
  | versionMismatch d v w =>
      cases r' <;> cases same
      obtain ⟨rfl, rfl, old, hloads, rfl⟩ := h
      obtain ⟨rfl, rfl, other, hother, rfl⟩ := h'
      rw [hloads.eq hother]
  | overwriteNotRequested d => cases r' <;> cases same; rw [h, h']
  | groupRemoved g =>
      cases r' <;> cases same
      obtain ⟨old, before, after, hloads, hsplit⟩ := h
      obtain ⟨other, before', after', hother, hsplit'⟩ := h'
      rw [hloads.eq hother] at hsplit'
      have hremoved := removedGroup?_eq_some_iff.mpr ⟨before, after, hsplit⟩
      rw [removedGroup?_eq_some_iff.mpr ⟨before', after', hsplit'⟩] at hremoved
      rw [Option.some.inj hremoved]

/-- Every refusal comes with something to do about it. -/
theorem hint_ne_empty (r : Refusal) : r.hint ≠ "" := by
  -- no hint depends on what the refusal is about
  cases r with
  | missingArtifact d artifact => exact (by decide : (Refusal.missingArtifact "" "").hint ≠ "")
  | overwriteNotRequested d => exact (by decide : (Refusal.overwriteNotRequested "").hint ≠ "")
  | _ => exact (by decide : Refusal.forceHint ≠ "")

/-- The gate lets a blueprint through if the directory is missing, if it is forced, or if all
    conditions hold; otherwise it refuses it for the first condition that does not hold, tells
    which and gives a hint.  It only looks: a run that it ends leaves everything as the
    expansion left it. -/
theorem checkOverwrite_decides (fs : FileSystem) (dir : String) (new : Blueprint)
    (p : Permission) :
    (checkOverwrite fs dir new p = .ok () ↔
      fs.contains dir = false ∨ p.force = true ∨ ∀ c : Condition, c.Holds fs dir new p) ∧
    (∀ r, checkOverwrite fs dir new p = .error r ↔
      fs.contains dir = true ∧ p.force = false ∧ (broken r).FirstBroken fs dir new p ∧
        Tells fs dir new r) ∧
    (∀ r : Refusal, r.hint ≠ "") ∧
    ∀ {ω : Type} (t : Run.Tools ω) (o : Run.Options) (out : String) (now : Instant)
      (s mid : Catalog.State ω) (x : Run.Expansion) (r : Refusal),
      Run.expand t o s = (.ok x, mid) → x.result.blueprint = new → mid.files = fs →
      Run.deploymentDir out new = .ok dir → checkOverwrite fs dir new p = .error r →
        Run.create t o ⟨out, p⟩ now s = (.error (.overwrite r), mid) := by
  -- what is refused is refused over something that stands there, without force
  have hasked : ∀ r, checkOverwrite fs dir new p = .error r →
      fs.contains dir = true ∧ p.force = false := by
    intro r h
    by_contra hfree
    rw [checkOverwrite_of_free (by simpa [or_iff_not_imp_left] using hfree)] at h
    cases h
  refine ⟨⟨fun h => ?_, fun h => ?_⟩, fun r => ⟨fun h => ?_, ?_⟩, fun r => ?_, ?_⟩
  · by_cases hfree : fs.contains dir = false ∨ p.force = true
    · exact hfree.imp_right .inl
    · rw [not_or, Bool.not_eq_false, Bool.not_eq_true] at hfree
      exact .inr (.inr (holds_of_checkOverwrite hfree.1 hfree.2 h))
  · cases hcheck : checkOverwrite fs dir new p with
    | ok u => rfl
    | error r =>
        obtain ⟨hcontains, hunforced⟩ := hasked r hcheck
        obtain ⟨⟨-, -, -, -, hbroken⟩, -⟩ := refused_of_checkOverwrite hcontains hunforced hcheck
        rcases h with hmissing | hforced | hall
        · exact absurd (hmissing.symm.trans hcontains) Bool.false_ne_true
        · exact absurd (hunforced.symm.trans hforced) Bool.false_ne_true
        · exact absurd (hall (broken r)) hbroken
  · obtain ⟨hcontains, hunforced⟩ := hasked r h
    exact ⟨hcontains, hunforced, refused_of_checkOverwrite hcontains hunforced h⟩
  · rintro ⟨hcontains, hunforced, hfirst, htells⟩
    cases hcheck : checkOverwrite fs dir new p with
    | ok u =>
        obtain ⟨-, -, -, -, hbroken⟩ := hfirst
        exact absurd (holds_of_checkOverwrite hcontains hunforced hcheck (broken r)) hbroken
    | error r' =>
        obtain ⟨hfirst', htells'⟩ := refused_of_checkOverwrite hcontains hunforced hcheck
        rw [htells'.unique htells (hfirst'.unique hfirst)]
  · exact hint_ne_empty r
  · rintro ω t o out now s mid x r hexpand rfl rfl hdir hrefused
    have hcleared : Run.cleared mid.files ⟨out, p⟩ x = .error (.overwrite r) := by
      rw [Run.cleared, hdir]
      dsimp only [bind, Except.bind]
      rw [hrefused]
      rfl
    exact (Run.Refused.clearing hexpand hcleared).create now

/-- A blueprint without groups, beside a directory that has its deployment name. -/
def besideForeign : Catalog.State Unit :=
  ⟨.empty, ⟨⟨[(["d"], .directory), (["bp.yaml"], .file (.text
    "blueprint_name: t\nvars: \x7bdeployment_name: d\x7d\ndeployment_groups: []\n"))], []⟩, ()⟩⟩

/-- A successor that drops a group is refused for that group, and a run over a directory that
    was made by someone else ends without a change. -/
theorem checkOverwrite_decides_dropped :
    (Condition.groupsKept.FirstBroken afterGrowth "d" (grouped ["b"]) ⟨true, false⟩ ∧
      Tells afterGrowth "d" (grouped ["b"]) (.groupRemoved "a")) ∧
    ∃ x mid, Run.expand Run.withSparseStore Run.remoteOptions besideForeign = (.ok x, mid) ∧
      Run.deploymentDir "" x.result.blueprint = .ok "d" ∧
      checkOverwrite mid.files "d" x.result.blueprint ⟨true, false⟩ = .error (.notManaged "d") ∧
      Run.create Run.withSparseStore Run.remoteOptions ⟨"", ⟨true, false⟩⟩ ⟨0, 0⟩ besideForeign =
        (.error (.overwrite (.notManaged "d")), mid) := by
  have hdropped : checkOverwrite afterGrowth "d" (grouped ["b"]) ⟨true, false⟩ =
      .error (.groupRemoved "a") := by decide +kernel
  obtain ⟨hname, hforeign⟩ :
      ((Run.expand Run.withSparseStore Run.remoteOptions besideForeign).1.toOption.bind
          fun x => x.result.blueprint.deploymentName?) = some "d" ∧
        ((Run.expand Run.withSparseStore Run.remoteOptions besideForeign).1.toOption.map fun x =>
          checkOverwrite (Run.expand Run.withSparseStore Run.remoteOptions besideForeign).2.files
            "d" x.result.blueprint ⟨true, false⟩) = some (.error (.notManaged "d")) := by
    decide +kernel
  obtain ⟨-, hrefuses, -, -⟩ :=
    checkOverwrite_decides afterGrowth "d" (grouped ["b"]) ⟨true, false⟩
  refine ⟨((hrefuses _).mp hdropped).2.2, ?_⟩
  cases hexpand : Run.expand Run.withSparseStore Run.remoteOptions besideForeign with
  | mk outcome mid =>
      rw [hexpand] at hname hforeign
      cases outcome with
      | error e => cases hname
      | ok x =>
          have hrefused : checkOverwrite mid.files "d" x.result.blueprint ⟨true, false⟩ =
              .error (.notManaged "d") := Option.some.inj hforeign
          have hdir : Run.deploymentDir "" x.result.blueprint = .ok "d" := by
            have hfound : x.result.blueprint.deploymentName? = some "d" := hname
            rw [Run.deploymentDir, hfound]
            rfl
          obtain ⟨-, -, -, hends⟩ :=
            checkOverwrite_decides mid.files "d" x.result.blueprint ⟨true, false⟩
          exact ⟨x, mid, rfl, hdir, hrefused,
            hends _ _ "" ⟨0, 0⟩ _ mid x _ hexpand rfl rfl hdir hrefused⟩

end Deployment
end HpcBlueprint
