/-
  Where a run that creates a deployment writes.

  The deployment directory is the one of the deployment name in the output directory.  The
  name names a single directory, so this is a child of the output directory, and everything
  that a write makes, replaces or renames lies in it.  Only where the output directory or
  something above it is missing, directories are made outside.  Before the write packages are
  downloaded, and these go to directories of their own.
-/
import HpcBlueprint.Proofs.Expand.Expansion
import HpcBlueprint.Proofs.Files.Within
import HpcBlueprint.Proofs.Run.Refusal

namespace HpcBlueprint

open Catalog Deployment FileSystem

/-! ## The deployment name -/

theorem IsDirectoryName.isName {name : String} (h : IsDirectoryName name) : Path.IsName name := by
  obtain ⟨hempty, hdot, hdots, hslash, -⟩ := h
  exact Path.isName_of_slash_not_mem hslash hempty hdot hdots

/-- An expanded blueprint has a deployment name, which names a single directory. -/
theorem Blueprint.exists_deploymentName_of_expand {b : Blueprint} {settings : Settings}
    {finished : List Finished} {m : Materialized} (h : b.expand settings finished = .ok m) :
    ∃ name, m.blueprint.deploymentName? = some name ∧ IsDirectoryName name := by
  obtain ⟨f, -, wellFormed, rfl⟩ := expand_eq_ok_iff.mp h
  obtain ⟨name, hvalue, hname⟩ := wellFormed.deployment_name
  refine ⟨name, ?_, hname⟩
  have hvars : f.substituted.vars = f.values := rfl
  rw [deploymentName?, hvars, hvalue]
  rfl

namespace Deployment

variable {fs fs' : FileSystem} {b : Blueprint} {out name : String} {now : Instant}

/-! ## Writing below a directory -/

/-- What is passed on the way to a directory two names below that of a deployment is at or below
    the latter, or is passed on the way to the output directory. -/
theorem leads_of_passed {marker inner p : String} (fs : FileSystem) (hname : Path.IsName name)
    (hmarker : Path.IsName marker) (hinner : Path.IsName inner)
    (h : Path.Passed (Path.join (Path.join (Path.join out name) marker) inner) p) :
    fs.lexical (Path.join out name) <+: fs.lexical p ∨ Path.Passed out p := by
  have hbelow : fs.lexical (Path.join out name) <+:
      fs.lexical (Path.join (Path.join out name) marker) := by
    rw [lexical_join_name hmarker]
    exact List.prefix_append _ _
  -- from the innermost directory outwards, name by name
  rcases lexical_eq_or_passed fs hinner h with heq | h
  · refine .inl (hbelow.trans ?_)
    rw [heq, lexical_join_name hinner]
    exact List.prefix_append _ _
  · rcases lexical_eq_or_passed fs hmarker h with heq | h
    · rw [heq]
      exact .inl hbelow
    · rcases lexical_eq_or_passed fs hname h with heq | h
      · rw [heq]
        exact .inl (List.prefix_refl _)
      · exact .inr h

/-- The directories that a write makes first are below that of the deployment, or on the way to
    the output directory. -/
theorem leadWithin_ancestors (out : String) (hname : Path.IsName name) (fs : FileSystem) :
    fs.LeadWithin out (fs.lexical (Path.join out name))
      (Path.ancestors (artifactsDir (Path.join out name))) := by
  intro p hp
  rw [artifactsDir, markerDir] at hp
  exact leads_of_passed fs hname (by decide) (by decide) (Path.passed_of_mem_ancestorsWithin hp)

/-- The files of a deployment, and what is written beside them, are below its directory. -/
theorem prefix_lexical_of_mem_replacements {r : Replacement} {dir : String}
    (hr : r ∈ replacements b dir now) :
    fs.lexical dir <+: fs.lexical r.path ∧ fs.lexical dir <+: fs.lexical r.beside := by
  have hlocations : ∀ l ∈ Replacement.locations fs (replacements b dir now),
      fs.lexical dir <+: l := by
    intro l hl
    rw [locations_replacements] at hl
    obtain ⟨below, -, rfl⟩ := List.mem_map.mp hl
    exact List.prefix_append _ _
  constructor
  · exact hlocations _ (List.mem_flatMap.mpr ⟨r, hr, List.mem_cons_self⟩)
  · exact hlocations _ (List.mem_flatMap.mpr ⟨r, hr, by simp⟩)

theorem prefix_of_touched {rs : List Replacement} {dir : String}
    (hrs : ∀ r ∈ rs, r ∈ replacements b dir now) :
    ∀ step ∈ rs.flatMap Replacement.steps, ∀ l ∈ step.touched fs, fs.lexical dir <+: l := by
  intro step hstep l hl
  obtain ⟨r, hr, rfl | rfl⟩ := Replacement.mem_locations_of_touched hstep hl
  · exact (prefix_lexical_of_mem_replacements (hrs r hr)).1
  · exact (prefix_lexical_of_mem_replacements (hrs r hr)).2

/-- Whatever a write leaves behind differs from what it found in the directory of the
    deployment only, and in directories on the way to the output directory. -/
theorem sameButWithin_write (out : String) (hname : Path.IsName name) (fs : FileSystem)
    (b : Blueprint) (now : Instant) :
    SameButWithin out (fs.lexical (Path.join out name)) fs
      (write fs b (Path.join out name) now).2 := by
  have hmaking := sameButWithin_makeDirectories (leadWithin_ancestors out hname fs)
  rw [write]
  split
  · rename_i hmade
    rw [hmade] at hmaking
    exact hmaking
  · rename_i made hmade
    rw [hmade] at hmaking
    have hall : ∀ r ∈ replacements b (Path.join out name) now,
        r ∈ replacements b (Path.join out name) now := fun _ hr => hr
    have hsteps := (passes_of_applyAll made _).sameOutside (prefix_of_touched hall)
    rw [(addsDirectories_of_made hmade).lexical] at hsteps
    exact hmaking.trans (.of_sameOutside hsteps)

/-- Wherever a write is stopped, it has changed nothing else either. -/
theorem Stops.sameButWithin (hname : Path.IsName name) {k : Nat}
    (h : Stops fs b (Path.join out name) now k fs') :
    SameButWithin out (fs.lexical (Path.join out name)) fs fs' := by
  cases h with
  | making passes => exact passes.sameButWithin (leadWithin_ancestors out hname fs)
  | @replacing _ made mid _ r directories before next during =>
      have hmaking := sameButWithin_makeDirectories (leadWithin_ancestors out hname fs)
      have hkeeps := (addsDirectories_of_made directories).toKeeps
      rw [directories] at hmaking
      -- the replacements before this one, and then the steps that prepare this one
      have hdone := passes_of_applyAll made
        (((replacements b (Path.join out name) now).take k).flatMap Replacement.steps)
      rw [before] at hdone
      have hbefore : SameOutside (made.lexical (Path.join out name)) made mid :=
        hdone.sameOutside (prefix_of_touched fun _ hr => List.mem_of_mem_take hr)
      have hone : ∀ r' ∈ [r], r' ∈ replacements b (Path.join out name) now := by
        intro r' hr'
        rw [List.mem_singleton.mp hr']
        exact List.mem_of_getElem? next
      have hduring : SameOutside (mid.lexical (Path.join out name)) mid fs' := by
        refine during.sameOutside fun step hstep => prefix_of_touched hone step ?_
        rw [List.flatMap_singleton]
        exact List.mem_append_left _ hstep
      rw [hbefore.lexical] at hduring
      have hsteps := hbefore.trans hduring
      rw [hkeeps.lexical] at hsteps
      exact hmaking.trans (.of_sameOutside hsteps)

end Deployment

/-! ## Creating a deployment -/

namespace Run

variable {ω : Type} {t : Tools ω} {o : Options} {d : Destination} {now : Instant}
  {s mid : State ω} {x : Expansion}

theorem exists_deploymentName (h : expand t o s = (.ok x, mid)) :
    ∃ name, x.result.blueprint.deploymentName? = some name ∧ IsDirectoryName name := by
  obtain ⟨b, settings, -, hexpands, -⟩ := expand_eq_ok h
  unfold expandBlueprint at hexpands
  split at hexpands
  · cases hexpands
  · exact Blueprint.exists_deploymentName_of_expand (Prod.mk.inj hexpands).1

/-- A run that writes a deployment writes only in its own directory, a child of the output
    directory that has the deployment name.  Before that it downloads the packages of its
    blueprint at most, to new download directories if the fetchers put them there. -/
theorem create_writes_within (t : Tools ω) (o : Options) (d : Destination) (now : Instant)
    (s : State ω) :
    Downloads t.catalog (o.Requires s.files) s (expand t o s).2 ∧
    ((∀ package, o.Requires s.files package → t.catalog.KeepsTo package) →
      Undisturbed s (expand t o s).2) ∧
    ((create t o d now s).2 = (expand t o s).2 ∨
      ∃ x name, (expand t o s).1 = .ok x ∧
        x.result.blueprint.deploymentName? = some name ∧ IsDirectoryName name ∧
        (expand t o s).2.files.lexical (Path.join d.out name) =
          (expand t o s).2.files.lexical d.out ++ [name] ∧
        SameButWithin d.out ((expand t o s).2.files.lexical d.out ++ [name])
          (expand t o s).2.files (create t o d now s).2.files ∧
        ∀ k fs, Stops (expand t o s).2.files x.result.blueprint (Path.join d.out name) now k fs →
          SameButWithin d.out ((expand t o s).2.files.lexical d.out ++ [name])
            (expand t o s).2.files fs) := by
  refine ⟨downloads_expand t o s, fun keeps => (downloads_expand t o s).undisturbed keeps, ?_⟩
  rcases refused_or_granted t o d s with ⟨e, s', hrefused⟩ | ⟨x, dir, mid, hgranted⟩
  · refine .inl ?_
    rw [hrefused.create now]
    cases hrefused with
    | expanding fails => rw [fails]
    | clearing expands refusal => rw [expands]
  · refine .inr ?_
    obtain ⟨name, hdeployment, hdirectory⟩ := exists_deploymentName hgranted.expands
    have hname := hdirectory.isName
    have hdir : dir = Path.join d.out name := by
      have hfound := hgranted.directory
      rw [deploymentDir, hdeployment] at hfound
      exact (Except.ok.inj hfound).symm
    subst hdir
    obtain ⟨hstate, -⟩ := hgranted.create now
    have hlexical : mid.files.lexical (Path.join d.out name) = mid.files.lexical d.out ++ [name] :=
      lexical_join_name hname d.out
    have hwrites := sameButWithin_write d.out hname mid.files x.result.blueprint now
    have hfiles : ∀ fs, (mid.withFiles fs).files = fs := fun _ => rfl
    rw [hgranted.expands, hstate]
    dsimp only
    rw [hfiles]
    rw [hlexical] at hwrites
    refine ⟨x, name, rfl, hdeployment, hdirectory, hlexical, hwrites, fun k fs hstops => ?_⟩
    have hstopped := hstops.sameButWithin hname
    rwa [hlexical] at hstopped

/-- A blueprint without modules, which names its deployment by another variable. -/
def namedText : String :=
  "blueprint_name: t\nvars: \x7bowner: hpc, deployment_name: \"d-$(vars.owner)\"\x7d\n" ++
    "deployment_groups:\n- \x7bgroup: g, modules: []\x7d\n"

/-- Nothing but a blueprint. -/
def beforeCreate : State Unit := ⟨.empty, ⟨⟨[(["bp.yaml"], .file (.text namedText))], []⟩, ()⟩⟩

/-- The deployment is made in an output directory that is missing, like the one above it. -/
theorem create_writes_within_new :
    (∀ package, remoteOptions.Requires beforeCreate.files package →
      withSparseStore.catalog.KeepsTo package) ∧
      Undisturbed beforeCreate (expand withSparseStore remoteOptions beforeCreate).2 ∧
      (create withSparseStore remoteOptions ⟨"work/out", ⟨false, false⟩⟩ ⟨0, 0⟩
        beforeCreate).2.files.node? ["work", "out", "d-hpc", ".clusterkit"] = some .directory ∧
      SameButWithin "work/out" ["work", "out", "d-hpc"]
        (expand withSparseStore remoteOptions beforeCreate).2.files
        (create withSparseStore remoteOptions ⟨"work/out", ⟨false, false⟩⟩ ⟨0, 0⟩
          beforeCreate).2.files := by
  obtain ⟨-, hundisturbed, hwrites⟩ := create_writes_within withSparseStore remoteOptions
    ⟨"work/out", ⟨false, false⟩⟩ ⟨0, 0⟩ beforeCreate
  obtain ⟨hname, hmissing, hmade, hout⟩ :
      ((expand withSparseStore remoteOptions beforeCreate).1.toOption.bind
          fun x => x.result.blueprint.deploymentName?) = some "d-hpc" ∧
        (expand withSparseStore remoteOptions beforeCreate).2.files.node?
          ["work", "out", "d-hpc", ".clusterkit"] = none ∧
        (create withSparseStore remoteOptions ⟨"work/out", ⟨false, false⟩⟩ ⟨0, 0⟩
          beforeCreate).2.files.node? ["work", "out", "d-hpc", ".clusterkit"] = some .directory ∧
        (expand withSparseStore remoteOptions beforeCreate).2.files.lexical "work/out" =
          ["work", "out"] := by
    decide +kernel
  refine ⟨fun package _ => keepsTo_withSparseStore package,
    hundisturbed fun package _ => keepsTo_withSparseStore package, hmade, ?_⟩
  rcases hwrites with hsame | ⟨x, name, hx, hdeployment, -, -, hwithin, -⟩
  · rw [hsame, hmissing] at hmade
    cases hmade
  · rw [hx] at hname
    obtain rfl : "d-hpc" = name := Option.some.inj (hname.symm.trans hdeployment)
    rwa [hout] at hwithin

/-- Objects of one package, with a module in it. -/
def moduleStore : ObjectStore :=
  ⟨true, [("b", [("pkg/a/main.tf", .text "")])], 1, [], Nat.one_pos⟩

/-- A run that writes its deployment may have put a package beside it before. -/
theorem exists_create_downloads :
    ∃ (t : Tools Unit) (o : Options) (d : Destination) (s : State Unit) (x : Created)
      (s' : State Unit), create t o d ⟨0, 0⟩ s = (.ok x, s') ∧
        s'.files.lexical x.dir = ["out", "d"] ∧
        s'.files.node? ["out", "d", ".clusterkit"] = some .directory ∧
        s.files.node? ["tmp", "module-0", "module", "a", "main.tf"] = none ∧
        s'.files.node? ["tmp", "module-0", "module", "a", "main.tf"] =
          some (.file (.text "")) := by
  obtain ⟨hdir, hout, hmade, hfetched⟩ :
      (create (withStore moduleStore) remoteOptions ⟨"out", ⟨false, false⟩⟩ ⟨0, 0⟩
          beforeFetch).1.toOption.map (·.dir) = some "out/d" ∧
        (create (withStore moduleStore) remoteOptions ⟨"out", ⟨false, false⟩⟩ ⟨0, 0⟩
          beforeFetch).2.files.lexical "out/d" = ["out", "d"] ∧
        (create (withStore moduleStore) remoteOptions ⟨"out", ⟨false, false⟩⟩ ⟨0, 0⟩
          beforeFetch).2.files.node? ["out", "d", ".clusterkit"] = some .directory ∧
        (create (withStore moduleStore) remoteOptions ⟨"out", ⟨false, false⟩⟩ ⟨0, 0⟩
          beforeFetch).2.files.node? ["tmp", "module-0", "module", "a", "main.tf"] =
            some (.file (.text "")) := by
    decide +kernel
  cases hcreate : create (withStore moduleStore) remoteOptions ⟨"out", ⟨false, false⟩⟩ ⟨0, 0⟩
      beforeFetch with
  | mk outcome s' =>
      rw [hcreate] at hdir hout hmade hfetched
      cases outcome with
      | error e => cases hdir
      | ok x =>
          have hx : x.dir = "out/d" := Option.some.inj hdir
          rw [← hx] at hout
          exact ⟨_, _, _, beforeFetch, x, s', hcreate, hout, hmade, by decide, hfetched⟩

end Run
end HpcBlueprint
