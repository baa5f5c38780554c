/-
  What a run leaves behind that is refused before it writes.

  Loading, expanding, fetching, validating and asking the gate all come before the first
  write.  A run that one of them ends has done nothing but download packages, and a deployment
  is written only by a run that none of them ended.  What a download does is up to its fetcher:
  if packages are put where they are told to, no file has changed but in new download
  directories, but an object of a store may be put anywhere.
-/
import HpcBlueprint.Proofs.Catalog.Undisturbed
import HpcBlueprint.Proofs.Deployment.Description
import HpcBlueprint.Proofs.Expand.Attach

namespace HpcBlueprint

open Catalog Deployment FileSystem

/-! ## Packages -/

/-- Some module of the blueprint lies in a package that has to be fetched. -/
def Blueprint.Requires (b : Blueprint) (package : String) : Prop :=
  ∃ entry ∈ b.modules, Source.Requires entry.2.source package

/-- Settings change no module, so every placed module is one of the blueprint. -/
theorem Blueprint.mem_modules_of_readied {b ready : Blueprint} {settings : Settings}
    (h : b.readied settings = .ok ready) {entry : Place × Module} (hentry : entry ∈ ready.placed) :
    (entry.1.group, entry.2) ∈ b.modules := by
  have hmodules : ready.modules = b.modules := by
    simp only [readied, bind_eq_ok, pure_eq_ok] at h
    obtain ⟨-, -, rfl⟩ := h
    rfl
  rw [← hmodules, modules_eq_map_placed]
  exact List.mem_map.mpr ⟨entry, hentry, rfl⟩

namespace Run

variable {ω : Type} {t : Tools ω} {o : Options} {d : Destination} {now : Instant}
  {s s' mid : State ω} {x : Expansion} {dir : String}

/-- The blueprint that is expanded has a module in a package. -/
def Options.Requires (o : Options) (fs : FileSystem) (package : String) : Prop :=
  ∃ b settings, sources fs o = .ok (b, settings) ∧ b.Requires package

/-! ## Before anything is written -/

theorem downloads_expandBlueprint (c : Catalog ω) (b : Blueprint) (settings : Settings)
    (s : State ω) : Downloads c b.Requires s (expandBlueprint c b settings s).2 := by
  unfold expandBlueprint
  split
  · exact .refl s
  · rename_i hready
    exact downloads_lookupAll (fun entry hentry package hpackage =>
      ⟨_, Blueprint.mem_modules_of_readied hready hentry, hpackage⟩) s

/-- Whatever comes of an expansion, only packages of the blueprint are downloaded for it. -/
theorem downloads_expand (t : Tools ω) (o : Options) (s : State ω) :
    Downloads t.catalog (o.Requires s.files) s (expand t o s).2 := by
  unfold expand
  split
  · exact .refl s
  · rename_i b settings hsources
    have hexpands : Downloads t.catalog (o.Requires s.files) s
        (expandBlueprint t.catalog b settings s).2 :=
      (downloads_expandBlueprint t.catalog b settings s).mono fun package hpackage =>
        ⟨b, settings, hsources, hpackage⟩
    split
    · rename_i hfails
      rwa [hfails] at hexpands
    · rename_i hdone
      rwa [hdone] at hexpands

theorem validated_eq_ok {r : Validator.Registry} {m : Materialized} (h : validated r m = .ok x) :
    x.result = m ∧ (m.blueprint.level = .error → r.failures m = []) := by
  unfold validated at h
  split at h
  · rename_i warnings hverdict
    cases h
    refine ⟨rfl, fun hlevel => ?_⟩
    -- at this level the verdict is only good if there are no failures at all
    simp only [Validator.Registry.verdict, Validator.Registry.run, hlevel] at hverdict
    split at hverdict
    · cases hverdict
    · rename_i hnone
      simpa using hnone
  · cases h

/-- What a run has expanded comes from its sources, and the validators have passed it. -/
theorem expand_eq_ok (h : expand t o s = (.ok x, mid)) :
    ∃ b settings, sources s.files o = .ok (b, settings) ∧
      expandBlueprint t.catalog b settings s = (.ok x.result, mid) ∧
      (x.result.blueprint.level = .error → t.validators.failures x.result = []) := by
  unfold expand at h
  split at h
  · cases h
  · rename_i b settings hsources
    split at h
    · cases h
    · rename_i m s' hexpands
      obtain ⟨hvalidated, rfl⟩ := Prod.mk.inj h
      obtain ⟨rfl, hfailures⟩ := validated_eq_ok hvalidated
      exact ⟨b, settings, hsources, hexpands, hfailures⟩

/-- No failure of a validator is pending behind an expansion at the level of errors. -/
theorem failures_of_expand (h : expand t o s = (.ok x, mid))
    (level : x.result.blueprint.level = .error) : t.validators.failures x.result = [] := by
  obtain ⟨-, -, -, -, hfailures⟩ := expand_eq_ok h
  exact hfailures level

/-! ## Refusals -/

/-- A run to create a deployment ends with an error before it comes to writing. -/
inductive Refused (t : Tools ω) (o : Options) (d : Destination) (s : State ω) :
    Error → State ω → Prop
  /-- The blueprint cannot be loaded, expanded or validated. -/
  | expanding {e : Error} {s' : State ω} (fails : expand t o s = (.error e, s')) :
      Refused t o d s e s'
  /-- There is no directory that the deployment may be written to. -/
  | clearing {e : Error} {x : Expansion} {s' : State ω} (expands : expand t o s = (.ok x, s'))
      (refusal : cleared s'.files d x = .error e) : Refused t o d s e s'

/-- What has to be in order before a deployment is written. -/
structure Granted (t : Tools ω) (o : Options) (d : Destination) (s : State ω) (x : Expansion)
    (dir : String) (mid : State ω) : Prop where
  expands : expand t o s = (.ok x, mid)
  directory : deploymentDir d.out x.result.blueprint = .ok dir
  gate : checkOverwrite mid.files dir x.result.blueprint d.permission = .ok ()
  validators : x.result.blueprint.level = .error → t.validators.failures x.result = []

theorem Refused.create {e : Error} (h : Refused t o d s e s') (now : Instant) :
    create t o d now s = (.error e, s') := by
  unfold Run.create
  cases h with
  | expanding fails => rw [fails]
  | clearing expands refusal =>
      rw [expands]
      dsimp only
      rw [refusal]

theorem Refused.downloads {e : Error} (h : Refused t o d s e s') :
    Downloads t.catalog (o.Requires s.files) s s' := by
  have hexpand := downloads_expand t o s
  cases h with
  | expanding fails => rwa [fails] at hexpand
  | clearing expands refusal => rwa [expands] at hexpand

theorem refused_or_granted (t : Tools ω) (o : Options) (d : Destination) (s : State ω) :
    (∃ e s', Refused t o d s e s') ∨ ∃ x dir mid, Granted t o d s x dir mid := by
  cases hexpand : expand t o s with
  | mk outcome mid =>
      cases outcome with
      | error e => exact .inl ⟨e, mid, .expanding hexpand⟩
      | ok x =>
          cases hcleared : cleared mid.files d x with
          | error e => exact .inl ⟨e, mid, .clearing hexpand hcleared⟩
          | ok dir =>
              obtain ⟨hdir, hgate⟩ := cleared_eq_ok_iff.mp hcleared
              exact .inr ⟨x, dir, mid, hexpand, hdir, hgate, failures_of_expand hexpand⟩

/-- A run that everything is in order for comes to what comes of its write. -/
theorem Granted.create (h : Granted t o d s x dir mid) (now : Instant) :
    (create t o d now s).2 = mid.withFiles (write mid.files x.result.blueprint dir now).2 ∧
      ∀ e, (create t o d now s).1 = .error e ↔
        ∃ f, e = .files f ∧ (write mid.files x.result.blueprint dir now).1 = .error f := by
  unfold Run.create
  rw [h.expands]
  dsimp only
  rw [cleared_eq_ok_iff.mpr ⟨h.directory, h.gate⟩]
  dsimp only
  cases write mid.files x.result.blueprint dir now with
  | mk outcome fs =>
      cases outcome with
      | ok => simp
      | error f => simp [eq_comm]

/-- A run that is refused has done nothing but download packages of its blueprint, and one that
    is not refused writes exactly what the gate has let through, with no failure of a validator
    pending at the level of errors.  Downloads leave all files as they were, apart from new
    download directories, if the fetchers put these packages where they are told to: git and a
    store do if the commands of the one change nothing but the directory that they name, and
    what is left of the keys in the other never leads above a package. -/
theorem undisturbed_of_refused (t : Tools ω) (o : Options) (d : Destination) (now : Instant)
    (out : String) (s : State ω) :
    (∀ e s', Refused t o d s e s' →
      create t o d now s = (.error e, s') ∧ Downloads t.catalog (o.Requires s.files) s s') ∧
    (∀ e s', expand t o s = (.error e, s') →
      expandToFile t o out s = (.error e, s') ∧
        Downloads t.catalog (o.Requires s.files) s s') ∧
    ((∀ package, o.Requires s.files package → t.catalog.KeepsTo package) →
      ∀ s', Downloads t.catalog (o.Requires s.files) s s' → Undisturbed s s') ∧
    (∀ root git store note, t.catalog = ⟨root, [Git.fetcher git, S3.fetcher store note]⟩ →
      (∀ package, o.Requires s.files package → Git.handles package = true → ∀ number,
        Git.KeepsTo git package (Path.join (downloadDir number) packageName)) →
      (∀ package, o.Requires s.files package → S3.handles package = true →
        ∀ rest ∈ S3.packageRests store package, Path.Stays rest) →
      ∀ s', Downloads t.catalog (o.Requires s.files) s s' → Undisturbed s s') ∧
    ∀ r s', create t o d now s = (r, s') →
      (∃ e, r = .error e ∧ Refused t o d s e s') ∨
      ∃ x dir mid, Granted t o d s x dir mid ∧
        Downloads t.catalog (o.Requires s.files) s mid ∧
        s' = mid.withFiles (write mid.files x.result.blueprint dir now).2 ∧
        ∀ e, r = .error e ↔
          ∃ f, e = .files f ∧ (write mid.files x.result.blueprint dir now).1 = .error f := by
  refine ⟨fun e s' h => ⟨h.create now, h.downloads⟩, ?_,
    fun keeps s' h => h.undisturbed keeps, ?_, ?_⟩
  · intro e s' h
    refine ⟨by rw [expandToFile, h], ?_⟩
    have hexpand := downloads_expand t o s
    rwa [h] at hexpand
  · intro root git store note hcatalog cloned stored s' h
    refine h.undisturbed fun package hpackage => ?_
    rw [hcatalog]
    exact keepsTo_of_fetchers (cloned package hpackage) (stored package hpackage)
  · intro r s' h
    rcases refused_or_granted t o d s with ⟨e, s'', hrefused⟩ | ⟨x, dir, mid, hgranted⟩
    · rw [hrefused.create now, Prod.mk.injEq] at h
      obtain ⟨rfl, rfl⟩ := h
      exact .inl ⟨e, rfl, hrefused⟩
    · -- the write starts from what the expansion has left
      have hexpand := downloads_expand t o s
      rw [hgranted.expands] at hexpand
      obtain ⟨hstate, hfails⟩ := hgranted.create now
      rw [h] at hstate hfails
      exact .inr ⟨x, dir, mid, hgranted, hexpand, hstate, hfails⟩

/-- The fetchers of a machine without a git, with a store of objects. -/
def withStore (store : ObjectStore) : Tools Unit :=
  ⟨⟨"embedded", [Git.fetcher Git.missing, S3.fetcher store fun _ w => w]⟩, []⟩

/-- Objects of one package, in which there is no module. -/
def sparseStore : ObjectStore :=
  ⟨true, [("b", [("pkg/README", .text "none")])], 1, [], Nat.one_pos⟩

/-- The fetchers with that store. -/
def withSparseStore : Tools Unit := withStore sparseStore

theorem tidyStore_sparseStore : S3.TidyStore sparseStore := by
  intro bucket objects key content hbucket hobject _
  obtain ⟨-, rfl⟩ := Prod.mk.inj (List.mem_singleton.mp hbucket)
  obtain ⟨rfl, -⟩ := Prod.mk.inj (List.mem_singleton.mp hobject)
  decide

theorem keepsTo_withSparseStore (package : String) : withSparseStore.catalog.KeepsTo package :=
  keepsTo_of_fetchers (fun _ _ => Git.keepsTo_missing _ _)
    fun _ _ hrest => tidyStore_sparseStore.stays hrest

/-- A blueprint with one module that has to be fetched. -/
def remoteText : String :=
  "blueprint_name: t\nvars: \x7bdeployment_name: d\x7d\ndeployment_groups:\n" ++
    "- \x7bgroup: g, modules: [\x7bid: m, source: \"s3://b/pkg//a\"\x7d]\x7d\n"

/-- Nothing but a blueprint with a module that has to be fetched. -/
def beforeFetch : State Unit :=
  ⟨.empty, ⟨⟨[(["tmp"], .directory), (["bp.yaml"], .file (.text remoteText))], []⟩, ()⟩⟩

def remoteOptions : Options := ⟨"bp.yaml", none, ⟨[], [], none, []⟩⟩

/-- The package is fetched, and the run is refused since the module is not in it. -/
theorem undisturbed_of_refused_fetched :
    (∀ package, remoteOptions.Requires beforeFetch.files package →
      withSparseStore.catalog.KeepsTo package) ∧
      ∃ e s', Refused withSparseStore remoteOptions ⟨"out", ⟨false, false⟩⟩ beforeFetch e s' ∧
        s'.files.node? ["tmp", "module-0", "module", "README"] = some (.file (.text "none")) ∧
        Undisturbed beforeFetch s' := by
  obtain ⟨hfails, hfetched⟩ :
      (expand withSparseStore remoteOptions beforeFetch).1.toOption.isNone = true ∧
        (expand withSparseStore remoteOptions beforeFetch).2.files.node?
          ["tmp", "module-0", "module", "README"] = some (.file (.text "none")) := by
    decide +kernel
  obtain ⟨hrefused, -, hkept, -⟩ := undisturbed_of_refused withSparseStore remoteOptions
    ⟨"out", ⟨false, false⟩⟩ ⟨0, 0⟩ "expanded.yaml" beforeFetch
  cases hexpand : expand withSparseStore remoteOptions beforeFetch with
  | mk outcome s' =>
      rw [hexpand] at hfails hfetched
      cases outcome with
      | ok x => cases hfails
      | error e =>
          have hends := Refused.expanding (d := ⟨"out", ⟨false, false⟩⟩) hexpand
          exact ⟨fun package _ => keepsTo_withSparseStore package, e, s', hends, hfetched,
            hkept (fun package _ => keepsTo_withSparseStore package) s' (hrefused e s' hends).2⟩

/-- An object whose key has two slashes in a row is put at the root, also by a run that is
    refused. -/
theorem exists_refused_elsewhere :
    ∃ (t : Tools Unit) (o : Options) (d : Destination) (s : State Unit) (e : Error)
      (s' : State Unit), Refused t o d s e s' ∧ create t o d ⟨0, 0⟩ s = (.error e, s') ∧
        s.files.node? ["rooted.tf"] = none ∧
        s'.files.node? ["rooted.tf"] = some (.file (.text "x")) := by
  obtain ⟨hfails, hstored⟩ :
      (expand (withStore (S3.shelf ["pkg//rooted.tf"])) remoteOptions
          beforeFetch).1.toOption.isNone = true ∧
        (expand (withStore (S3.shelf ["pkg//rooted.tf"])) remoteOptions
          beforeFetch).2.files.node? ["rooted.tf"] = some (.file (.text "x")) := by
    decide +kernel
  cases hexpand : expand (withStore (S3.shelf ["pkg//rooted.tf"])) remoteOptions beforeFetch with
  | mk outcome s' =>
      rw [hexpand] at hfails hstored
      cases outcome with
      | ok x => cases hfails
      | error e =>
          have hends := Refused.expanding (d := ⟨"out", ⟨false, false⟩⟩) hexpand
          exact ⟨_, _, _, beforeFetch, e, s', hends, hends.create ⟨0, 0⟩, by decide, hstored⟩

end Run
end HpcBlueprint
