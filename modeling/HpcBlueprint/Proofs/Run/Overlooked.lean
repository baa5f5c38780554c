/-
  Runs that overlook metadata.

  The services that files of metadata ask for are kept in schemas, and schemas go through
  everything that a run does.  But nothing ever comes of them: in two workspaces that differ in
  files of metadata only, modules have the same inputs and outputs, blueprints expand to the
  same and are judged in the same way, and deployments hold the same but for the time.
-/
import HpcBlueprint.Proofs.Catalog.Overlooked
import HpcBlueprint.Proofs.Deployment.Apart
import HpcBlueprint.Proofs.Expand.Attach
import HpcBlueprint.Proofs.Run.Levels
import HpcBlueprint.Proofs.Run.Refusal
import HpcBlueprint.Proofs.Run.Within

namespace HpcBlueprint

open Catalog Deployment FileSystem

/-! ## Validators -/

namespace Validator

theorem check_withoutServices {name : String} {check : Validator}
    (h : (name, check) ∈ builtin) (m : Materialized) (inputs : OrderedMap Value) :
    check m.withoutServices inputs = check m inputs := by
  simp only [builtin, List.mem_cons, Prod.mk.injEq, List.not_mem_nil, or_false] at h
  rcases h with ⟨-, rfl⟩ | ⟨-, rfl⟩ | ⟨-, rfl⟩ | ⟨-, rfl⟩
  · rfl
  · rfl
  · -- of every module the source and the name are looked at
    have hmodules : m.withoutServices.blueprint.modules.map (·.2) =
        (m.blueprint.modules.map (·.2)).map Module.withoutServices := by
      rw [Materialized.withoutServices, Blueprint.modules_withoutServices, List.map_map,
        List.map_map]
      rfl
    unfold checkSources
    simp only [hmodules, List.filter_map, List.map_map, List.isEmpty_map]
    rfl
  · rfl

/-- The built-in validators do not look at services. -/
theorem verdict_builtin_withoutServices (m : Materialized) :
    builtin.verdict m.withoutServices = builtin.verdict m := by
  have hfailures : builtin.failures m.withoutServices = builtin.failures m :=
    Registry.failures_congr rfl rfl fun _ _ hmem => check_withoutServices hmem m
  have hlevel : m.withoutServices.blueprint.level = m.blueprint.level := rfl
  unfold Registry.verdict Registry.run
  rw [hfailures, hlevel]

end Validator

namespace Run

variable {ω : Type} {hidden : Location → Prop} {here : Location} {fs fs' : FileSystem}
  {c : Catalog ω} {o : Options} {d : Destination} {s s' : State ω}

/-- The same expansion with schemas without services. -/
def Expansion.withoutServices (x : Expansion) : Expansion :=
  { x with result := x.result.withoutServices }

theorem Expansion.blueprint_withoutServices {x x' : Expansion}
    (h : InvImage Eq Expansion.withoutServices x x') :
    InvImage Eq Blueprint.withoutServices x.result.blueprint x'.result.blueprint :=
  congrArg (fun y : Expansion => y.result.blueprint)
    (show x.withoutServices = x'.withoutServices from h)

/-- The same deployment of an expansion with schemas without services. -/
def Created.withoutServices (x : Created) : Created :=
  { x with expansion := x.expansion.withoutServices }

/-! ## Loading -/

theorem readDocument_of_agreeAlong {file : String} (h : AgreeAlong Eq file fs fs') :
    readDocument fs' file = readDocument fs file := by
  rw [readDocument, readDocument, h.contains, h.read]

/-- The documents of a run that are no files of metadata. -/
structure Options.Bypasses (o : Options) (hidden : Location → Prop) (here : Location) : Prop where
  blueprint : Path.Bypasses hidden here o.blueprint
  settings : ∀ file, o.settingsFile = some file → Path.Bypasses hidden here file

theorem sources_of_twins (h : fs.Twins hidden here fs') (bypasses : o.Bypasses hidden here) :
    sources fs' o = sources fs o := by
  have hblueprint : Blueprint.load fs' o.blueprint = Blueprint.load fs o.blueprint := by
    rw [Blueprint.load, Blueprint.load,
      readDocument_of_agreeAlong (h.agreeAlong bypasses.blueprint)]
  have hsettings : settings fs' o = settings fs o := by
    unfold settings
    cases hfile : o.settingsFile with
    | none => rfl
    | some file =>
        dsimp only
        rw [Settings.load, Settings.load,
          readDocument_of_agreeAlong (h.agreeAlong (bypasses.settings file hfile))]
  rw [sources, sources, hblueprint, hsettings]

/-! ## Expanding -/

theorem sameEnd_expandBlueprint (metadata : IsMetadata hidden) {b : Blueprint}
    (modules : ∀ entry ∈ b.modules, c.Bypasses hidden here entry.2.source) (settings : Settings)
    (h : s.Twins hidden here s') :
    SameEnd (InvImage Eq Materialized.withoutServices) (State.Twins hidden here)
      (expandBlueprint c b settings s) (expandBlueprint c b settings s') := by
  unfold expandBlueprint
  cases hready : b.readied settings with
  | error e => exact .error e h
  | ok ready =>
      have hplaced : ∀ entry ∈ ready.placed, c.Bypasses hidden here entry.2.source :=
        fun _ hentry => modules _ (Blueprint.mem_modules_of_readied hready hentry)
      obtain ⟨hfinished, hstate⟩ := lookupAll_of_twins metadata hplaced h
      refine sameEnd_iff.mpr ⟨sameOutcome_invImage_iff.mpr ?_, hstate⟩
      -- services may as well be taken away before the expansion, and then both begin alike
      show (b.expand settings (c.lookupAll ready.placed s).1).map Materialized.withoutServices =
        (b.expand settings (c.lookupAll ready.placed s').1).map Materialized.withoutServices
      rw [← Blueprint.expand_withoutServices, ← Blueprint.expand_withoutServices, hfinished]

theorem sameOutcome_validated {m m' : Materialized}
    (h : InvImage Eq Materialized.withoutServices m m') :
    SameOutcome (InvImage Eq Expansion.withoutServices) (validated Validator.builtin m)
      (validated Validator.builtin m') := by
  have hverdict : Validator.builtin.verdict m' = Validator.builtin.verdict m := by
    rw [← Validator.verdict_builtin_withoutServices m',
      ← Validator.verdict_builtin_withoutServices m,
      show m.withoutServices = m'.withoutServices from h]
  unfold validated
  rw [hverdict]
  cases Validator.builtin.verdict m with
  | error failures => exact .error _
  | ok warnings => exact .ok (congrArg (Expansion.mk · warnings) h)

/-- A blueprint expands to the same with the same warnings, or fails to for the same reason. -/
theorem sameEnd_expand (metadata : IsMetadata hidden) (bypasses : o.Bypasses hidden here)
    (modules : ∀ b settings, sources s.files o = .ok (b, settings) →
      ∀ entry ∈ b.modules, c.Bypasses hidden here entry.2.source)
    (h : s.Twins hidden here s') :
    SameEnd (InvImage Eq Expansion.withoutServices) (State.Twins hidden here)
      (expand ⟨c, Validator.builtin⟩ o s) (expand ⟨c, Validator.builtin⟩ o s') := by
  have hsources : sources s'.files o = sources s.files o :=
    sources_of_twins h.workspace.files bypasses
  unfold expand
  rw [hsources]
  cases hloaded : sources s.files o with
  | error e => exact .error _ h
  | ok loaded =>
      obtain ⟨b, settings⟩ := loaded
      have hexpanded := sameEnd_expandBlueprint metadata (modules b settings hloaded)
        settings h
      dsimp only
      generalize expandBlueprint c b settings s = r, expandBlueprint c b settings s' = r'
        at hexpanded
      cases hexpanded with
      | error e hnext => exact .error e hnext
      | ok hm hnext => exact sameEnd_iff.mpr ⟨sameOutcome_validated hm, hnext⟩

/-! ## Creating -/

/-- A deployment is let through to the same directory or refused for the same reason. -/
theorem cleared_of_twins (metadata : IsMetadata hidden) (h : fs.Twins hidden here fs')
    {x x' : Expansion} (hx : InvImage Eq Expansion.withoutServices x x')
    (bypasses : ∀ dir, deploymentDir d.out x.result.blueprint = .ok dir →
      Path.Bypasses hidden here dir) :
    cleared fs' d x' = cleared fs d x := by
  have hb := Expansion.blueprint_withoutServices hx
  have hname : x'.result.blueprint.deploymentName? = x.result.blueprint.deploymentName? := by
    show x'.result.blueprint.withoutServices.deploymentName? =
      x.result.blueprint.withoutServices.deploymentName?
    rw [show x.result.blueprint.withoutServices = x'.result.blueprint.withoutServices from hb]
  have hdirectory : deploymentDir d.out x'.result.blueprint =
      deploymentDir d.out x.result.blueprint := by
    rw [deploymentDir, deploymentDir, hname]
  rw [cleared, cleared, hdirectory]
  cases hdir : deploymentDir d.out x.result.blueprint with
  | error e => rfl
  | ok dir =>
      have hgate := checkOverwrite_of_twins metadata h (bypasses dir hdir) hb d.permission
      show ((checkOverwrite fs' dir _ _).mapError Error.overwrite >>= fun _ => pure dir) = _
      rw [hgate]
      rfl

/-- The same deployment is written but for the time, or the same error comes of it. -/
theorem sameEnd_create (metadata : IsMetadata hidden) (bypasses : o.Bypasses hidden here)
    (modules : ∀ b settings, sources s.files o = .ok (b, settings) →
      ∀ entry ∈ b.modules, c.Bypasses hidden here entry.2.source)
    (directory : ∀ x dir, (expand ⟨c, Validator.builtin⟩ o s).1 = .ok x →
      deploymentDir d.out x.result.blueprint = .ok dir → Path.Bypasses hidden here dir)
    (now now' : Instant) (h : s.Twins hidden here s') :
    SameEnd (InvImage Eq Created.withoutServices)
      (fun t t' => Apart hidden here (UpToTime now now') t.files t'.files)
      (create ⟨c, Validator.builtin⟩ o d now s) (create ⟨c, Validator.builtin⟩ o d now' s') := by
  have hexpanded := sameEnd_expand metadata bypasses modules h
  -- up to the write the files do not even differ in a time
  have hloose : ∀ {t t' : State ω}, t.Twins hidden here t' →
      Apart hidden here (UpToTime now now') t.files t'.files :=
    fun htwins => apart_upToTime htwins.workspace.files.toApart now now'
  unfold create
  generalize expand ⟨c, Validator.builtin⟩ o s = r, expand ⟨c, Validator.builtin⟩ o s' = r'
    at hexpanded directory
  cases hexpanded with
  | error e hnext => exact .error e (hloose hnext)
  | @ok x x' t t' hx hnext =>
      -- gate, record and write see the blueprint without its services
      have hfiles : FileSystem.Twins hidden here t.files t'.files := hnext.workspace.files
      have hb := Expansion.blueprint_withoutServices hx
      have hcleared := cleared_of_twins metadata hfiles hx fun dir => directory x dir rfl
      dsimp only
      rw [hcleared]
      cases hdir : cleared t.files d x with
      | error e => exact .error e (hloose hnext)
      | ok dir =>
          have hpath := directory x dir rfl (cleared_eq_ok_iff.mp hdir).1
          have hunchanged := isUnchanged_of_twins metadata hfiles hpath hb
          have hwritten := sameEnd_write metadata hpath hfiles.toApart hb now now'
          dsimp only
          rw [hunchanged]
          generalize Deployment.write t.files x.result.blueprint dir now = w,
            Deployment.write t'.files x'.result.blueprint dir now' = w' at hwritten
          cases hwritten with
          | error e hlast => exact .error _ hlast
          | ok _ hlast => exact .ok (congrArg (Created.mk · dir _ _) hx) hlast

/-- Files of metadata have no influence on a deployment.  Two workspaces may differ in such
    files, and a run that begins with nothing remembered may come by these in the directories of
    its modules only, with the packages that it fetches fetched alike.  Then, whatever modules have been looked up before, a module has the same
    inputs and outputs in both or fails with the same error; a blueprint expands to the same
    blueprint with the same usage and warnings or fails with the same error; and a deployment is
    written with the same files, but for the time in its record, or fails with the same error. -/
theorem same_whatever_metadata {w w' : Workspace ω} (metadata : IsMetadata hidden)
    (twins : w.Twins hidden here w') :
    (∀ (earlier : List (Place × Module)) (source : String) (kind : ModuleKind),
      (∀ entry ∈ earlier, c.Bypasses hidden here entry.2.source) → c.Bypasses hidden here source →
      SameOutcome (InvImage Eq Entry.withoutServices)
        (c.lookup source kind (c.lookupAll earlier ⟨.empty, w⟩).2).1
        (c.lookup source kind (c.lookupAll earlier ⟨.empty, w'⟩).2).1) ∧
    ∀ o : Options, o.Bypasses hidden here →
      (∀ b settings, sources w.files o = .ok (b, settings) →
        ∀ entry ∈ b.modules, c.Bypasses hidden here entry.2.source) →
      SameOutcome (InvImage Eq Expansion.withoutServices)
        (expand ⟨c, Validator.builtin⟩ o ⟨.empty, w⟩).1
        (expand ⟨c, Validator.builtin⟩ o ⟨.empty, w'⟩).1 ∧
      ∀ d : Destination,
        (∀ x dir, (expand ⟨c, Validator.builtin⟩ o ⟨.empty, w⟩).1 = .ok x →
          deploymentDir d.out x.result.blueprint = .ok dir → Path.Bypasses hidden here dir) →
        ∀ now now' : Instant,
          SameEnd (InvImage Eq Created.withoutServices)
            (fun t t' => Apart hidden here (UpToTime now now') t.files t'.files)
            (create ⟨c, Validator.builtin⟩ o d now ⟨.empty, w⟩)
            (create ⟨c, Validator.builtin⟩ o d now' ⟨.empty, w'⟩) := by
  have hbegin : State.Twins hidden here ⟨.empty, w⟩ ⟨.empty, w'⟩ := State.twins_empty twins
  refine ⟨fun earlier source kind hearlier hsource => ?_, fun o hdocuments hmodules => ⟨?_, ?_⟩⟩
  · obtain ⟨-, hknown⟩ := lookupAll_of_twins metadata hearlier hbegin
    exact (sameEnd_iff.mp (sameEnd_lookup metadata kind hsource hknown)).1
  · have hexpanded :=
      sameEnd_expand (s := ⟨.empty, w⟩) metadata hdocuments hmodules hbegin
    exact (sameEnd_iff.mp hexpanded).1
  · intro d hdirectory now now'
    exact sameEnd_create (s := ⟨.empty, w⟩) metadata hdocuments hmodules hdirectory now
      now' hbegin

/-! ## Metadata that cannot be read -/

/-- A blueprint with a module that lies beside it and one that has to be fetched. -/
def besideText : String :=
  "blueprint_name: t\nvars: \x7bdeployment_name: d\x7d\ndeployment_groups:\n" ++
    "- \x7bgroup: g, modules: [\x7bid: m, source: ./mod\x7d, " ++
    "\x7bid: n, source: \"s3://b/pkg//a\"\x7d]\x7d\n"

/-- A workspace with that blueprint and the module beside it, which has some metadata. -/
def withMetadata (metadata : Content) : Workspace Unit :=
  ⟨⟨[(["tmp"], .directory), (["bp.yaml"], .file (.text besideText)), (["mod"], .directory),
    (["mod", "main.tf"], .file (.text "output \"ip\" \x7b\x7d\n")),
    (["mod", "metadata.yaml"], .file metadata)], []⟩, ()⟩

/-- Metadata that asks for a service. -/
def asking : Content := .text "spec: \x7brequirements: \x7bservices: [compute]\x7d\x7d\n"

/-- Metadata that is no text. -/
def illegible : Content := .binary [255]

/-- Where the metadata of the module is. -/
def metadataPlace (loc : Location) : Prop := loc = ["mod", Schema.metadataFile]

instance : DecidablePred metadataPlace := fun loc => inferInstanceAs (Decidable (loc = _))

theorem isMetadata_metadataPlace : IsMetadata metadataPlace := by
  constructor
  · rintro l rfl
    decide
  · rintro l number rfl hbelow
    exact absurd (List.cons_prefix_cons.mp hbelow).1 (by decide)

theorem proper_withMetadata (metadata : Content) : (withMetadata metadata).files.Proper := by
  have hnames : ∀ loc ∈ (withMetadata metadata).files.nodes.map (·.1),
      ∀ name ∈ loc, Path.IsFileName name := by
    show ∀ loc ∈ [["tmp"], ["bp.yaml"], ["mod"], ["mod", "main.tf"], ["mod", "metadata.yaml"]], _
    decide
  refine ⟨?_, fun entry hentry => hnames entry.1 (List.mem_map_of_mem hentry)⟩
  show [["tmp"], ["bp.yaml"], ["mod"], ["mod", "main.tf"], ["mod", "metadata.yaml"]].Nodup
  decide

theorem twins_withMetadata (metadata metadata' : Content) :
    (withMetadata metadata).Twins metadataPlace [] (withMetadata metadata') := by
  refine ⟨⟨⟨rfl, rfl, fun l hl => ?_⟩, proper_withMetadata _, proper_withMetadata _⟩, rfl⟩
  have hother : (l == ["mod", "metadata.yaml"]) = false := beq_eq_false_iff_ne.mpr hl
  rw [alike_eq_iff]
  simp only [node?, withMetadata, List.lookup_cons, hother]

/-- Neither the module beside the blueprint nor the one that is fetched is looked up by a way
    that comes by the metadata. -/
theorem bypasses_withMetadata {source : String} (h : source ∈ ["./mod", "s3://b/pkg//a"]) :
    (withStore moduleStore).catalog.Bypasses metadataPlace [] source := by
  unfold Catalog.Bypasses
  rcases List.mem_cons.mp h with rfl | h
  · have hkind : Source.kind "./mod" = .local := by decide
    rw [hkind]
    exact ⟨by decide, by decide⟩
  · obtain rfl := List.mem_singleton.mp h
    have hkind : Source.kind "s3://b/pkg//a" = .remote := by decide +kernel
    have hsplit : Source.splitPackage "s3://b/pkg//a" = ("s3://b/pkg", "a") := by decide +kernel
    have hstays : ∀ rest ∈ S3.packageRests moduleStore "s3://b/pkg", Path.Stays rest := by
      decide +kernel
    have hgit : Git.handles "s3://b/pkg" = false := by decide +kernel
    rw [hkind, hsplit]
    refine ⟨overlooks_of_fetchers isMetadata_metadataPlace (fun h => ?_) fun _ => hstays,
      fun number => ?_⟩
    · rw [hgit] at h
      cases h
    · have hdir := isMetadata_metadataPlace.bypasses_downloadDir [] number
      exact isMetadata_metadataPlace.bypasses_join_name
        (isMetadata_metadataPlace.bypasses_join_name hdir isName_packageName (by decide))
        (by decide) (by decide)

/-- Whatever name a deployment has, it does not lie in the module. -/
theorem bypasses_deploymentDir_out {t : Tools ω} {s : State ω} {x : Expansion} {dir : String}
    (hx : (expand t o s).1 = .ok x) (hdir : deploymentDir "out" x.result.blueprint = .ok dir) :
    Path.Bypasses metadataPlace [] dir := by
  obtain ⟨name, hdeployment, hname⟩ :=
    exists_deploymentName (show expand t o s = (.ok x, (expand t o s).2) from Prod.ext hx rfl)
  rw [deploymentDir, hdeployment] at hdir
  obtain rfl : Path.join "out" name = dir := Except.ok.inj hdir
  have hout : Path.Bypasses metadataPlace [] "out" := by decide
  have hleads : Path.leads [] "out" = ["out"] := by decide
  refine hout.join_name hname.isName fun hplace => ?_
  rw [hleads] at hplace
  exact absurd (List.cons.inj hplace).1 (by decide)

/-- The module has one output, whatever its metadata. -/
theorem ofDirectory_withMetadata (metadata : Content) :
    Schema.ofDirectory (withMetadata metadata).files .terraform "./mod" =
      .ok ⟨[], [⟨"ip", "", false⟩], Schema.servicesIn (withMetadata metadata).files "./mod"⟩ := by
  have hdir : (withMetadata metadata).files.find "./mod" = .ok (["mod"], .directory) := by rfl
  have hnames : (withMetadata metadata).files.names ["mod"] = ["main.tf", "metadata.yaml"] :=
    List.mergeSort_of_pairwise (show ["main.tf", "metadata.yaml"].Pairwise _ by decide)
  have hreached : Schema.reached (withMetadata metadata).files .terraform "./mod" =
      ["./mod/main.tf"] := by
    rw [Schema.reached, Schema.configurationFiles, Schema.configuration, ← find_eq_ok hdir, hnames]
    rfl
  have hread : (withMetadata metadata).files.read "./mod/main.tf" =
      .ok "output \"ip\" \x7b\x7d\n" := by rfl
  have hfile : Schema.empty.withFile (withMetadata metadata).files .terraform "./mod/main.tf" =
      .ok ⟨[], [⟨"ip", "", false⟩], []⟩ := by
    rw [Schema.withFile, hread]
    exact eq_ok_of_toOption (by decide +kernel)
  rw [Schema.ofDirectory, Schema.declared_eq (proper_withMetadata metadata) hdir, hreached,
    Schema.withFiles, hfile]
  rfl

/-- A module loses its services since its metadata cannot be read, and nothing else changes. -/
theorem same_whatever_metadata_illegible :
    IsMetadata metadataPlace ∧
      (withMetadata asking).Twins metadataPlace [] (withMetadata illegible) ∧
      Schema.ofDirectory (withMetadata asking).files .terraform "./mod" =
        .ok ⟨[], [⟨"ip", "", false⟩], ["compute"]⟩ ∧
      Schema.ofDirectory (withMetadata illegible).files .terraform "./mod" =
        .ok ⟨[], [⟨"ip", "", false⟩], []⟩ ∧
      SameOutcome (InvImage Eq Entry.withoutServices)
        ((withStore moduleStore).catalog.lookup "./mod" .terraform
          ⟨.empty, withMetadata asking⟩).1
        ((withStore moduleStore).catalog.lookup "./mod" .terraform
          ⟨.empty, withMetadata illegible⟩).1 ∧
      SameOutcome (InvImage Eq Expansion.withoutServices)
        (expand ⟨(withStore moduleStore).catalog, Validator.builtin⟩ remoteOptions
          ⟨.empty, withMetadata asking⟩).1
        (expand ⟨(withStore moduleStore).catalog, Validator.builtin⟩ remoteOptions
          ⟨.empty, withMetadata illegible⟩).1 ∧
      (create ⟨(withStore moduleStore).catalog, Validator.builtin⟩ remoteOptions
        ⟨"out", ⟨false, false⟩⟩ ⟨0, 0⟩ ⟨.empty, withMetadata asking⟩).1.toOption.isSome = true ∧
      SameEnd (InvImage Eq Created.withoutServices)
        (fun t t' => Apart metadataPlace [] (UpToTime ⟨0, 0⟩ ⟨1, 0⟩) t.files t'.files)
        (create ⟨(withStore moduleStore).catalog, Validator.builtin⟩ remoteOptions
          ⟨"out", ⟨false, false⟩⟩ ⟨0, 0⟩ ⟨.empty, withMetadata asking⟩)
        (create ⟨(withStore moduleStore).catalog, Validator.builtin⟩ remoteOptions
          ⟨"out", ⟨false, false⟩⟩ ⟨1, 0⟩ ⟨.empty, withMetadata illegible⟩) := by
  have hasking : Schema.servicesIn (withMetadata asking).files "./mod" = ["compute"] := by
    decide +kernel
  have hillegible : Schema.servicesIn (withMetadata illegible).files "./mod" = [] := by
    decide +kernel
  have hcreated : (create ⟨(withStore moduleStore).catalog, Validator.builtin⟩ remoteOptions
      ⟨"out", ⟨false, false⟩⟩ ⟨0, 0⟩ ⟨.empty, withMetadata asking⟩).1.toOption.isSome = true := by
    decide +kernel
  have hlisted : ((sources (withMetadata asking).files remoteOptions).toOption.map fun loaded =>
      loaded.1.modules.map (·.2.source)) = some ["./mod", "s3://b/pkg//a"] := by
    decide +kernel
  have hmodules : ∀ b settings,
      sources (withMetadata asking).files remoteOptions = .ok (b, settings) → ∀ entry ∈ b.modules,
        (withStore moduleStore).catalog.Bypasses metadataPlace [] entry.2.source := by
    intro b settings hloaded entry hentry
    rw [hloaded] at hlisted
    have hsource : entry.2.source ∈ b.modules.map (·.2.source) := List.mem_map_of_mem hentry
    rw [show b.modules.map (·.2.source) = ["./mod", "s3://b/pkg//a"] from
      Option.some.inj hlisted] at hsource
    exact bypasses_withMetadata hsource
  obtain ⟨hlookup, hrun⟩ := same_whatever_metadata isMetadata_metadataPlace
    (twins_withMetadata asking illegible)
  obtain ⟨hexpand, hcreate⟩ := hrun remoteOptions ⟨by decide, fun _ h => by cases h⟩ hmodules
  exact ⟨isMetadata_metadataPlace, twins_withMetadata asking illegible,
    hasking ▸ ofDirectory_withMetadata asking, hillegible ▸ ofDirectory_withMetadata illegible,
    hlookup [] "./mod" .terraform (fun _ h => absurd h List.not_mem_nil)
      (bypasses_withMetadata List.mem_cons_self), hexpand, hcreated,
    hcreate ⟨"out", ⟨false, false⟩⟩ (fun _ _ hx => bypasses_deploymentDir_out hx) ⟨0, 0⟩ ⟨1, 0⟩⟩

end Run
end HpcBlueprint
