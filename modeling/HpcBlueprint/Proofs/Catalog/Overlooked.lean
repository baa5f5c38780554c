/-
  Looking up modules whatever their metadata.

  What stands in a file of metadata is read for the services of a module alone.  So two trees
  that differ in nothing else give every schema the same inputs and outputs, or fail with the
  same error, and leave the same behind in both, whatever has been looked up before.
-/
import HpcBlueprint.Proofs.Catalog.Undisturbed
import HpcBlueprint.Proofs.Expand.Services
import HpcBlueprint.Proofs.Fetch.Overlooking
import HpcBlueprint.Proofs.Schema.Directory

namespace HpcBlueprint

open FileSystem

variable {ω : Type} {hidden : Location → Prop} {here : Location} {fs fs' : FileSystem}

/-! ## Places of metadata -/

/-- Places at which only a file of metadata can stand, none of them in a directory that packages
    are downloaded to. -/
structure IsMetadata (hidden : Location → Prop) : Prop where
  named : ∀ l, hidden l → l.getLast? = some Schema.metadataFile
  elsewhere : ∀ l number, hidden l → ¬ Catalog.downloadLocation number <+: l

namespace IsMetadata

theorem not_hidden_nil (h : IsMetadata hidden) : ¬ hidden [] := fun hroot =>
  Option.some_ne_none _ (h.named [] hroot).symm

theorem not_hidden_concat (h : IsMetadata hidden) {name : String}
    (hname : name ≠ Schema.metadataFile) (loc : Location) : ¬ hidden (loc ++ [name]) := by
  intro hplace
  have hlast := h.named _ hplace
  rw [List.getLast?_concat, Option.some.injEq] at hlast
  exact hname hlast

/-- No name but that of a file of metadata leads to a hidden place. -/
theorem bypasses_join_name (h : IsMetadata hidden) {dir name : String}
    (hdir : Path.Bypasses hidden here dir) (hname : Path.IsName name)
    (hother : name ≠ Schema.metadataFile) : Path.Bypasses hidden here (Path.join dir name) :=
  hdir.join_name hname (h.not_hidden_concat hother _)

theorem bypasses_downloadDir (h : IsMetadata hidden) (here : Location) (number : Nat) :
    Path.Bypasses hidden here (Catalog.downloadDir number) := by
  have hjoin : Catalog.downloadsRoot = Path.join "/" "tmp" := by decide
  have hroot : Path.Bypasses hidden here Catalog.downloadsRoot := by
    rw [hjoin]
    exact h.bypasses_join_name (.root h.not_hidden_nil here) (by decide) (by decide)
  have hleads : Path.leads here Catalog.downloadsRoot ++ ["module-" ++ toString number] =
      Catalog.downloadLocation number := by
    rw [← Path.leads_join_name (Catalog.isName_moduleNumber number)]
    exact Catalog.lexical_downloadDir ⟨[], here⟩ number
  refine hroot.join_name (Catalog.isName_moduleNumber number) fun hplace => ?_
  rw [hleads] at hplace
  exact h.elsewhere _ number hplace (List.prefix_refl _)

/-- There is room for a package in its download directory. -/
theorem clear_package (h : IsMetadata hidden) (here : Location) (number : Nat) :
    Path.Clear hidden here (Path.join (Catalog.downloadDir number) Catalog.packageName) := by
  refine .join_name (h.bypasses_downloadDir here number) Catalog.isName_packageName fun l hl => ?_
  have hleads : Path.leads here (Catalog.downloadDir number) = Catalog.downloadLocation number :=
    Catalog.lexical_downloadDir ⟨[], here⟩ number
  rw [hleads] at hl
  exact fun hplace => h.elsewhere l number hplace ((List.prefix_append _ _).trans hl)

end IsMetadata

/-! ## Schemas -/

namespace Schema

variable {kind : ModuleKind} {dir : String}

theorem ne_metadataFile_of_suffix {name : String} (h : Text.endsWith kind.suffix name = true) :
    name ≠ metadataFile := by
  rintro rfl
  cases kind with
  | terraform => exact absurd h (by decide)
  | packer => exact absurd h (by decide)

/-- Metadata is no configuration file, so the same ones are listed. -/
theorem suffixed_of_twins (metadata : IsMetadata hidden) (h : fs.Twins hidden here fs')
    (hdir : Path.Bypasses hidden here dir) : suffixed fs' kind dir = suffixed fs kind dir := by
  refine suffixed_congr (h.agreeAlong hdir).find fun loc => ?_
  have hsorted := (pairwise_names h.proper.distinct loc).filter (Text.endsWith kind.suffix)
  have hsorted' := (pairwise_names h.proper'.distinct loc).filter (Text.endsWith kind.suffix)
  refine hsorted'.eq_of_mem_iff hsorted fun name => ?_
  rw [List.mem_filter, List.mem_filter, mem_names_iff, mem_names_iff]
  refine and_congr_left fun hsuffix => ?_
  have hplace := metadata.not_hidden_concat (ne_metadataFile_of_suffix hsuffix) loc
  rw [alike_eq_iff.mp (h.alike _ hplace)]

theorem declared_of_twins (metadata : IsMetadata hidden) (h : fs.Twins hidden here fs')
    (hdir : Path.Bypasses hidden here dir) : declared fs' kind dir = declared fs kind dir := by
  refine declared_congr h.proper (suffixed_of_twins metadata h hdir) fun name hsuffix hname => ?_
  exact h.agreeAlong (metadata.bypasses_join_name hdir hname.1 (ne_metadataFile_of_suffix hsuffix))

/-- Metadata says only which services a module needs. -/
theorem sameOutcome_ofDirectory (metadata : IsMetadata hidden) (h : fs.Twins hidden here fs')
    (kind : ModuleKind) (hdir : Path.Bypasses hidden here dir) :
    SameOutcome (InvImage Eq withoutServices) (ofDirectory fs kind dir)
      (ofDirectory fs' kind dir) := by
  rw [ofDirectory, ofDirectory, declared_of_twins metadata h hdir]
  cases declared fs kind dir with
  | error e => exact .error e
  | ok s => exact .ok rfl

end Schema

namespace Catalog

/-! ## Memories -/

/-- The same entry with a schema without services. -/
def Entry.withoutServices (e : Entry) : Entry := { e with schema := e.schema.withoutServices }

/-- Memories of the same packages, and of the same schemas but for their services. -/
structure Memory.Twins (m m' : Memory) : Prop where
  schemas : m'.schemas.map (fun (key, e) => (key, e.withoutServices)) =
    m.schemas.map fun (key, e) => (key, e.withoutServices)
  packages : m'.packages = m.packages
  entries : m'.entries = m.entries
  downloads : m'.downloads = m.downloads

namespace Memory.Twins

variable {m m' : Memory} {source : String} {kind : ModuleKind}

theorem entry? (h : m.Twins m') (source : String) (kind : ModuleKind) :
    (m'.entry? source kind).map Entry.withoutServices =
      (m.entry? source kind).map Entry.withoutServices := by
  rw [Memory.entry?, Memory.entry?, ← lookup_map, ← lookup_map, h.schemas]

theorem learn (h : m.Twins m') (source : String) (kind : ModuleKind) {s s' : Schema}
    (schemas : InvImage Eq Schema.withoutServices s s') :
    (m.learn source kind s).Twins (m'.learn source kind s') := by
  -- taking services away keeps the keys, so it does not matter whether they are dropped before
  have hkept : ∀ entries : List ((String × ModuleKind) × Entry),
      (entries.filter (·.1 != (source, kind))).map (fun (key, e) => (key, e.withoutServices)) =
        (entries.map fun (key, e) => (key, e.withoutServices)).filter
          (·.1 != (source, kind)) := by
    intro entries
    rw [List.filter_map]
    rfl
  have hentry : Entry.withoutServices ⟨m'.entries, s'⟩ = Entry.withoutServices ⟨m.entries, s⟩ := by
    rw [Entry.withoutServices, Entry.withoutServices]
    dsimp only
    rw [h.entries, schemas]
  refine ⟨?_, h.packages, congrArg (· + 1) h.entries, h.downloads⟩
  rw [Memory.learn, Memory.learn]
  dsimp only
  rw [List.map_cons, List.map_cons, hkept, hkept, h.schemas]
  dsimp only
  rw [hentry]

end Memory.Twins

/-! ## States -/

/-- States that differ in nothing but hidden places and remembered services; packages are where
    they have been downloaded to. -/
structure State.Twins (hidden : Location → Prop) (here : Location) (s s' : State ω) : Prop where
  workspace : s.workspace.Twins hidden here s'.workspace
  memory : s.memory.Twins s'.memory
  downloaded : ∀ entry ∈ s.memory.packages, ∃ number, entry.2 = downloadDir number

theorem State.twins_empty {w w' : Workspace ω} (h : w.Twins hidden here w') :
    State.Twins hidden here ⟨.empty, w⟩ ⟨.empty, w'⟩ :=
  ⟨h, ⟨rfl, rfl, rfl, rfl⟩, fun _ hentry => absurd hentry List.not_mem_nil⟩

variable {c : Catalog ω} {s s' : State ω} {source : String} {kind : ModuleKind}

/-! ## Looking up modules -/

/-- Whatever fetcher is asked for a package, it does the same whatever stands at hidden places. -/
def Overlooks (c : Catalog ω) (hidden : Location → Prop) (here : Location) (package : String) :
    Prop :=
  ∀ f, c.fetchers.find? (·.handles package) = some f →
    ∀ number, f.Overlooks hidden here package (Path.join (downloadDir number) packageName)

/-- Looking up a source comes by no hidden place, but for the metadata of its module, and a
    package is fetched for it whatever stands at hidden places. -/
def Bypasses (c : Catalog ω) (hidden : Location → Prop) (here : Location) (source : String) :
    Prop :=
  match Source.kind source with
  | .embedded => Path.Bypasses hidden here (Path.join c.embeddedRoot source)
  | .local => Path.Bypasses hidden here c.embeddedRoot ∧ Path.Bypasses hidden here source
  | .remote =>
    c.Overlooks hidden here (Source.splitPackage source).1 ∧
      ∀ number, Path.Bypasses hidden here
        (Path.join (Path.join (downloadDir number) packageName) (Source.splitPackage source).2)

/-- With git and a store, packages are fetched without a look at metadata if the commands of the
    one do not look at it and the keys of the other do not lead elsewhere. -/
theorem overlooks_of_fetchers {root package : String} {git : Git.Program ω} {store : ObjectStore}
    {note : List ObjectStore.Request → ω → ω} (metadata : IsMetadata hidden)
    (cloned : Git.handles package = true → ∀ number, Git.Overlooks git hidden here package
      (Path.join (downloadDir number) packageName))
    (stored : S3.handles package = true →
      ∀ rest ∈ S3.packageRests store package, Path.Stays rest) :
    Catalog.Overlooks ⟨root, [Git.fetcher git, S3.fetcher store note]⟩ hidden here package := by
  intro f hf number
  have hhandles := List.find?_some hf
  rcases List.mem_cons.mp (List.mem_of_find?_eq_some hf) with rfl | hf
  · exact Git.overlooks_fetcher (cloned hhandles number)
  · obtain rfl := List.mem_singleton.mp hf
    exact S3.overlooks_fetcher metadata.not_hidden_nil (stored hhandles)
      (metadata.clear_package here number)

theorem twins_dropDownload (metadata : IsMetadata hidden) (number : Nat)
    (h : fs.Twins hidden here fs') :
    FileSystem.Twins hidden here (dropDownload fs (downloadDir number))
      (dropDownload fs' (downloadDir number)) := by
  have hsame := (h.agreeAlong (metadata.bypasses_downloadDir here number)).find
  unfold dropDownload
  rw [hsame]
  split
  · exact h.removeTree _
  · exact h

/-- A package is downloaded to the same directory or fails to be for the same reason. -/
theorem sameEnd_download (metadata : IsMetadata hidden) {package : String}
    (overlooks : c.Overlooks hidden here package) (h : s.Twins hidden here s') :
    SameEnd (fun dir dir' => dir' = dir ∧ ∃ number, dir = downloadDir number)
      (State.Twins hidden here) (c.download package s) (c.download package s') := by
  obtain ⟨⟨hfiles, houtside⟩, ⟨hschemas, hpackages, hentries, hdownloads⟩, hdownloaded⟩ := id h
  unfold download
  rw [hpackages]
  cases hknown : s.memory.packages.lookup package with
  | some dir =>
      obtain ⟨before, after, hsplit, -⟩ := List.lookup_eq_some_iff.mp hknown
      have hmem : (package, dir) ∈ s.memory.packages := by simp [hsplit]
      exact .ok ⟨rfl, hdownloaded _ hmem⟩ h
  | none =>
      -- a download directory of its own is made first, of the same number in both states
      have hmade := hfiles.makeDirectory
        (metadata.bypasses_downloadDir here s.memory.downloads)
      dsimp only
      rw [hdownloads]
      change SameOutcome _ (s.files.makeDirectory _) (s'.files.makeDirectory _) at hmade
      generalize s.files.makeDirectory (downloadDir s.memory.downloads) = x,
        s'.files.makeDirectory (downloadDir s.memory.downloads) = y at hmade
      cases hmade with
      | error e => exact .error _ ⟨⟨hfiles, houtside⟩, ⟨hschemas, hpackages, hentries, rfl⟩,
          hdownloaded⟩
      | @ok made made' hmade =>
          have hworkspace : Workspace.Twins hidden here (s.withFiles made).workspace
              (s'.withFiles made').workspace := ⟨hmade, houtside⟩
          have hfetched := Fetcher.sameEnd_fetchFirst
            (fun f hf => overlooks f hf s.memory.downloads) hworkspace
          dsimp only
          generalize Fetcher.fetchFirst c.fetchers package
              (Path.join (downloadDir s.memory.downloads) packageName)
              (s.withFiles made).workspace = r,
            Fetcher.fetchFirst c.fetchers package
              (Path.join (downloadDir s.memory.downloads) packageName)
              (s'.withFiles made').workspace = r' at hfetched
          cases hfetched with
          | error e hnext =>
              -- what has been fetched in vain is removed
              have hdropped := twins_dropDownload metadata s.memory.downloads hnext.files
              exact .error e ⟨⟨hdropped, hnext.outside⟩, ⟨hschemas, hpackages, hentries, rfl⟩,
                hdownloaded⟩
          | ok _ hnext =>
              have hknown :=
                congrArg (List.cons (package, downloadDir s.memory.downloads)) hpackages
              have hall : ∀ entry ∈ (package, downloadDir s.memory.downloads) :: s.memory.packages,
                  ∃ number, entry.2 = downloadDir number :=
                List.forall_mem_cons.mpr ⟨⟨s.memory.downloads, rfl⟩, hdownloaded⟩
              exact .ok ⟨rfl, s.memory.downloads, rfl⟩
                ⟨hnext, ⟨hschemas, hknown, hentries, rfl⟩, hall⟩

theorem sameEnd_directory (metadata : IsMetadata hidden) (kind : ModuleKind)
    (hsource : c.Bypasses hidden here source) (h : s.Twins hidden here s') :
    SameEnd (fun dir dir' => dir' = dir ∧ Path.Bypasses hidden here dir)
      (State.Twins hidden here) (c.directory source kind s) (c.directory source kind s') := by
  unfold Bypasses at hsource
  unfold directory
  cases hkind : Source.kind source with
  | embedded =>
      rw [hkind] at hsource
      exact .ok ⟨rfl, hsource⟩ h
  | «local» =>
      rw [hkind] at hsource
      obtain ⟨hroot, hpath⟩ := hsource
      have hfiles : FileSystem.Twins hidden here s.files s'.files := h.workspace.files
      have hleads : c.leadsToEmbedded s'.files source = c.leadsToEmbedded s.files source := by
        rw [leadsToEmbedded, leadsToEmbedded, (hfiles.agreeAlong hroot).canonical?,
          (hfiles.agreeAlong hpath).canonical?]
      dsimp only
      rw [hleads]
      split
      · exact .error _ h
      · exact .ok ⟨rfl, hpath⟩ h
  | remote =>
      rw [hkind] at hsource
      obtain ⟨hpackage, hdir⟩ := hsource
      have hdownload := sameEnd_download metadata hpackage h
      dsimp only
      generalize c.download (Source.splitPackage source).1 s = r,
        c.download (Source.splitPackage source).1 s' = r' at hdownload
      cases hdownload with
      | error e hnext => exact .error _ hnext
      | ok hroot hnext =>
          obtain ⟨rfl, number, rfl⟩ := hroot
          exact .ok ⟨rfl, hdir number⟩ hnext

/-- The schema of a module has the same inputs and outputs, or cannot be read for the same
    reason. -/
theorem sameEnd_load (metadata : IsMetadata hidden) (kind : ModuleKind)
    (hsource : c.Bypasses hidden here source) (h : s.Twins hidden here s') :
    SameEnd (InvImage Eq Schema.withoutServices) (State.Twins hidden here)
      (c.load source kind s) (c.load source kind s') := by
  have hfound := sameEnd_directory metadata kind hsource h
  unfold load
  generalize c.directory source kind s = r, c.directory source kind s' = r' at hfound
  cases hfound with
  | error e hnext => exact .error e hnext
  | ok hdir hnext =>
      obtain ⟨rfl, hdir⟩ := hdir
      exact sameEnd_iff.mpr
        ⟨Schema.sameOutcome_ofDirectory metadata hnext.workspace.files kind hdir, hnext⟩

/-- Looking up a module gives the same inputs and outputs, or the same error, and what is
    remembered then differs in services only. -/
theorem sameEnd_lookup (metadata : IsMetadata hidden) (kind : ModuleKind)
    (hsource : c.Bypasses hidden here source) (h : s.Twins hidden here s') :
    SameEnd (InvImage Eq Entry.withoutServices) (State.Twins hidden here)
      (c.lookup source kind s) (c.lookup source kind s') := by
  have hentry := h.memory.entry? source kind
  unfold lookup
  cases hknown : s.memory.entry? source kind with
  | some e =>
      rw [hknown, Option.map_some, Option.map_eq_some_iff] at hentry
      -- both remember the module, with the same number and the same schema but for services
      obtain ⟨e', hknown', he'⟩ := hentry
      rw [hknown']
      exact .ok he'.symm h
  | none =>
      rw [hknown, Option.map_none, Option.map_eq_none_iff] at hentry
      have hload := sameEnd_load metadata kind hsource h
      rw [hentry]
      dsimp only
      generalize c.load source kind s = r, c.load source kind s' = r' at hload
      cases hload with
      | error e hnext => exact .error e hnext
      | @ok schema schema' t t' hschema hnext =>
          refine .ok ?_ ⟨hnext.workspace, hnext.memory.learn source kind hschema, hnext.downloaded⟩
          show Entry.withoutServices ⟨t.memory.entries, schema⟩ =
            Entry.withoutServices ⟨t'.memory.entries, schema'⟩
          rw [Entry.withoutServices, Entry.withoutServices, hnext.memory.entries]
          dsimp only
          rw [hschema]

/-- Looking up modules one after the other comes to the same, but for services. -/
theorem lookupAll_of_twins (metadata : IsMetadata hidden) {placed : List (Place × Module)}
    (hplaced : ∀ entry ∈ placed, c.Bypasses hidden here entry.2.source)
    (h : s.Twins hidden here s') :
    (c.lookupAll placed s').1.map Finished.withoutServices =
        (c.lookupAll placed s).1.map Finished.withoutServices ∧
      State.Twins hidden here (c.lookupAll placed s).2 (c.lookupAll placed s').2 := by
  -- whether a look-up fails or not, the states after it are twins again
  induction placed generalizing s s' with
  | nil => exact ⟨rfl, h⟩
  | cons first rest ih =>
      obtain ⟨place, m⟩ := first
      obtain ⟨hsource, hrest⟩ := List.forall_mem_cons.mp hplaced
      have hlookup := sameEnd_lookup metadata m.kind hsource h
      rw [lookupAll, lookupAll]
      generalize c.lookup m.source m.kind s = r, c.lookup m.source m.kind s' = r' at hlookup
      cases hlookup with
      | error e hnext =>
          obtain ⟨hmore, hlast⟩ := ih hrest hnext
          exact ⟨congrArg (List.cons _) hmore, hlast⟩
      | ok hentry hnext =>
          obtain ⟨hmore, hlast⟩ := ih hrest hnext
          refine ⟨?_, hlast⟩
          have hschema := congrArg Entry.schema hentry
          show Finished.withoutServices ⟨place, .ok _⟩ :: _ =
            Finished.withoutServices ⟨place, .ok _⟩ :: _
          rw [hmore]
          congr 1
          exact congrArg (fun schema => Finished.mk place (.ok schema)) hschema.symm

end Catalog
end HpcBlueprint
