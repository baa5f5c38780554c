/-
  What looking up modules does to files.

  Reading schemas changes nothing, and a package is downloaded into a directory that is made for
  it under a new number.  So all that changes by looking up modules changes by downloads, do
  fetchers whatever they do (`Downloads`).  As long as fetchers keep to where they are told to
  put packages, whatever stood anywhere before is as it was: only below new download directories
  there may be something else (`Undisturbed`).
-/
import HpcBlueprint.Proofs.Catalog.Memory
import HpcBlueprint.Proofs.Fetch.Keeping
import HpcBlueprint.Proofs.Number

namespace HpcBlueprint

open FileSystem

variable {ω : Type} {package : String}

/-- A source lies in a package that has to be fetched. -/
def Source.Requires (source package : String) : Prop :=
  kind source = .remote ∧ (splitPackage source).1 = package

namespace Catalog

variable {c : Catalog ω} {s s' : State ω} {source : String} {kind : ModuleKind}

/-! ## Download directories -/

/-- The location of the download directory of some number. -/
def downloadLocation (number : Nat) : Location := ["tmp", "module-" ++ toString number]

theorem isName_moduleNumber (number : Nat) : Path.IsName ("module-" ++ toString number) := by
  have hstart : "module-".toList = 'm' :: "odule-".toList := by decide
  have hchars : ("module-" ++ toString number).toList =
      'm' :: ("odule-".toList ++ (toString number).toList) := by
    rw [String.toList_append, hstart, List.cons_append]
  refine Path.isName_of_not_mem ?_ ?_ ?_
  · rw [String.toList_append, List.mem_append, not_or]
    exact ⟨by decide, not_mem_natText (by decide) number⟩
  · intro hempty
    rw [hempty] at hchars
    cases hchars
  · rw [hchars, List.head?_cons]
    decide

theorem isName_packageName : Path.IsName packageName := by decide

theorem lexical_downloadDir (fs : FileSystem) (number : Nat) :
    fs.lexical (downloadDir number) = downloadLocation number := by
  rw [downloadDir, lexical_join_name (isName_moduleNumber number)]
  rfl

/-- Nothing that stood anywhere has changed; there may be new download directories. -/
structure Undisturbed (earlier later : State ω) : Prop where
  workingDir : later.files.workingDir = earlier.files.workingDir
  downloads : earlier.memory.downloads ≤ later.memory.downloads
  node? : ∀ loc, later.files.node? loc = earlier.files.node? loc ∨
    ∃ number, earlier.memory.downloads ≤ number ∧ number < later.memory.downloads ∧
      earlier.files.node? (downloadLocation number) = none ∧ downloadLocation number <+: loc

namespace Undisturbed

theorem of_files_eq (files : s'.files = s.files)
    (downloads : s.memory.downloads ≤ s'.memory.downloads) : Undisturbed s s' :=
  ⟨by rw [files], downloads, fun loc => .inl (by rw [files])⟩

theorem refl (s : State ω) : Undisturbed s s := of_files_eq rfl (Nat.le_refl _)

theorem trans {s₁ s₂ s₃ : State ω} (h₁ : Undisturbed s₁ s₂) (h₂ : Undisturbed s₂ s₃) :
    Undisturbed s₁ s₃ := by
  refine ⟨h₂.workingDir.trans h₁.workingDir, Nat.le_trans h₁.downloads h₂.downloads, fun loc => ?_⟩
  rcases h₂.node? loc with hsame | ⟨number, hle, hlt, hnew, hbelow⟩
  · rcases h₁.node? loc with hsame' | ⟨number, hle, hlt, hnew, hbelow⟩
    · exact .inl (hsame.trans hsame')
    · exact .inr ⟨number, hle, Nat.lt_of_lt_of_le hlt h₂.downloads, hnew, hbelow⟩
  · -- what is new later was either missing before or is itself an earlier download
    refine .inr ⟨number, Nat.le_trans h₁.downloads hle, hlt, ?_, hbelow⟩
    rcases h₁.node? (downloadLocation number) with hsame' | ⟨number', -, -, hnew', hbelow'⟩
    · rw [← hsame', hnew]
    · rwa [← hbelow'.eq_of_length rfl]

/-- A download may do anything in its own directory, if that is new. -/
theorem of_download {number : Nat} (number_ge : s.memory.downloads ≤ number)
    (new : s.files.node? (downloadLocation number) = none)
    (files : SameOutside (downloadLocation number) s.files s'.files)
    (number_lt : number < s'.memory.downloads) : Undisturbed s s' := by
  refine ⟨files.workingDir, by omega, fun loc => ?_⟩
  by_cases hbelow : downloadLocation number <+: loc
  · exact .inr ⟨number, number_ge, number_lt, new, hbelow⟩
  · exact .inl (files.node? loc hbelow)

end Undisturbed

/-! ## Downloads -/

/-- A package is downloaded: a directory of some number is made, a fetcher puts the package
    there, and if that fails the directory is taken away. -/
inductive Download (c : Catalog ω) (package : String) (number : Nat) (w : Workspace ω) :
    Workspace ω → Prop
  | fetched {made : FileSystem} {w' : Workspace ω}
      (directory : w.files.makeDirectory (downloadDir number) = .ok made)
      (fetch : Fetcher.fetchFirst c.fetchers package (Path.join (downloadDir number) packageName)
        ⟨made, w.outside⟩ = (.ok (), w')) : Download c package number w w'
  | failed {made : FileSystem} {e : FetchError} {w' : Workspace ω}
      (directory : w.files.makeDirectory (downloadDir number) = .ok made)
      (fetch : Fetcher.fetchFirst c.fetchers package (Path.join (downloadDir number) packageName)
        ⟨made, w.outside⟩ = (.error e, w')) :
      Download c package number w ⟨dropDownload w'.files (downloadDir number), w'.outside⟩

/-- Nothing happens but downloads of some packages, each to a directory of a new number. -/
inductive Downloads (c : Catalog ω) (packages : String → Prop) : State ω → State ω → Prop
  /-- At most something else is remembered. -/
  | none {s s' : State ω} (workspace : s'.workspace = s.workspace)
      (downloads : s.memory.downloads ≤ s'.memory.downloads) : Downloads c packages s s'
  /-- Some package is the next one. -/
  | next {s mid s' : State ω} {package : String} {number : Nat} (wanted : packages package)
      (number_ge : s.memory.downloads ≤ number) (number_lt : number < mid.memory.downloads)
      (download : Download c package number s.workspace mid.workspace)
      (more : Downloads c packages mid s') : Downloads c packages s s'

namespace Downloads

variable {packages : String → Prop} {s₁ s₂ s₃ : State ω}

theorem refl (s : State ω) : Downloads c packages s s := .none rfl (Nat.le_refl _)

theorem trans (h₁ : Downloads c packages s₁ s₂) (h₂ : Downloads c packages s₂ s₃) :
    Downloads c packages s₁ s₃ := by
  induction h₁ with
  | none workspace downloads =>
      cases h₂ with
      | none workspace' downloads' =>
          exact .none (workspace'.trans workspace) (Nat.le_trans downloads downloads')
      | next wanted number_ge number_lt download more =>
          -- numbers may have been passed over, but the files are the same
          exact .next wanted (Nat.le_trans downloads number_ge) number_lt (workspace ▸ download) more
  | next wanted number_ge number_lt download _ ih =>
      exact .next wanted number_ge number_lt download (ih h₂)

theorem mono {more : String → Prop} (h : Downloads c packages s s')
    (wanted : ∀ package, packages package → more package) : Downloads c more s s' := by
  induction h with
  | none workspace downloads => exact .none workspace downloads
  | next hpackage number_ge number_lt download _ ih =>
      exact .next (wanted _ hpackage) number_ge number_lt download ih

end Downloads

/-! ## Looking up modules -/

/-- A package is downloaded at most. -/
theorem downloads_download {packages : String → Prop} (wanted : packages package)
    {outcome : Except FetchError String} (h : c.download package s = (outcome, s')) :
    Downloads c packages s s' := by
  unfold download at h
  split at h
  · obtain ⟨-, rfl⟩ := Prod.mk.inj h
    exact .refl s
  · dsimp only at h
    split at h
    · -- no download directory could be made
      obtain ⟨-, rfl⟩ := Prod.mk.inj h
      exact .none rfl (Nat.le_succ _)
    · rename_i made hmade
      split at h
      · rename_i w' hfetch
        obtain ⟨-, rfl⟩ := Prod.mk.inj h
        refine .next wanted (Nat.le_refl _) (Nat.lt_succ_self _) ?_ (.refl _)
        exact .fetched hmade hfetch
      · rename_i w' hfetch
        obtain ⟨-, rfl⟩ := Prod.mk.inj h
        refine .next wanted (Nat.le_refl _) (Nat.lt_succ_self _) ?_ (.refl _)
        exact .failed hmade hfetch

theorem downloads_directory {outcome : Except Error String}
    (h : c.directory source kind s = (outcome, s')) :
    Downloads c (Source.Requires source) s s' := by
  unfold directory at h
  cases hkind : Source.kind source with
  | embedded =>
      rw [hkind] at h
      obtain ⟨-, rfl⟩ := Prod.mk.inj h
      exact .refl s
  | «local» =>
      rw [hkind] at h
      dsimp only at h
      split at h <;> obtain ⟨-, rfl⟩ := Prod.mk.inj h <;> exact .refl s
  | remote =>
      rw [hkind] at h
      dsimp only at h
      split at h
      · rename_i hdownload
        obtain ⟨-, rfl⟩ := Prod.mk.inj h
        exact downloads_download ⟨hkind, rfl⟩ hdownload
      · rename_i hdownload
        obtain ⟨-, rfl⟩ := Prod.mk.inj h
        exact downloads_download ⟨hkind, rfl⟩ hdownload

/-- The directory of a module is only read, once it is there. -/
theorem downloads_load {outcome : Except Error Schema}
    (h : c.load source kind s = (outcome, s')) : Downloads c (Source.Requires source) s s' := by
  unfold load at h
  split at h
  · rename_i hdirectory
    obtain ⟨-, rfl⟩ := Prod.mk.inj h
    exact downloads_directory hdirectory
  · rename_i hdirectory
    obtain ⟨-, rfl⟩ := Prod.mk.inj h
    exact downloads_directory hdirectory

theorem downloads_lookup {outcome : Except Error Entry}
    (h : c.lookup source kind s = (outcome, s')) : Downloads c (Source.Requires source) s s' := by
  unfold lookup at h
  split at h
  · obtain ⟨-, rfl⟩ := Prod.mk.inj h
    exact .refl s
  · split at h
    · rename_i hload
      obtain ⟨-, rfl⟩ := Prod.mk.inj h
      exact downloads_load hload
    · rename_i hload
      obtain ⟨-, rfl⟩ := Prod.mk.inj h
      exact (downloads_load hload).trans (.none rfl (Nat.le_refl _))

/-- Looking up modules downloads the packages of their sources at most. -/
theorem downloads_lookupAll {packages : String → Prop} {placed : List (Place × Module)}
    (wanted : ∀ entry ∈ placed, ∀ package, Source.Requires entry.2.source package →
      packages package) (s : State ω) :
    Downloads c packages s (c.lookupAll placed s).2 := by
  induction placed generalizing s with
  | nil => exact .refl s
  | cons first rest ih =>
      obtain ⟨place, m⟩ := first
      obtain ⟨hfirst, hrest⟩ := List.forall_mem_cons.mp wanted
      cases hlookup : c.lookup m.source m.kind s with
      | mk outcome mid =>
          rw [lookupAll, hlookup]
          exact ((downloads_lookup hlookup).mono hfirst).trans (ih hrest mid)

/-! ## Fetchers that keep to download directories -/

/-- Whatever fetcher is asked for a package, it puts it in the download directory. -/
def KeepsTo (c : Catalog ω) (package : String) : Prop :=
  ∀ f, c.fetchers.find? (·.handles package) = some f →
    ∀ number, f.KeepsTo package (Path.join (downloadDir number) packageName)

/-- With git and a store, packages are kept to their directories if the commands of the one and
    the keys of the other do not lead elsewhere. -/
theorem keepsTo_of_fetchers {root : String} {git : Git.Program ω} {store : ObjectStore}
    {note : List ObjectStore.Request → ω → ω}
    (cloned : Git.handles package = true →
      ∀ number, Git.KeepsTo git package (Path.join (downloadDir number) packageName))
    (stored : S3.handles package = true →
      ∀ rest ∈ S3.packageRests store package, Path.Stays rest) :
    Catalog.KeepsTo ⟨root, [Git.fetcher git, S3.fetcher store note]⟩ package := by
  intro f hf number
  have hhandles := List.find?_some hf
  rcases List.mem_cons.mp (List.mem_of_find?_eq_some hf) with rfl | hf
  · exact Git.keepsTo_fetcher (cloned hhandles number)
  · obtain rfl := List.mem_singleton.mp hf
    exact S3.keepsTo_fetcher (stored hhandles) _

theorem sameOutside_dropDownload (fs : FileSystem) (number : Nat) :
    SameOutside (downloadLocation number) fs (dropDownload fs (downloadDir number)) := by
  unfold dropDownload
  split
  · rename_i hfind
    rw [find_eq_ok hfind, lexical_downloadDir]
    exact sameOutside_removeTree
  · exact .refl _ _

/-- Only a download directory that was not there changes. -/
theorem Download.sameOutside {number : Nat} {w w' : Workspace ω} (keeps : c.KeepsTo package)
    (h : Download c package number w w') :
    w.files.node? (downloadLocation number) = none ∧
      SameOutside (downloadLocation number) w.files w'.files := by
  have hfetch : ∀ {made r w''}, w.files.makeDirectory (downloadDir number) = .ok made →
      Fetcher.fetchFirst c.fetchers package (Path.join (downloadDir number) packageName)
        ⟨made, w.outside⟩ = (r, w'') →
      w.files.node? (downloadLocation number) = none ∧
        SameOutside (downloadLocation number) w.files w''.files := by
    intro made r w'' hmade h
    obtain ⟨hnew, hmade, hdir⟩ := makeDirectory_eq_ok hmade
    rw [lexical_downloadDir] at hnew hmade
    have hpackage := Fetcher.sameOutside_fetchFirst (fun f hf => keeps f hf number)
      (w := ⟨made, w.outside⟩) (prepared_join_name hdir isName_packageName) h
    -- the package has a name of its own in the download directory
    rw [lexical_join_name isName_packageName, lexical_downloadDir] at hpackage
    have hbelow : downloadLocation number <+: downloadLocation number ++ [packageName] :=
      List.prefix_append _ _
    exact ⟨hnew, hmade.trans (hpackage.of_below hbelow)⟩
  cases h with
  | fetched directory fetch => exact hfetch directory fetch
  | failed directory fetch =>
      obtain ⟨hnew, hfetched⟩ := hfetch directory fetch
      exact ⟨hnew, hfetched.trans (sameOutside_dropDownload _ number)⟩

/-- Downloads disturb nothing if fetchers keep to where they put the packages. -/
theorem Downloads.undisturbed {packages : String → Prop}
    (keeps : ∀ package, packages package → c.KeepsTo package) (h : Downloads c packages s s') :
    Undisturbed s s' := by
  induction h with
  | none workspace downloads => exact .of_files_eq (congrArg Workspace.files workspace) downloads
  | next wanted number_ge number_lt download _ ih =>
      obtain ⟨hnew, hfiles⟩ := download.sameOutside (keeps _ wanted)
      exact (Undisturbed.of_download number_ge hnew hfiles number_lt).trans ih

end Catalog
end HpcBlueprint
