/-
  Fetchers that overlook what does not concern them.

  A fetcher gets a path at which there is room for a package.  It overlooks places elsewhere if
  it does the same whatever stands there (`Fetcher.Overlooks`).  Git does so if its commands
  do; objects of a store are put at their places without a look at any other, as long as what is
  left of their keys never leads above.
-/
import HpcBlueprint.Proofs.Fetch.Keeping
import HpcBlueprint.Proofs.Files.Apart

namespace HpcBlueprint

open FileSystem

variable {ω : Type} {hidden : Location → Prop} {here : Location}

/-! ## Fetchers -/

/-- Workspaces that differ in nothing but what stands at hidden places. -/
structure Workspace.Twins (hidden : Location → Prop) (here : Location) (w w' : Workspace ω) :
    Prop where
  files : FileSystem.Twins hidden here w.files w'.files
  outside : w'.outside = w.outside

/-- A fetcher that does the same with a package whatever stands at hidden places. -/
def Fetcher.Overlooks (f : Fetcher ω) (hidden : Location → Prop) (here : Location)
    (package dest : String) : Prop :=
  ∀ w w' : Workspace ω, w.Twins hidden here w' →
    SameEnd Eq (Workspace.Twins hidden here) (f.fetch package dest w) (f.fetch package dest w')

theorem Fetcher.sameEnd_fetchFirst {fetchers : List (Fetcher ω)} {package dest : String}
    (overlooks : ∀ f, fetchers.find? (·.handles package) = some f →
      f.Overlooks hidden here package dest)
    {w w' : Workspace ω} (h : w.Twins hidden here w') :
    SameEnd Eq (Workspace.Twins hidden here) (fetchFirst fetchers package dest w)
      (fetchFirst fetchers package dest w') := by
  unfold fetchFirst
  split
  · rename_i f hfound
    exact overlooks f hfound w w' h
  · exact .error _ h

/-! ## Git -/

namespace Git

/-- A git whose commands for a package do the same whatever stands at hidden places. -/
def Overlooks (git : Program ω) (hidden : Location → Prop) (here : Location)
    (package dest : String) : Prop :=
  ∀ args ∈ commands (.ofPackage package) dest, ∀ w w', w.Twins hidden here w' →
    SameEnd Eq (Workspace.Twins hidden here) (git args w) (git args w')

theorem sameEnd_runAll {git : Program ω} {commands : List (List String)}
    (same : ∀ args ∈ commands, ∀ w w', w.Twins hidden here w' →
      SameEnd Eq (Workspace.Twins hidden here) (git args w) (git args w')) {w w' : Workspace ω}
    (h : w.Twins hidden here w') :
    SameEnd Eq (Workspace.Twins hidden here) (runAll git commands w) (runAll git commands w') := by
  -- each command begins in the twins that the one before has left
  induction commands generalizing w w' with
  | nil => exact .ok rfl h
  | cons args rest ih =>
      obtain ⟨hargs, hrest⟩ := List.forall_mem_cons.mp same
      have hran := hargs w w' h
      rw [runAll, runAll]
      generalize git args w = r, git args w' = r' at hran
      cases hran with
      | error f hnext => exact .error _ hnext
      | ok _ hnext => exact ih hrest hnext

theorem overlooks_fetcher {git : Program ω} {package dest : String}
    (overlooks : Overlooks git hidden here package dest) :
    (fetcher git).Overlooks hidden here package dest :=
  fun _ _ h => sameEnd_runAll overlooks h

end Git

/-! ## Objects -/

namespace S3

variable {s : ObjectStore} {a : Address} {dest target : String}

/-- Downloads that have come equally far, with files that differ at hidden places. -/
structure Progress.Twins (hidden : Location → Prop) (here : Location) (p p' : Progress) :
    Prop where
  count : p'.count = p.count
  requests : p'.requests = p.requests
  files : FileSystem.Twins hidden here p.files p'.files

/-- Where there is room for an object, it is stored whatever stands elsewhere. -/
theorem sameEnd_store (root : ¬ hidden []) (clear : Path.Clear hidden here target)
    (content : Content) {fs fs' : FileSystem} (h : FileSystem.Twins hidden here fs fs') :
    SameEnd Eq (FileSystem.Twins hidden here) (store fs target content)
      (store fs' target content) := by
  have hparents : ∀ p ∈ Path.ancestors ((Path.parent? target).getD ""),
      Path.Bypasses hidden here p :=
    fun p hp => clear.bypasses.of_passed root (Path.passed_of_mem_ancestors hp)
  -- the directories are made first, and stay behind if the object is not written
  have hmade := h.makeDirectories hparents
  unfold store
  dsimp only
  generalize fs.makeDirectories (Path.ancestors ((Path.parent? target).getD "")) = r,
    fs'.makeDirectories (Path.ancestors ((Path.parent? target).getD "")) = r' at hmade
  cases hmade with
  | error e hmade => exact .error _ hmade
  | @ok _ _ made made' _ hmade =>
      have hwritten := hmade.writeContent ⟨clear.bypasses, clear.parent⟩ content
      dsimp only
      generalize made.writeContent target content = x, made'.writeContent target content = y
        at hwritten
      cases hwritten with
      | error e => exact .error _ hmade
      | ok written => exact .ok rfl written

theorem sameEnd_download (root : ¬ hidden []) (clear : Path.Clear hidden here target)
    (bucket key : String) {p p' : Progress} (h : p.Twins hidden here p') :
    SameEnd Eq (Progress.Twins hidden here) (download s bucket key target p)
      (download s bucket key target p') := by
  obtain ⟨hcount, hrequests, hfiles⟩ := h
  unfold download
  dsimp only
  rw [hcount, hrequests]
  cases s.get bucket key with
  | error f => exact .error _ ⟨rfl, rfl, hfiles⟩
  | ok content =>
      have hstored := sameEnd_store root clear content hfiles
      dsimp only
      generalize store p.files target content = r, store p'.files target content = r' at hstored
      cases hstored with
      | error e hnext => exact .error e ⟨rfl, rfl, hnext⟩
      | ok _ hnext => exact .ok rfl ⟨rfl, rfl, hnext⟩

/-- There is room for the objects with these keys. -/
def Fits (a : Address) (hidden : Location → Prop) (here : Location) (dest : String)
    (keys : List String) : Prop :=
  ∀ key ∈ keys, ∀ rest, relative? a.start key = some rest →
    Path.Clear hidden here (Path.join dest rest)

theorem sameEnd_downloadAll (root : ¬ hidden []) {keys : List String}
    (fits : Fits a hidden here dest keys) {p p' : Progress} (h : p.Twins hidden here p') :
    SameEnd Eq (Progress.Twins hidden here) (downloadAll s a dest keys p)
      (downloadAll s a dest keys p') := by
  induction keys generalizing p p' with
  | nil => exact .ok rfl h
  | cons key rest ih =>
      obtain ⟨hkey, hrest⟩ := List.forall_mem_cons.mp fits
      rw [downloadAll, downloadAll]
      cases hrelative : relative? a.start key with
      | none =>
          -- an object beside the directory is not downloaded
          exact ih hrest h
      | some relative =>
          have hgot := sameEnd_download root (hkey relative hrelative) a.bucket key (s := s) h
          dsimp only
          generalize download s a.bucket key (Path.join dest relative) p = r,
            download s a.bucket key (Path.join dest relative) p' = r' at hgot
          cases hgot with
          | error e hnext => exact .error e hnext
          | ok _ hnext => exact ih hrest hnext

theorem sameEnd_downloadFrom (root : ¬ hidden []) {keys : List String}
    (fits : Fits a hidden here dest keys) (number : Nat) {p p' : Progress}
    (h : p.Twins hidden here p') :
    SameEnd Eq (Progress.Twins hidden here) (downloadFrom s a dest keys number p)
      (downloadFrom s a dest keys number p') := by
  have hpage : ∀ number, Fits a hidden here dest ((keys.drop number).take s.pageSize) :=
    fun number key hkey => fits key (List.mem_of_mem_drop (List.mem_of_mem_take hkey))
  -- page after page, until no key is left
  induction hleft : keys.length - number using Nat.strongRecOn generalizing number p p' with
  | ind left ih =>
      have hasked : Progress.Twins hidden here
          { p with requests := p.requests ++ [.list a.bucket a.start number] }
          { p' with requests := p'.requests ++ [.list a.bucket a.start number] } :=
        ⟨h.count, by rw [h.requests], h.files⟩
      have hgot := sameEnd_downloadAll (s := s) root (hpage number) hasked
      rw [downloadFrom, downloadFrom]
      generalize downloadAll s a dest ((keys.drop number).take s.pageSize)
          { p with requests := p.requests ++ [.list a.bucket a.start number] } = r,
        downloadAll s a dest ((keys.drop number).take s.pageSize)
          { p' with requests := p'.requests ++ [.list a.bucket a.start number] } = r' at hgot
      cases hgot with
      | error e hnext => exact .error e hnext
      | ok _ hnext =>
          have hpos := s.pageSize_pos
          dsimp only
          split
          · exact ih (keys.length - (number + s.pageSize)) (by omega) _ hnext rfl
          · exact .ok rfl hnext

/-- A package is stored the same way whatever stands where none of its objects goes. -/
theorem sameEnd_fetch (root : ¬ hidden []) {package : String}
    (clear : ∀ rest ∈ packageRests s package, Path.Clear hidden here (Path.join dest rest))
    {fs fs' : FileSystem} (h : FileSystem.Twins hidden here fs fs') :
    SameEnd Eq (Progress.Twins hidden here) (fetch s package dest fs)
      (fetch s package dest fs') := by
  have hbegin : ∀ requests, Progress.Twins hidden here ⟨0, requests, fs⟩ ⟨0, requests, fs'⟩ :=
    fun _ => ⟨rfl, rfl, h⟩
  unfold packageRests at clear
  unfold fetch
  cases haddress : Address.ofPackage? package with
  | none => exact .error _ (hbegin [])
  | some a =>
      rw [haddress] at clear
      dsimp only at clear ⊢
      unfold fetchObjects
      cases hkeys : s.keys a.bucket a.start with
      | error f => exact .error _ (hbegin _)
      | ok keys =>
          rw [hkeys] at clear
          dsimp only at clear ⊢
          -- only what is left of the listed keys is put behind the destination
          have fits : Fits a hidden here dest keys := fun key hkey rest hrest =>
            clear rest (List.mem_filterMap.mpr ⟨key, hkey, hrest⟩)
          have hgot := sameEnd_downloadFrom (s := s) root fits 0 (hbegin [])
          generalize downloadFrom s a dest keys 0 ⟨0, [], fs⟩ = r,
            downloadFrom s a dest keys 0 ⟨0, [], fs'⟩ = r' at hgot
          cases hgot with
          | error e hnext => exact .error e hnext
          | ok _ hnext =>
              dsimp only
              rw [hnext.count]
              split
              · exact .error _ hnext
              · exact .ok rfl hnext

/-- Objects are stored without a look at anything elsewhere if what is left of their keys never
    leads above the place of their package. -/
theorem overlooks_fetcher {note : List ObjectStore.Request → ω → ω} {package : String}
    (root : ¬ hidden []) (stays : ∀ rest ∈ packageRests s package, Path.Stays rest)
    (clear : Path.Clear hidden here dest) :
    (fetcher s note).Overlooks hidden here package dest := by
  intro w w' h
  have hclear : ∀ rest ∈ packageRests s package, Path.Clear hidden here (Path.join dest rest) :=
    fun rest hrest => clear.join_stays (stays rest hrest)
  have hfetched := sameEnd_fetch root hclear h.files
  unfold fetcher
  dsimp only
  generalize fetch s package dest w.files = r, fetch s package dest w'.files = r' at hfetched
  obtain ⟨houtcome, hp⟩ := sameEnd_iff.mp hfetched
  refine sameEnd_iff.mpr ⟨houtcome, hp.files, ?_⟩
  dsimp only
  rw [hp.requests, h.outside]

end S3
end HpcBlueprint
