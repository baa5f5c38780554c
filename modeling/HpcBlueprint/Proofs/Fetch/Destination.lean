/-
  Where the objects of a package go.

  An object is stored where the rest of its key leads from the destination, whatever that is:
  a rest that begins with a slash leads from the root, and one with steps upwards may lead
  out of the destination.  So may the directories that are made for it, even where its file
  comes to lie below again.  All stays below the destination exactly if every rest is confined
  to it and the directories outside of it that are passed on the way are there already; that
  is the case wherever no rest ever leads above the destination.
-/
import HpcBlueprint.Fetch.S3
import HpcBlueprint.Proofs.Files.Way

namespace HpcBlueprint

open FileSystem

namespace FileSystem

variable {fs fs' : FileSystem} {loc : Location} {path : String}

/-! ## Storing -/

/-- What putting files at paths does to a tree: nothing changes but at these paths or below,
    and but for directories that were missing on the way. -/
structure Puts (paths : List String) (earlier later : FileSystem) : Prop
    extends Keeps earlier later where
  node? : ∀ l, later.node? l = earlier.node? l ∨ (∃ path ∈ paths, earlier.lexical path <+: l) ∨
    (earlier.node? l = none ∧ ∃ path ∈ paths, ∃ p, Path.Passed path p ∧ l = earlier.lexical p)

/-- Files are put at paths, and if that ends well, all these paths are reached. -/
structure Stores (paths : List String) (earlier later : FileSystem)
    (outcome : Except FetchError Unit) : Prop extends Puts paths earlier later where
  reached : outcome = .ok () → ∀ path ∈ paths, later.Reached path

variable {paths more : List String} {fs₁ fs₂ fs₃ : FileSystem} {outcome : Except FetchError Unit}

theorem Puts.refl (paths : List String) (fs : FileSystem) : Puts paths fs fs :=
  ⟨.refl fs, fun _ => .inl rfl⟩

theorem Puts.mono (h : Puts paths fs fs') (hpaths : ∀ path ∈ paths, path ∈ more) :
    Puts more fs fs' := by
  refine ⟨h.toKeeps, fun l => ?_⟩
  rcases h.node? l with hsame | ⟨path, hpath, hbelow⟩ | ⟨hnew, path, hpath, hpassed⟩
  · exact .inl hsame
  · exact .inr (.inl ⟨path, hpaths path hpath, hbelow⟩)
  · exact .inr (.inr ⟨hnew, path, hpaths path hpath, hpassed⟩)

theorem Puts.trans (h₁ : Puts paths fs₁ fs₂) (h₂ : Puts paths fs₂ fs₃) : Puts paths fs₁ fs₃ := by
  refine ⟨h₁.toKeeps.trans h₂.toKeeps, fun l => ?_⟩
  rcases h₂.node? l with hsame | ⟨path, hpath, hbelow⟩ | ⟨hnew, path, hpath, p, hp, hl⟩
  · rw [hsame]
    exact h₁.node? l
  · rw [h₁.toKeeps.lexical] at hbelow
    exact .inr (.inl ⟨path, hpath, hbelow⟩)
  · -- what is missing in the second tree has not been put there
    rw [h₁.toKeeps.lexical] at hl
    rcases h₁.node? l with hsame | hbelow | hpassed
    · exact .inr (.inr ⟨hsame ▸ hnew, path, hpath, p, hp, hl⟩)
    · exact .inr (.inl hbelow)
    · exact .inr (.inr hpassed)

/-- Nothing is said about what is reached if the work ends early. -/
theorem Puts.stores_error (h : Puts paths fs fs') (e : FetchError) :
    Stores paths fs fs' (.error e) := by
  refine ⟨h, fun hok => ?_⟩
  cases hok

theorem Stores.append (h₁ : Stores paths fs₁ fs₂ (.ok ())) (h₂ : Stores more fs₂ fs₃ outcome) :
    Stores (paths ++ more) fs₁ fs₃ outcome := by
  refine ⟨(h₁.toPuts.mono fun _ => List.mem_append_left _).trans
    (h₂.toPuts.mono fun _ => List.mem_append_right _), fun hok path hpath => ?_⟩
  rcases List.mem_append.mp hpath with hpath | hpath
  · exact (h₁.reached rfl path hpath).of_keeps h₂.toKeeps
  · exact h₂.reached hok path hpath

theorem puts_makeDirectories (fs : FileSystem) (path : String) :
    Puts [path] fs (fs.makeDirectories (Path.ancestors ((Path.parent? path).getD ""))).2 := by
  refine ⟨(addsDirectories_makeDirectories fs _).toKeeps, fun l => ?_⟩
  rcases node?_makeDirectories fs (Path.ancestors ((Path.parent? path).getD "")) l with
    hsame | ⟨hnew, -, p, hp, hl⟩
  · exact .inl hsame
  · exact .inr (.inr ⟨hnew, path, List.mem_singleton_self _, p, Path.passed_of_mem_ancestors hp, hl⟩)

theorem puts_of_writeContent {content : Content} (h : fs.writeContent path content = .ok fs') :
    Puts [path] fs fs' := by
  have hadds := addsBelow_of_writeContent h
  refine ⟨hadds.toKeeps, fun l => ?_⟩
  by_cases hl : fs.lexical path <+: l
  · exact .inr (.inl ⟨path, List.mem_singleton_self _, hl⟩)
  · exact .inl (hadds.node? l hl)

theorem reached_of_writeContent {content : Content} (h : fs.writeContent path content = .ok fs') :
    fs'.Reached path := by
  have hkeeps := (addsBelow_of_writeContent h).toKeeps
  rw [writeContent, bind_eq_ok] at h
  obtain ⟨made, hmade, -⟩ := h
  exact (reached_of_locate (FileStep.apply_create_eq_ok hmade).1).of_keeps hkeeps

/-! ## Staying below a location -/

/-- A location at which something is created or overwritten: where one of the paths leads, or
    where something changes. -/
def Touches (paths : List String) (earlier later : FileSystem) (l : Location) : Prop :=
  (∃ path ∈ paths, l = earlier.lexical path) ∨ later.node? l ≠ earlier.node? l

/-- What leads below a location and passes nothing new outside of it changes nothing there. -/
theorem Puts.sameOutside (h : Puts paths fs fs')
    (hpaths : ∀ path ∈ paths, loc <+: fs.lexical path ∧ fs.Prepared loc path) :
    SameOutside loc fs fs' := by
  refine ⟨h.workingDir, fun l hl => ?_⟩
  rcases h.node? l with hsame | ⟨path, hpath, hbelow⟩ | ⟨hnew, path, hpath, p, hp, rfl⟩
  · exact hsame
  · exact absurd ((hpaths path hpath).1.trans hbelow) hl
  · rcases (hpaths path hpath).2 p hp with hbelow | hdirectory
    · exact absurd hbelow hl
    · rw [hnew] at hdirectory
      cases hdirectory

/-- Where all files have been put, nothing is touched outside a location exactly if all paths
    lead below it and pass nothing new outside. -/
theorem Stores.touches_below_iff (h : Stores paths fs fs' (.ok ())) :
    (∀ l, Touches paths fs fs' l → loc <+: l) ↔
      ∀ path ∈ paths, loc <+: fs.lexical path ∧ fs.Prepared loc path := by
  constructor
  · intro hbelow path hpath
    have hplace := hbelow _ (.inl ⟨path, hpath, rfl⟩)
    refine ⟨hplace, fun p hp => ?_⟩
    -- what is passed is a directory in the end, so it was one before or it is touched
    rcases h.reached rfl path hpath p hp with hsame | hdirectory
    · rw [h.toKeeps.lexical, h.toKeeps.lexical] at hsame
      exact .inl (hsame ▸ hplace)
    · rw [h.toKeeps.lexical] at hdirectory
      by_cases hthere : fs.node? (fs.lexical p) = some .directory
      · exact .inr hthere
      · refine .inl (hbelow _ (.inr ?_))
        rw [hdirectory]
        exact Ne.symm hthere
  · rintro hpaths l (⟨path, hpath, rfl⟩ | hchanged)
    · exact (hpaths path hpath).1
    · by_cases hl : loc <+: l
      · exact hl
      · exact absurd ((h.toPuts.sameOutside hpaths).node? l hl) hchanged

end FileSystem

namespace S3

variable {s : ObjectStore} {a : Address} {dest : String} {p p' : Progress}
  {r : Except FetchError Unit}

theorem stores_store {fs fs' : FileSystem} {target : String} {content : Content}
    (h : store fs target content = (r, fs')) : Stores [target] fs fs' r := by
  have hparent := puts_makeDirectories fs target
  unfold store at h
  dsimp only at h
  split at h
  · rename_i made hmade
    obtain ⟨rfl, rfl⟩ := Prod.mk.inj h
    rw [hmade] at hparent
    exact hparent.stores_error _
  · rename_i made hmade
    rw [hmade] at hparent
    split at h
    · rename_i filled hwritten
      obtain ⟨rfl, rfl⟩ := Prod.mk.inj h
      refine ⟨hparent.trans (puts_of_writeContent hwritten), fun _ path hpath => ?_⟩
      rw [List.mem_singleton.mp hpath]
      exact reached_of_writeContent hwritten
    · obtain ⟨rfl, rfl⟩ := Prod.mk.inj h
      exact hparent.stores_error _

theorem stores_download {bucket key target : String}
    (h : download s bucket key target p = (r, p')) : Stores [target] p.files p'.files r := by
  unfold download at h
  dsimp only at h
  split at h
  · obtain ⟨rfl, rfl⟩ := Prod.mk.inj h
    exact (Puts.refl _ _).stores_error _
  · split at h
    · rename_i hstore
      obtain ⟨rfl, rfl⟩ := Prod.mk.inj h
      exact stores_store hstore
    · rename_i hstore
      obtain ⟨rfl, rfl⟩ := Prod.mk.inj h
      exact stores_store hstore

/-- The paths at which objects with these keys are stored. -/
def targets (a : Address) (dest : String) (keys : List String) : List String :=
  (keys.filterMap (relative? a.start)).map (Path.join dest)

theorem targets_append (a : Address) (dest : String) (front back : List String) :
    targets a dest (front ++ back) = targets a dest front ++ targets a dest back := by
  rw [targets, List.filterMap_append, List.map_append, targets, targets]

theorem stores_downloadAll {keys : List String} (h : downloadAll s a dest keys p = (r, p')) :
    Stores (targets a dest keys) p.files p'.files r := by
  induction keys generalizing p with
  | nil =>
      obtain ⟨rfl, rfl⟩ := Prod.mk.inj h
      exact ⟨.refl _ _, fun _ _ hpath => absurd hpath List.not_mem_nil⟩
  | cons key rest ih =>
      rw [downloadAll] at h
      split at h
      · rename_i hnone
        rw [targets, List.filterMap_cons_none hnone]
        exact ih h
      · rename_i relative hrelative
        have htargets : targets a dest (key :: rest) =
            [Path.join dest relative] ++ targets a dest rest := by
          rw [targets, List.filterMap_cons_some hrelative, List.map_cons, targets]
          rfl
        rw [htargets]
        split at h
        · rename_i mid hdownload
          exact (stores_download hdownload).append (ih h)
        · rename_i e mid hdownload
          obtain ⟨rfl, rfl⟩ := Prod.mk.inj h
          exact ((stores_download hdownload).toPuts.mono fun _ =>
            List.mem_append_left _).stores_error _

/-- Page after page, the objects from the key of some number on are stored. -/
theorem stores_downloadFrom (s : ObjectStore) (a : Address) (dest : String) (keys : List String)
    (number : Nat) (p : Progress) :
    Stores (targets a dest (keys.drop number)) p.files
      (downloadFrom s a dest keys number p).2.files (downloadFrom s a dest keys number p).1 := by
  have hpages : ∀ number, targets a dest (keys.drop number) =
      targets a dest ((keys.drop number).take s.pageSize) ++
        targets a dest (keys.drop (number + s.pageSize)) := by
    intro number
    rw [← targets_append, ← List.drop_drop, List.take_append_drop]
  fun_induction downloadFrom s a dest keys number p with
  | case1 number p asked e p' h => -- an object of this page fails
      rw [hpages]
      exact ((stores_downloadAll h).toPuts.mono fun _ => List.mem_append_left _).stores_error _
  | case2 number p asked _ p' h more ih => -- more pages follow
      rw [hpages]
      exact (stores_downloadAll h).append ih
  | case3 number p asked _ p' h last => -- this is the last page
      have hlast : keys.drop (number + s.pageSize) = [] := List.drop_eq_nil_of_le (by omega)
      rw [hpages, hlast, targets, targets, List.filterMap_nil, List.map_nil, List.append_nil]
      exact stores_downloadAll (p := asked) h

/-- What is left of the keys of a package's objects, in the order in which they are stored. -/
def packageRests (s : ObjectStore) (package : String) : List String :=
  match Address.ofPackage? package with
  | none => []
  | some a =>
    match s.keys a.bucket a.start with
    | .error _ => []
    | .ok keys => keys.filterMap (relative? a.start)

/-- A package is stored object by object, each behind the destination. -/
theorem stores_fetch (s : ObjectStore) (package dest : String) (fs : FileSystem) :
    Stores ((packageRests s package).map (Path.join dest)) fs (fetch s package dest fs).2.files
      (fetch s package dest fs).1 := by
  unfold fetch packageRests
  cases Address.ofPackage? package with
  | none => exact (Puts.refl _ _).stores_error _
  | some a =>
      dsimp only
      unfold fetchObjects
      cases s.keys a.bucket a.start with
      | error f => exact (Puts.refl _ _).stores_error _
      | ok keys =>
          have hstores := stores_downloadFrom s a dest keys 0 ⟨0, [], fs⟩
          rw [List.drop_zero] at hstores
          dsimp only
          split
          · rename_i h
            rw [h] at hstores
            exact hstores
          · rename_i h
            rw [h] at hstores
            split
            · exact hstores.toPuts.stores_error _
            · exact hstores

theorem exists_key_of_mem_packageRests {package rest : String}
    (h : rest ∈ packageRests s package) :
    ∃ a keys key, Address.ofPackage? package = some a ∧ s.keys a.bucket a.start = .ok keys ∧
      key ∈ keys ∧ relative? a.start key = some rest := by
  unfold packageRests at h
  split at h
  · cases h
  · rename_i a ha
    split at h
    · cases h
    · rename_i keys hkeys
      obtain ⟨key, hkey, hrelative⟩ := List.mem_filterMap.mp h
      exact ⟨a, keys, key, ha, hkeys, hkey, hrelative⟩

theorem forall_targets_iff {fs : FileSystem} {package : String} :
    (∀ path ∈ (packageRests s package).map (Path.join dest),
      fs.lexical dest <+: fs.lexical path ∧ fs.Prepared (fs.lexical dest) path) ↔
    ∀ rest ∈ packageRests s package, fs.KeptBelow dest rest := by
  simp only [List.forall_mem_map, KeptBelow, prefix_lexical_join_iff]

/-- A package changes nothing but its destination and what is below, if its objects are kept
    there. -/
theorem sameOutside_fetch {fs : FileSystem} {package : String}
    (h : ∀ rest ∈ packageRests s package, fs.KeptBelow dest rest) :
    SameOutside (fs.lexical dest) fs (fetch s package dest fs).2.files :=
  (stores_fetch s package dest fs).toPuts.sameOutside (forall_targets_iff.mpr h)

/-- A package changes nothing but its destination and what is below, if its objects are kept
    there; and if it is stored completely, nothing else is created or overwritten exactly if
    they are.  They are kept there if nothing has to be made on the way to the destination and
    what is left of their keys never leads above it. -/
theorem fetch_stays_iff (s : ObjectStore) (package dest : String) (fs : FileSystem) :
    ((∀ rest ∈ packageRests s package, fs.KeptBelow dest rest) →
      SameOutside (fs.lexical dest) fs (fetch s package dest fs).2.files) ∧
    (∀ p, fetch s package dest fs = (.ok (), p) →
      ((∀ l, Touches ((packageRests s package).map (Path.join dest)) fs p.files l →
          fs.lexical dest <+: l) ↔
        ∀ rest ∈ packageRests s package, fs.KeptBelow dest rest)) ∧
    (fs.Prepared (fs.lexical dest) dest → (∀ rest ∈ packageRests s package, Path.Stays rest) →
      ∀ rest ∈ packageRests s package, fs.KeptBelow dest rest) := by
  refine ⟨sameOutside_fetch, fun p hfetch => ?_, fun prepared stays rest hrest => ?_⟩
  · have hstores := stores_fetch s package dest fs
    rw [hfetch] at hstores
    rw [hstores.touches_below_iff, forall_targets_iff]
  · exact keptBelow_of_stays prepared (stays rest hrest)

/-- A tree with a directory for temporary files. -/
def scratch : FileSystem := ⟨[(["tmp"], .directory)], []⟩

/-- A store with one bucket, in which there are objects with these keys. -/
def shelf (keys : List String) : ObjectStore :=
  { ObjectStore.unreachable with
    isReachable := true
    buckets := [("b", keys.map fun key => (key, .text "x"))] }

theorem fetch_stays_iff_shelf :
    ∃ p, fetch (shelf ["p/", "p/main.tf", "p/sub/../x.tf"]) "s3://b/p" "/tmp/package" scratch =
        (.ok (), p) ∧
      packageRests (shelf ["p/", "p/main.tf", "p/sub/../x.tf"]) "s3://b/p" =
        ["main.tf", "sub/../x.tf"] ∧
      ∀ l, Touches ["/tmp/package/main.tf", "/tmp/package/sub/../x.tf"] scratch p.files l →
        scratch.lexical "/tmp/package" <+: l := by
  have hstays := fetch_stays_iff (shelf ["p/", "p/main.tf", "p/sub/../x.tf"]) "s3://b/p"
    "/tmp/package" scratch
  have hdir : scratch.isDirectory "/tmp" = true := by decide
  have hname : Path.IsName "package" := by decide
  have hjoin : Path.join "/tmp" "package" = "/tmp/package" := by decide
  have hprepared := prepared_join_name hdir hname
  rw [hjoin] at hprepared
  have hkept := hstays.2.2 hprepared (by decide +kernel)
  have hrun : fetch (shelf ["p/", "p/main.tf", "p/sub/../x.tf"]) "s3://b/p" "/tmp/package" scratch =
      (.ok (), (fetch (shelf ["p/", "p/main.tf", "p/sub/../x.tf"]) "s3://b/p" "/tmp/package"
        scratch).2) := Prod.ext (eq_ok_of_toOption (by decide +kernel)) rfl
  exact ⟨_, hrun, by decide +kernel, (hstays.2.1 _ hrun).mpr hkept⟩

/-- Objects whose keys have a step upwards or a second slash behind the beginning of the
    package are stored beside the destination and at the root. -/
theorem exists_fetch_touches_elsewhere :
    ∃ (s : ObjectStore) (package dest : String) (fs : FileSystem) (p : Progress),
      fetch s package dest fs = (.ok (), p) ∧
      ∀ l ∈ [["tmp", "escaped.tf"], ["rooted.tf"]],
        fs.node? l = none ∧ p.files.node? l = some (.file (.text "x")) ∧
          ¬ fs.lexical dest <+: l := by
  refine ⟨shelf ["p/../escaped.tf", "p//rooted.tf"], "s3://b/p", "/tmp/package", scratch,
    (fetch (shelf ["p/../escaped.tf", "p//rooted.tf"]) "s3://b/p" "/tmp/package" scratch).2,
    Prod.ext (eq_ok_of_toOption (by decide +kernel)) rfl, by decide +kernel⟩

end S3
end HpcBlueprint
