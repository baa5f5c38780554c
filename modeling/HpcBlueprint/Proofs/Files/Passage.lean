/-
  The directories that a path passes.

  What stands before the last piece of a path that leads somewhere is a directory, beginning
  with the one where the path starts.  So a path below a base leads somewhere only if the
  base is there, and no directory can be made where there is no directory to start from.
-/
import HpcBlueprint.Proofs.Files.Progress

namespace HpcBlueprint

variable {fs fs' : FileSystem}

namespace Path

theorem join_eq_append (base rest : String) (hrest : isAbsolute rest = false) :
    ∃ more, join base rest = base ++ more := by
  rw [join, hrest, if_neg Bool.false_ne_true]
  split
  · exact ⟨rest, rfl⟩
  · exact ⟨"/" ++ rest, String.append_assoc⟩

theorem join_ne_empty {base rest : String} (hrest : rest ≠ "") : join base rest ≠ "" := by
  rw [join]
  split
  · exact hrest
  · split
    · simp [hrest]
    · simp [hrest]

theorem pieces_ne_nil (path : String) : pieces path ≠ [] := by
  rw [pieces, Text.splitAll]
  simpa using Text.pieces_ne_nil '/' path.toList

end Path

namespace FileSystem

theorem isDirectory_eq_true_iff {path : String} :
    fs.isDirectory path = true ↔
      ∃ loc, fs.locate path = .ok loc ∧ fs.node? loc = some .directory := by
  rw [isDirectory]
  constructor
  · intro h
    split at h
    · rename_i loc hfind
      exact ⟨loc, find_eq_ok_iff.mp hfind⟩
    · cases h
  · rintro ⟨loc, hfound⟩
    rw [find_eq_ok_iff.mpr hfound]

theorem contains_of_isDirectory {path : String} (h : fs.isDirectory path = true) :
    fs.contains path = true := by
  obtain ⟨loc, hfound⟩ := isDirectory_eq_true_iff.mp h
  exact contains_eq_true_iff.mpr ⟨loc, _, find_eq_ok_iff.mpr hfound⟩

theorem Keeps.isDirectory (h : Keeps fs fs') {path : String} (hpath : fs.isDirectory path = true) :
    fs'.isDirectory path = true := by
  obtain ⟨loc, hlocate, hnode⟩ := isDirectory_eq_true_iff.mp hpath
  exact isDirectory_eq_true_iff.mpr ⟨loc, h.locate hlocate, h.directory loc hnode⟩

/-! ## Walking -/

/-- A walk that goes on starts at a directory. -/
theorem node?_of_walk {loc found : Location} {pieces : List String} (hne : pieces ≠ [])
    (h : fs.walk loc pieces = .ok found) : fs.node? loc = some .directory := by
  cases pieces with
  | nil => exact absurd rfl hne
  | cons piece rest => exact (walk_cons_eq_ok_iff.mp h).1

theorem walk_append_eq_ok_iff {loc found : Location} {front back : List String} :
    fs.walk loc (front ++ back) = .ok found ↔
      ∃ mid, fs.walk loc front = .ok mid ∧ fs.walk mid back = .ok found := by
  induction front generalizing loc with
  | nil => simp [walk]
  | cons piece rest ih =>
      rw [List.cons_append, walk_cons_eq_ok_iff]
      simp only [walk_cons_eq_ok_iff, ih]
      constructor
      · rintro ⟨hnode, next, hnext, mid, hrest, hback⟩
        exact ⟨mid, ⟨hnode, next, hnext, hrest⟩, hback⟩
      · rintro ⟨mid, ⟨hnode, next, hnext, hrest⟩, hback⟩
        exact ⟨hnode, next, hnext, mid, hrest, hback⟩

/-- A path leads somewhere only if it starts at a directory. -/
theorem node?_start_of_locate {path : String} {loc : Location} (h : fs.locate path = .ok loc) :
    fs.node? (fs.start path) = some .directory :=
  node?_of_walk (Path.pieces_ne_nil path) (locate_eq_ok_iff.mp h).2.2.2

/-- A path below a base leads somewhere only if the base is a directory. -/
theorem isDirectory_of_locate_join {base rest : String} {loc : Location} (hbase : base ≠ "")
    (hrest : Path.isAbsolute rest = false) (h : fs.locate (Path.join base rest) = .ok loc) :
    fs.isDirectory base = true := by
  obtain ⟨hnul, -, hlong, hwalk⟩ := locate_eq_ok_iff.mp h
  have hstart : fs.start (Path.join base rest) = fs.start base := by
    rw [start, start, Path.isAbsolute_join hbase hrest]
  obtain ⟨front, hjoin, hfront⟩ := Path.pieces_join hbase hrest
  rw [hstart, hjoin] at hwalk
  obtain ⟨mid, hmid, hback⟩ := walk_append_eq_ok_iff.mp hwalk
  have hnode := node?_of_walk (Path.pieces_ne_nil rest) hback
  have hwalk_base : fs.walk (fs.start base) (Path.pieces base) = .ok mid := by
    rcases hfront with hfront | hfront
    · rwa [hfront]
    · rw [hfront, walk_append_eq_ok_iff]
      exact ⟨mid, hmid, walk_cons_eq_ok_iff.mpr ⟨hnode, mid, rfl, rfl⟩⟩
  obtain ⟨more, hmore⟩ := Path.join_eq_append base rest hrest
  rw [hmore, String.toList_append, List.mem_append, not_or] at hnul
  rw [hmore, String.utf8ByteSize_append] at hlong
  exact isDirectory_eq_true_iff.mpr
    ⟨mid, locate_eq_ok_iff.mpr ⟨hnul.1, hbase, by omega, hwalk_base⟩, hnode⟩

/-! ## Starting nowhere -/

/-- Where paths lead nowhere, no directory is made on them. -/
theorem makeDirectories_of_locate_ne_ok {paths : List String}
    (h : ∀ path ∈ paths, ∀ loc, fs.locate path ≠ .ok loc ∧
      fs.locate (withoutSlashes path) ≠ .ok loc) :
    (fs.makeDirectories paths).2 = fs ∧
      (paths ≠ [] → ∃ e, (fs.makeDirectories paths).1 = .error e) := by
  -- there is no directory at the first path and none can be made, so all that may happen is that
  -- the rest is tried
  induction paths with
  | nil => exact ⟨rfl, fun hne => absurd rfl hne⟩
  | cons path parents ih =>
      obtain ⟨ihsame, -⟩ := ih fun path hpath => h path (List.mem_cons_of_mem _ hpath)
      have hpath := h path List.mem_cons_self
      have hnot : fs.isDirectory path = false := by
        rw [Bool.eq_false_iff]
        intro hdirectory
        obtain ⟨loc, hlocate, -⟩ := isDirectory_eq_true_iff.mp hdirectory
        exact (hpath loc).1 hlocate
      obtain ⟨e, he⟩ : ∃ e, fs.makeDirectory (withoutSlashes path) = .error e := by
        cases hmake : fs.makeDirectory (withoutSlashes path) with
        | error e => exact ⟨e, rfl⟩
        | ok made =>
            obtain ⟨loc, hlocate, -⟩ := makeDirectory_eq_ok_iff.mp hmake
            exact absurd hlocate (hpath loc).2
      rw [makeDirectories, he]
      cases hparents : fs.makeDirectories parents with
      | mk outcome next =>
          rw [hparents] at ihsame
          subst ihsame
          cases outcome <;> cases e <;> simp [hnot, he]

/-- The trees that are passed then are all the same. -/
theorem PassesMaking.eq_of_locate_ne_ok {paths : List String}
    (h : ∀ path ∈ paths, ∀ loc, fs.locate path ≠ .ok loc ∧
      fs.locate (withoutSlashes path) ≠ .ok loc)
    (hpasses : fs.PassesMaking paths fs') : fs' = fs := by
  induction hpasses with
  | start => rfl
  | parents _ _ ih => exact ih fun path hpath => h path (List.mem_cons_of_mem _ hpath)
  | done paths => exact (makeDirectories_of_locate_ne_ok h).1

end FileSystem
end HpcBlueprint
