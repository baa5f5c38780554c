/-
  What changes when a tree of files is changed.

  A directory stays a directory whatever is done, so a path that leads somewhere goes on
  leading there (`Keeps`).  Making directories changes no file, and a step changes nothing
  but the locations that it touches.  A file whose replacement ends early is as it was: up to
  the last step only what stands beside it changes.
-/
import HpcBlueprint.Files.Step
import HpcBlueprint.Proofs.Files.Lexical
import HpcBlueprint.Proofs.OrderedMap

namespace HpcBlueprint
namespace FileSystem

variable {fs fs' : FileSystem}

/-! ## Nodes -/

/-- The root is always a directory. -/
theorem ne_nil_of_node?_ne {loc : Location} (h : fs.node? loc ≠ some .directory) : loc ≠ [] := by
  rintro rfl
  exact h rfl

theorem node?_ne_of_file {loc : Location} {content : Content}
    (h : fs.node? loc = some (.file content)) : fs.node? loc ≠ some .directory := by
  simp [h]

theorem node?_put {loc : Location} (hne : loc ≠ []) (n : FileNode) (l : Location) :
    (fs.put loc n).node? l = if l = loc then some n else fs.node? l := by
  by_cases hl : l = loc
  · subst hl
    simp [node?, put, hne]
  · have hbeq : (l == loc) = false := by simpa using hl
    simp only [node?, put, List.lookup_cons, hbeq, lookup_filter_ne hl, if_neg hl]

theorem node?_remove {loc : Location} (hne : loc ≠ []) (l : Location) :
    (fs.remove loc).node? l = if l = loc then none else fs.node? l := by
  by_cases hl : l = loc
  · subst hl
    have hnone : (fs.nodes.filter (·.1 != l)).lookup l = none := by
      rw [List.lookup_eq_none_iff]
      intro entry hentry
      have hkept := (List.mem_filter.mp hentry).2
      rw [bne_iff_ne] at hkept
      simpa using hkept.symm
    simp [node?, remove, hne, hnone]
  · simp only [node?, remove, lookup_filter_ne hl, if_neg hl]

/-- What the file at a location holds, if a file stands there. -/
def file? (fs : FileSystem) (loc : Location) : Option Content :=
  match fs.node? loc with
  | some (.file content) => some content
  | _ => none

theorem file?_eq_some_iff {loc : Location} {content : Content} :
    fs.file? loc = some content ↔ fs.node? loc = some (.file content) := by
  unfold file?
  split <;> simp_all

theorem file?_congr {loc : Location} (h : fs'.node? loc = fs.node? loc) :
    fs'.file? loc = fs.file? loc := by
  rw [file?, h, file?]

/-! ## Directories that stay -/

theorem locate_eq_ok_iff {path : String} {loc : Location} :
    fs.locate path = .ok loc ↔ '\x00' ∉ path.toList ∧ path ≠ "" ∧
      path.utf8ByteSize ≤ maxPath ∧ fs.walk (fs.start path) (Path.pieces path) = .ok loc := by
  rw [locate]
  by_cases hnul : '\x00' ∈ path.toList
  · simp [hnul]
  · by_cases hempty : path = ""
    · simp [hempty]
    · by_cases hlong : maxPath < path.utf8ByteSize
      · simp [hnul, hempty, Nat.not_le.mpr hlong, hlong]
      · simp [hnul, hempty, hlong, Nat.le_of_not_lt hlong]

/-- The later tree has the directories of the earlier one, and paths start where they did. -/
structure Keeps (earlier later : FileSystem) : Prop where
  workingDir : later.workingDir = earlier.workingDir
  directory : ∀ loc, earlier.node? loc = some .directory → later.node? loc = some .directory

namespace Keeps

theorem refl (fs : FileSystem) : Keeps fs fs := ⟨rfl, fun _ h => h⟩

theorem trans {fs₁ fs₂ fs₃ : FileSystem} (h₁ : Keeps fs₁ fs₂) (h₂ : Keeps fs₂ fs₃) :
    Keeps fs₁ fs₃ :=
  ⟨h₂.workingDir.trans h₁.workingDir, fun loc h => h₂.directory loc (h₁.directory loc h)⟩

theorem start (h : Keeps fs fs') (path : String) : fs'.start path = fs.start path := by
  rw [FileSystem.start, FileSystem.start, h.workingDir]

theorem lexical (h : Keeps fs fs') (path : String) : fs'.lexical path = fs.lexical path := by
  rw [FileSystem.lexical, FileSystem.lexical, h.start]

/-- Every directory that is passed on the way is still there. -/
theorem walk (h : Keeps fs fs') {loc found : Location} {pieces : List String}
    (hwalk : fs.walk loc pieces = .ok found) : fs'.walk loc pieces = .ok found := by
  induction pieces generalizing loc with
  | nil => exact hwalk
  | cons piece rest ih =>
      obtain ⟨hnode, next, hnext, hrest⟩ := walk_cons_eq_ok_iff.mp hwalk
      exact walk_cons_eq_ok_iff.mpr ⟨h.directory loc hnode, next, hnext, ih hrest⟩

theorem locate (h : Keeps fs fs') {path : String} {loc : Location}
    (hlocate : fs.locate path = .ok loc) : fs'.locate path = .ok loc := by
  obtain ⟨hnul, hempty, hlong, hwalk⟩ := locate_eq_ok_iff.mp hlocate
  rw [← h.start] at hwalk
  exact locate_eq_ok_iff.mpr ⟨hnul, hempty, hlong, h.walk hwalk⟩

end Keeps

theorem find_eq_ok_iff {path : String} {loc : Location} {n : FileNode} :
    fs.find path = .ok (loc, n) ↔ fs.locate path = .ok loc ∧ fs.node? loc = some n := by
  rw [find, bind_eq_ok]
  constructor
  · rintro ⟨found, hlocate, h⟩
    cases hnode : fs.node? found with
    | none => simp [hnode] at h
    | some m =>
        simp only [hnode, pure_eq_ok, Prod.mk.injEq] at h
        obtain ⟨rfl, rfl⟩ := h
        exact ⟨hlocate, hnode⟩
  · rintro ⟨hlocate, hnode⟩
    exact ⟨loc, hlocate, by simp [hnode]⟩

theorem contains_eq_true_iff {path : String} :
    fs.contains path = true ↔ ∃ loc n, fs.find path = .ok (loc, n) := by
  rw [contains]
  cases fs.find path with
  | error e => simp [Except.toOption]
  | ok found =>
      obtain ⟨loc, n⟩ := found
      simp [Except.toOption]

theorem isFile_eq_true_iff {path : String} :
    fs.isFile path = true ↔
      ∃ loc content, fs.locate path = .ok loc ∧ fs.file? loc = some content := by
  rw [isFile]
  constructor
  · intro h
    split at h
    · rename_i loc content hfind
      obtain ⟨hlocate, hnode⟩ := find_eq_ok_iff.mp hfind
      exact ⟨loc, content, hlocate, file?_eq_some_iff.mpr hnode⟩
    · cases h
  · rintro ⟨loc, content, hlocate, hfile⟩
    rw [find_eq_ok_iff.mpr ⟨hlocate, file?_eq_some_iff.mp hfile⟩]

/-- What is read at a path is the text of the file that stands there. -/
theorem read_eq_ok_iff {path text : String} :
    fs.read path = .ok text ↔
      ∃ loc, fs.locate path = .ok loc ∧ fs.file? loc = some (.text text) := by
  rw [read, bind_eq_ok]
  constructor
  · rintro ⟨⟨loc, n⟩, hfind, h⟩
    obtain ⟨hlocate, hnode⟩ := find_eq_ok_iff.mp hfind
    split at h
    · rename_i hcontent
      obtain ⟨-, rfl⟩ := Prod.mk.inj hcontent
      rw [pure_eq_ok] at h
      exact ⟨loc, hlocate, file?_eq_some_iff.mpr (h ▸ hnode)⟩
    · cases h
    · cases h
  · rintro ⟨loc, hlocate, hfile⟩
    exact ⟨_, find_eq_ok_iff.mpr ⟨hlocate, file?_eq_some_iff.mp hfile⟩, rfl⟩

/-! ## Single changes -/

/-- Something may be put where no directory stands. -/
theorem keeps_put {loc : Location} (h : fs.node? loc ≠ some .directory) (n : FileNode) :
    Keeps fs (fs.put loc n) := by
  refine ⟨rfl, fun l hl => ?_⟩
  have hne : l ≠ loc := by
    rintro rfl
    exact h hl
  rw [node?_put (ne_nil_of_node?_ne h), if_neg hne]
  exact hl

theorem writable_eq_ok {path : String} {loc : Location} (h : fs.writable path = .ok loc) :
    fs.locate path = .ok loc := by
  rw [writable] at h
  split at h
  · rename_i found hfound
    rw [hfound, Except.ok.inj h]
  · split at h <;> cases h
  · cases h

theorem createAt_eq_ok_iff {loc : Location} :
    fs.createAt loc = .ok fs' ↔ fs.node? loc.dropLast = some .directory ∧
      fs.node? loc ≠ some .directory ∧ fs' = fs.put loc (.file (.text "")) := by
  rw [createAt]
  cases hparent : fs.node? loc.dropLast with
  | none => simp
  | some parent =>
      cases parent with
      | file content => simp
      | directory =>
          cases hnode : fs.node? loc with
          | none => simp [eq_comm]
          | some n => cases n <;> simp [eq_comm]

theorem writeAt_eq_ok_iff {loc : Location} {content : Content} :
    fs.writeAt loc content = .ok fs' ↔
      (∃ old, fs.node? loc = some (.file old)) ∧ fs' = fs.put loc (.file content) := by
  rw [writeAt]
  cases hnode : fs.node? loc with
  | none => simp
  | some n => cases n <;> simp [eq_comm]

theorem renameAt_eq_ok_iff {source target : Location} :
    fs.renameAt source target = .ok fs' ↔ ∃ content, fs.node? source = some (.file content) ∧
      fs.node? target ≠ some .directory ∧
      fs' = (fs.remove source).put target (.file content) := by
  rw [renameAt]
  cases hsource : fs.node? source with
  | none => simp
  | some n =>
      cases n with
      | directory => simp
      | file content =>
          cases htarget : fs.node? target with
          | none => simp [eq_comm]
          | some m => cases m <;> simp [eq_comm]

end FileSystem
end HpcBlueprint
