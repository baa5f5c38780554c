/-
  Trees that agree along a path.

  What is found at a path depends on nothing but what stands at the places that the path
  passes, and whether it leads somewhere not even on what files hold.  Trees that agree there
  (`AgreeAlong`) answer every question about the path alike.
-/
import HpcBlueprint.Proofs.Files.Passage

namespace HpcBlueprint
namespace FileSystem

variable {R : Content → Content → Prop} {fs fs' : FileSystem} {path : String}

/-! ## Places that are alike -/

/-- Two places are both missing, both directories, or both files with related contents. -/
inductive Alike (R : Content → Content → Prop) : Option FileNode → Option FileNode → Prop
  | missing : Alike R none none
  | directory : Alike R (some .directory) (some .directory)
  | file {c c' : Content} (contents : R c c') : Alike R (some (.file c)) (some (.file c'))

theorem alike_of_eq (refl : ∀ c, R c c) {x y : Option FileNode} (h : x = y) : Alike R x y := by
  subst h
  cases x with
  | none => exact .missing
  | some n =>
      cases n with
      | file c => exact .file (refl c)
      | directory => exact .directory

theorem alike_eq_iff {x y : Option FileNode} : Alike Eq x y ↔ x = y := by
  constructor
  · intro h
    cases h with
    | missing => rfl
    | directory => rfl
    | file contents => rw [contents]
  · exact alike_of_eq fun _ => rfl

theorem Alike.eq_directory_iff {x y : Option FileNode} (h : Alike R x y) :
    x = some .directory ↔ y = some .directory := by
  cases h <;> simp

/-! ## Paths -/

/-- The trees are alike at every place that a path passes, up to where it leads. -/
structure AgreeAlong (R : Content → Content → Prop) (path : String) (fs fs' : FileSystem) :
    Prop where
  workingDir : fs'.workingDir = fs.workingDir
  alike : ∀ front, front <+: Path.pieces path →
    Alike R (fs.node? (Path.follow (fs.start path) front))
      (fs'.node? (Path.follow (fs.start path) front))

/-- A walk does the same where the places that it passes are alike. -/
theorem walk_congr {loc : Location} {pieces : List String}
    (h : ∀ front, front <+: pieces →
      Alike R (fs.node? (Path.follow loc front)) (fs'.node? (Path.follow loc front))) :
    fs'.walk loc pieces = fs.walk loc pieces := by
  induction pieces generalizing loc with
  | nil => rfl
  | cons piece rest ih =>
      have hhere : Alike R (fs.node? loc) (fs'.node? loc) := h [] List.nil_prefix
      -- the places behind the next one are those behind this one with one more piece
      have hnext : ∀ next, Path.follow loc [piece] = next →
          fs'.walk next rest = fs.walk next rest := by
        rintro next rfl
        refine ih fun front hfront => ?_
        rw [← Path.follow_append, List.singleton_append]
        exact h _ (List.cons_prefix_cons.mpr ⟨rfl, hfront⟩)
      rw [walk, walk]
      generalize fs.node? loc = x, fs'.node? loc = y at hhere
      cases hhere with
      | missing => rfl
      | file contents => rfl
      | directory =>
          dsimp only
          split
          · rename_i hsame
            exact hnext loc (by rw [Path.follow, if_pos hsame, Path.follow])
          · rename_i hsame
            split
            · rename_i hup
              exact hnext loc.dropLast (by rw [Path.follow, if_neg hsame, if_pos hup, Path.follow])
            · rename_i hup
              split
              · rfl
              · exact hnext (loc ++ [piece])
                  (by rw [Path.follow, if_neg hsame, if_neg hup, Path.follow])

namespace AgreeAlong

theorem locate (h : AgreeAlong R path fs fs') : fs'.locate path = fs.locate path := by
  have hstart : fs'.start path = fs.start path := by rw [start, start, h.workingDir]
  rw [FileSystem.locate, FileSystem.locate, hstart, walk_congr h.alike]

/-- The place where the path leads is passed last. -/
theorem alike_lexical (h : AgreeAlong R path fs fs') :
    Alike R (fs.node? (fs.lexical path)) (fs'.node? (fs.lexical path)) :=
  h.alike _ (List.prefix_refl _)

theorem isDirectory (h : AgreeAlong R path fs fs') :
    fs'.isDirectory path = fs.isDirectory path := by
  rw [Bool.eq_iff_iff, isDirectory_eq_true_iff, isDirectory_eq_true_iff, h.locate]
  refine exists_congr fun loc => and_congr_right fun hlocate => ?_
  rw [locate_eq_ok hlocate]
  exact h.alike_lexical.eq_directory_iff.symm

variable (h : AgreeAlong Eq path fs fs')
include h

theorem find : fs'.find path = fs.find path := by
  rw [FileSystem.find, FileSystem.find, h.locate]
  cases hlocate : fs.locate path with
  | error e => rfl
  | ok loc =>
      have hnode := alike_eq_iff.mp h.alike_lexical
      rw [← locate_eq_ok hlocate] at hnode
      dsimp only [bind, Except.bind]
      rw [hnode]

theorem contains : fs'.contains path = fs.contains path := by
  rw [FileSystem.contains, FileSystem.contains, h.find]

theorem isFile : fs'.isFile path = fs.isFile path := by
  rw [FileSystem.isFile, FileSystem.isFile, h.find]

theorem read : fs'.read path = fs.read path := by
  rw [FileSystem.read, FileSystem.read, h.find]

theorem canonical? : fs'.canonical? path = fs.canonical? path := by
  have hstart : fs'.start path = fs.start path := by rw [start, start, h.workingDir]
  rw [FileSystem.canonical?, FileSystem.canonical?, hstart, walk_congr h.alike]
  split
  · rfl
  · cases hwalk : fs.walk (fs.start path) (Path.pieces path) with
    | error e => rfl
    | ok loc =>
        -- the walk ends where the path leads, and there the trees agree
        have hnode := alike_eq_iff.mp h.alike_lexical
        rw [lexical, ← walk_eq_ok hwalk] at hnode
        dsimp only
        rw [hnode]

end AgreeAlong

end FileSystem
end HpcBlueprint
