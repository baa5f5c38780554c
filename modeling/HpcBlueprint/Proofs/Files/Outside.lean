/-
  Trees that differ only at a location and below it.

  Writing a file changes nothing but the place of the file, and making directories changes
  nothing but places where they were missing; all other locations stay as they are.
-/
import HpcBlueprint.Proofs.Files.Parents

namespace HpcBlueprint

namespace Path

/-- A path that starts where one is and leads only downwards. -/
def Descends (path : String) : Prop := isAbsolute path = false ∧ ".." ∉ pieces path

theorem follow_replicate_empty (loc : Location) (n : Nat) :
    follow loc (List.replicate n "") = loc := by
  induction n with
  | zero => rfl
  | succ n ih =>
      rw [List.replicate_succ, follow, if_pos (by decide)]
      exact ih

end Path

namespace FileSystem

variable {fs fs' : FileSystem} {loc : Location}

/-! ## The rest of a tree -/

/-- The trees are the same, but for what stands at a location or below it. -/
structure SameOutside (loc : Location) (earlier later : FileSystem) : Prop where
  workingDir : later.workingDir = earlier.workingDir
  node? : ∀ l, ¬ loc <+: l → later.node? l = earlier.node? l

namespace SameOutside

theorem refl (loc : Location) (fs : FileSystem) : SameOutside loc fs fs := ⟨rfl, fun _ _ => rfl⟩

theorem trans {fs₁ fs₂ fs₃ : FileSystem} (h₁ : SameOutside loc fs₁ fs₂)
    (h₂ : SameOutside loc fs₂ fs₃) : SameOutside loc fs₁ fs₃ :=
  ⟨h₂.workingDir.trans h₁.workingDir, fun l hl => (h₂.node? l hl).trans (h₁.node? l hl)⟩

theorem lexical (h : SameOutside loc fs fs') (path : String) :
    fs'.lexical path = fs.lexical path := by
  rw [FileSystem.lexical, FileSystem.lexical, FileSystem.start, FileSystem.start, h.workingDir]

theorem of_below {below : Location} (h : SameOutside below fs fs') (hloc : loc <+: below) :
    SameOutside loc fs fs' :=
  ⟨h.workingDir, fun l hl => h.node? l fun hbelow => hl (hloc.trans hbelow)⟩

end SameOutside

/-- Directories stay, and nothing changes but at a location and below it. -/
structure AddsBelow (loc : Location) (earlier later : FileSystem) : Prop
    extends Keeps earlier later, SameOutside loc earlier later

theorem sameOutside_put (hne : loc ≠ []) (n : FileNode) : SameOutside loc fs (fs.put loc n) := by
  refine ⟨rfl, fun l hl => ?_⟩
  rw [node?_put hne, if_neg]
  rintro rfl
  exact hl (List.prefix_refl l)

theorem node?_removeTree (fs : FileSystem) (loc l : Location) :
    (fs.removeTree loc).node? l = if l ≠ [] ∧ loc <+: l then none else fs.node? l := by
  by_cases hroot : l = []
  · rw [hroot, if_neg fun h => h.1 rfl]
    rfl
  · rw [node?, node?, List.isEmpty_eq_false_iff.mpr hroot, if_neg Bool.false_ne_true,
      if_neg Bool.false_ne_true, removeTree]
    by_cases hbelow : loc <+: l
    · rw [if_pos ⟨hroot, hbelow⟩, List.lookup_eq_none_iff]
      intro entry hentry
      have hkept := (List.mem_filter.mp hentry).2
      rw [Bool.not_eq_true', Bool.eq_false_iff, ne_eq, List.isPrefixOf_iff_prefix] at hkept
      rw [bne_iff_ne]
      rintro rfl
      exact hkept hbelow
    · have hkept : (!loc.isPrefixOf l) = true := by
        rw [Bool.not_eq_true', Bool.eq_false_iff, ne_eq, List.isPrefixOf_iff_prefix]
        exact hbelow
      rw [if_neg fun h => hbelow h.2, lookup_filter (p := fun l => !loc.isPrefixOf l) hkept]

theorem sameOutside_removeTree : SameOutside loc fs (fs.removeTree loc) := by
  refine ⟨rfl, fun l hl => ?_⟩
  rw [node?_removeTree, if_neg fun h => hl h.2]

theorem keeps_of_writeContent {path : String} {content : Content}
    (h : fs.writeContent path content = .ok fs') : Keeps fs fs' := by
  rw [writeContent, bind_eq_ok] at h
  obtain ⟨made, hmade, hwritten⟩ := h
  exact (FileStep.keeps_of_apply hmade).trans (FileStep.keeps_of_apply hwritten)

/-- A file that was written stands where its path leads. -/
theorem find_of_writeContent {path : String} {content : Content}
    (h : fs.writeContent path content = .ok fs') :
    fs'.find path = .ok (fs.lexical path, .file content) := by
  have hkeeps := keeps_of_writeContent h
  rw [writeContent, bind_eq_ok] at h
  obtain ⟨made, hmade, hwritten⟩ := h
  have hlocate := hkeeps.locate (FileStep.apply_create_eq_ok hmade).1
  obtain ⟨⟨old, hold⟩, rfl⟩ := FileStep.apply_write_eq_ok hwritten
  refine find_eq_ok_iff.mpr ⟨hlocate, ?_⟩
  rw [node?_put (ne_nil_of_node?_ne (node?_ne_of_file hold)),
    (FileStep.keeps_of_apply hmade).lexical, if_pos rfl]

theorem node?_of_writeContent {path : String} {content : Content}
    (h : fs.writeContent path content = .ok fs') {l : Location} (hl : l ≠ fs.lexical path) :
    fs'.node? l = fs.node? l := by
  rw [writeContent, bind_eq_ok] at h
  obtain ⟨made, hmade, hwritten⟩ := h
  have hcreate : l ∉ (FileStep.create path).touched fs := by
    rwa [FileStep.touched, List.mem_singleton]
  have hwrite : l ∉ (FileStep.write path content).touched made := by
    rw [FileStep.touched_of_keeps (FileStep.keeps_of_apply hmade)]
    exact hcreate
  rw [FileStep.node?_of_apply hwritten hwrite, FileStep.node?_of_apply hmade hcreate]

/-- Writing a file changes nothing else. -/
theorem addsBelow_of_writeContent {path : String} {content : Content}
    (h : fs.writeContent path content = .ok fs') : AddsBelow (fs.lexical path) fs fs' :=
  ⟨keeps_of_writeContent h, fun _ hl =>
    node?_of_writeContent h fun heq => hl (heq ▸ List.prefix_refl _)⟩

/-! ## Making directories -/

/-- A directory is only made where nothing stands. -/
theorem makeDirectory_eq_ok {path : String} (h : fs.makeDirectory path = .ok fs') :
    fs.node? (fs.lexical path) = none ∧ SameOutside (fs.lexical path) fs fs' ∧
      fs'.isDirectory path = true := by
  obtain ⟨loc, hlocate, hnew, rfl⟩ := makeDirectory_eq_ok_iff.mp h
  have hdirectory : fs.node? loc ≠ some .directory := by simp [hnew]
  have hne := ne_nil_of_node?_ne hdirectory
  have hkeeps : Keeps fs (fs.put loc .directory) := keeps_put hdirectory _
  rw [← locate_eq_ok hlocate, isDirectory_eq_true_iff]
  refine ⟨hnew, sameOutside_put hne _, loc, hkeeps.locate hlocate, ?_⟩
  rw [node?_put hne, if_pos rfl]

/-- Slashes at the end of a path add empty pieces to it. -/
theorem pieces_append_slashes (cs : List Char) (n : Nat) :
    Text.pieces '/' (cs ++ List.replicate n '/') =
      Text.pieces '/' cs ++ List.replicate n [] := by
  have hslashes : ∀ n, Text.pieces '/' (List.replicate n '/') = List.replicate (n + 1) [] := by
    intro n
    induction n with
    | zero => rfl
    | succ n ih =>
        rw [List.replicate_succ, Text.pieces, if_pos (by decide), ih, ← List.replicate_succ]
  cases n with
  | zero => simp
  | succ n => rw [List.replicate_succ, Text.pieces_append, hslashes, List.replicate_succ]

/-- A path without the slashes at its end starts where it does and has its pieces, less empty
    ones at the end. -/
theorem pieces_withoutSlashes (path : String) :
    Path.isAbsolute (withoutSlashes path) = Path.isAbsolute path ∧
      ∃ n, Path.pieces path = Path.pieces (withoutSlashes path) ++ List.replicate n "" := by
  -- the path is what is kept of it and some slashes
  obtain ⟨kept, n, hkept, hpath⟩ : ∃ kept n,
      (path.toList.reverse.dropWhile (· == '/')).reverse = kept ∧
        path.toList = kept ++ List.replicate n '/' := by
    refine ⟨_, (path.toList.reverse.takeWhile (· == '/')).length, rfl, ?_⟩
    have hslashes : path.toList.reverse.takeWhile (· == '/') =
        List.replicate (path.toList.reverse.takeWhile (· == '/')).length '/' :=
      List.eq_replicate_iff.mpr ⟨rfl, fun c hc => by
        simpa using List.all_eq_true.mp List.all_takeWhile c hc⟩
    rw [← List.reverse_replicate, ← hslashes, ← List.reverse_append,
      List.takeWhile_append_dropWhile, List.reverse_reverse]
  rw [withoutSlashes, hkept]
  split
  · exact ⟨rfl, 0, (List.append_nil _).symm⟩
  · rename_i hne
    have hpieces : Path.pieces path =
        Path.pieces (String.ofList kept) ++ List.replicate n "" := by
      rw [Path.pieces, Path.pieces, Text.splitAll, Text.splitAll, hpath, pieces_append_slashes,
        List.map_append, List.map_replicate, String.toList_ofList]
    have habsolute : Path.isAbsolute (String.ofList kept) = Path.isAbsolute path := by
      obtain ⟨c, cs, rfl⟩ := List.exists_cons_of_ne_nil fun h => hne (List.isEmpty_iff.mpr h)
      rw [Bool.eq_iff_iff, Path.isAbsolute_iff, Path.isAbsolute_iff, hpath, String.toList_ofList]
      rfl
    exact ⟨habsolute, n, hpieces⟩

/-- Slashes at the end of a path do not change where it leads. -/
theorem lexical_withoutSlashes (fs : FileSystem) (path : String) :
    fs.lexical (withoutSlashes path) = fs.lexical path := by
  obtain ⟨habsolute, n, hpieces⟩ := pieces_withoutSlashes path
  rw [lexical, lexical, start, start, habsolute, hpieces, Path.follow_append,
    Path.follow_replicate_empty]

/-- Of all locations, only that of the path may come to have a directory. -/
theorem node?_makeDirectory {path : String}
    (h : fs.makeDirectory (withoutSlashes path) = .ok fs') (l : Location) :
    fs'.node? l = fs.node? l ∨
      (fs.node? l = none ∧ fs'.node? l = some .directory ∧ l = fs.lexical path) := by
  obtain ⟨found, hlocate, hnew, rfl⟩ := makeDirectory_eq_ok_iff.mp h
  have hdirectory : fs.node? found ≠ some .directory := by simp [hnew]
  have hne := ne_nil_of_node?_ne hdirectory
  have hfound := locate_eq_ok hlocate
  rw [lexical_withoutSlashes] at hfound
  by_cases hl : l = found
  · refine .inr ⟨hl ▸ hnew, ?_, hl.trans hfound⟩
    rw [node?_put hne, if_pos hl]
  · exact .inl (by rw [node?_put hne, if_neg hl])

/-- Making the directories of some paths only makes new ones where these paths lead. -/
theorem node?_makeDirectories (fs : FileSystem) (paths : List String) (l : Location) :
    (fs.makeDirectories paths).2.node? l = fs.node? l ∨
      (fs.node? l = none ∧ (fs.makeDirectories paths).2.node? l = some .directory ∧
        ∃ path ∈ paths, l = fs.lexical path) := by
  -- the paths come innermost first, and the directories of the rest are made before
  induction paths with
  | nil => exact .inl rfl
  | cons path parents ih =>
      have hfirst : ∀ next, fs.makeDirectory (withoutSlashes path) = .ok next →
          next.node? l = fs.node? l ∨ (fs.node? l = none ∧ next.node? l = some .directory ∧
            ∃ p ∈ path :: parents, l = fs.lexical p) := by
        intro next h
        refine (node?_makeDirectory h l).imp_right ?_
        rintro ⟨hnew, hmade, hl⟩
        exact ⟨hnew, hmade, path, List.mem_cons_self, hl⟩
      have hparents : ∀ next, (fs.makeDirectories parents).2 = next →
          next.node? l = fs.node? l ∨ (fs.node? l = none ∧ next.node? l = some .directory ∧
            ∃ p ∈ path :: parents, l = fs.lexical p) := by
        rintro next rfl
        refine ih.imp_right ?_
        rintro ⟨hnew, hmade, p, hp, hl⟩
        exact ⟨hnew, hmade, p, List.mem_cons_of_mem _ hp, hl⟩
      have hkeeps := (addsDirectories_makeDirectories fs parents).toKeeps
      rw [makeDirectories]
      split
      · rename_i next h
        exact hfirst next h
      · split
        · rename_i next hmade
          exact hparents next (by rw [hmade])
        · rename_i next hmade
          have hnext := hparents next (by rw [hmade])
          rw [hmade] at hkeeps
          split
          · rename_i done h
            -- the last directory is new in `fs`, too, or was made as one of the parents
            rcases node?_makeDirectory h l with hsame | ⟨hnew, hdone, hl⟩
            · rw [hsame]
              exact hnext
            · rw [hkeeps.lexical] at hl
              rcases hnext with hsame | ⟨-, hmade', -⟩
              · exact .inr ⟨hsame ▸ hnew, hdone, path, List.mem_cons_self, hl⟩
              · rw [hnew] at hmade'
                cases hmade'
          · split <;> exact hnext
      · split <;> exact .inl rfl

end FileSystem
end HpcBlueprint
