/-
  What may stand in a tree while a deployment is written.

  A write goes through many trees, and an interruption leaves any of them (`Interrupted`).  In
  each of them every file of the deployment is as it was or holds all of its new content; else
  nothing has changed but what is written beside these files and directories that were missing.
  The argument is about one replacement: it prepares, which changes only what stands beside its
  file, or it is done.
-/
import HpcBlueprint.Proofs.Deployment.Description
import HpcBlueprint.Proofs.Files.Outside

namespace HpcBlueprint

open FileSystem

variable {fs fs' : FileSystem}

/-! ## Making directories -/

/-- On the way to making the directories of some paths only new ones are made, where these paths
    lead. -/
theorem FileSystem.PassesMaking.node? {paths : List String} (h : fs.PassesMaking paths fs')
    (l : Location) :
    fs'.node? l = fs.node? l ∨ (fs.node? l = none ∧ fs'.node? l = some .directory ∧
      ∃ path ∈ paths, l = fs.lexical path) := by
  induction h with
  | start paths => exact .inl rfl
  | parents missing passes ih =>
      refine ih.imp_right ?_
      rintro ⟨hnew, hmade, path, hpath, hl⟩
      exact ⟨hnew, hmade, path, List.mem_cons_of_mem _ hpath, hl⟩
  | done paths => exact node?_makeDirectories fs paths l

/-! ## Steps in a row -/

namespace FileSystem

theorem Passes.append {front : List FileStep} (h : fs.Passes front fs') (back : List FileStep) :
    fs.Passes (front ++ back) fs' := by
  induction h with
  | start fs steps => exact .start fs _
  | part written => exact .part written
  | next applied _ ih => exact .next applied ih

/-- What further steps go through is gone through behind steps that were taken. -/
theorem passes_append_of_applyAll {mid : FileSystem} {front back : List FileStep}
    (h : fs.applyAll front = (.ok (), mid)) (h' : mid.Passes back fs') :
    fs.Passes (front ++ back) fs' := by
  induction front generalizing fs with
  | nil =>
      obtain rfl : fs = mid := (Prod.mk.inj h).2
      exact h'
  | cons step rest ih =>
      obtain ⟨next, happlied, hrest⟩ := applyAll_cons_eq_ok.mp h
      exact .next happlied (ih hrest)

end FileSystem

/-! ## Replacing files -/

namespace Replacement

variable {r : Replacement} {rs : List Replacement}

/-- On the way through a replacement and further steps, it prepares or it is done. -/
theorem passes_steps_append_cases {more : List FileStep} (h : fs.Passes (r.steps ++ more) fs') :
    fs.Passes r.prepare fs' ∨ ∃ mid, fs.applyAll r.steps = (.ok (), mid) ∧ mid.Passes more fs' := by
  rw [steps, prepare] at h
  rw [prepare]
  simp only [List.cons_append, List.nil_append] at h
  -- the file beside is created, then written in parts, then renamed: only the last is no preparing
  cases h with
  | start => exact .inl (.start _ _)
  | next created h =>
      cases h with
      | start => exact .inl (.next created (.start _ _))
      | part written => exact .inl (.next created (.part written))
      | next written h =>
          cases h with
          | start => exact .inl (.next created (.next written (.start _ _)))
          | next renamed h =>
              refine .inr ⟨_, ?_, h⟩
              rw [steps, prepare]
              exact applyAll_cons_eq_ok.mpr ⟨_, created, applyAll_cons_eq_ok.mpr
                ⟨_, written, applyAll_cons_eq_ok.mpr ⟨_, renamed, rfl⟩⟩⟩

/-- On the way through replacements a file is as it was or holds all of its new content, and
    else nothing changes but what is written beside the files. -/
theorem node?_of_passes (h : fs.Passes (rs.flatMap steps) fs') (l : Location) :
    fs'.node? l = fs.node? l ∨
      (∃ r ∈ rs, l = fs.lexical r.path ∧ fs'.node? l = some (.file (.text r.text))) ∨
      ∃ r ∈ rs, l = fs.lexical r.beside := by
  -- on the replacements, with the tree that the first of them leaves as the next start
  induction rs generalizing fs with
  | nil =>
      rw [List.flatMap_nil] at h
      cases h
      exact .inl rfl
  | cons r rest ih =>
      rw [List.flatMap_cons] at h
      rcases passes_steps_append_cases h with hprepares | ⟨mid, hdone, hrest⟩
      · by_cases hl : l = fs.lexical r.beside
        · exact .inr (.inr ⟨r, List.mem_cons_self, hl⟩)
        · exact .inl (node?_of_passes_prepare hprepares hl)
      · have hkeeps := keeps_of_applyAll hdone
        rcases ih hrest with hsame | ⟨r', hr', hl, hnew⟩ | ⟨r', hr', hl⟩
        · -- the first replacement is done, and the rest has not touched this place
          rw [hsame, node?_of_applyAll_steps hdone]
          split
          · rename_i hpath
            exact .inr (.inl ⟨r, List.mem_cons_self, hpath, rfl⟩)
          · split
            · rename_i hbeside
              exact .inr (.inr ⟨r, List.mem_cons_self, hbeside⟩)
            · exact .inl rfl
        · rw [hkeeps.lexical] at hl
          exact .inr (.inl ⟨r', List.mem_cons_of_mem _ hr', hl, hnew⟩)
        · rw [hkeeps.lexical] at hl
          exact .inr (.inr ⟨r', List.mem_cons_of_mem _ hr', hl⟩)

theorem eq_of_path_eq (distinct : (locations fs rs).Nodup) {r r' : Replacement} (hr : r ∈ rs)
    (hr' : r' ∈ rs) (h : fs.lexical r.path = fs.lexical r'.path) : r = r' := by
  induction rs with
  | nil => exact absurd hr List.not_mem_nil
  | cons first rest ih =>
      simp only [locations, List.flatMap_cons, List.cons_append, List.nil_append,
        List.nodup_cons, List.mem_cons, not_or, List.mem_flatMap] at distinct
      obtain ⟨⟨-, hpath⟩, -, hdistinct⟩ := distinct
      rcases List.mem_cons.mp hr with rfl | hrest
      · rcases List.mem_cons.mp hr' with rfl | hrest'
        · rfl
        · exact absurd ⟨r', hrest', by simp [h]⟩ hpath
      · rcases List.mem_cons.mp hr' with rfl | hrest'
        · exact absurd ⟨r, hrest, by simp [h]⟩ hpath
        · exact ih hdistinct hrest hrest'

end Replacement

/-! ## Writing a deployment -/

namespace Deployment

variable {b : Blueprint} {dir : String} {now : Instant}

/-- The trees that a write goes through, with the first and the last one. -/
inductive Interrupted (fs : FileSystem) (b : Blueprint) (dir : String) (now : Instant) :
    FileSystem → Prop
  /-- While the directories are made. -/
  | making {fs' : FileSystem}
      (passes : fs.PassesMaking (Path.ancestors (artifactsDir dir)) fs') :
      Interrupted fs b dir now fs'
  /-- While the files are replaced. -/
  | replacing {made fs' : FileSystem}
      (directories : fs.makeDirectories (Path.ancestors (artifactsDir dir)) = (.ok (), made))
      (passes : made.Passes ((replacements b dir now).flatMap Replacement.steps) fs') :
      Interrupted fs b dir now fs'

/-- What a write leaves behind is one of them, whether it succeeds or fails. -/
theorem interrupted_write (fs : FileSystem) (b : Blueprint) (dir : String) (now : Instant) :
    Interrupted fs b dir now (write fs b dir now).2 := by
  have hdone : fs.PassesMaking _ (fs.makeDirectories (Path.ancestors (artifactsDir dir))).2 :=
    .done _
  rw [write]
  split
  · rename_i hmade
    rw [hmade] at hdone
    exact .making hdone
  · rename_i hmade
    exact .replacing hmade (passes_of_applyAll _ _)

/-- Wherever a failure ends a write, it is interrupted. -/
theorem Stops.interrupted {k : Nat} (h : Stops fs b dir now k fs') :
    Interrupted fs b dir now fs' := by
  cases h with
  | making passes => exact .making passes
  | @replacing _ made mid _ r directories before next during =>
      have hk : k < (replacements b dir now).length := (List.getElem?_eq_some_iff.mp next).1
      -- what is done, what is being prepared, and what never comes to pass
      have hsplit : (replacements b dir now).flatMap Replacement.steps =
          ((replacements b dir now).take k).flatMap Replacement.steps ++
            (r.prepare ++ (.rename r.beside r.path ::
              ((replacements b dir now).drop (k + 1)).flatMap Replacement.steps)) := by
        conv_lhs => rw [← List.take_append_drop k (replacements b dir now)]
        rw [List.flatMap_append, List.drop_eq_getElem_cons hk,
          (List.getElem?_eq_some_iff.mp next).2, List.flatMap_cons, Replacement.steps,
          List.append_assoc]
        rfl
      refine .replacing directories ?_
      rw [hsplit]
      exact passes_append_of_applyAll before (during.append _)

/-- Of all places only those of the files, of what is written beside them and of directories
    that were missing change, and a file changes at once. -/
theorem Interrupted.node? (h : Interrupted fs b dir now fs') (l : Location) :
    fs'.node? l = fs.node? l ∨
      (∃ r ∈ replacements b dir now, l = fs.lexical r.path ∧
        fs'.node? l = some (.file (.text r.text))) ∨
      (∃ r ∈ replacements b dir now, l = fs.lexical r.beside) ∨
      (fs.node? l = none ∧ fs'.node? l = some .directory ∧
        ∃ path ∈ Path.ancestors (artifactsDir dir), l = fs.lexical path) := by
  cases h with
  | making passes =>
      exact (passes.node? l).imp_right fun hmade => .inr (.inr hmade)
  | @replacing made _ directories passes =>
      have hmaking := node?_makeDirectories fs (Path.ancestors (artifactsDir dir)) l
      have hkeeps := (addsDirectories_of_made directories).toKeeps
      rw [directories] at hmaking
      -- the directories move no place, so the files are replaced where their paths led before
      rcases Replacement.node?_of_passes passes l with hsame | ⟨r, hr, hl, hnew⟩ | ⟨r, hr, hl⟩
      · rw [hsame]
        exact hmaking.imp_right fun hmade => .inr (.inr hmade)
      · rw [hkeeps.lexical] at hl
        exact .inr (.inl ⟨r, hr, hl, hnew⟩)
      · rw [hkeeps.lexical] at hl
        exact .inr (.inr (.inl ⟨r, hr, hl⟩))

theorem Interrupted.file? (h : Interrupted fs b dir now fs') {r : Replacement}
    (hr : r ∈ replacements b dir now) :
    fs'.file? (fs.lexical r.path) = fs.file? (fs.lexical r.path) ∨
      fs'.file? (fs.lexical r.path) = some (.text r.text) := by
  have distinct := nodup_locations_replacements fs b dir now
  rcases h.node? (fs.lexical r.path) with hsame | ⟨r', hr', hl, hnew⟩ | ⟨r', hr', hl⟩ |
    ⟨hold, hmade, -⟩
  · exact .inl (file?_congr hsame)
  · -- no other replacement has this file
    rw [Replacement.eq_of_path_eq distinct hr hr' hl] at hnew ⊢
    exact .inr (file?_eq_some_iff.mpr hnew)
  · exact absurd hl (Replacement.path_ne_beside distinct hr hr')
  · -- a directory was made where there was no file, and none is there now
    refine .inl ?_
    rw [FileSystem.file?, FileSystem.file?, hold, hmade]

/-- The files of a deployment, each with its content. -/
def files (b : Blueprint) (dir : String) (now : Instant) : List (String × String) := [
  (artifactPath dir, b.render),
  (recordPath dir, (recordOf b now).render),
  (instructionsPath dir, instructions b dir)]

/-- The files that are written beside them first. -/
def filesBeside (dir : String) : List String := [
  Path.join (artifactsDir dir) "expanded_blueprint.tmp",
  Path.join (artifactsDir dir) "deployment.tmp",
  Path.join dir "instructions.tmp"]

theorem files_eq (b : Blueprint) (dir : String) (now : Instant) :
    files b dir now = (replacements b dir now).map fun r => (r.path, r.text) := by
  simp only [replacements, replacementIn, List.map_cons, List.map_nil, files, artifactPath,
    recordPath, instructionsPath]

theorem filesBeside_eq (b : Blueprint) (dir : String) (now : Instant) :
    filesBeside dir = (replacements b dir now).map (·.beside) := by
  have hartifact : Path.withExtension artifactName "tmp" = "expanded_blueprint.tmp" := by decide
  have hrecord : Path.withExtension recordName "tmp" = "deployment.tmp" := by decide
  have hinstructions : Path.withExtension instructionsName "tmp" = "instructions.tmp" := by decide
  simp only [replacements, replacementIn, List.map_cons, List.map_nil, hartifact, hrecord,
    hinstructions, filesBeside]

/-- Wherever a write is interrupted, each of the three files is as it was or holds all of its new
    content, and nothing else has changed but what is written beside them and directories that
    were missing on the way.  A write that succeeds leaves the new contents, and nothing beside
    them. -/
theorem no_torn_file (h : Interrupted fs b dir now fs') :
    (∀ file ∈ files b dir now,
      fs'.file? (fs.lexical file.1) = fs.file? (fs.lexical file.1) ∨
        fs'.file? (fs.lexical file.1) = some (.text file.2)) ∧
    (∀ l, fs'.node? l = fs.node? l ∨
      (∃ file ∈ files b dir now, l = fs.lexical file.1) ∨
      (∃ path ∈ filesBeside dir, l = fs.lexical path) ∨
      (fs.node? l = none ∧ fs'.node? l = some .directory ∧
        ∃ path ∈ Path.ancestors (artifactsDir dir), l = fs.lexical path)) ∧
    (write fs b dir now = (.ok (), fs') →
      (∀ file ∈ files b dir now,
        fs'.node? (fs.lexical file.1) = some (.file (.text file.2))) ∧
      ∀ path ∈ filesBeside dir, fs'.node? (fs.lexical path) = none) := by
  rw [files_eq, filesBeside_eq b dir now]
  simp only [List.forall_mem_map]
  refine ⟨fun r hr => h.file? hr, fun l => ?_, fun hwrite => ?_⟩
  · rcases h.node? l with hsame | ⟨r, hr, hl, -⟩ | ⟨r, hr, hl⟩ | hmade
    · exact .inl hsame
    · exact .inr (.inl ⟨_, List.mem_map_of_mem hr, hl⟩)
    · exact .inr (.inr (.inl ⟨_, List.mem_map_of_mem hr, hl⟩))
    · exact .inr (.inr (.inr hmade))
  · obtain ⟨made, hmade, happlied⟩ := write_eq_ok_iff.mp hwrite
    have hall := (Replacement.node?_of_applyAll (nodup_locations_replacements made b dir now)
      happlied).1
    simp only [(addsDirectories_of_made hmade).lexical] at hall
    exact ⟨fun r hr => (hall r hr).1, fun r hr => (hall r hr).2⟩

theorem no_torn_file_atInterruption :
    Interrupted beforeInterruption (namedOnly "b") "d" ⟨0, 0⟩ atInterruption ∧
      (∀ file ∈ files (namedOnly "b") "d" ⟨0, 0⟩,
        atInterruption.file? (beforeInterruption.lexical file.1) =
            beforeInterruption.file? (beforeInterruption.lexical file.1) ∨
          atInterruption.file? (beforeInterruption.lexical file.1) = some (.text file.2)) ∧
      (∀ file ∈ files (namedOnly "a") "d" ⟨0, 0⟩,
        beforeInterruption.node? (bare.lexical file.1) = some (.file (.text file.2))) ∧
      ∀ path ∈ filesBeside "d", beforeInterruption.node? (bare.lexical path) = none := by
  obtain ⟨hwrite, -⟩ := interrupted_steps
  have hwritten : write bare (namedOnly "a") "d" ⟨0, 0⟩ = (.ok (), beforeInterruption) := by
    rw [beforeInterruption, ← hwrite]
  have hinterrupted : Interrupted beforeInterruption (namedOnly "b") "d" ⟨0, 0⟩ atInterruption :=
    stops_atInterruption.interrupted
  exact ⟨hinterrupted, (no_torn_file hinterrupted).1,
    (no_torn_file (interrupted_write bare (namedOnly "a") "d" ⟨0, 0⟩)).2.2 hwritten⟩

end Deployment
end HpcBlueprint
