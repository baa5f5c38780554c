/-
  The trees that are passed through while a tree is changed.

  Directories are made one by one, and steps are taken one by one, so whatever ends the work
  early leaves one of the trees that it passes through (`PassesMaking`, `Passes`); only a
  file that is just getting its content may then hold anything.  On the way to making
  directories no file changes, and on the way through steps nothing changes but what they
  touch.
-/
import HpcBlueprint.Proofs.Files.Change

namespace HpcBlueprint

variable {fs fs' : FileSystem}

/-! ## Making directories -/

namespace FileSystem

/-- The later tree has further directories, and the same files. -/
structure AddsDirectories (earlier later : FileSystem) : Prop extends Keeps earlier later where
  file : ∀ loc, later.file? loc = earlier.file? loc

theorem AddsDirectories.refl (fs : FileSystem) : AddsDirectories fs fs :=
  ⟨.refl fs, fun _ => rfl⟩

theorem AddsDirectories.trans {fs₁ fs₂ fs₃ : FileSystem} (h₁ : AddsDirectories fs₁ fs₂)
    (h₂ : AddsDirectories fs₂ fs₃) : AddsDirectories fs₁ fs₃ :=
  ⟨h₁.toKeeps.trans h₂.toKeeps, fun loc => (h₂.file loc).trans (h₁.file loc)⟩

theorem makeDirectory_eq_ok_iff {path : String} :
    fs.makeDirectory path = .ok fs' ↔
      ∃ loc, fs.locate path = .ok loc ∧ fs.node? loc = none ∧ fs' = fs.put loc .directory := by
  rw [makeDirectory, bind_eq_ok]
  refine exists_congr fun loc => and_congr_right fun _ => ?_
  cases hnode : fs.node? loc with
  | none =>
      simp only [pure_eq_ok, true_and]
      exact eq_comm
  | some n => simp

theorem addsDirectories_makeDirectory {path : String} (h : fs.makeDirectory path = .ok fs') :
    AddsDirectories fs fs' := by
  obtain ⟨loc, -, hnode, rfl⟩ := makeDirectory_eq_ok_iff.mp h
  have hdirectory : fs.node? loc ≠ some .directory := by simp [hnode]
  refine ⟨keeps_put hdirectory _, fun l => ?_⟩
  unfold file?
  rw [node?_put (ne_nil_of_node?_ne hdirectory)]
  by_cases hl : l = loc
  · rw [if_pos hl, hl, hnode]
  · rw [if_neg hl]

theorem addsDirectories_makeDirectories (fs : FileSystem) (paths : List String) :
    AddsDirectories fs (fs.makeDirectories paths).2 := by
  induction paths with
  | nil => exact .refl fs
  | cons path parents ih =>
      rw [makeDirectories]
      split
      · rename_i h
        exact addsDirectories_makeDirectory h
      · split
        · rename_i hparents
          rw [hparents] at ih
          exact ih
        · rename_i hparents
          rw [hparents] at ih
          split
          · rename_i hmade
            exact ih.trans (addsDirectories_makeDirectory hmade)
          · split <;> exact ih
      · split <;> exact .refl fs

theorem addsDirectories_of_made {made : FileSystem} {paths : List String}
    {outcome : Except FileError Unit} (h : fs.makeDirectories paths = (outcome, made)) :
    AddsDirectories fs made := by
  have hadds := addsDirectories_makeDirectories fs paths
  rwa [h] at hadds

/-- The trees that making directories passes through, with the last one. -/
inductive PassesMaking (fs : FileSystem) : List String → FileSystem → Prop
  | start (paths : List String) : PassesMaking fs paths fs
  | parents {path : String} {parents : List String} {fs' : FileSystem}
      (missing : fs.makeDirectory (withoutSlashes path) = .error .notFound)
      (passes : PassesMaking fs parents fs') : PassesMaking fs (path :: parents) fs'
  | done (paths : List String) : PassesMaking fs paths (fs.makeDirectories paths).2

theorem PassesMaking.addsDirectories {paths : List String} (h : fs.PassesMaking paths fs') :
    AddsDirectories fs fs' := by
  induction h with
  | start => exact .refl fs
  | parents _ _ ih => exact ih
  | done paths => exact addsDirectories_makeDirectories fs paths

end FileSystem

/-! ## Steps -/

namespace FileStep

open FileSystem

/-- The locations that a step changes. -/
def touched (fs : FileSystem) : FileStep → List Location
  | .create path => [fs.lexical path]
  | .write path _ => [fs.lexical path]
  | .rename source target => [fs.lexical source, fs.lexical target]

theorem touched_of_keeps (h : Keeps fs fs') (step : FileStep) :
    step.touched fs' = step.touched fs := by
  cases step <;> simp only [touched, h.lexical]

theorem apply_create_eq_ok {path : String} (h : (create path).apply fs = .ok fs') :
    fs.locate path = .ok (fs.lexical path) ∧ fs.node? (fs.lexical path) ≠ some .directory ∧
      fs' = fs.put (fs.lexical path) (.file (.text "")) := by
  simp only [apply, bind_eq_ok, createAt_eq_ok_iff] at h
  obtain ⟨loc, hwritable, -, hdirectory, rfl⟩ := h
  have hlocate := writable_eq_ok hwritable
  rw [← locate_eq_ok hlocate]
  exact ⟨hlocate, hdirectory, rfl⟩

theorem apply_write_eq_ok {path : String} {content : Content}
    (h : (write path content).apply fs = .ok fs') :
    (∃ old, fs.node? (fs.lexical path) = some (.file old)) ∧
      fs' = fs.put (fs.lexical path) (.file content) := by
  simp only [apply, bind_eq_ok, writeAt_eq_ok_iff] at h
  obtain ⟨loc, hlocate, hold, rfl⟩ := h
  rw [← locate_eq_ok hlocate]
  exact ⟨hold, rfl⟩

theorem apply_rename_eq_ok {source target : String}
    (h : (rename source target).apply fs = .ok fs') :
    ∃ content, fs.node? (fs.lexical source) = some (.file content) ∧
      fs.node? (fs.lexical target) ≠ some .directory ∧
      fs' = (fs.remove (fs.lexical source)).put (fs.lexical target) (.file content) := by
  simp only [apply, bind_eq_ok, renameAt_eq_ok_iff] at h
  obtain ⟨s, hs, t, ht, h⟩ := h
  rw [← locate_eq_ok hs, ← locate_eq_ok ht]
  exact h

theorem keeps_of_apply {step : FileStep} (h : step.apply fs = .ok fs') : Keeps fs fs' := by
  cases step with
  | create path =>
      obtain ⟨-, hdirectory, rfl⟩ := apply_create_eq_ok h
      exact keeps_put hdirectory _
  | write path content =>
      obtain ⟨⟨old, hold⟩, rfl⟩ := apply_write_eq_ok h
      exact keeps_put (node?_ne_of_file hold) _
  | rename source target =>
      obtain ⟨content, hsource, htarget, rfl⟩ := apply_rename_eq_ok h
      refine ⟨rfl, fun l hl => ?_⟩
      have hl_target : l ≠ fs.lexical target := by
        rintro rfl
        exact htarget hl
      have hl_source : l ≠ fs.lexical source := by
        rintro rfl
        exact node?_ne_of_file hsource hl
      rw [node?_put (ne_nil_of_node?_ne htarget), if_neg hl_target,
        node?_remove (ne_nil_of_node?_ne (node?_ne_of_file hsource)), if_neg hl_source]
      exact hl

theorem node?_of_apply {step : FileStep} (h : step.apply fs = .ok fs') {l : Location}
    (hl : l ∉ step.touched fs) : fs'.node? l = fs.node? l := by
  cases step with
  | create path =>
      obtain ⟨-, hdirectory, rfl⟩ := apply_create_eq_ok h
      rw [node?_put (ne_nil_of_node?_ne hdirectory), if_neg (by simpa [touched] using hl)]
  | write path content =>
      obtain ⟨⟨old, hold⟩, rfl⟩ := apply_write_eq_ok h
      rw [node?_put (ne_nil_of_node?_ne (node?_ne_of_file hold)),
        if_neg (by simpa [touched] using hl)]
  | rename source target =>
      obtain ⟨content, hsource, htarget, rfl⟩ := apply_rename_eq_ok h
      simp only [touched, List.mem_cons, List.not_mem_nil, or_false, not_or] at hl
      rw [node?_put (ne_nil_of_node?_ne htarget), if_neg hl.2,
        node?_remove (ne_nil_of_node?_ne (node?_ne_of_file hsource)), if_neg hl.1]

end FileStep

namespace FileSystem

theorem applyAll_cons_eq_ok {step : FileStep} {rest : List FileStep} :
    fs.applyAll (step :: rest) = (.ok (), fs') ↔
      ∃ next, step.apply fs = .ok next ∧ next.applyAll rest = (.ok (), fs') := by
  rw [applyAll]
  cases step.apply fs with
  | error e => simp
  | ok next => simp

/-- Steps that follow others are taken if none of these fails. -/
theorem applyAll_append (fs : FileSystem) (front back : List FileStep) :
    fs.applyAll (front ++ back) =
      match fs.applyAll front with
      | (.ok _, mid) => mid.applyAll back
      | (.error e, mid) => (.error e, mid) := by
  induction front generalizing fs with
  | nil => rfl
  | cons step rest ih =>
      rw [List.cons_append, applyAll, applyAll]
      cases step.apply fs with
      | error e => rfl
      | ok next => exact ih next

theorem applyAll_append_eq_ok {front back : List FileStep} :
    fs.applyAll (front ++ back) = (.ok (), fs') ↔
      ∃ mid, fs.applyAll front = (.ok (), mid) ∧ mid.applyAll back = (.ok (), fs') := by
  rw [applyAll_append]
  cases fs.applyAll front with
  | mk outcome mid => cases outcome <;> simp

/-- The trees that taking steps passes through, with the first and the last one.  While a
    file gets its content it may hold anything. -/
inductive Passes : FileSystem → List FileStep → FileSystem → Prop
  | start (fs : FileSystem) (steps : List FileStep) : Passes fs steps fs
  | part {fs fs' : FileSystem} {path : String} {content kept : Content} {rest : List FileStep}
      (written : (FileStep.write path kept).apply fs = .ok fs') :
      Passes fs (.write path content :: rest) fs'
  | next {fs next fs' : FileSystem} {step : FileStep} {rest : List FileStep}
      (applied : step.apply fs = .ok next) (passes : Passes next rest fs') :
      Passes fs (step :: rest) fs'

theorem Passes.keeps {steps : List FileStep} (h : fs.Passes steps fs') : Keeps fs fs' := by
  induction h with
  | start fs steps => exact .refl fs
  | part written => exact FileStep.keeps_of_apply written
  | next applied _ ih => exact (FileStep.keeps_of_apply applied).trans ih

/-- On the way through steps nothing changes that none of them touches. -/
theorem Passes.node? {steps : List FileStep} (h : fs.Passes steps fs') {l : Location}
    (untouched : ∀ step ∈ steps, l ∉ step.touched fs) : fs'.node? l = fs.node? l := by
  induction h with
  | start fs steps => rfl
  | @part _ _ path content _ rest written =>
      exact FileStep.node?_of_apply written
        (untouched (.write path content) List.mem_cons_self)
  | next applied _ ih =>
      rw [ih, FileStep.node?_of_apply applied (untouched _ List.mem_cons_self)]
      intro step hstep
      rw [FileStep.touched_of_keeps (FileStep.keeps_of_apply applied)]
      exact untouched step (List.mem_cons_of_mem _ hstep)

theorem passes_of_applyAll (fs : FileSystem) (steps : List FileStep) :
    fs.Passes steps (fs.applyAll steps).2 := by
  induction steps generalizing fs with
  | nil => exact .start fs []
  | cons step rest ih =>
      rw [applyAll]
      split
      · rename_i applied
        exact .next applied (ih _)
      · exact .start fs _

end FileSystem

/-! ## Replacing a file -/

namespace Replacement

open FileSystem

variable {r : Replacement}

/-- Before a file is replaced, only what stands beside it changes. -/
theorem node?_of_passes_prepare (h : fs.Passes r.prepare fs') {l : Location}
    (hl : l ≠ fs.lexical r.beside) : fs'.node? l = fs.node? l := by
  refine h.node? fun step hstep => ?_
  simp only [prepare, List.mem_cons, List.not_mem_nil, or_false] at hstep
  rcases hstep with rfl | rfl <;> simpa [FileStep.touched] using hl

/-- A file that was replaced holds the new content, and nothing stands beside it. -/
theorem node?_of_applyAll_steps (h : fs.applyAll r.steps = (.ok (), fs')) (l : Location) :
    fs'.node? l =
      if l = fs.lexical r.path then some (.file (.text r.text))
      else if l = fs.lexical r.beside then none else fs.node? l := by
  simp only [steps, prepare, List.cons_append, List.nil_append, applyAll_cons_eq_ok] at h
  obtain ⟨made, hmade, filled, hfilled, renamed, hrenamed, hend⟩ := h
  have hfinal : fs' = renamed := (Prod.mk.inj hend).2.symm
  subst hfinal
  have hkeeps := (FileStep.keeps_of_apply hmade).trans (FileStep.keeps_of_apply hfilled)
  have hsame := (FileStep.keeps_of_apply hmade).lexical
  obtain ⟨-, hdirectory, rfl⟩ := FileStep.apply_create_eq_ok hmade
  have hbeside : fs.lexical r.beside ≠ [] := ne_nil_of_node?_ne hdirectory
  obtain ⟨-, rfl⟩ := FileStep.apply_write_eq_ok hfilled
  obtain ⟨content, hcontent, htarget, rfl⟩ := FileStep.apply_rename_eq_ok hrenamed
  rw [hkeeps.lexical] at hcontent htarget ⊢
  rw [hkeeps.lexical, hsame] at *
  -- the renamed file is the one that was filled
  rw [node?_put hbeside, if_pos rfl, Option.some.injEq, FileNode.file.injEq] at hcontent
  subst hcontent
  have hpath : fs.lexical r.path ≠ [] := ne_nil_of_node?_ne htarget
  rw [node?_put hpath, node?_remove hbeside, node?_put hbeside, node?_put hbeside]
  split
  · rfl
  · split
    · rfl
    · rfl

theorem keeps_of_applyAll {steps : List FileStep} (h : fs.applyAll steps = (.ok (), fs')) :
    Keeps fs fs' := by
  have hpasses := passes_of_applyAll fs steps
  rw [h] at hpasses
  exact hpasses.keeps

end Replacement
end HpcBlueprint
