/-
  Trees that differ only below a location and on the way to it.

  To put something below a directory, the directories that are missing above it are made
  first.  What is passed on the way to a name in a directory is that place, or is passed on
  the way to the directory, so nothing else is ever made.
-/
import HpcBlueprint.Proofs.Files.Way

namespace HpcBlueprint
namespace FileSystem

variable {fs fs' : FileSystem} {path : String} {loc : Location}

/-- The trees are the same, but for what stands at a location or below it, and for directories
    that were missing on the way along a path. -/
structure SameButWithin (path : String) (loc : Location) (earlier later : FileSystem) :
    Prop where
  workingDir : later.workingDir = earlier.workingDir
  node? : ∀ l, later.node? l = earlier.node? l ∨ loc <+: l ∨
    (earlier.node? l = none ∧ later.node? l = some .directory ∧
      ∃ p, Path.Passed path p ∧ l = earlier.lexical p)

namespace SameButWithin

theorem refl (path : String) (loc : Location) (fs : FileSystem) : SameButWithin path loc fs fs :=
  ⟨rfl, fun _ => .inl rfl⟩

theorem of_sameOutside (h : SameOutside loc fs fs') : SameButWithin path loc fs fs' := by
  refine ⟨h.workingDir, fun l => ?_⟩
  by_cases hl : loc <+: l
  · exact .inr (.inl hl)
  · exact .inl (h.node? l hl)

theorem trans {fs₁ fs₂ fs₃ : FileSystem} (h₁ : SameButWithin path loc fs₁ fs₂)
    (h₂ : SameButWithin path loc fs₂ fs₃) : SameButWithin path loc fs₁ fs₃ := by
  have hlexical : ∀ p, fs₂.lexical p = fs₁.lexical p := by
    intro p
    rw [lexical, lexical, start, start, h₁.workingDir]
  refine ⟨h₂.workingDir.trans h₁.workingDir, fun l => ?_⟩
  rcases h₂.node? l with hsame | hbelow | ⟨hnew, hmade, p, hp, hl⟩
  · rw [hsame]
    exact h₁.node? l
  · exact .inr (.inl hbelow)
  · -- what the second change makes is missing in the second tree, so the first made nothing
    rcases h₁.node? l with hsame | hbelow | ⟨-, hmade', -⟩
    · exact .inr (.inr ⟨hsame ▸ hnew, hmade, p, hp, hl.trans (hlexical p)⟩)
    · exact .inr (.inl hbelow)
    · rw [hnew] at hmade'
      cases hmade'

end SameButWithin

/-! ## Making directories -/

/-- Paths that lead below a location or are passed on the way along another path. -/
def LeadWithin (fs : FileSystem) (path : String) (loc : Location) (paths : List String) : Prop :=
  ∀ p ∈ paths, loc <+: fs.lexical p ∨ Path.Passed path p

theorem sameButWithin_makeDirectories {paths : List String} (h : fs.LeadWithin path loc paths) :
    SameButWithin path loc fs (fs.makeDirectories paths).2 := by
  refine ⟨(addsDirectories_makeDirectories fs paths).workingDir, fun l => ?_⟩
  rcases node?_makeDirectories fs paths l with hsame | ⟨hnew, hmade, p, hp, rfl⟩
  · exact .inl hsame
  · rcases h p hp with hbelow | hpassed
    · exact .inr (.inl hbelow)
    · exact .inr (.inr ⟨hnew, hmade, p, hpassed, rfl⟩)

theorem PassesMaking.sameButWithin {paths : List String} (h : fs.PassesMaking paths fs')
    (leads : fs.LeadWithin path loc paths) : SameButWithin path loc fs fs' := by
  induction h with
  | start paths => exact .refl path loc fs
  | parents missing passes ih => exact ih fun p hp => leads p (List.mem_cons_of_mem _ hp)
  | done paths => exact sameButWithin_makeDirectories leads

/-! ## Steps -/

/-- Steps that touch nothing but a location and what is below it leave the rest of the tree. -/
theorem Passes.sameOutside {steps : List FileStep} (h : fs.Passes steps fs')
    (touches : ∀ step ∈ steps, ∀ l ∈ step.touched fs, loc <+: l) : SameOutside loc fs fs' :=
  ⟨h.keeps.workingDir, fun l hl =>
    h.node? fun step hstep hmem => hl (touches step hstep l hmem)⟩

end FileSystem

namespace Replacement

open FileSystem

/-- The steps of replacements touch the locations of the replacements only. -/
theorem mem_locations_of_touched {fs : FileSystem} {rs : List Replacement} {step : FileStep}
    {l : Location} (hstep : step ∈ rs.flatMap steps) (hl : l ∈ step.touched fs) :
    ∃ r ∈ rs, l = fs.lexical r.path ∨ l = fs.lexical r.beside := by
  obtain ⟨r, hr, hstep⟩ := List.mem_flatMap.mp hstep
  refine ⟨r, hr, ?_⟩
  simp only [steps, prepare, List.cons_append, List.nil_append, List.mem_cons,
    List.not_mem_nil, or_false] at hstep
  rcases hstep with rfl | rfl | rfl
  · exact .inr (List.mem_singleton.mp hl)
  · exact .inr (List.mem_singleton.mp hl)
  · simp only [FileStep.touched, List.mem_cons, List.not_mem_nil, or_false] at hl
    exact hl.symm

end Replacement
end HpcBlueprint
