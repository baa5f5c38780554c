/-
  What writing a deployment leaves behind, wherever it ends.

  The three files of a deployment are replaced one after the other.  A write that ends early
  (`Stops`) has replaced some of them, the first ones, and left the others as they were: none
  of them ever holds anything but its old or its new content.
-/
import HpcBlueprint.Deployment.Writer
import HpcBlueprint.Proofs.Files.Progress
import Mathlib.Data.List.Nodup

namespace HpcBlueprint

open FileSystem

variable {fs fs' : FileSystem}

/-! ## Replacing several files -/

namespace Replacement

/-- The locations of files and of what is written beside them. -/
def locations (fs : FileSystem) (rs : List Replacement) : List Location :=
  rs.flatMap fun r => [fs.lexical r.path, fs.lexical r.beside]

theorem locations_of_keeps (h : Keeps fs fs') (rs : List Replacement) :
    locations fs' rs = locations fs rs := by
  simp only [locations, h.lexical]

/-- Files that were replaced one after the other hold their new contents, and nothing stands
    beside them. -/
theorem node?_of_applyAll {rs : List Replacement} (distinct : (locations fs rs).Nodup)
    (h : fs.applyAll (rs.flatMap steps) = (.ok (), fs')) :
    (∀ r ∈ rs, fs'.node? (fs.lexical r.path) = some (.file (.text r.text)) ∧
        fs'.node? (fs.lexical r.beside) = none) ∧
      ∀ l ∉ locations fs rs, fs'.node? l = fs.node? l := by
  induction rs generalizing fs with
  | nil =>
      have hsame : fs = fs' := (Prod.mk.inj h).2
      exact ⟨fun _ hr => absurd hr List.not_mem_nil, fun _ _ => hsame ▸ rfl⟩
  | cons r rest ih =>
      rw [List.flatMap_cons, applyAll_append_eq_ok] at h
      obtain ⟨mid, hfirst, hrest⟩ := h
      have hkeeps := keeps_of_applyAll hfirst
      have hnode := node?_of_applyAll_steps hfirst
      simp only [locations, List.flatMap_cons, List.cons_append, List.nil_append,
        List.nodup_cons, List.mem_cons, not_or] at distinct
      obtain ⟨⟨hne, hpath⟩, hbeside, hdistinct⟩ := distinct
      rw [← locations, ← locations_of_keeps hkeeps] at hpath hbeside hdistinct
      obtain ⟨hall, hothers⟩ := ih hdistinct hrest
      -- nothing moves, so the locations are those of the first tree
      simp only [hkeeps.lexical] at hall
      refine ⟨?_, ?_⟩
      · intro r' hr'
        rcases List.mem_cons.mp hr' with rfl | hr'
        · -- the later replacements do not touch the first file
          rw [hothers _ hpath, hothers _ hbeside, hnode, hnode, if_pos rfl, if_neg (Ne.symm hne),
            if_pos rfl]
          exact ⟨rfl, rfl⟩
        · exact hall r' hr'
      · intro l hl
        simp only [locations, List.flatMap_cons, List.cons_append, List.nil_append,
          List.mem_cons, not_or] at hl
        obtain ⟨hl_path, hl_beside, hl_rest⟩ := hl
        rw [← locations, ← locations_of_keeps hkeeps] at hl_rest
        rw [hothers l hl_rest, hnode, if_neg hl_path, if_neg hl_beside]

/-- A replacement that fails leaves its file as it was. -/
theorem passes_prepare_of_error {r : Replacement} {e : FileError}
    (h : fs.applyAll r.steps = (.error e, fs')) : fs.Passes r.prepare fs' := by
  rw [steps, prepare] at h
  rw [prepare]
  simp only [List.cons_append, List.nil_append, applyAll] at h
  split at h
  · rename_i made hmade
    split at h
    · rename_i filled hfilled
      split at h
      · cases h
      · obtain ⟨-, rfl⟩ := Prod.mk.inj h
        exact .next hmade (.next hfilled (.start _ _))
    · obtain ⟨-, rfl⟩ := Prod.mk.inj h
      exact .next hmade (.start _ _)
  · obtain ⟨-, rfl⟩ := Prod.mk.inj h
    exact .start _ _

/-- Of several replacements, the first that fails comes after some that were made. -/
theorem exists_of_applyAll_error {rs : List Replacement} {e : FileError}
    (h : fs.applyAll (rs.flatMap steps) = (.error e, fs')) :
    ∃ k r mid, rs[k]? = some r ∧ fs.applyAll ((rs.take k).flatMap steps) = (.ok (), mid) ∧
      mid.applyAll r.steps = (.error e, fs') := by
  induction rs generalizing fs with
  | nil => cases h
  | cons r rest ih =>
      rw [List.flatMap_cons, applyAll_append] at h
      cases hfirst : fs.applyAll r.steps with
      | mk outcome mid =>
          rw [hfirst] at h
          cases outcome with
          | error e' => exact ⟨0, r, fs, rfl, rfl, hfirst.trans h⟩
          | ok _ =>
              obtain ⟨k, r', mid', hr', hbefore, hfails⟩ := ih h
              refine ⟨k + 1, r', mid', hr', ?_, hfails⟩
              rw [List.take_succ_cons, List.flatMap_cons, applyAll_append_eq_ok]
              exact ⟨mid, hfirst, hbefore⟩

theorem path_ne_beside {rs : List Replacement} (distinct : (locations fs rs).Nodup)
    {r r' : Replacement} (hr : r ∈ rs) (hr' : r' ∈ rs) :
    fs.lexical r.path ≠ fs.lexical r'.beside := by
  induction rs with
  | nil => exact absurd hr List.not_mem_nil
  | cons first rest ih =>
      simp only [locations, List.flatMap_cons, List.cons_append, List.nil_append,
        List.nodup_cons, List.mem_cons, not_or, List.mem_flatMap] at distinct
      obtain ⟨⟨hne, hpath⟩, hbeside, hdistinct⟩ := distinct
      rcases List.mem_cons.mp hr with rfl | hrest
      · rcases List.mem_cons.mp hr' with rfl | hrest'
        · exact hne
        · exact fun heq => hpath ⟨r', hrest', by simp [heq]⟩
      · rcases List.mem_cons.mp hr' with rfl | hrest'
        · exact fun heq => hbeside ⟨r, hrest, by simp [heq]⟩
        · exact ih hdistinct hrest hrest'

/-- When some of the replacements have been made and at most the next one is prepared, the
    files of the former hold their new contents and the others are as they were. -/
theorem file?_of_partly_applied {rs : List Replacement} (distinct : (locations fs rs).Nodup)
    {k : Nat} {mid : FileSystem}
    (before : fs.applyAll ((rs.take k).flatMap steps) = (.ok (), mid))
    (during : ∀ l, (∀ r ∈ rs, l ≠ fs.lexical r.beside) → fs'.node? l = mid.node? l)
    {i : Nat} {r : Replacement} (hr : rs[i]? = some r) :
    fs'.file? (fs.lexical r.path) =
      if i < k then some (.text r.text) else fs.file? (fs.lexical r.path) := by
  have hmem : r ∈ rs := List.mem_of_getElem? hr
  have hsplit : locations fs rs = locations fs (rs.take k) ++ locations fs (rs.drop k) := by
    rw [locations, locations, locations, ← List.flatMap_append, List.take_append_drop]
  obtain ⟨hfront, -, hdisjoint⟩ := List.nodup_append'.mp (hsplit ▸ distinct)
  obtain ⟨hmade, hothers⟩ := node?_of_applyAll hfront before
  rw [file?_congr (during _ fun r' hr' => path_ne_beside distinct hmem hr')]
  split
  · rename_i hlt
    have hfirst : r ∈ rs.take k := List.mem_of_getElem? (by rw [List.getElem?_take, if_pos hlt, hr])
    exact file?_eq_some_iff.mpr (hmade r hfirst).1
  · rename_i hge
    have hlast : r ∈ rs.drop k := List.mem_of_getElem? (i := i - k) (by
      rw [List.getElem?_drop, Nat.add_sub_cancel' (Nat.le_of_not_lt hge), hr])
    refine file?_congr (hothers _ fun hin => hdisjoint hin ?_)
    exact List.mem_flatMap.mpr ⟨r, hlast, List.mem_cons_self⟩

end Replacement

/-! ## The files of a deployment -/

namespace Deployment

variable {b : Blueprint} {dir : String} {now : Instant}

theorem lexical_artifactsDir (fs : FileSystem) (dir : String) :
    fs.lexical (artifactsDir dir) = fs.lexical dir ++ [markerName, artifactsName] := by
  rw [artifactsDir, markerDir, lexical_join_name (by decide), lexical_join_name (by decide),
    List.append_assoc]
  rfl

theorem lexical_artifactPath (fs : FileSystem) (dir : String) :
    fs.lexical (artifactPath dir) =
      fs.lexical dir ++ [markerName, artifactsName, artifactName] := by
  rw [artifactPath, lexical_join_name (by decide), lexical_artifactsDir, List.append_assoc]
  rfl

theorem lexical_recordPath (fs : FileSystem) (dir : String) :
    fs.lexical (recordPath dir) = fs.lexical dir ++ [markerName, artifactsName, recordName] := by
  rw [recordPath, lexical_join_name (by decide), lexical_artifactsDir, List.append_assoc]
  rfl

theorem replacementIn_text (base name text : String) :
    (replacementIn base name text).text = text := rfl

/-- Where the files of a deployment are, and what is written beside them, seen from its
    directory. -/
def fileLocations : List Location := [
  [markerName, artifactsName, artifactName],
  [markerName, artifactsName, Path.withExtension artifactName "tmp"],
  [markerName, artifactsName, recordName],
  [markerName, artifactsName, Path.withExtension recordName "tmp"],
  [instructionsName],
  [Path.withExtension instructionsName "tmp"]]

theorem locations_replacements (fs : FileSystem) (b : Blueprint) (dir : String) (now : Instant) :
    Replacement.locations fs (replacements b dir now) =
      fileLocations.map (fs.lexical dir ++ ·) := by
  have hartifacts : ∀ name, Path.IsName name → fs.lexical (Path.join (artifactsDir dir) name) =
      fs.lexical dir ++ [markerName, artifactsName, name] := by
    intro name hname
    rw [lexical_join_name hname, lexical_artifactsDir, List.append_assoc]
    rfl
  simp only [Replacement.locations, replacements, replacementIn, List.flatMap_cons,
    List.flatMap_nil, List.cons_append, List.nil_append, fileLocations, List.map_cons, List.map_nil]
  rw [hartifacts _ (by decide), hartifacts _ (by decide), hartifacts _ (by decide),
    hartifacts _ (by decide), lexical_join_name (by decide), lexical_join_name (by decide)]

theorem nodup_locations_replacements (fs : FileSystem) (b : Blueprint) (dir : String)
    (now : Instant) : (Replacement.locations fs (replacements b dir now)).Nodup := by
  rw [locations_replacements]
  exact List.Nodup.map (fun _ _ h => List.append_cancel_left h) (by decide)

/-! ## Ending early -/

/-- The trees that a write may leave when a failure ends it, each with the number of files
    that have been replaced by then. -/
inductive Stops (fs : FileSystem) (b : Blueprint) (dir : String) (now : Instant) :
    Nat → FileSystem → Prop
  /-- While the directories are made. -/
  | making {fs' : FileSystem}
      (passes : fs.PassesMaking (Path.ancestors (artifactsDir dir)) fs') :
      Stops fs b dir now 0 fs'
  /-- After some replacements, while the next one is prepared. -/
  | replacing {k : Nat} {made mid fs' : FileSystem} {r : Replacement}
      (directories : fs.makeDirectories (Path.ancestors (artifactsDir dir)) = (.ok (), made))
      (before : made.applyAll (((replacements b dir now).take k).flatMap Replacement.steps) =
        (.ok (), mid))
      (next : (replacements b dir now)[k]? = some r) (during : mid.Passes r.prepare fs') :
      Stops fs b dir now k fs'

theorem write_eq_ok_iff :
    write fs b dir now = (.ok (), fs') ↔
      ∃ made, fs.makeDirectories (Path.ancestors (artifactsDir dir)) = (.ok (), made) ∧
        made.applyAll ((replacements b dir now).flatMap Replacement.steps) = (.ok (), fs') := by
  rw [write]
  cases fs.makeDirectories (Path.ancestors (artifactsDir dir)) with
  | mk outcome made => cases outcome <;> simp

/-- What a write that fails leaves behind is one of the trees where it may stop. -/
theorem exists_stops_of_write_eq_error {e : FileError}
    (h : write fs b dir now = (.error e, fs')) : ∃ k, Stops fs b dir now k fs' := by
  rw [write] at h
  split at h
  · rename_i e' made hmade
    obtain ⟨-, rfl⟩ := Prod.mk.inj h
    have hdone : fs.PassesMaking _ (fs.makeDirectories (Path.ancestors (artifactsDir dir))).2 :=
      .done _
    rw [hmade] at hdone
    exact ⟨0, .making hdone⟩
  · rename_i u made hmade
    obtain ⟨k, r, mid, hr, hbefore, hfails⟩ := Replacement.exists_of_applyAll_error h
    exact ⟨k, .replacing hmade hbefore hr (Replacement.passes_prepare_of_error hfails)⟩

theorem Stops.keeps {k : Nat} (h : Stops fs b dir now k fs') : Keeps fs fs' := by
  cases h with
  | making passes => exact passes.addsDirectories.toKeeps
  | replacing directories before next during =>
      exact (addsDirectories_of_made directories).toKeeps.trans
        ((Replacement.keeps_of_applyAll before).trans during.keeps)

theorem keeps_of_write (h : write fs b dir now = (.ok (), fs')) : Keeps fs fs' := by
  obtain ⟨made, hmade, happlied⟩ := write_eq_ok_iff.mp h
  exact (addsDirectories_of_made hmade).toKeeps.trans (Replacement.keeps_of_applyAll happlied)

/-- Where a write stops, the first files hold their new contents and the others are as they
    were. -/
theorem Stops.file? {k : Nat} (h : Stops fs b dir now k fs') {i : Nat} {r : Replacement}
    (hr : (replacements b dir now)[i]? = some r) :
    fs'.file? (fs.lexical r.path) =
      if i < k then some (.text r.text) else fs.file? (fs.lexical r.path) := by
  cases h with
  | making passes => exact passes.addsDirectories.file _
  | @replacing _ made mid _ next directories before hnext during =>
      have hadds := addsDirectories_of_made directories
      have hkeeps := Replacement.keeps_of_applyAll before
      have hmem := List.mem_of_getElem? hnext
      -- making the directories has changed no file, so the old contents are those of `made`
      rw [← hadds.lexical, ← hadds.file]
      refine Replacement.file?_of_partly_applied (nodup_locations_replacements made b dir now)
        before (fun l hl => ?_) hr
      refine Replacement.node?_of_passes_prepare during ?_
      rw [hkeeps.lexical]
      exact hl next hmem

theorem file?_of_write (h : write fs b dir now = (.ok (), fs')) {r : Replacement}
    (hr : r ∈ replacements b dir now) :
    fs'.file? (fs.lexical r.path) = some (.text r.text) := by
  obtain ⟨made, hmade, happlied⟩ := write_eq_ok_iff.mp h
  rw [← (addsDirectories_of_made hmade).lexical]
  exact file?_eq_some_iff.mpr
    ((Replacement.node?_of_applyAll (nodup_locations_replacements made b dir now)
      happlied).1 r hr).1

end Deployment
end HpcBlueprint
