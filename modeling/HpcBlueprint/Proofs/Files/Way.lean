/-
  The way to a path.

  Every walk along a path passes the same places, and in a tree in which the path leads
  somewhere these are directories.  Behind a base, what is passed first is passed on the way to
  the base, and what comes then is where beginnings of the rest lead from there.  So a rest
  that never leads above keeps to what is below the base, and nothing else has to be there or
  to be made than what the base needs itself.
-/
import HpcBlueprint.Proofs.Files.Outside
import HpcBlueprint.Proofs.Text.Search

namespace HpcBlueprint

/-! ## Paths that never lead above -/

namespace Path

theorem climbFrom_append (ups : Nat) (names front back : List String) :
    climbFrom ups names (front ++ back) =
      climbFrom (climbFrom ups names front).1 (climbFrom ups names front).2 back := by
  induction front generalizing ups names with
  | nil => rfl
  | cons piece rest ih =>
      rw [List.cons_append, climbFrom, climbFrom]
      split
      · exact ih ups names
      · split
        · split
          · exact ih (ups + 1) []
          · exact ih ups names.dropLast
        · exact ih ups (names ++ [piece])

/-- No piece takes back a step upwards. -/
theorem le_climbFrom (ups : Nat) (names pieces : List String) :
    ups ≤ (climbFrom ups names pieces).1 := by
  induction pieces generalizing ups names with
  | nil => exact Nat.le_refl ups
  | cons piece rest ih =>
      rw [climbFrom]
      split
      · exact ih ups names
      · split
        · split
          · exact Nat.le_of_succ_le (ih (ups + 1) [])
          · exact ih ups names.dropLast
        · exact ih ups (names ++ [piece])

/-- A path that starts where one is and never leads above. -/
def Stays (path : String) : Prop := isAbsolute path = false ∧ (climb path).1 = 0

instance (path : String) : Decidable (Stays path) :=
  inferInstanceAs (Decidable (isAbsolute path = false ∧ (climb path).1 = 0))

/-- However far one follows such a path, one is where one started or below. -/
theorem Stays.prefix_follow {path : String} (h : Stays path) {front : List String}
    (hfront : front <+: pieces path) (loc : Location) : loc <+: follow loc front := by
  obtain ⟨back, hback⟩ := hfront
  have hups : (climbFrom 0 [] front).1 = 0 := by
    have hclimb := h.2
    rw [climb, ← hback, climbFrom_append] at hclimb
    have hle := le_climbFrom (climbFrom 0 [] front).1 (climbFrom 0 [] front).2 back
    rw [hclimb] at hle
    exact Nat.le_zero.mp hle
  have hstart : seen loc 0 [] = loc := by simp [seen]
  have hfollow := follow_seen loc 0 [] front
  rw [hstart, hups] at hfollow
  rw [hfollow, prefix_seen_iff, Nat.sub_zero, List.drop_length]
  exact List.nil_prefix

/-- A path that leads only downwards never leads above. -/
theorem Descends.stays {path : String} (h : Descends path) : Stays path :=
  ⟨h.1, climbFrom_of_no_parent h.2 0 []⟩

theorem Stays.confined {path : String} (h : Stays path) (base : Location) : Confined base path := by
  rw [Confined, h.1, if_neg Bool.false_ne_true, h.2, Nat.sub_zero, List.drop_length]
  exact List.nil_prefix

end Path

namespace FileSystem

variable {fs fs' : FileSystem} {loc : Location} {path base rest dir name p : String}

/-! ## Directories on the way -/

theorem lexical_root (fs : FileSystem) : fs.lexical "/" = [] := by
  have habsolute : Path.isAbsolute "/" = true := by decide
  have hpieces : Path.pieces "/" = List.replicate 2 "" := by decide
  rw [lexical, start, habsolute, if_pos rfl, hpieces, Path.follow_replicate_empty]

/-- The directories on the way to a path are there. -/
def Reached (fs : FileSystem) (path : String) : Prop :=
  ∀ p, Path.Passed path p →
    fs.lexical p = fs.lexical path ∨ fs.node? (fs.lexical p) = some .directory

theorem Reached.of_keeps (h : fs.Reached path) (keeps : Keeps fs fs') : fs'.Reached path := by
  intro p hp
  rw [keeps.lexical, keeps.lexical]
  exact (h p hp).imp_right (keeps.directory _)

/-- A path that leads somewhere is reached through directories. -/
theorem reached_of_locate (h : fs.locate path = .ok loc) : fs.Reached path := by
  obtain ⟨-, -, -, hwalk⟩ := locate_eq_ok_iff.mp h
  rintro p (rfl | ⟨hne, hstarts⟩)
  · exact .inr (fs.lexical_root ▸ rfl)
  · have hstart : fs.start path = fs.start p := by
      rw [start, start, Path.isAbsolute_eq_of_prefix hne hstarts]
    obtain ⟨more, hmore⟩ := hstarts
    -- the walk to the path comes by `p`, and it only goes on from directories
    rw [← hmore, hstart, walk_append_eq_ok_iff] at hwalk
    obtain ⟨mid, hmid, hrest⟩ := hwalk
    cases more with
    | nil =>
        refine .inl ?_
        rw [lexical, lexical, hstart, ← hmore, List.append_nil]
    | cons piece rest =>
        refine .inr ?_
        rw [lexical, ← walk_eq_ok hmid]
        exact node?_of_walk (List.cons_ne_nil piece rest) hrest

/-- What is passed on the way to a directory is a directory. -/
theorem node?_of_passed (hdir : fs.isDirectory dir = true) (h : Path.Passed dir p) :
    fs.node? (fs.lexical p) = some .directory := by
  obtain ⟨loc, hlocate, hnode⟩ := isDirectory_eq_true_iff.mp hdir
  rcases reached_of_locate hlocate p h with hsame | hdirectory
  · rw [hsame, ← locate_eq_ok hlocate]
    exact hnode
  · exact hdirectory

/-! ## Behind a base -/

/-- What is passed on the way behind a base is passed on the way to the base, or is where some
    beginning of the rest leads from there. -/
theorem passed_join_cases (hrest : Path.isAbsolute rest = false)
    (h : Path.Passed (Path.join base rest) p) :
    Path.Passed base p ∨ ∃ front, front ≠ [] ∧ front <+: Path.pieces rest ∧
      ∀ fs : FileSystem, fs.lexical p = Path.follow (fs.lexical base) front := by
  rcases h with rfl | ⟨hne, hstarts⟩
  · exact .inl (.inl rfl)
  · have habsolute := Path.isAbsolute_eq_of_prefix hne hstarts
    by_cases hbase : base = ""
    · -- an empty base adds nothing: the way begins at the working directory
      have hjoin : Path.join base rest = rest := by
        rw [hbase, Path.join, hrest, if_neg Bool.false_ne_true]
        exact String.empty_append
      rw [hjoin] at hstarts habsolute
      refine .inr ⟨Path.pieces p, Path.pieces_ne_nil p, hstarts, fun fs => ?_⟩
      rw [lexical, start, habsolute, hrest, hbase]
      rfl
    · obtain ⟨front, hpieces, hfront⟩ := Path.pieces_join hbase hrest
      have hplace : ∀ fs : FileSystem, fs.lexical base = Path.follow (fs.start base) front := by
        intro fs
        rcases hfront with hfront | hfront
        · rw [lexical, hfront]
        · rw [lexical, hfront, Path.follow_append]
          rfl
      rw [Path.isAbsolute_join hbase hrest] at habsolute
      rw [hpieces] at hstarts
      rcases Text.prefix_append_cases hstarts with habove | ⟨piece, more, hmore, hbelow⟩
      · refine .inl (.inr ⟨hne, habove.trans ?_⟩)
        rcases hfront with hfront | hfront
        · exact hfront ▸ List.prefix_refl _
        · exact hfront ▸ List.prefix_append _ _
      · refine .inr ⟨piece :: more, List.cons_ne_nil piece more, hbelow, fun fs => ?_⟩
        have hstart : fs.start p = fs.start base := by rw [start, start, habsolute]
        rw [hplace, lexical, hstart, hmore, Path.follow_append]

/-- What is passed on the way to a name in a directory is where the name leads, or is passed on
    the way to the directory. -/
theorem lexical_eq_or_passed (fs : FileSystem) (hname : Path.IsName name)
    (h : Path.Passed (Path.join dir name) p) :
    fs.lexical p = fs.lexical (Path.join dir name) ∨ Path.Passed dir p := by
  obtain ⟨hrelative, hpieces, -⟩ := hname
  rcases passed_join_cases hrelative h with hpassed | ⟨front, hne, hstarts, hplace⟩
  · exact .inr hpassed
  · rw [hpieces] at hstarts
    have hfront : front = [name] :=
      hstarts.eq_of_length_le (List.length_pos_iff.mpr hne)
    refine .inl ?_
    rw [hplace, lexical_join, hrelative, if_neg Bool.false_ne_true, hpieces, hfront]

/-- What is passed on the way to a path is a location or below it, or is a directory. -/
def Prepared (fs : FileSystem) (loc : Location) (path : String) : Prop :=
  ∀ p, Path.Passed path p → loc <+: fs.lexical p ∨ fs.node? (fs.lexical p) = some .directory

/-- Nothing is missing on the way to a name in a directory but what it names. -/
theorem prepared_join_name (hdir : fs.isDirectory dir = true) (hname : Path.IsName name) :
    fs.Prepared (fs.lexical (Path.join dir name)) (Path.join dir name) := by
  intro p hp
  rcases lexical_eq_or_passed fs hname hp with hsame | hpassed
  · exact .inl (hsame ▸ List.prefix_refl _)
  · exact .inr (node?_of_passed hdir hpassed)

/-- What is behind a base stays there: it leads below the base, and everything outside that is
    passed on the way is there. -/
def KeptBelow (fs : FileSystem) (base rest : String) : Prop :=
  Path.Confined (fs.lexical base) rest ∧ fs.Prepared (fs.lexical base) (Path.join base rest)

/-- A rest that never leads above stays behind a base to which nothing is missing. -/
theorem keptBelow_of_stays (prepared : fs.Prepared (fs.lexical base) base)
    (stays : Path.Stays rest) : fs.KeptBelow base rest := by
  refine ⟨stays.confined _, fun p hp => ?_⟩
  rcases passed_join_cases stays.1 hp with hpassed | ⟨front, -, hstarts, hplace⟩
  · exact prepared p hpassed
  · rw [hplace]
    exact .inl (stays.prefix_follow hstarts _)

end FileSystem
end HpcBlueprint
