/-
  The names in a directory.

  What is listed in a directory is what stands directly below it, in the order of the nodes; its
  names, which are sorted, do not depend on that order (`names_congr`).  What is listed is found
  at its name behind the path of the directory, unless the path gets too long by the name
  (`locate_join_name`).
-/
import HpcBlueprint.Proofs.Files.Parents
import Mathlib.Data.List.Sort
import Mathlib.Data.String.Basic

namespace HpcBlueprint

namespace Path

/-- A name that something in a directory can have. -/
def IsFileName (name : String) : Prop :=
  IsName name ∧ '\x00' ∉ name.toList ∧ name.utf8ByteSize ≤ FileSystem.maxName

instance (name : String) : Decidable (IsFileName name) :=
  inferInstanceAs (Decidable (_ ∧ _ ∧ _))

/-- Joining adds nothing but slashes. -/
theorem mem_toList_join {base rest : String} {c : Char} (h : c ∈ (join base rest).toList) :
    c ∈ base.toList ∨ c ∈ rest.toList ∨ c = '/' := by
  have hslash : "/".toList = ['/'] := by decide
  rw [join] at h
  split at h
  · exact .inr (.inl h)
  · split at h
    · rw [String.toList_append, List.mem_append] at h
      exact h.imp_right .inl
    · rw [String.toList_append, String.toList_append, List.mem_append, List.mem_append, hslash,
        List.mem_singleton] at h
      rcases h with (hbase | hsep) | hrest
      · exact .inl hbase
      · exact .inr (.inr hsep)
      · exact .inr (.inl hrest)

/-- A joined path has the bytes of its parts and at most a slash between them. -/
theorem utf8ByteSize_join (base : String) {rest : String} (hrest : isAbsolute rest = false) :
    base.utf8ByteSize + rest.utf8ByteSize ≤ (join base rest).utf8ByteSize ∧
      (join base rest).utf8ByteSize ≤ base.utf8ByteSize + 1 + rest.utf8ByteSize := by
  have hslash : "/".utf8ByteSize = 1 := by decide
  rw [join, hrest, if_neg Bool.false_ne_true]
  split
  · rw [String.utf8ByteSize_append]
    omega
  · rw [String.utf8ByteSize_append, String.utf8ByteSize_append, hslash]
    omega

/-! ## Longer spellings -/

/-- A path behind a number of steps that stay where they are. -/
def winding : Nat → String → String
  | 0, path => path
  | n + 1, path => "./" ++ winding n path

theorem utf8ByteSize_winding (n : Nat) (path : String) :
    (winding n path).utf8ByteSize = 2 * n + path.utf8ByteSize := by
  have hstep : "./".utf8ByteSize = 2 := by decide
  induction n with
  | zero => rw [winding, Nat.mul_zero, Nat.zero_add]
  | succ n ih =>
      rw [winding, String.utf8ByteSize_append, hstep, ih]
      omega

theorem pieces_winding (n : Nat) (path : String) :
    pieces (winding n path) = List.replicate n "." ++ pieces path := by
  have hstep : "./".toList = ['.', '/'] := by decide
  have hdot : pieces (String.ofList ['.']) = ["."] := by decide
  induction n with
  | zero => rfl
  | succ n ih =>
      have hcut := pieces_append_slash ['.'] (winding n path).toList
      rw [String.ofList_toList, hdot, ih] at hcut
      rw [winding, pieces, Text.splitAll, String.toList_append, hstep]
      exact hcut

theorem isAbsolute_winding {path : String} (h : isAbsolute path = false) (n : Nat) :
    isAbsolute (winding n path) = false := by
  cases n with
  | zero => exact h
  | succ n =>
      rw [winding, isAbsolute_append (by decide)]
      decide

theorem mem_toList_winding {c : Char} {n : Nat} {path : String}
    (h : c ∈ (winding n path).toList) : c ∈ path.toList ∨ c ∈ "./".toList := by
  induction n with
  | zero => exact .inl h
  | succ n ih =>
      rw [winding, String.toList_append, List.mem_append] at h
      rcases h with hstep | hrest
      · exact .inr hstep
      · exact ih hrest

end Path

namespace FileSystem

variable {fs fs' : FileSystem} {loc : Location} {dir name : String}

/-! ## Trees as a system has them -/

/-- No location stands for two things. -/
def Distinct (fs : FileSystem) : Prop := (fs.nodes.map (·.1)).Nodup

instance (fs : FileSystem) : Decidable fs.Distinct :=
  inferInstanceAs (Decidable (List.Nodup _))

/-- No location stands for two things, and everything has names that things can have. -/
structure Proper (fs : FileSystem) : Prop where
  distinct : fs.Distinct
  names : ∀ entry ∈ fs.nodes, ∀ name ∈ entry.1, Path.IsFileName name

theorem lookup_eq_some_iff {entries : List (Location × FileNode)} {n : FileNode}
    (distinct : (entries.map (·.1)).Nodup) :
    entries.lookup loc = some n ↔ (loc, n) ∈ entries := by
  induction entries with
  | nil => simp
  | cons entry rest ih =>
      obtain ⟨l, m⟩ := entry
      rw [List.map_cons, List.nodup_cons] at distinct
      obtain ⟨hfresh, hrest⟩ := distinct
      rw [List.lookup_cons, List.mem_cons]
      -- the first entry decides about its location, since no other entry has it
      by_cases hl : loc = l
      · subst hl
        have hrest_none : (loc, n) ∉ rest := fun hmem =>
          hfresh (List.mem_map.mpr ⟨_, hmem, rfl⟩)
        simp [hrest_none, eq_comm]
      · have hbeq : (loc == l) = false := by simpa using hl
        simp [hbeq, hl, ih hrest]

/-- The order of the nodes does not matter to what stands where. -/
theorem node?_of_perm (distinct : fs.Distinct) (h : fs'.nodes.Perm fs.nodes) (l : Location) :
    fs'.node? l = fs.node? l := by
  have distinct' : fs'.Distinct := ((h.map _).nodup_iff).mpr distinct
  rw [node?, node?]
  split
  · rfl
  · apply Option.ext
    intro n
    rw [lookup_eq_some_iff distinct', lookup_eq_some_iff distinct, h.mem_iff]

theorem mem_nodes_of_node?_ne_none (hne : loc ≠ []) (h : fs.node? loc ≠ none) :
    ∃ n, (loc, n) ∈ fs.nodes := by
  rw [node?, List.isEmpty_eq_false_iff.mpr hne, if_neg Bool.false_ne_true] at h
  by_contra hnone
  rw [not_exists] at hnone
  refine h (List.lookup_eq_none_iff.mpr fun entry hentry => ?_)
  rw [bne_iff_ne]
  rintro rfl
  exact hnone entry.2 hentry

/-- Whatever stands somewhere has names that things can have. -/
theorem Proper.isFileName_of_mem (h : fs.Proper) (hnode : fs.node? loc ≠ none)
    (hname : name ∈ loc) : Path.IsFileName name := by
  obtain ⟨n, hmem⟩ := mem_nodes_of_node?_ne_none (List.ne_nil_of_mem hname) hnode
  exact h.names _ hmem name hname

theorem Proper.isFileName (h : fs.Proper) (hnode : fs.node? (loc ++ [name]) ≠ none) :
    Path.IsFileName name :=
  h.isFileName_of_mem hnode (List.mem_append_right _ (List.mem_singleton_self name))

/-! ## Changing such trees -/

/-- What a walk adds to the names that it starts with are pieces, and none that is too long. -/
theorem isFileName_of_walk {found : Location} {pieces : List String}
    (hloc : ∀ name ∈ loc, Path.IsFileName name)
    (hpieces : ∀ piece ∈ pieces, '/' ∉ piece.toList ∧ '\x00' ∉ piece.toList)
    (h : fs.walk loc pieces = .ok found) : ∀ name ∈ found, Path.IsFileName name := by
  induction pieces generalizing loc with
  | nil =>
      rw [walk, Except.ok.injEq] at h
      exact h ▸ hloc
  | cons piece rest ih =>
      obtain ⟨⟨hslash, hnul⟩, hrest⟩ := List.forall_mem_cons.mp hpieces
      obtain ⟨-, next, hnext, hwalk⟩ := walk_cons_eq_ok_iff.mp h
      refine ih ?_ hrest hwalk
      -- a piece stays, climbs or enters, and only where it enters a name is added
      rw [enter?] at hnext
      split at hnext
      · exact Option.some.inj hnext ▸ hloc
      · rename_i hsame
        split at hnext
        · rw [← Option.some.inj hnext]
          exact fun name hname => hloc name (List.dropLast_subset _ hname)
        · rename_i hup
          split at hnext
          · cases hnext
          · rename_i hshort
            rw [← Option.some.inj hnext]
            simp only [Bool.or_eq_true, String.isEmpty_iff, beq_iff_eq, not_or] at hsame hup
            intro name hname
            rcases List.mem_append.mp hname with hname | hname
            · exact hloc name hname
            · rw [List.mem_singleton.mp hname]
              exact ⟨Path.isName_of_slash_not_mem hslash hsame.1 hsame.2 hup, hnul,
                Nat.le_of_not_lt hshort⟩

/-- A path leads to a location that something can have. -/
theorem Proper.isFileName_of_locate {path : String} (proper : fs.Proper)
    (h : fs.locate path = .ok loc) : ∀ name ∈ loc, Path.IsFileName name := by
  have hstart := node?_start_of_locate h
  obtain ⟨hnul, -, -, hwalk⟩ := locate_eq_ok_iff.mp h
  refine isFileName_of_walk (fun name => ?_) (fun piece hpiece => ?_) hwalk
  · exact proper.isFileName_of_mem (by rw [hstart]; exact Option.some_ne_none _)
  · exact ⟨Path.slash_not_mem_of_mem_pieces hpiece,
      fun hc => hnul (Path.mem_toList_of_mem_pieces hpiece hc)⟩

theorem Proper.put (proper : fs.Proper) (hloc : ∀ name ∈ loc, Path.IsFileName name)
    (n : FileNode) : (fs.put loc n).Proper := by
  have hkept : (fs.nodes.filter (·.1 != loc)).Sublist fs.nodes := List.filter_sublist
  constructor
  · -- whatever stood at the location before is gone
    show (((loc, n) :: fs.nodes.filter (·.1 != loc)).map (·.1)).Nodup
    rw [List.map_cons, List.nodup_cons]
    refine ⟨fun hmem => ?_, proper.distinct.sublist (hkept.map _)⟩
    obtain ⟨entry, hentry, hloc⟩ := List.mem_map.mp hmem
    exact absurd hloc (bne_iff_ne.mp (List.mem_filter.mp hentry).2)
  · intro entry hentry
    rcases List.mem_cons.mp hentry with rfl | hentry
    · exact hloc
    · exact proper.names entry (hkept.subset hentry)

theorem Proper.removeTree (proper : fs.Proper) (loc : Location) : (fs.removeTree loc).Proper := by
  have hkept : (fs.removeTree loc).nodes.Sublist fs.nodes := List.filter_sublist
  exact ⟨proper.distinct.sublist (hkept.map _),
    fun entry hentry => proper.names entry (hkept.subset hentry)⟩

theorem Proper.makeDirectory {path : String} (proper : fs.Proper)
    (h : fs.makeDirectory path = .ok fs') : fs'.Proper := by
  obtain ⟨loc, hlocate, -, rfl⟩ := makeDirectory_eq_ok_iff.mp h
  exact proper.put (proper.isFileName_of_locate hlocate) _

theorem Proper.makeDirectories (proper : fs.Proper) (paths : List String) :
    (fs.makeDirectories paths).2.Proper := by
  -- the paths come innermost first, so the tail of the list is made before its head
  induction paths with
  | nil => exact proper
  | cons path parents ih =>
      rw [FileSystem.makeDirectories]
      split
      · rename_i hmade
        exact proper.makeDirectory hmade
      · split
        · rename_i hparents
          rw [hparents] at ih
          exact ih
        · rename_i hparents
          rw [hparents] at ih
          split
          · rename_i hmade
            exact ih.makeDirectory hmade
          · split <;> exact ih
      · split <;> exact proper

theorem Proper.writeContent {path : String} {content : Content} (proper : fs.Proper)
    (h : fs.writeContent path content = .ok fs') : fs'.Proper := by
  rw [FileSystem.writeContent, bind_eq_ok] at h
  obtain ⟨made, hmade, hwritten⟩ := h
  have hkeeps := FileStep.keeps_of_apply hmade
  obtain ⟨hlocate, -, rfl⟩ := FileStep.apply_create_eq_ok hmade
  obtain ⟨-, rfl⟩ := FileStep.apply_write_eq_ok hwritten
  have hnames := proper.isFileName_of_locate hlocate
  rw [hkeeps.lexical]
  exact (proper.put hnames _).put hnames _

/-! ## Listing -/

/-- What is listed in a directory is what stands directly below it. -/
theorem mem_entries_iff : name ∈ fs.entries loc ↔ fs.node? (loc ++ [name]) ≠ none := by
  -- a location is taken apart into its directory and its last name
  have hentry : ∀ l : Location, l ≠ [] → (l.dropLast = loc ∧ l.getLast? = some name ↔
      l = loc ++ [name]) := by
    intro l hl
    constructor
    · rintro ⟨hdrop, hlast⟩
      rw [← List.dropLast_append_getLast? name hlast, hdrop]
    · rintro rfl
      simp
  rw [entries, List.mem_filterMap]
  constructor
  · rintro ⟨⟨l, n⟩, hmem, hlast⟩
    rw [List.mem_filter, Bool.and_eq_true, Bool.not_eq_true', List.isEmpty_eq_false_iff,
      beq_iff_eq] at hmem
    obtain ⟨hmem, hne, hdrop⟩ := hmem
    rw [← (hentry l hne).mp ⟨hdrop, hlast⟩, node?, List.isEmpty_eq_false_iff.mpr hne,
      if_neg Bool.false_ne_true, Ne, List.lookup_eq_none_iff]
    intro hnone
    simpa using hnone _ hmem
  · intro h
    obtain ⟨n, hmem⟩ := mem_nodes_of_node?_ne_none (by simp) h
    exact ⟨(loc ++ [name], n), List.mem_filter.mpr ⟨hmem, by simp⟩, by simp⟩

/-- Each name is listed only once. -/
theorem nodup_entries (distinct : fs.Distinct) (loc : Location) : (fs.entries loc).Nodup := by
  rw [entries, List.Nodup, List.pairwise_filterMap]
  have hkeys : fs.nodes.Pairwise fun x y => x.1 ≠ y.1 := List.pairwise_map.mp distinct
  refine (hkeys.filter _).imp_of_mem fun {x y} hx hy hne a ha b hb heq => hne ?_
  -- below one location, two things with one name stand at one place
  simp only [List.mem_filter, Bool.and_eq_true, beq_iff_eq] at hx hy
  rw [← List.dropLast_append_getLast? a ha, ← List.dropLast_append_getLast? b hb, hx.2.2,
    hy.2.2, heq]

theorem mem_names_iff : name ∈ fs.names loc ↔ fs.node? (loc ++ [name]) ≠ none := by
  rw [names, List.mem_mergeSort, mem_entries_iff]

/-- Names that are sorted stand in their order, and each only once. -/
theorem pairwise_names (distinct : fs.Distinct) (loc : Location) :
    (fs.names loc).Pairwise (· < ·) := by
  have hsorted : (fs.names loc).Pairwise (· ≤ ·) := List.pairwise_mergeSort' (· ≤ ·) _
  have hnodup : (fs.names loc).Nodup := List.nodup_mergeSort.mpr (nodup_entries distinct loc)
  exact hsorted.imp₂ (fun a b hle hne => lt_of_le_of_ne hle hne) hnodup

/-- It makes no difference whether names are picked before they are sorted or afterwards. -/
theorem mergeSort_filter_entries (fs : FileSystem) (loc : Location) (picked : String → Bool) :
    ((fs.entries loc).filter picked).mergeSort (fun a b => decide (a ≤ b)) =
      (fs.names loc).filter picked := by
  have hperm : (((fs.entries loc).filter picked).mergeSort (fun a b => decide (a ≤ b))).Perm
      ((fs.names loc).filter picked) :=
    (List.mergeSort_perm _ _).trans ((List.mergeSort_perm (fs.entries loc) _).symm.filter picked)
  exact hperm.eq_of_pairwise' (List.pairwise_mergeSort' (· ≤ ·) _)
    ((List.pairwise_mergeSort' (· ≤ ·) (fs.entries loc)).filter picked)

/-- The names are the same wherever the same stands. -/
theorem names_congr (distinct : fs.Distinct) (distinct' : fs'.Distinct)
    (h : ∀ name, fs'.node? (loc ++ [name]) = fs.node? (loc ++ [name])) :
    fs'.names loc = fs.names loc := by
  refine (pairwise_names distinct' loc).eq_of_mem_iff (pairwise_names distinct loc) fun name => ?_
  rw [mem_names_iff, mem_names_iff, h]

theorem list_eq_ok_iff {listed : List String} :
    fs.list dir = .ok listed ↔
      ∃ loc, fs.find dir = .ok (loc, .directory) ∧ listed = fs.entries loc := by
  rw [list, bind_eq_ok]
  constructor
  · rintro ⟨⟨loc, n⟩, hfind, h⟩
    cases n with
    | directory => exact ⟨loc, hfind, (pure_eq_ok.mp h).symm⟩
    | file content => cases h
  · rintro ⟨loc, hfind, rfl⟩
    exact ⟨_, hfind, rfl⟩

/-! ## Finding by name -/

/-- A name leads from a directory to what it names there. -/
theorem walk_name (hnode : fs.node? loc = some .directory) (hname : Path.IsFileName name) :
    fs.walk loc [name] = .ok (loc ++ [name]) := by
  obtain ⟨⟨-, -, hempty, hdot, hup⟩, -, hshort⟩ := hname
  have hsame : (name.isEmpty || name == ".") = false := by simp [hempty, hdot]
  have hparent : (name == "..") = false := by simpa using hup
  refine walk_cons_eq_ok_iff.mpr ⟨hnode, loc ++ [name], ?_, rfl⟩
  rw [enter?, hsame, hparent, if_neg Bool.false_ne_true, if_neg Bool.false_ne_true,
    if_neg (Nat.not_lt.mpr hshort)]

/-- What stands below a directory is looked for at its name behind the path of the directory,
    if the path does not get too long. -/
theorem locate_join_name (hdir : fs.find dir = .ok (loc, .directory))
    (hname : Path.IsFileName name) :
    fs.locate (Path.join dir name) =
      if maxPath < (Path.join dir name).utf8ByteSize then .error .tooLong
      else .ok (loc ++ [name]) := by
  obtain ⟨hlocate, hnode⟩ := find_eq_ok_iff.mp hdir
  obtain ⟨hnul_dir, hempty_dir, -, hwalk⟩ := locate_eq_ok_iff.mp hlocate
  obtain ⟨⟨hrelative, hpieces, hempty, -⟩, hnul_name, -⟩ := id hname
  have hnul : '\x00' ∉ (Path.join dir name).toList := by
    intro hmem
    rcases Path.mem_toList_join hmem with hbase | hrest | hslash
    · exact hnul_dir hbase
    · exact hnul_name hrest
    · exact absurd hslash (by decide)
  have hne : Path.join dir name ≠ "" := Path.join_ne_empty hempty
  -- the walk goes on from where the path of the directory leads
  have hjoined : fs.walk (fs.start (Path.join dir name)) (Path.pieces (Path.join dir name)) =
      .ok (loc ++ [name]) := by
    obtain ⟨front, hjoin, hfront⟩ := Path.pieces_join hempty_dir hrelative
    rw [start, Path.isAbsolute_join hempty_dir hrelative, ← start, hjoin, hpieces,
      walk_append_eq_ok_iff]
    refine ⟨loc, ?_, walk_name hnode hname⟩
    rcases hfront with hfront | hfront
    · rw [← hfront, hwalk]
    · -- the path ends with a slash, and the empty piece behind it stays where it is
      rw [hfront, walk_append_eq_ok_iff] at hwalk
      obtain ⟨mid, hmid, hend⟩ := hwalk
      obtain ⟨-, next, hnext, hlast⟩ := walk_cons_eq_ok_iff.mp hend
      obtain rfl : mid = next := Option.some.inj hnext
      rw [hmid, ← hlast, walk]
  by_cases hlong : maxPath < (Path.join dir name).utf8ByteSize
  · rw [if_pos hlong, locate, if_neg (by simpa using hnul), if_neg (by simpa using hne),
      if_pos hlong]
  · rw [if_neg hlong]
    exact locate_eq_ok_iff.mpr ⟨hnul, hne, Nat.le_of_not_lt hlong, hjoined⟩

theorem walk_winding (hnode : fs.node? loc = some .directory) (n : Nat) (pieces : List String) :
    fs.walk loc (List.replicate n "." ++ pieces) = fs.walk loc pieces := by
  -- each of the dots stays in the directory
  induction n with
  | zero => rfl
  | succ n ih =>
      rw [List.replicate_succ, List.cons_append, walk, hnode]
      exact ih

/-- A longer spelling of a path leads where the path leads, if it does not get too long. -/
theorem locate_winding {path : String} (hlocate : fs.locate path = .ok loc)
    (hrelative : Path.isAbsolute path = false) {n : Nat}
    (hshort : (Path.winding n path).utf8ByteSize ≤ maxPath) :
    fs.locate (Path.winding n path) = .ok loc := by
  have hstart := node?_start_of_locate hlocate
  obtain ⟨hnul, hempty, -, hwalk⟩ := locate_eq_ok_iff.mp hlocate
  refine locate_eq_ok_iff.mpr ⟨?_, ?_, hshort, ?_⟩
  · intro hmem
    rcases Path.mem_toList_winding hmem with hpath | hstep
    · exact hnul hpath
    · exact absurd hstep (by decide)
  · intro hnone
    have hsize := Path.utf8ByteSize_winding n path
    rw [hnone, String.utf8ByteSize_empty] at hsize
    exact hempty (String.utf8ByteSize_eq_zero_iff.mp (by omega))
  · have hsame : fs.start (Path.winding n path) = fs.start path := by
      rw [start, start, hrelative, Path.isAbsolute_winding hrelative]
    rw [hsame, Path.pieces_winding, walk_winding hstart]
    exact hwalk

end FileSystem
end HpcBlueprint
