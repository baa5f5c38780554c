/-
  Where a path leads by its pieces alone.

  `Path.follow` goes through the pieces of a path without looking at any file: dots are
  dropped, and two dots take back the piece before.  What is found at a path always stands
  there.  `Path.climb` brings the pieces into their normal form, first steps upwards and
  then names, from which one can tell whether a path stays below where it starts.
-/
import HpcBlueprint.Files.Tree
import HpcBlueprint.Proofs.Except

namespace HpcBlueprint

/-! ## Pieces -/

namespace Text

theorem pieces_ne_nil (sep : Char) (cs : List Char) : pieces sep cs ≠ [] := by
  cases cs with
  | nil => simp [pieces]
  | cons c rest =>
      rw [pieces]
      split
      · simp
      · split <;> simp

/-- A text without separators is one piece. -/
theorem pieces_of_not_mem {sep : Char} {cs : List Char} (h : sep ∉ cs) :
    pieces sep cs = [cs] := by
  induction cs with
  | nil => rfl
  | cons c rest ih =>
      rw [List.mem_cons, not_or] at h
      have hne : (c == sep) = false := by simpa using Ne.symm h.1
      rw [pieces, hne, if_neg Bool.false_ne_true, ih h.2]

/-- A separator between two texts separates their pieces. -/
theorem pieces_append (sep : Char) (xs ys : List Char) :
    pieces sep (xs ++ sep :: ys) = pieces sep xs ++ pieces sep ys := by
  induction xs with
  | nil => simp [pieces]
  | cons c rest ih =>
      rw [List.cons_append, pieces, ih, pieces]
      split
      · rfl
      · cases hrest : pieces sep rest with
        | nil => exact absurd hrest (pieces_ne_nil sep rest)
        | cons piece more => rfl

end Text

namespace Path

/-! ## Following pieces -/

/-- Where pieces lead from a location if every name in them leads somewhere. -/
def follow : Location → List String → Location
  | loc, [] => loc
  | loc, piece :: rest =>
    if piece.isEmpty || piece == "." then follow loc rest
    else if piece == ".." then follow loc.dropLast rest
    else follow (loc ++ [piece]) rest

theorem follow_append (loc : Location) (front back : List String) :
    follow loc (front ++ back) = follow (follow loc front) back := by
  induction front generalizing loc with
  | nil => rfl
  | cons piece rest ih =>
      rw [List.cons_append, follow, follow]
      split
      · exact ih loc
      · split
        · exact ih loc.dropLast
        · exact ih (loc ++ [piece])

/-- The normal form of pieces behind a normal form: how many steps lead upwards, and the
    names that follow them. -/
def climbFrom : Nat → List String → List String → Nat × List String
  | ups, names, [] => (ups, names)
  | ups, names, piece :: rest =>
    if piece.isEmpty || piece == "." then climbFrom ups names rest
    else if piece == ".." then
      if names.isEmpty then climbFrom (ups + 1) [] rest else climbFrom ups names.dropLast rest
    else climbFrom ups (names ++ [piece]) rest

/-- The normal form of the pieces of a path. -/
def climb (path : String) : Nat × List String := climbFrom 0 [] (pieces path)

/-- A location seen from another one by steps upwards and names. -/
def seen (loc : Location) (ups : Nat) (names : List String) : Location :=
  loc.take (loc.length - ups) ++ names

theorem dropLast_seen_nil (loc : Location) (ups : Nat) :
    (seen loc ups []).dropLast = seen loc (ups + 1) [] := by
  rw [seen, seen, List.append_nil, List.append_nil, List.dropLast_eq_take, List.length_take,
    List.take_take]
  congr 1
  omega

/-- Following pieces is going to their normal form. -/
theorem follow_seen (loc : Location) (ups : Nat) (names rest : List String) :
    follow (seen loc ups names) rest =
      seen loc (climbFrom ups names rest).1 (climbFrom ups names rest).2 := by
  induction rest generalizing ups names with
  | nil => rfl
  | cons piece rest ih =>
      rw [follow, climbFrom]
      split
      · exact ih ups names
      · split
        · split
          · -- no name to take back: one more step upwards
            rename_i hnames
            rw [List.isEmpty_iff] at hnames
            rw [hnames, dropLast_seen_nil]
            exact ih (ups + 1) []
          · rename_i hnames
            have hne : names ≠ [] := by simpa using hnames
            rw [seen, List.dropLast_append_of_ne_nil hne]
            exact ih ups names.dropLast
        · rw [seen, List.append_assoc]
          exact ih ups (names ++ [piece])

theorem follow_eq_seen (loc : Location) (path : String) :
    follow loc (pieces path) = seen loc (climb path).1 (climb path).2 := by
  have hstart : seen loc 0 [] = loc := by simp [seen]
  rw [← hstart, follow_seen, hstart, climb]

/-- A location lies below another one if what the steps upwards leave is named again. -/
theorem prefix_seen_iff {loc : Location} {ups : Nat} {names : List String} :
    loc <+: seen loc ups names ↔ loc.drop (loc.length - ups) <+: names := by
  have hsplit : loc.take (loc.length - ups) ++ loc.drop (loc.length - ups) <+:
      loc.take (loc.length - ups) ++ names ↔ loc.drop (loc.length - ups) <+: names :=
    List.prefix_append_right_inj _
  rwa [List.take_append_drop] at hsplit

/-- A path that is joined to a base leads to it or below: it begins at the root and leads
    through the base, or it names again whatever its steps upwards leave. -/
def Confined (base : Location) (rest : String) : Prop :=
  (if isAbsolute rest then base else base.drop (base.length - (climb rest).1)) <+: (climb rest).2

theorem climbFrom_of_no_parent {pieces : List String} (h : ".." ∉ pieces) (ups : Nat)
    (names : List String) : (climbFrom ups names pieces).1 = ups := by
  induction pieces generalizing names with
  | nil => rfl
  | cons piece rest ih =>
      rw [List.mem_cons, not_or] at h
      have hup : (piece == "..") = false := by simpa using Ne.symm h.1
      rw [climbFrom, hup, if_neg Bool.false_ne_true]
      split
      · exact ih h.2 names
      · exact ih h.2 (names ++ [piece])

/-- A text that names one thing in a directory. -/
def IsName (name : String) : Prop :=
  isAbsolute name = false ∧ pieces name = [name] ∧ name ≠ "" ∧ name ≠ "." ∧ name ≠ ".."

instance (name : String) : Decidable (IsName name) :=
  inferInstanceAs (Decidable (_ ∧ _ ∧ _ ∧ _ ∧ _))

theorem isAbsolute_iff {path : String} : isAbsolute path = true ↔ path.toList.head? = some '/' := by
  have hslash : "/".toList = ['/'] := by decide
  rw [isAbsolute, Text.startsWith, hslash]
  cases path.toList with
  | nil => simp
  | cons c rest =>
      simp only [List.isPrefixOf_cons_cons, List.isPrefixOf_nil_left, Bool.and_true, beq_iff_eq,
        List.head?_cons, Option.some.injEq]
      exact eq_comm

/-- A text without slashes names something unless it is empty or consists of one or two dots. -/
theorem isName_of_slash_not_mem {name : String} (slash : '/' ∉ name.toList) (empty : name ≠ "")
    (dot : name ≠ ".") (dots : name ≠ "..") : IsName name := by
  refine ⟨?_, ?_, empty, dot, dots⟩
  · rw [Bool.eq_false_iff, ne_eq, isAbsolute_iff]
    intro h
    exact slash (List.mem_of_mem_head? h)
  · rw [pieces, Text.splitAll, Text.pieces_of_not_mem slash, List.map_singleton,
      String.ofList_toList]

/-- A text without slashes that begins with no dot names something. -/
theorem isName_of_not_mem {name : String} (slash : '/' ∉ name.toList) (empty : name ≠ "")
    (dot : name.toList.head? ≠ some '.') : IsName name := by
  refine isName_of_slash_not_mem slash empty ?_ ?_
  · rintro rfl
    exact dot rfl
  · rintro rfl
    exact dot rfl

/-- The name of something leads to it from where it is. -/
theorem follow_name {name : String} (hname : IsName name) (loc : Location) :
    follow loc [name] = loc ++ [name] := by
  obtain ⟨-, -, hempty, hdot, hup⟩ := hname
  have hsame : (name.isEmpty || name == ".") = false := by simp [hempty, hdot]
  have hparent : (name == "..") = false := by simpa using hup
  rw [follow, hsame, hparent]
  rfl

/-! ## Joining -/

/-- Only the beginning of a path decides where it starts. -/
theorem isAbsolute_append {base : String} (hne : base ≠ "") (rest : String) :
    isAbsolute (base ++ rest) = isAbsolute base := by
  obtain ⟨c, cs, hcons⟩ := List.exists_cons_of_ne_nil fun h => hne (String.toList_eq_nil_iff.mp h)
  rw [Bool.eq_iff_iff, isAbsolute_iff, isAbsolute_iff, String.toList_append, hcons]
  rfl

theorem isAbsolute_join {base rest : String} (hbase : base ≠ "")
    (hrest : isAbsolute rest = false) : isAbsolute (join base rest) = isAbsolute base := by
  rw [join, hrest, if_neg Bool.false_ne_true]
  split
  · exact isAbsolute_append hbase rest
  · rw [String.append_assoc]
    exact isAbsolute_append hbase ("/" ++ rest)

theorem pieces_append_slash (front back : List Char) :
    (Text.pieces '/' (front ++ '/' :: back)).map String.ofList =
      pieces (String.ofList front) ++ pieces (String.ofList back) := by
  rw [Text.pieces_append, List.map_append, pieces, pieces, Text.splitAll, Text.splitAll,
    String.toList_ofList, String.toList_ofList]

/-- The pieces of a joined path are those of its parts, less the empty piece that a slash at
    the end of the first part leaves. -/
theorem pieces_join {base rest : String} (hbase : base ≠ "")
    (hrest : isAbsolute rest = false) :
    ∃ front, pieces (join base rest) = front ++ pieces rest ∧
      (pieces base = front ∨ pieces base = front ++ [""]) := by
  have hslash : "/".toList = ['/'] := by decide
  have hempty : base.isEmpty = false := String.isEmpty_eq_false_iff.mpr hbase
  rw [join, hrest, hempty, Bool.false_or, if_neg Bool.false_ne_true]
  by_cases hend : Text.endsWith "/" base = true
  · obtain ⟨front, hfront⟩ := List.isSuffixOf_iff_suffix.mp hend
    rw [hslash] at hfront
    refine ⟨pieces (String.ofList front), ?_, .inr ?_⟩
    · rw [if_pos hend, pieces, Text.splitAll, String.toList_append, ← hfront, List.append_assoc,
        List.singleton_append, pieces_append_slash, String.ofList_toList]
    · rw [pieces, Text.splitAll, ← hfront, pieces_append_slash]
      rfl
  · refine ⟨pieces base, ?_, .inl rfl⟩
    rw [if_neg hend, pieces, Text.splitAll, String.toList_append, String.toList_append, hslash,
      List.append_assoc, List.singleton_append, pieces_append_slash, String.ofList_toList,
      String.ofList_toList]

/-- A joined path leads where its second part leads from where the first one does. -/
theorem follow_pieces_join {base rest : String} (hbase : base ≠ "")
    (hrest : isAbsolute rest = false) (loc : Location) :
    follow loc (pieces (join base rest)) = follow (follow loc (pieces base)) (pieces rest) := by
  obtain ⟨front, hjoin, hbase | hbase⟩ := pieces_join hbase hrest
  · rw [hjoin, hbase, follow_append]
  · rw [hjoin, hbase, follow_append, follow_append]
    rfl

end Path

namespace FileSystem

variable {fs : FileSystem}

/-- Where a path leads by its pieces alone. -/
def lexical (fs : FileSystem) (path : String) : Location :=
  Path.follow (fs.start path) (Path.pieces path)

/-- Where a piece leads from a directory, unless it is too long for a name. -/
def enter? (loc : Location) (piece : String) : Option Location :=
  if piece.isEmpty || piece == "." then some loc
  else if piece == ".." then some loc.dropLast
  else if maxName < piece.utf8ByteSize then none
  else some (loc ++ [piece])

/-- A walk passes a directory with every piece. -/
theorem walk_cons_eq_ok_iff {loc found : Location} {piece : String} {rest : List String} :
    fs.walk loc (piece :: rest) = .ok found ↔ fs.node? loc = some .directory ∧
      ∃ next, enter? loc piece = some next ∧ fs.walk next rest = .ok found := by
  rw [walk]
  cases hnode : fs.node? loc with
  | none => simp
  | some n =>
      cases n with
      | file content => simp
      | directory =>
          rw [enter?]
          dsimp only
          split
          · simp
          · split
            · simp
            · split <;> simp

theorem follow_of_enter? {loc next : Location} {piece : String}
    (h : enter? loc piece = some next) (rest : List String) :
    Path.follow loc (piece :: rest) = Path.follow next rest := by
  rw [enter?] at h
  rw [Path.follow]
  split at h
  · rename_i hsame
    rw [if_pos hsame, Option.some.inj h]
  · rename_i hsame
    rw [if_neg hsame]
    split at h
    · rename_i hup
      rw [if_pos hup, Option.some.inj h]
    · rename_i hup
      rw [if_neg hup]
      split at h
      · cases h
      · rw [Option.some.inj h]

/-- Walking does not leave the way that the pieces describe. -/
theorem walk_eq_ok {loc found : Location} {pieces : List String}
    (h : fs.walk loc pieces = .ok found) : found = Path.follow loc pieces := by
  induction pieces generalizing loc with
  | nil =>
      rw [walk, Except.ok.injEq] at h
      exact h.symm
  | cons piece rest ih =>
      obtain ⟨-, next, hnext, hrest⟩ := walk_cons_eq_ok_iff.mp h
      rw [follow_of_enter? hnext]
      exact ih hrest

/-- What is found at a path stands where its pieces lead. -/
theorem locate_eq_ok {path : String} {loc : Location} (h : fs.locate path = .ok loc) :
    loc = fs.lexical path := by
  unfold locate at h
  split at h
  · cases h
  · split at h
    · cases h
    · split at h
      · cases h
      · exact walk_eq_ok h

theorem find_eq_ok {path : String} {loc : Location} {n : FileNode}
    (h : fs.find path = .ok (loc, n)) : loc = fs.lexical path := by
  rw [find, bind_eq_ok] at h
  obtain ⟨found, hlocate, h⟩ := h
  split at h
  · rw [pure_eq_ok, Prod.mk.injEq] at h
    rw [← h.1]
    exact locate_eq_ok hlocate
  · cases h

/-- Where a joined path leads. -/
theorem lexical_join (fs : FileSystem) (base rest : String) :
    fs.lexical (Path.join base rest) =
      if Path.isAbsolute rest then Path.follow [] (Path.pieces rest)
      else Path.follow (fs.lexical base) (Path.pieces rest) := by
  cases hrest : Path.isAbsolute rest with
  | true => rw [Path.join, hrest, if_pos rfl, if_pos rfl, lexical, start, hrest, if_pos rfl]
  | false =>
      rw [if_neg Bool.false_ne_true]
      by_cases hbase : base = ""
      · -- an empty base adds no slash: both paths begin at the working directory
        subst hbase
        have hjoin : Path.join "" rest = rest := by
          rw [Path.join, hrest, if_neg Bool.false_ne_true]
          exact String.empty_append
        rw [hjoin, lexical, start, hrest]
        rfl
      · rw [lexical, Path.follow_pieces_join hbase hrest, lexical, start, start,
          Path.isAbsolute_join hbase hrest]

/-- A path joined with the name of something leads to it below the path. -/
theorem lexical_join_name {name : String} (hname : Path.IsName name) (base : String) :
    fs.lexical (Path.join base name) = fs.lexical base ++ [name] := by
  rw [lexical_join, hname.1, if_neg Bool.false_ne_true, hname.2.1, Path.follow_name hname]

/-- A joined path leads to its base or below exactly if its second part is confined. -/
theorem prefix_lexical_join_iff {base rest : String} :
    fs.lexical base <+: fs.lexical (Path.join base rest) ↔
      Path.Confined (fs.lexical base) rest := by
  rw [lexical_join, Path.Confined]
  split
  · rw [Path.follow_eq_seen]
    simp [Path.seen]
  · rw [Path.follow_eq_seen]
    exact Path.prefix_seen_iff

end FileSystem
end HpcBlueprint
