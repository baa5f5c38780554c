/-
  What is read in the directory of a module.

  The configuration files of a module are read in the order of their names, and what they
  declare is put in a row (`Describes`).  Reading ends early only at a file that has a fault,
  and a directory is read whatever the order of what stands in it.  A configuration file is
  passed over if its path is too long (`reached`), so of all declarations none is lost exactly
  if no path is (`readsAll_iff`).
-/
import HpcBlueprint.Proofs.Files.Agreement
import HpcBlueprint.Proofs.Files.Names
import HpcBlueprint.Proofs.Schema.Declaration
import HpcBlueprint.Schema.Directory

namespace HpcBlueprint

open FileSystem

variable {fs fs' : FileSystem} {kind : ModuleKind} {loc : Location} {dir file name : String}
  {s s' : Schema}

namespace Schema

/-! ## Files -/

/-- Why a configuration file is not taken. -/
inductive Faulty (fs : FileSystem) (kind : ModuleKind) (file : String) : Prop
  | unreadable {e : FileError} (fails : fs.read file = .error e)
  | malformed {text : String} (reads : fs.read file = .ok text)
      (fails : Hcl.ofText? text = none)
  | unnamed {text : String} {body : Hcl.Body} {b : Hcl.Block} (reads : fs.read file = .ok text)
      (parses : Hcl.ofText? text = some body) (mem : b ∈ body.blocks) (fails : b.Unnamed kind)

/-- What a configuration file holds. -/
def Holds (fs : FileSystem) (file : String) (body : Hcl.Body) : Prop :=
  ∃ text, fs.read file = .ok text ∧ Hcl.ofText? text = some body

theorem lists_of_withFile (h : s.withFile fs kind file = .ok s') :
    ∃ body inputs outputs, Holds fs file body ∧ Lists kind body.blocks inputs outputs ∧
      s' = s.extended inputs outputs := by
  rw [withFile, bind_eq_ok] at h
  obtain ⟨text, hread, h⟩ := h
  rw [mapError_eq_ok] at hread
  split at h
  · cases h
  · rename_i body hbody
    rw [mapError_eq_ok] at h
    obtain ⟨inputs, outputs, hlists, hs⟩ := lists_of_withBlocks h
    exact ⟨body, inputs, outputs, ⟨text, hread, hbody⟩, hlists, hs⟩

/-- A file that is not taken has a fault, and the error is about it. -/
theorem faulty_of_withFile {e : Error} (h : s.withFile fs kind file = .error e) :
    Faulty fs kind file ∧ ∃ p, e = problem file p := by
  unfold withFile at h
  cases hread : fs.read file with
  | error e' =>
      rw [hread] at h
      exact ⟨.unreadable hread, .unreadable e', (Except.error.inj h).symm⟩
  | ok text =>
      rw [hread] at h
      cases hbody : Hcl.ofText? text with
      | none =>
          refine ⟨.malformed hread hbody, .malformed, Eq.symm ?_⟩
          simpa [bind, Except.bind, Except.mapError, hbody] using h
      | some body =>
          have hblocks : (s.withBlocks kind body.blocks).mapError
              (fun e => problem file (.unnamed e.block)) = .error e := by
            simpa [bind, Except.bind, Except.mapError, hbody] using h
          obtain ⟨u, hu, he⟩ := mapError_eq_error.mp hblocks
          obtain ⟨b, hb, hunnamed⟩ := exists_withBlocks_eq_error_iff.mp ⟨u, hu⟩
          exact ⟨.unnamed hread hbody hb hunnamed, .unnamed u.block, he.symm⟩

theorem exists_withFile_eq_error_iff :
    (∃ e, s.withFile fs kind file = .error e) ↔ Faulty fs kind file := by
  constructor
  · rintro ⟨e, h⟩
    exact (faulty_of_withFile h).1
  · intro h
    unfold withFile
    cases h with
    | unreadable fails => exact ⟨_, by rw [fails]; rfl⟩
    | malformed reads fails =>
        refine ⟨problem file .malformed, ?_⟩
        rw [reads]
        simp [bind, Except.bind, Except.mapError, fails]
    | unnamed reads parses mem fails =>
        obtain ⟨u, hu⟩ := (exists_withBlocks_eq_error_iff (s := s)).mpr ⟨_, mem, fails⟩
        refine ⟨problem file (.unnamed u.block), ?_⟩
        rw [reads]
        simp [bind, Except.bind, Except.mapError, parses, hu]

/-- A schema lists what files declare, file by file. -/
def Describes (fs : FileSystem) (kind : ModuleKind) (files : List String) (s : Schema) : Prop :=
  ∃ bodies, List.Forall₂ (Holds fs) files bodies ∧
    Lists kind (bodies.flatMap (·.blocks)) s.inputs s.outputs

/-- Files that are taken add what they declare, in their order. -/
theorem lists_of_withFiles {files : List String} (h : s.withFiles fs kind files = .ok s') :
    ∃ bodies inputs outputs, List.Forall₂ (Holds fs) files bodies ∧
      Lists kind (bodies.flatMap (·.blocks)) inputs outputs ∧ s' = s.extended inputs outputs := by
  induction files generalizing s with
  | nil =>
      refine ⟨[], [], [], .nil, .nil, ?_⟩
      rw [withFiles, Except.ok.injEq] at h
      rw [← h]
      simp [extended]
  | cons file rest ih =>
      rw [withFiles, exceptBind_eq_ok] at h
      obtain ⟨mid, hfirst, hrest⟩ := h
      obtain ⟨body, inputs, outputs, hbody, hlists, rfl⟩ := lists_of_withFile hfirst
      -- the rest is taken on top of what the first file has added
      obtain ⟨bodies, inputs', outputs', hbodies, hlists', rfl⟩ := ih hrest
      refine ⟨body :: bodies, inputs ++ inputs', outputs ++ outputs', .cons hbody hbodies,
        ?_, extended_extended s inputs inputs' outputs outputs'⟩
      rw [List.flatMap_cons]
      exact hlists.append hlists'

/-- Files cannot be taken exactly if one of them has a fault. -/
theorem exists_withFiles_eq_error_iff {files : List String} :
    (∃ e, s.withFiles fs kind files = .error e) ↔ ∃ file ∈ files, Faulty fs kind file := by
  induction files generalizing s with
  | nil => simp [withFiles]
  | cons file rest ih =>
      simp only [withFiles, exceptBind_eq_error, List.exists_mem_cons_iff]
      rw [← exists_withFile_eq_error_iff (s := s)]
      cases hfirst : s.withFile fs kind file with
      | error e => simp
      | ok mid =>
          rw [← ih (s := mid)]
          simp

/-! ## Directories -/

/-- The names of the configuration files at a location, in order. -/
def configuration (fs : FileSystem) (kind : ModuleKind) (loc : Location) : List String :=
  (fs.names loc).filter fun name =>
    Text.endsWith kind.suffix name && (fs.file? (loc ++ [name])).isSome

/-- They are those of the files there that end as names of their kind do. -/
theorem mem_configuration_iff :
    name ∈ configuration fs kind loc ↔
      Text.endsWith kind.suffix name = true ∧ (fs.file? (loc ++ [name])).isSome = true := by
  rw [configuration, List.mem_filter, Bool.and_eq_true, mem_names_iff, and_iff_right_iff_imp]
  rintro ⟨-, hfile⟩ hnone
  rw [file?, hnone] at hfile
  cases hfile

theorem pairwise_configuration (distinct : fs.Distinct) (kind : ModuleKind) (loc : Location) :
    (configuration fs kind loc).Pairwise (· < ·) :=
  (pairwise_names distinct loc).filter _

/-- The paths of the configuration files in a directory. -/
def configurationFiles (fs : FileSystem) (kind : ModuleKind) (dir : String) : List String :=
  (configuration fs kind (fs.lexical dir)).map (Path.join dir)

/-- The configuration files in a directory with paths that are not too long. -/
def reached (fs : FileSystem) (kind : ModuleKind) (dir : String) : List String :=
  (configurationFiles fs kind dir).filter (·.utf8ByteSize ≤ maxPath)

/-- A file in a directory is seen as one if its path is not too long. -/
theorem isFile_join_name (hdir : fs.find dir = .ok (loc, .directory))
    (hname : Path.IsFileName name) :
    fs.isFile (Path.join dir name) =
      (decide ((Path.join dir name).utf8ByteSize ≤ maxPath) &&
        (fs.file? (loc ++ [name])).isSome) := by
  have hlocate := locate_join_name hdir hname
  rw [Bool.eq_iff_iff, isFile_eq_true_iff, Bool.and_eq_true, decide_eq_true_eq,
    Option.isSome_iff_exists]
  split at hlocate
  · rename_i hlong
    simp [hlocate, Nat.not_le.mpr hlong]
  · rename_i hshort
    simp [hlocate, Nat.le_of_not_lt hshort]

theorem files_eq_ok (proper : fs.Proper) (hdir : fs.find dir = .ok (loc, .directory)) :
    files fs kind dir = .ok (reached fs kind dir) := by
  have hlist : fs.list dir = .ok (fs.entries loc) := list_eq_ok_iff.mpr ⟨loc, hdir, rfl⟩
  rw [files, hlist]
  change Except.ok _ = _
  rw [Except.ok.injEq, mergeSort_filter_entries, reached, configurationFiles, configuration,
    ← find_eq_ok hdir, List.filter_map, List.filter_map, List.filter_filter, List.filter_filter]
  congr 1
  -- both sides keep the names with the suffix that are names of files on paths not too long
  refine List.filter_congr fun name hname => ?_
  rw [Function.comp, Function.comp,
    isFile_join_name hdir (proper.isFileName (mem_names_iff.mp hname)), Bool.and_assoc,
    Bool.and_comm (Text.endsWith kind.suffix name)]

theorem declared_eq (proper : fs.Proper) (hdir : fs.find dir = .ok (loc, .directory)) :
    declared fs kind dir =
      if reached fs kind dir = [] then .error (problem dir (.noFiles kind.suffix))
      else empty.withFiles fs kind (reached fs kind dir) := by
  rw [declared, files_eq_ok proper hdir]
  cases reached fs kind dir with
  | nil => rfl
  | cons file rest => rfl

theorem exists_declared_eq_error_of_list {e : FileError} (kind : ModuleKind)
    (h : fs.list dir = .error e) : ∃ e', declared fs kind dir = .error e' := by
  refine ⟨problem dir (.unlistable e), ?_⟩
  rw [declared, files, h]
  rfl

/-- A directory cannot be read exactly if it cannot be listed, has no configuration file that
    is reached, or one with a fault. -/
theorem exists_declared_eq_error_iff (proper : fs.Proper) :
    (∃ e, declared fs kind dir = .error e) ↔ (∃ e, fs.list dir = .error e) ∨
      reached fs kind dir = [] ∨ ∃ file ∈ reached fs kind dir, Faulty fs kind file := by
  cases hlist : fs.list dir with
  | error e =>
      have hfails := exists_declared_eq_error_of_list kind hlist
      simp [hfails]
  | ok ns =>
      obtain ⟨loc, hdir, -⟩ := list_eq_ok_iff.mp hlist
      rw [declared_eq proper hdir, ← exists_withFiles_eq_error_iff (s := empty)]
      by_cases hnone : reached fs kind dir = []
      · simp [hnone]
      · simp [hnone]

/-- What is read is what the configuration files declare that are reached. -/
theorem describes_of_declared (proper : fs.Proper) (h : declared fs kind dir = .ok s) :
    Describes fs kind (reached fs kind dir) s := by
  cases hlist : fs.list dir with
  | error e =>
      obtain ⟨e', he'⟩ := exists_declared_eq_error_of_list kind hlist
      rw [he'] at h
      cases h
  | ok ns =>
      obtain ⟨loc, hdir, -⟩ := list_eq_ok_iff.mp hlist
      rw [declared_eq proper hdir] at h
      split at h
      · cases h
      · obtain ⟨bodies, inputs, outputs, hbodies, hlists, rfl⟩ := lists_of_withFiles h
        exact ⟨bodies, hbodies, hlists⟩

/-! ## Errors -/

theorem exists_problem_of_withFiles {files : List String} {e : Error}
    (h : s.withFiles fs kind files = .error e) : ∃ path p, e = problem path p := by
  induction files generalizing s with
  | nil => cases h
  | cons file rest ih =>
      rw [withFiles, exceptBind_eq_error] at h
      rcases h with hfirst | ⟨mid, -, hrest⟩
      · exact ⟨file, (faulty_of_withFile hfirst).2⟩
      · exact ih hrest

/-- Whatever is wrong with a module, the error is about one of its files or its directory. -/
theorem exists_problem_of_ofDirectory {e : Error} (h : ofDirectory fs kind dir = .error e) :
    ∃ path p, e = problem path p := by
  have hdeclared : declared fs kind dir = .error e := by
    rw [ofDirectory] at h
    cases hdeclared : declared fs kind dir with
    | error e' =>
        rw [hdeclared] at h
        exact congrArg _ (Except.error.inj h)
    | ok s =>
        rw [hdeclared] at h
        cases h
  -- the directory cannot be listed, has no file of the kind, or one of its files is at fault
  rw [declared] at hdeclared
  cases hfiles : files fs kind dir with
  | error e' =>
      rw [hfiles] at hdeclared
      rw [files] at hfiles
      cases hlist : fs.list dir with
      | error e'' =>
          rw [hlist] at hfiles
          refine ⟨dir, .unlistable e'', ?_⟩
          rw [← Except.error.inj hdeclared, ← Except.error.inj hfiles]
      | ok names =>
          rw [hlist] at hfiles
          cases hfiles
  | ok found =>
      rw [hfiles] at hdeclared
      cases found with
      | nil => exact ⟨dir, .noFiles kind.suffix, (Except.error.inj hdeclared).symm⟩
      | cons file rest => exact exists_problem_of_withFiles hdeclared

/-! ## Other trees -/

theorem withFiles_congr {files : List String} (h : ∀ file ∈ files, fs'.read file = fs.read file)
    (s : Schema) : s.withFiles fs' kind files = s.withFiles fs kind files := by
  induction files generalizing s with
  | nil => rfl
  | cons file rest ih =>
      obtain ⟨hfile, hrest⟩ := List.forall_mem_cons.mp h
      rw [withFiles, withFiles, withFile, withFile, hfile]
      congr 1
      funext mid
      exact ih hrest mid

/-- The names in a directory that end as names of a kind do, sorted. -/
def suffixed (fs : FileSystem) (kind : ModuleKind) (dir : String) :
    Except FileError (List String) :=
  (fs.list dir).map fun listed =>
    (listed.filter (Text.endsWith kind.suffix)).mergeSort fun a b => decide (a ≤ b)

theorem suffixed_eq_ok_iff {names : List String} :
    suffixed fs kind dir = .ok names ↔ ∃ loc, fs.find dir = .ok (loc, .directory) ∧
      names = (fs.names loc).filter (Text.endsWith kind.suffix) := by
  simp only [suffixed, map_eq_ok, list_eq_ok_iff]
  constructor
  · rintro ⟨-, ⟨loc, hdir, rfl⟩, rfl⟩
    exact ⟨loc, hdir, mergeSort_filter_entries fs loc _⟩
  · rintro ⟨loc, hdir, rfl⟩
    exact ⟨_, ⟨loc, hdir, rfl⟩, mergeSort_filter_entries fs loc _⟩

theorem suffixed_congr (hfind : fs'.find dir = fs.find dir)
    (hnames : ∀ loc, (fs'.names loc).filter (Text.endsWith kind.suffix) =
      (fs.names loc).filter (Text.endsWith kind.suffix)) :
    suffixed fs' kind dir = suffixed fs kind dir := by
  rw [suffixed, suffixed, list, list, hfind]
  cases fs.find dir with
  | error e => rfl
  | ok found =>
      obtain ⟨loc, n⟩ := found
      cases n with
      | file content => rfl
      | directory =>
          have hsorted := (mergeSort_filter_entries fs' loc _).trans (hnames loc)
          exact congrArg Except.ok (hsorted.trans (mergeSort_filter_entries fs loc _).symm)

theorem files_eq (fs : FileSystem) (kind : ModuleKind) (dir : String) :
    files fs kind dir =
      ((suffixed fs kind dir).mapError fun e => problem dir (.unlistable e)).map
        fun names => (names.map (Path.join dir)).filter fs.isFile := by
  rw [files, suffixed]
  cases fs.list dir <;> rfl

theorem exists_name_of_mem_files (proper : fs.Proper) {found : List String}
    (h : files fs kind dir = .ok found) (hfile : file ∈ found) :
    ∃ name, Text.endsWith kind.suffix name = true ∧ Path.IsFileName name ∧
      file = Path.join dir name := by
  rw [files_eq, map_eq_ok] at h
  obtain ⟨names, hnames, rfl⟩ := h
  rw [mapError_eq_ok, suffixed_eq_ok_iff] at hnames
  obtain ⟨loc, -, rfl⟩ := hnames
  obtain ⟨name, hname, rfl⟩ := List.mem_map.mp (List.mem_filter.mp hfile).1
  obtain ⟨hlisted, hsuffix⟩ := List.mem_filter.mp hname
  exact ⟨name, hsuffix, proper.isFileName (mem_names_iff.mp hlisted), rfl⟩

/-- What is read in a directory depends on nothing but the names there that end as names of the
    kind do, and on the files with these names. -/
theorem declared_congr (proper : fs.Proper)
    (hnames : suffixed fs' kind dir = suffixed fs kind dir)
    (hfiles : ∀ name, Text.endsWith kind.suffix name = true → Path.IsFileName name →
      AgreeAlong Eq (Path.join dir name) fs fs') :
    declared fs' kind dir = declared fs kind dir := by
  -- first the same files are found, then the same is read in them
  have hfound : files fs' kind dir = files fs kind dir := by
    rw [files_eq, files_eq, hnames]
    cases hsuffixed : suffixed fs kind dir with
    | error e => rfl
    | ok names =>
        obtain ⟨loc, -, rfl⟩ := suffixed_eq_ok_iff.mp hsuffixed
        change Except.ok _ = Except.ok _
        congr 1
        refine List.filter_congr fun file hfile => ?_
        obtain ⟨name, hname, rfl⟩ := List.mem_map.mp hfile
        obtain ⟨hlisted, hsuffix⟩ := List.mem_filter.mp hname
        exact (hfiles name hsuffix (proper.isFileName (mem_names_iff.mp hlisted))).isFile
  rw [declared, declared, hfound]
  cases hfiles_eq : files fs kind dir with
  | error e => rfl
  | ok found =>
      have hread : ∀ file ∈ found, fs'.read file = fs.read file := by
        intro file hfile
        obtain ⟨name, hsuffix, hname, rfl⟩ := exists_name_of_mem_files proper hfiles_eq hfile
        exact (hfiles name hsuffix hname).read
      cases found with
      | nil => rfl
      | cons file rest => exact withFiles_congr hread empty

/-- The order in which a system lists what stands in a tree does not matter. -/
theorem declared_of_perm (proper : fs.Proper) (h : fs'.nodes.Perm fs.nodes)
    (hworkingDir : fs'.workingDir = fs.workingDir) (kind : ModuleKind) (dir : String) :
    declared fs' kind dir = declared fs kind dir := by
  -- the order of the nodes is not seen by looking anything up, and what is listed is sorted
  have hnode := node?_of_perm proper.distinct h
  have distinct' : fs'.Distinct := ((h.map _).nodup_iff).mpr proper.distinct
  have hagree : ∀ path, AgreeAlong Eq path fs fs' := fun path =>
    ⟨hworkingDir, fun _ _ => alike_eq_iff.mpr (hnode _).symm⟩
  refine declared_congr proper ?_ fun name _ _ => hagree _
  refine suffixed_congr (hagree dir).find fun loc => ?_
  rw [names_congr proper.distinct distinct' fun name => hnode _]

/-! ## All declarations -/

/-- The module in a directory is read as a whole: either all its configuration files are taken,
    or there is none, or one of them has a fault. -/
structure ReadsAll (fs : FileSystem) (kind : ModuleKind) (dir : String) : Prop where
  error_iff : (∃ e, declared fs kind dir = .error e) ↔ (∃ e, fs.list dir = .error e) ∨
    configurationFiles fs kind dir = [] ∨ ∃ file ∈ configurationFiles fs kind dir,
      Faulty fs kind file
  describes : ∀ s, declared fs kind dir = .ok s →
    Describes fs kind (configurationFiles fs kind dir) s

theorem faulty_of_long (proper : fs.Proper) (hdir : fs.find dir = .ok (loc, .directory))
    (hfile : file ∈ configurationFiles fs kind dir) (hlong : ¬ file.utf8ByteSize ≤ maxPath) :
    Faulty fs kind file := by
  obtain ⟨name, hname, rfl⟩ := List.mem_map.mp hfile
  rw [← find_eq_ok hdir] at hname
  have hlisted := mem_names_iff.mp (List.mem_filter.mp hname).1
  have hlocate := locate_join_name hdir (proper.isFileName hlisted)
  rw [if_pos (Nat.lt_of_not_le hlong)] at hlocate
  have hread : fs.read (Path.join dir name) = .error .tooLong := by
    rw [FileSystem.read, find, hlocate]
    rfl
  exact .unreadable hread

/-- A module is read as a whole if its configuration files are reached. -/
theorem readsAll_of_reached (proper : fs.Proper)
    (h : ∀ file ∈ configurationFiles fs kind dir, file.utf8ByteSize ≤ maxPath) :
    ReadsAll fs kind dir := by
  have hall : reached fs kind dir = configurationFiles fs kind dir :=
    List.filter_eq_self.mpr fun file hfile => decide_eq_true (h file hfile)
  constructor
  · rw [exists_declared_eq_error_iff proper, hall]
  · intro s hs
    rw [← hall]
    exact describes_of_declared proper hs

/-- A module that cannot be read has a fault, or no configuration file. -/
theorem readsAll_of_error (proper : fs.Proper) {e : Error}
    (h : declared fs kind dir = .error e) : ReadsAll fs kind dir := by
  refine ⟨⟨fun _ => ?_, fun _ => ⟨e, h⟩⟩, fun s hs => absurd (h.symm.trans hs) (by simp)⟩
  rcases (exists_declared_eq_error_iff proper).mp ⟨e, h⟩ with hlist | hnone | ⟨file, hfile, hfaulty⟩
  · exact .inl hlist
  · cases hlist : fs.list dir with
    | error e' => exact .inl ⟨e', rfl⟩
    | ok names =>
        obtain ⟨loc, hdir, -⟩ := list_eq_ok_iff.mp hlist
        -- whatever is not reached has a fault
        cases hfiles : configurationFiles fs kind dir with
        | nil => exact .inr (.inl rfl)
        | cons file rest =>
            have hmem : file ∈ configurationFiles fs kind dir := hfiles ▸ List.mem_cons_self
            refine .inr (.inr ⟨file, List.mem_cons_self, faulty_of_long proper hdir hmem ?_⟩)
            intro hshort
            have hreached : file ∈ reached fs kind dir :=
              List.mem_filter.mpr ⟨hmem, decide_eq_true hshort⟩
            rw [hnone] at hreached
            cases hreached
  · exact .inr (.inr ⟨file, (List.mem_filter.mp hfile).1, hfaulty⟩)

/-- A module that is read although one of its configuration files is not reached is not read as
    a whole. -/
theorem not_readsAll_of_long (proper : fs.Proper) (h : declared fs kind dir = .ok s)
    (hfile : file ∈ configurationFiles fs kind dir) (hlong : ¬ file.utf8ByteSize ≤ maxPath) :
    ¬ ReadsAll fs kind dir := by
  intro hall
  cases hlist : fs.list dir with
  | error e =>
      obtain ⟨e', he'⟩ := exists_declared_eq_error_of_list kind hlist
      rw [he'] at h
      cases h
  | ok names =>
      obtain ⟨loc, hdir, -⟩ := list_eq_ok_iff.mp hlist
      obtain ⟨e, he⟩ := hall.error_iff.mpr
        (.inr (.inr ⟨file, hfile, faulty_of_long proper hdir hfile hlong⟩))
      rw [he] at h
      cases h

/-- Reading a module comes to the same however its directory is listed.  The configuration files
    are all files there that end as names of their kind do, each once and in the order of their
    names.  Reading fails exactly if the directory cannot be listed, has no configuration file
    that is reached, or one with a fault, and it comes to exactly what these files declare, name
    by name and block by block.  So either it fails, or the module is read as a whole exactly if
    each of its configuration files is reached.

    The names in a tree are texts: it holds no name that is not UTF-8, and a directory in it that
    can be listed is listed to its end. -/
theorem readsAll_iff (proper : fs.Proper) (kind : ModuleKind) (dir : String) :
    (∀ fs' : FileSystem, fs'.nodes.Perm fs.nodes → fs'.workingDir = fs.workingDir →
      declared fs' kind dir = declared fs kind dir) ∧
    ((configuration fs kind (fs.lexical dir)).Pairwise (· < ·) ∧
      ∀ name, name ∈ configuration fs kind (fs.lexical dir) ↔
        Text.endsWith kind.suffix name = true ∧
          (fs.file? (fs.lexical dir ++ [name])).isSome = true) ∧
    ((∃ e, declared fs kind dir = .error e) ↔ (∃ e, fs.list dir = .error e) ∨
      reached fs kind dir = [] ∨ ∃ file ∈ reached fs kind dir, Faulty fs kind file) ∧
    (∀ s, declared fs kind dir = .ok s → Describes fs kind (reached fs kind dir) s ∧
      (kind = .packer → s.outputs = [])) ∧
    (ReadsAll fs kind dir ↔ (∃ e, declared fs kind dir = .error e) ∨
      ∀ file ∈ configurationFiles fs kind dir, file.utf8ByteSize ≤ maxPath) := by
  refine ⟨fun fs' hperm hworkingDir => declared_of_perm proper hperm hworkingDir kind dir,
    ⟨pairwise_configuration proper.distinct kind _, fun name => mem_configuration_iff⟩,
    exists_declared_eq_error_iff proper, fun s hs => ?_, ?_⟩
  · have hdescribes := describes_of_declared proper hs
    refine ⟨hdescribes, ?_⟩
    rintro rfl
    obtain ⟨bodies, -, hlists⟩ := hdescribes
    exact hlists.outputs_eq_nil
  · constructor
    · intro hall
      cases hdeclared : declared fs kind dir with
      | error e => exact .inl ⟨e, rfl⟩
      | ok s =>
          refine .inr fun file hfile => ?_
          by_contra hlong
          exact not_readsAll_of_long proper hdeclared hfile hlong hall
    · rintro (⟨e, he⟩ | hreached)
      · exact readsAll_of_error proper he
      · exact readsAll_of_reached proper hreached

/-! ## A path that is too long for one of two files -/

/-- A module of two files. -/
def twoFiles : FileSystem where
  nodes := [
    (["m"], .directory),
    (["m", "a.tf"], .file (.text "variable \"kept\" \x7b\x7d\n")),
    (["m", "main.tf"], .file (.text "variable \"lost\" \x7b\x7d\n"))]
  workingDir := []

/-- The module's directory, in so many bytes that the shorter name fits behind it and the longer
    one does not. -/
def farDir : String := Path.winding 2044 "m"

theorem proper_twoFiles : twoFiles.Proper := ⟨by decide, by decide⟩

theorem find_farDir : twoFiles.find farDir = .ok (["m"], .directory) := by
  have hnear : twoFiles.locate "m" = .ok ["m"] := by decide
  have hsize := Path.utf8ByteSize_winding 2044 "m"
  have hone : "m".utf8ByteSize = 1 := by decide
  have hlocate : twoFiles.locate farDir = .ok ["m"] :=
    locate_winding hnear (by decide) (by rw [hsize, hone]; decide)
  exact find_eq_ok_iff.mpr ⟨hlocate, by decide⟩

theorem mem_configuration_twoFiles :
    name ∈ configuration twoFiles .terraform ["m"] ↔ name = "a.tf" ∨ name = "main.tf" := by
  rw [mem_configuration_iff]
  constructor
  · rintro ⟨-, hfile⟩
    obtain ⟨content, hcontent⟩ := Option.isSome_iff_exists.mp hfile
    have hne : twoFiles.node? (["m"] ++ [name]) ≠ none := by
      rw [file?_eq_some_iff.mp hcontent]
      simp
    obtain ⟨n, hn⟩ := mem_nodes_of_node?_ne_none (by simp) hne
    simp only [twoFiles, List.mem_cons, Prod.mk.injEq, List.not_mem_nil, or_false] at hn
    rcases hn with ⟨h, -⟩ | ⟨h, -⟩ | ⟨h, -⟩
    · cases h
    · exact .inl (by simpa using h)
    · exact .inr (by simpa using h)
  · rintro (rfl | rfl)
    · decide
    · decide

theorem size_farDir : (Path.join farDir "a.tf").utf8ByteSize ≤ maxPath ∧
    maxPath < (Path.join farDir "main.tf").utf8ByteSize := by
  have hdir := Path.utf8ByteSize_winding 2044 "m"
  have hshort := Path.utf8ByteSize_join farDir (show Path.isAbsolute "a.tf" = false by decide)
  have hlong := Path.utf8ByteSize_join farDir (show Path.isAbsolute "main.tf" = false by decide)
  have hone : "m".utf8ByteSize = 1 := by decide
  have ha : "a.tf".utf8ByteSize = 4 := by decide
  have hmain : "main.tf".utf8ByteSize = 7 := by decide
  rw [← farDir, hone] at hdir
  rw [hdir, ha] at hshort
  rw [hdir, hmain] at hlong
  rw [maxPath]
  omega

theorem mem_files_farDir :
    file ∈ configurationFiles twoFiles .terraform farDir ↔
      file = Path.join farDir "a.tf" ∨ file = Path.join farDir "main.tf" := by
  rw [configurationFiles, ← find_eq_ok find_farDir, List.mem_map]
  simp only [mem_configuration_twoFiles]
  constructor
  · rintro ⟨name, rfl | rfl, rfl⟩
    · exact .inl rfl
    · exact .inr rfl
  · rintro (hfile | hfile)
    · exact ⟨_, .inl rfl, hfile.symm⟩
    · exact ⟨_, .inr rfl, hfile.symm⟩

theorem not_faulty_farDir : ¬ Faulty twoFiles .terraform (Path.join farDir "a.tf") := by
  have hlocate := locate_join_name find_farDir (show Path.IsFileName "a.tf" by decide)
  rw [if_neg (Nat.not_lt.mpr size_farDir.1)] at hlocate
  have hread : twoFiles.read (Path.join farDir "a.tf") =
      .ok "variable \"kept\" \x7b\x7d\n" :=
    read_eq_ok_iff.mpr ⟨_, hlocate, by decide⟩
  have hparses : (Hcl.ofText? "variable \"kept\" \x7b\x7d\n").map
      (fun body => body.blocks.all fun b => !b.labels.isEmpty) = some true := by
    decide +kernel
  intro h
  cases h with
  | unreadable fails =>
      rw [hread] at fails
      cases fails
  | malformed reads fails =>
      obtain rfl := Except.ok.inj (hread.symm.trans reads)
      rw [fails] at hparses
      cases hparses
  | unnamed reads parses mem fails =>
      obtain rfl := Except.ok.inj (hread.symm.trans reads)
      rw [parses, Option.map_some, Option.some.injEq, List.all_eq_true] at hparses
      simpa [fails.2] using hparses _ mem

/-- The module is read from far, without the file that is not reached. -/
theorem exists_declared_farDir : ∃ s, declared twoFiles .terraform farDir = .ok s := by
  cases hdeclared : declared twoFiles .terraform farDir with
  | ok s => exact ⟨s, rfl⟩
  | error e =>
      exfalso
      rcases (exists_declared_eq_error_iff proper_twoFiles).mp ⟨e, hdeclared⟩ with
        ⟨e', hlist⟩ | hnone | ⟨file, hfile, hfaulty⟩
      · rw [list_eq_ok_iff.mpr ⟨_, find_farDir, rfl⟩] at hlist
        cases hlist
      · have hmem : Path.join farDir "a.tf" ∈ reached twoFiles .terraform farDir :=
          List.mem_filter.mpr ⟨mem_files_farDir.mpr (.inl rfl), decide_eq_true size_farDir.1⟩
        rw [hnone] at hmem
        cases hmem
      · obtain ⟨hmem, hshort⟩ := List.mem_filter.mp hfile
        rw [decide_eq_true_eq] at hshort
        rcases mem_files_farDir.mp hmem with hfile | hfile
        · exact not_faulty_farDir (hfile ▸ hfaulty)
        · exact absurd (hfile ▸ hshort) (Nat.not_le.mpr size_farDir.2)

theorem readsAll_iff_twoFiles :
    twoFiles.Proper ∧ ReadsAll twoFiles .terraform "m" ∧
      ¬ ReadsAll twoFiles .terraform farDir := by
  refine ⟨proper_twoFiles, ?_, ?_⟩
  · refine (readsAll_iff proper_twoFiles .terraform "m").2.2.2.2.mpr (.inr fun file hfile => ?_)
    obtain ⟨name, hname, rfl⟩ := List.mem_map.mp hfile
    rcases mem_configuration_twoFiles.mp hname with rfl | rfl
    · decide
    · decide
  · obtain ⟨s, hs⟩ := exists_declared_farDir
    intro hall
    rcases (readsAll_iff proper_twoFiles .terraform farDir).2.2.2.2.mp hall with
      ⟨e, he⟩ | hreached
    · rw [hs] at he
      cases he
    · exact absurd (hreached _ (mem_files_farDir.mpr (.inr rfl))) (Nat.not_le.mpr size_farDir.2)

/-- A file of a module may be passed over without an error. -/
theorem exists_not_readsAll :
    ∃ (fs : FileSystem) (kind : ModuleKind) (dir : String), fs.Proper ∧
      (∃ s, declared fs kind dir = .ok s) ∧ ¬ ReadsAll fs kind dir :=
  ⟨twoFiles, .terraform, farDir, proper_twoFiles, exists_declared_farDir, by
    obtain ⟨s, hs⟩ := exists_declared_farDir
    exact not_readsAll_of_long proper_twoFiles hs (mem_files_farDir.mpr (.inr rfl))
      (Nat.not_le.mpr size_farDir.2)⟩

end Schema
end HpcBlueprint
