/-
  Local paths that lead to the embedded modules.

  A local source is an alias of something embedded however it is spelled: what counts is where
  it leads, name by name from the root.  Nothing else that is local fails as an alias, whatever
  its name has in common with that of the embedded root.  An alias does, as long as it and the
  embedded root can be followed by absolute paths (`InReach`); one that lies too deep for that
  is looked up like any other module.
-/
import HpcBlueprint.Catalog.Lookup
import HpcBlueprint.Proofs.Schema.Directory
import HpcBlueprint.Proofs.Text.Search

namespace HpcBlueprint

/-! ## Local sources -/

/-- A source that is spelled as a local path is none of the embedded modules. -/
theorem Source.kind_of_isLocal {source : String} (h : isLocal source = true) :
    kind source = .local := by
  have hembedded : isEmbedded source = false := by
    rw [isLocal, Bool.or_eq_true, Bool.or_eq_true] at h
    rw [isEmbedded, Bool.or_eq_false_iff]
    rcases h with (h | h) | h
    · exact ⟨Text.startsWith_eq_false _ h (by decide) (by decide),
        Text.startsWith_eq_false _ h (by decide) (by decide)⟩
    · exact ⟨Text.startsWith_eq_false _ h (by decide) (by decide),
        Text.startsWith_eq_false _ h (by decide) (by decide)⟩
    · exact ⟨Text.startsWith_eq_false _ h (by decide) (by decide),
        Text.startsWith_eq_false _ h (by decide) (by decide)⟩
  rw [kind, hembedded, if_neg Bool.false_ne_true, if_pos h]

/-! ## Absolute paths -/

namespace FileSystem

variable {fs : FileSystem} {path : String} {loc found : Location} {piece : String}
  {pieces rest : List String}

theorem pathSize_append (loc rest : Location) :
    pathSize (loc ++ rest) = pathSize loc + pathSize rest := by
  induction loc with
  | nil => rw [List.nil_append, pathSize, Nat.zero_add]
  | cons name loc ih => rw [List.cons_append, pathSize, ih, pathSize, ← Nat.add_assoc]

theorem pathSize_replicate (count : Nat) (name : String) :
    pathSize (List.replicate count name) = count * (name.utf8ByteSize + 1) := by
  induction count with
  | zero => rw [List.replicate_zero, pathSize, Nat.zero_mul]
  | succ count ih =>
      rw [List.replicate_succ, pathSize, ih, Nat.succ_mul, Nat.add_comm]

/-- Every name among the pieces is looked up under an absolute path that is not too long. -/
def InReach (loc : Location) (pieces : List String) : Prop :=
  ∀ front name rest, pieces = front ++ name :: rest → name ≠ "" → name ≠ "." → name ≠ ".." →
    pathSize (Path.follow loc (front ++ [name])) + (if rest = [] then 0 else 1) ≤ maxPath

theorem inReach_cons_iff :
    InReach loc (piece :: rest) ↔
      (piece ≠ "" → piece ≠ "." → piece ≠ ".." →
        pathSize (Path.follow loc [piece]) + (if rest = [] then 0 else 1) ≤ maxPath) ∧
      InReach (Path.follow loc [piece]) rest := by
  constructor
  · refine fun h => ⟨h [] piece rest rfl, fun front name more hrest => ?_⟩
    have hname := h (piece :: front) name more (by rw [hrest]; rfl)
    rwa [List.cons_append, ← List.singleton_append, Path.follow_append] at hname
  · rintro ⟨hfirst, hrest⟩ front name more hpieces
    cases front with
    | nil =>
        obtain ⟨rfl, rfl⟩ := List.cons.inj hpieces
        exact hfirst
    | cons first front =>
        obtain ⟨rfl, rfl⟩ := List.cons.inj hpieces
        have hname := hrest front name more rfl
        rwa [← Path.follow_append, List.singleton_append] at hname

theorem inReach_iff : inReach loc pieces = true ↔ InReach loc pieces := by
  induction pieces generalizing loc with
  | nil => exact ⟨fun _ front name rest h => by simp at h, fun _ => rfl⟩
  | cons piece rest ih =>
      rw [inReach_cons_iff, inReach, Path.follow]
      split
      · -- a piece that stays where it is has no path of its own
        rename_i hsame
        have hnone : piece ≠ "" → ¬ piece ≠ "." := by
          rw [Bool.or_eq_true, String.isEmpty_iff, beq_iff_eq] at hsame
          exact fun hne hdot => hdot (hsame.resolve_left hne)
        rw [ih, Path.follow]
        exact ⟨fun h => ⟨fun hne hdot => absurd hdot (hnone hne), h⟩, And.right⟩
      · rename_i hsame
        rw [Bool.or_eq_true, String.isEmpty_iff, beq_iff_eq, not_or] at hsame
        split
        · rename_i hup
          rw [beq_iff_eq] at hup
          rw [ih, Path.follow]
          exact ⟨fun h => ⟨fun _ _ hparent => absurd hup hparent, h⟩, And.right⟩
        · rename_i hup
          rw [beq_iff_eq] at hup
          simp only [Bool.and_eq_true, decide_eq_true_eq, List.isEmpty_iff, ih, Path.follow]
          exact and_congr_left fun _ => ⟨fun h _ _ _ => h, fun h => h hsame.1 hsame.2 hup⟩

/-- Where nothing lies too deep, everything that is there is in reach. -/
theorem inReach_of_walk (shallow : ∀ l, fs.node? l ≠ none → pathSize l < maxPath)
    (h : fs.walk loc pieces = .ok found) (hfound : fs.node? found ≠ none) :
    InReach loc pieces := by
  rintro front name rest rfl - - -
  rw [← List.singleton_append, ← List.append_assoc, walk_append_eq_ok_iff] at h
  obtain ⟨mid, hmid, hrest⟩ := h
  -- the name leads to a directory if anything follows, and to the end if not
  have hnode : fs.node? mid ≠ none := by
    cases rest with
    | nil =>
        obtain rfl : mid = found := Except.ok.inj hrest
        exact hfound
    | cons next more =>
        rw [node?_of_walk (List.cons_ne_nil next more) hrest]
        exact Option.some_ne_none _
  have hsize := shallow mid hnode
  rw [walk_eq_ok hmid] at hsize
  split <;> omega

/-- The path leads to something, however long it is. -/
def Names (fs : FileSystem) (path : String) : Prop :=
  '\x00' ∉ path.toList ∧ path ≠ "" ∧
    ∃ loc, fs.walk (fs.start path) (Path.pieces path) = .ok loc ∧ fs.node? loc ≠ none

theorem names_of_contains (h : fs.contains path = true) : fs.Names path := by
  obtain ⟨loc, n, hfind⟩ := contains_eq_true_iff.mp h
  obtain ⟨hlocate, hnode⟩ := find_eq_ok_iff.mp hfind
  obtain ⟨hnul, hne, -, hwalk⟩ := locate_eq_ok_iff.mp hlocate
  exact ⟨hnul, hne, loc, hwalk, by simp [hnode]⟩

/-- The canonical location of a path is where it leads, if something is there and in reach. -/
theorem canonical?_eq_some_iff :
    fs.canonical? path = some loc ↔
      fs.Names path ∧ InReach (fs.start path) (Path.pieces path) ∧ loc = fs.lexical path := by
  rw [canonical?, Names, ← inReach_iff]
  by_cases hgiven : '\x00' ∉ path.toList ∧ path ≠ ""
  · have hnul : (path.toList.contains '\x00' || path.isEmpty) = false := by simpa using hgiven
    rw [hnul, if_neg Bool.false_ne_true]
    cases hwalk : fs.walk (fs.start path) (Path.pieces path) with
    | error e => simp
    | ok l =>
        obtain rfl : l = fs.lexical path := walk_eq_ok hwalk
        dsimp only
        rw [Option.ite_none_right_eq_some, Bool.and_eq_true, Option.isSome_iff_ne_none,
          Option.some.injEq, and_assoc]
        constructor
        · rintro ⟨hnode, hreach, rfl⟩
          exact ⟨⟨hgiven.1, hgiven.2, _, rfl, hnode⟩, hreach, rfl⟩
        · rintro ⟨⟨-, -, found, hfound, hnode⟩, hreach, rfl⟩
          rw [← Except.ok.inj hfound] at hnode
          exact ⟨hnode, hreach, rfl⟩
  · have hnul : (path.toList.contains '\x00' || path.isEmpty) = true := by
      rw [not_and_or, not_not, not_not] at hgiven
      simpa using hgiven
    rw [hnul, if_pos rfl]
    exact ⟨fun h => (Option.some_ne_none _ h.symm).elim,
      fun h => (hgiven ⟨h.1.1, h.1.2.1⟩).elim⟩

end FileSystem

namespace Catalog

open FileSystem

variable {ω : Type} {c : Catalog ω} {fs : FileSystem} {source : String} {kind : ModuleKind}
  {s : State ω}

/-- The path leads to something that is the root of the embedded modules or lies below it. -/
def IsAlias (c : Catalog ω) (fs : FileSystem) (path : String) : Prop :=
  fs.Names path ∧ fs.lexical c.embeddedRoot <+: fs.lexical path

/-- The root of the embedded modules and the path can both be followed by absolute paths. -/
def Reaches (c : Catalog ω) (fs : FileSystem) (path : String) : Prop :=
  InReach (fs.start c.embeddedRoot) (Path.pieces c.embeddedRoot) ∧
    InReach (fs.start path) (Path.pieces path)

theorem leadsToEmbedded_iff (root : fs.Names c.embeddedRoot) {path : String} :
    c.leadsToEmbedded fs path = true ↔ IsAlias c fs path ∧ c.Reaches fs path := by
  rw [leadsToEmbedded, IsAlias, Reaches]
  constructor
  · intro h
    split at h
    · rename_i hroot hpath
      obtain ⟨-, hrootReach, rfl⟩ := canonical?_eq_some_iff.mp hroot
      obtain ⟨hnames, hpathReach, rfl⟩ := canonical?_eq_some_iff.mp hpath
      exact ⟨⟨hnames, List.isPrefixOf_iff_prefix.mp h⟩, hrootReach, hpathReach⟩
    · cases h
  · rintro ⟨⟨hnames, hbelow⟩, hroot, hpath⟩
    rw [canonical?_eq_some_iff.mpr ⟨root, hroot, rfl⟩,
      canonical?_eq_some_iff.mpr ⟨hnames, hpath, rfl⟩]
    exact List.isPrefixOf_iff_prefix.mpr hbelow

/-- Where nothing lies too deep, the embedded root and every alias of it can be followed. -/
theorem IsAlias.reaches (shallow : ∀ l, fs.node? l ≠ none → pathSize l < maxPath)
    (root : fs.Names c.embeddedRoot) {path : String} (h : IsAlias c fs path) :
    c.Reaches fs path := by
  obtain ⟨-, -, rootLoc, hroot, hrootNode⟩ := root
  obtain ⟨⟨-, -, loc, hpath, hnode⟩, -⟩ := h
  exact ⟨inReach_of_walk shallow hroot hrootNode, inReach_of_walk shallow hpath hnode⟩

/-! ## Looking up -/

/-- A local path that is no alias is read where it is. -/
theorem lookup_of_isLocal (fresh : s.memory.entry? source kind = none)
    (isLocal : Source.isLocal source = true) :
    c.lookup source kind s =
      if c.leadsToEmbedded s.files source then (.error (.config (.embeddedLocalPath source)), s)
      else
        match Schema.ofDirectory s.files kind source with
        | .error e => (.error e, s)
        | .ok schema => (.ok ⟨s.memory.entries, schema⟩, s.learn source kind schema) := by
  rw [lookup, fresh, load, directory, Source.kind_of_isLocal isLocal]
  by_cases hembedded : c.leadsToEmbedded s.files source = true
  · simp only [hembedded, if_true]
  · -- the path itself is the directory that is read
    simp only [hembedded, if_false, Bool.false_eq_true]
    cases Schema.ofDirectory s.files kind source <;> rfl

/-- What goes wrong with a directory that is read is about its files. -/
theorem lookup_ne_alias (fresh : s.memory.entry? source kind = none)
    (isLocal : Source.isLocal source = true) (h : ¬ c.leadsToEmbedded s.files source = true)
    (path : String) :
    (c.lookup source kind s).1 ≠ .error (.config (.embeddedLocalPath path)) := by
  intro hpath
  rw [lookup_of_isLocal fresh isLocal, if_neg h] at hpath
  cases hread : Schema.ofDirectory s.files kind source with
  | ok schema =>
      rw [hread] at hpath
      cases hpath
  | error e =>
      rw [hread] at hpath
      obtain ⟨file, p, rfl⟩ := Schema.exists_problem_of_ofDirectory hread
      cases hpath

/-- Looking up a local source that is not remembered fails as an alias of an embedded module
    exactly if it is one and can be followed like the embedded root; so every alias is caught
    where nothing lies too deep for that.  What stands beside the embedded root never fails as
    an alias. -/
theorem lookup_fails_as_alias_iff (fresh : s.memory.entry? source kind = none)
    (isLocal : Source.isLocal source = true) (root : s.files.Names c.embeddedRoot) :
    ((∃ path, (c.lookup source kind s).1 = .error (.config (.embeddedLocalPath path))) ↔
      IsAlias c s.files source ∧ c.Reaches s.files source) ∧
    (IsAlias c s.files source → c.Reaches s.files source →
      c.lookup source kind s = (.error (.config (.embeddedLocalPath source)), s)) ∧
    ((∀ l, s.files.node? l ≠ none → pathSize l < maxPath) →
      ((∃ path, (c.lookup source kind s).1 = .error (.config (.embeddedLocalPath path))) ↔
        IsAlias c s.files source)) ∧
    ∀ parent name other below, s.files.lexical c.embeddedRoot = parent ++ [name] →
      s.files.lexical source = parent ++ other :: below → other ≠ name →
      ∀ path, (c.lookup source kind s).1 ≠ .error (.config (.embeddedLocalPath path)) := by
  have halias : IsAlias c s.files source → c.Reaches s.files source →
      c.lookup source kind s = (.error (.config (.embeddedLocalPath source)), s) := by
    intro h hreaches
    rw [lookup_of_isLocal fresh isLocal, if_pos ((leadsToEmbedded_iff root).mpr ⟨h, hreaches⟩)]
  have hfails : (∃ path, (c.lookup source kind s).1 = .error (.config (.embeddedLocalPath path))) ↔
      IsAlias c s.files source ∧ c.Reaches s.files source := by
    constructor
    · rintro ⟨path, hpath⟩
      by_contra hnone
      exact lookup_ne_alias fresh isLocal (mt (leadsToEmbedded_iff root).mp hnone) path hpath
    · rintro ⟨h, hreaches⟩
      exact ⟨source, by rw [halias h hreaches]⟩
  refine ⟨hfails, halias, fun shallow => ?_, ?_⟩
  · rw [hfails]
    exact ⟨And.left, fun h => ⟨h, h.reaches shallow root⟩⟩
  · intro parent name other below hroot hsource hne path hpath
    obtain ⟨⟨-, hbelow⟩, -⟩ := hfails.mp ⟨path, hpath⟩
    -- whole names are compared, so a longer name is another one
    rw [hroot, hsource, List.prefix_append_right_inj, List.cons_prefix_cons] at hbelow
    exact hne hbelow.1.symm

/-- Embedded modules, and beside them a directory with a longer name. -/
def withSibling : State Unit where
  memory := Memory.empty
  workspace :=
    ⟨⟨[(["home"], .directory), (["home", "x"], .directory),
      (["home", "embedded"], .directory), (["home", "embedded", "modules"], .directory),
      (["home", "embedded-old"], .directory)], ["home"]⟩, ()⟩

theorem lookup_fails_as_alias_iff_withSibling :
    (withSibling.memory.entry? "./x/.././embedded/modules/" .terraform = none ∧
      Source.isLocal "./x/.././embedded/modules/" = true ∧
      withSibling.files.Names "x/../embedded" ∧
      Catalog.lookup ⟨"x/../embedded", []⟩ "./x/.././embedded/modules/" .terraform withSibling =
        (.error (.config (.embeddedLocalPath "./x/.././embedded/modules/")), withSibling)) ∧
    ∀ path, (Catalog.lookup ⟨"x/../embedded", []⟩ "./embedded-old" .packer withSibling).1 ≠
      .error (.config (.embeddedLocalPath path)) := by
  have hroot : withSibling.files.Names "x/../embedded" := names_of_contains (by decide)
  have halias : IsAlias (⟨"x/../embedded", []⟩ : Catalog Unit) withSibling.files
      "./x/.././embedded/modules/" := ⟨names_of_contains (by decide), by decide⟩
  have hreaches : Reaches (⟨"x/../embedded", []⟩ : Catalog Unit) withSibling.files
      "./x/.././embedded/modules/" := ⟨inReach_iff.mp (by decide), inReach_iff.mp (by decide)⟩
  refine ⟨⟨rfl, by decide, hroot, ?_⟩, ?_⟩
  · exact (lookup_fails_as_alias_iff rfl (by decide) hroot).2.1 halias hreaches
  · exact (lookup_fails_as_alias_iff rfl (by decide) hroot).2.2.2 ["home"] "embedded"
      "embedded-old" [] (by decide) (by decide) (by decide)

/-! ## Aliases out of reach -/

/-- A name as long as a name may be. -/
def longName : String := String.ofList (List.replicate maxName 'd')

/-- A directory whose absolute path is longer than a path may be. -/
def deep : Location := List.replicate 16 longName

/-- Embedded modules in a working directory that lies deep. -/
def inDepth : State Unit where
  memory := Memory.empty
  workspace :=
    ⟨⟨(List.range 16).map (fun n => (List.replicate (n + 1) longName, .directory)) ++
      [(deep ++ ["embedded"], .directory)], deep⟩, ()⟩

theorem distinct_inDepth : inDepth.files.Distinct := by
  -- no two places are equally far below the root
  have hlengths : (inDepth.files.nodes.map (·.1)).map List.length = List.range' 1 17 := by
    simp [inDepth, State.files, deep, Function.comp_def]
    rfl
  exact List.Nodup.of_map List.length (hlengths ▸ List.nodup_range')

theorem node?_inDepth {loc : Location} (h : (loc, .directory) ∈ inDepth.files.nodes) :
    inDepth.files.node? loc = some .directory := by
  rw [node?]
  split
  · rfl
  · exact (lookup_eq_some_iff distinct_inDepth).mpr h

/-- A name in the working directory there leads to what it names. -/
theorem find_inDepth :
    inDepth.files.find "embedded" = .ok (deep ++ ["embedded"], .directory) ∧
      inDepth.files.find "./embedded" = .ok (deep ++ ["embedded"], .directory) := by
  -- the text itself is short, so it is walked from the working directory
  have hhere : inDepth.files.node? deep = some .directory :=
    node?_inDepth (List.mem_append_left _ (List.mem_map.mpr ⟨15, by decide, rfl⟩))
  have hroot : inDepth.files.node? (deep ++ ["embedded"]) = some .directory :=
    node?_inDepth (List.mem_append_right _ (List.mem_singleton_self _))
  have hname : inDepth.files.walk deep ["embedded"] = .ok (deep ++ ["embedded"]) :=
    walk_cons_eq_ok_iff.mpr ⟨hhere, _, rfl, rfl⟩
  have hdot : inDepth.files.walk deep [".", "embedded"] = .ok (deep ++ ["embedded"]) :=
    walk_cons_eq_ok_iff.mpr ⟨hhere, _, rfl, hname⟩
  have hstart : inDepth.files.start "embedded" = deep := if_neg (by decide)
  have hstart' : inDepth.files.start "./embedded" = deep := if_neg (by decide)
  have hpieces : Path.pieces "embedded" = ["embedded"] := by decide
  have hpieces' : Path.pieces "./embedded" = [".", "embedded"] := by decide
  constructor
  · refine find_eq_ok_iff.mpr ⟨locate_eq_ok_iff.mpr ⟨by decide, by decide, by decide, ?_⟩, hroot⟩
    rw [hstart, hpieces]
    exact hname
  · refine find_eq_ok_iff.mpr ⟨locate_eq_ok_iff.mpr ⟨by decide, by decide, by decide, ?_⟩, hroot⟩
    rw [hstart', hpieces']
    exact hdot

/-- The embedded modules there are too deep to be followed to from the root. -/
theorem not_reaches_inDepth (path : String) :
    ¬ Reaches (⟨"embedded", []⟩ : Catalog Unit) inDepth.files path := by
  rintro ⟨hreach, -⟩
  have hstart : inDepth.files.start "embedded" = deep := if_neg (by decide)
  have hname : longName.utf8ByteSize = maxName := by decide +kernel
  have hdeep : pathSize deep = 16 * (maxName + 1) := by rw [deep, pathSize_replicate, hname]
  have hroot : pathSize (deep ++ ["embedded"]) = pathSize deep + pathSize ["embedded"] :=
    pathSize_append deep ["embedded"]
  rw [hstart] at hreach
  have hsize := hreach [] "embedded" [] (by decide) (by decide) (by decide) (by decide)
  rw [List.nil_append, Path.follow_name (by decide), hroot, hdeep] at hsize
  exact absurd hsize (by decide)

/-- An alias that lies too deep is not caught, although it can be opened. -/
theorem exists_alias_looked_up :
    ∃ (c : Catalog Unit) (source : String) (kind : ModuleKind) (s : State Unit) (loc : Location),
      s.memory.entry? source kind = none ∧ Source.isLocal source = true ∧
        s.files.Names c.embeddedRoot ∧ s.files.find source = .ok (loc, .directory) ∧
        IsAlias c s.files source ∧
        ∀ path, (c.lookup source kind s).1 ≠ .error (.config (.embeddedLocalPath path)) := by
  obtain ⟨hroot, hsource⟩ := find_inDepth
  have hnames : inDepth.files.Names "embedded" :=
    names_of_contains (contains_eq_true_iff.mpr ⟨_, _, hroot⟩)
  have halias : IsAlias (⟨"embedded", []⟩ : Catalog Unit) inDepth.files "./embedded" := by
    refine ⟨names_of_contains (contains_eq_true_iff.mpr ⟨_, _, hsource⟩), ?_⟩
    rw [← find_eq_ok hroot, ← find_eq_ok hsource]
  refine ⟨⟨"embedded", []⟩, "./embedded", .terraform, inDepth, _, rfl, by decide, hnames, hsource,
    halias, lookup_ne_alias rfl (by decide) fun h => not_reaches_inDepth "./embedded" ?_⟩
  exact ((leadsToEmbedded_iff hnames).mp h).2

end Catalog
end HpcBlueprint
