/-
  Looking up the schema of a module.

  A remote source is cut into a package, which is fetched once, and a directory inside it.
  A local path may not lead into the embedded modules.
-/
import HpcBlueprint.Catalog.Basic
import HpcBlueprint.Expand.Lookup
import HpcBlueprint.Files.Step

namespace HpcBlueprint.Catalog

variable {ω : Type}

/-! ## Downloads -/

/-- Where download directories are made. -/
def downloadsRoot : String := "/tmp"

/-- The download directory of some number. -/
def downloadDir (number : Nat) : String := Path.join downloadsRoot ("module-" ++ toString number)

/-- The name of a package inside its download directory. -/
def packageName : String := "module"

/-- Takes away a download directory. -/
def dropDownload (fs : FileSystem) (dir : String) : FileSystem :=
  match fs.find dir with
  | .ok (loc, _) => fs.removeTree loc
  | .error _ => fs

/-- The download directory of a package: the one it was fetched to, or a new one. -/
def download (c : Catalog ω) (package : String) (s : State ω) :
    Except FetchError String × State ω :=
  match s.memory.packages.lookup package with
  | some dir => (.ok dir, s)
  | none =>
    let dir := downloadDir s.memory.downloads
    let memory := { s.memory with downloads := s.memory.downloads + 1 }
    match s.files.makeDirectory dir with
    | .error e => (.error (.files "failed to create download directory" e), { s with memory })
    | .ok fs =>
      let w := (s.withFiles fs).workspace
      match Fetcher.fetchFirst c.fetchers package (Path.join dir packageName) w with
      | (.ok _, w) =>
        (.ok dir, ⟨{ memory with packages := (package, dir) :: memory.packages }, w⟩)
      | (.error e, w) => (.error e, ⟨memory, { w with files := dropDownload w.files dir }⟩)

/-! ## Directories -/

/-- Whether a path leads to the root of the embedded modules or below it. -/
def leadsToEmbedded (c : Catalog ω) (fs : FileSystem) (path : String) : Bool :=
  match fs.canonical? c.embeddedRoot, fs.canonical? path with
  | some root, some loc => root.isPrefixOf loc
  | _, _ => false

/-- The error about the package of a source. A packer module is one directory of files, so a
    directory inside the package may be the reason. -/
def explain (source : String) (kind : ModuleKind) (dir : String) (e : FetchError) : FetchError :=
  if kind == .packer && !dir.isEmpty then .packerSubdir source e else e

/-- The directory of a module. -/
def directory (c : Catalog ω) (source : String) (kind : ModuleKind) (s : State ω) :
    Except Error String × State ω :=
  match Source.kind source with
  | .embedded => (.ok (Path.join c.embeddedRoot source), s)
  | .local =>
    if c.leadsToEmbedded s.files source then (.error (.config (.embeddedLocalPath source)), s)
    else (.ok source, s)
  | .remote =>
    let (package, dir) := Source.splitPackage source
    match c.download package s with
    | (.ok root, s) => (.ok (Path.join (Path.join root packageName) dir), s)
    | (.error e, s) => (.error (.fetch (explain source kind dir e)), s)

/-! ## Schemas -/

/-- Reads the schema of a module, whatever is remembered. -/
def load (c : Catalog ω) (source : String) (kind : ModuleKind) (s : State ω) :
    Except Error Schema × State ω :=
  match c.directory source kind s with
  | (.error e, s) => (.error e, s)
  | (.ok dir, s) => (Schema.ofDirectory s.files kind dir, s)

/-- Remembers a schema. -/
def State.learn (s : State ω) (source : String) (kind : ModuleKind) (schema : Schema) : State ω :=
  { s with memory := s.memory.learn source kind schema }

/-- Looks up the schema of a module: what is remembered, or what can be read now. -/
def lookup (c : Catalog ω) (source : String) (kind : ModuleKind) (s : State ω) :
    Except Error Entry × State ω :=
  match s.memory.entry? source kind with
  | some e => (.ok e, s)
  | none =>
    match c.load source kind s with
    | (.error e, s) => (.error e, s)
    | (.ok schema, s) => (.ok ⟨s.memory.entries, schema⟩, s.learn source kind schema)

/-- Looks up the schemas of placed modules, one after the other. -/
def lookupAll (c : Catalog ω) : List (Place × Module) → State ω → List Finished × State ω
  | [], s => ([], s)
  | (place, m) :: rest, s =>
    match c.lookup m.source m.kind s with
    | (outcome, s) =>
      match lookupAll c rest s with
      | (more, s) => (⟨place, outcome.map (·.schema)⟩ :: more, s)

end HpcBlueprint.Catalog
