/-
  The schema of the module in a directory.

  All configuration files of the directory are read in the order of their names. The
  services that the module needs stand in a file of metadata; whatever is wrong with that
  file, the module then needs none.
-/
import HpcBlueprint.Error
import HpcBlueprint.Files.Tree
import HpcBlueprint.Schema.Declaration

namespace HpcBlueprint

/-- What the names of a module's configuration files end in. -/
def ModuleKind.suffix : ModuleKind → String
  | .terraform => ".tf"
  | .packer => ".pkr.hcl"

namespace Schema

/-- The error about a file or directory of a module. -/
def problem (path : String) (p : SchemaProblem) : Error := .config (.schema path p)

/-- The configuration files of a module. However its directory is listed, they are sorted by
    name. -/
def files (fs : FileSystem) (kind : ModuleKind) (dir : String) : Except Error (List String) := do
  let listed ← (fs.list dir).mapError fun e => problem dir (.unlistable e)
  let names := (listed.filter (Text.endsWith kind.suffix ·)).mergeSort fun a b => decide (a ≤ b)
  return (names.map (Path.join dir)).filter fs.isFile

/-- Adds what a file declares. -/
def withFile (fs : FileSystem) (kind : ModuleKind) (s : Schema) (file : String) :
    Except Error Schema := do
  let text ← (fs.read file).mapError fun e => problem file (.unreadable e)
  match Hcl.ofText? text with
  | none => .error (problem file .malformed)
  | some body => (s.withBlocks kind body.blocks).mapError fun e => problem file (.unnamed e.block)

/-- Adds what files declare, in order; the first with a fault decides. -/
def withFiles (fs : FileSystem) (kind : ModuleKind) (s : Schema) : List String → Except Error Schema
  | [] => .ok s
  | file :: rest => (s.withFile fs kind file).bind fun s => withFiles fs kind s rest

/-- What the module in a directory declares, without the services it needs. -/
def declared (fs : FileSystem) (kind : ModuleKind) (dir : String) : Except Error Schema := do
  match ← files fs kind dir with
  | [] => .error (problem dir (.noFiles kind.suffix))
  | all => withFiles fs kind Schema.empty all

/-! ## Metadata -/

/-- The name of the file of metadata. -/
def metadataFile : String := "metadata.yaml"

/-- Reads the services from metadata. -/
def servicesDecoder : Yaml.Decoder (List String) :=
  .onlyField "Metadata" "spec" [] <|
    .onlyField "MetadataSpec" "requirements" [] <|
      .onlyField "Requirements" "services" [] <| .list .text

/-- The services that the module in a directory needs, as far as its metadata can be read. -/
def servicesIn (fs : FileSystem) (dir : String) : List String :=
  match fs.read (Path.join dir metadataFile) with
  | .ok text => (Yaml.Decoder.ofText servicesDecoder text).toOption.getD []
  | .error _ => []

/-- The schema of the module in a directory. -/
def ofDirectory (fs : FileSystem) (kind : ModuleKind) (dir : String) : Except Error Schema := do
  let s ← declared fs kind dir
  return { s with services := servicesIn fs dir }

end Schema

end HpcBlueprint
