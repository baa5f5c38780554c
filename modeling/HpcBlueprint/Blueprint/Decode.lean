/-
  Reading blueprints and settings from YAML.

  Records refuse unknown fields. An output may be a bare name, and a validation level may
  be a name in any case or a number.
-/
import HpcBlueprint.Blueprint.Basic
import HpcBlueprint.Value.Tree

namespace HpcBlueprint

open Yaml (Tree Decoder Problem)

/-! ## Outputs -/

/-- Why a tree is no output. -/
inductive Output.ShapeError
  | shape
  | keyType
  | nameType
  | descriptionType
  | sensitiveType
  | unknownKey (key : String)
  | noName

namespace Output

/-- What an output has to look like. -/
def shapeText : String :=
  "outputs must each be a string or a map\x7bname: string, description: string, sensitive: bool\x7d"

/-- The wording of a shape error. -/
def ShapeError.message : ShapeError → String
  | .shape => shapeText
  | .keyType => shapeText ++ "; keys must be strings"
  | .nameType => "output name must be a string"
  | .descriptionType => "output description must be a string"
  | .sensitiveType => "output sensitive must be a boolean"
  | .unknownKey k => "provided invalid key: " ++ Text.quoted k
  | .noName => "missing required key: \"name\""

/-- An output as far as it is read. -/
structure Draft where
  name : Option String
  description : String
  isSensitive : Bool

/-- Puts one entry of a mapping into a draft; tags on it mean nothing. -/
def Draft.put (d : Draft) (key value : Tree) : Except ShapeError Draft :=
  match key.untagged with
  | .string k =>
    if k == "name" then
      match value.untagged with
      | .string s => .ok { d with name := some s }
      | _ => .error .nameType
    else if k == "description" then
      match value.untagged with
      | .string s => .ok { d with description := s }
      | _ => .error .descriptionType
    else if k == "sensitive" then
      match value.untagged with
      | .bool b => .ok { d with isSensitive := b }
      | _ => .error .sensitiveType
    else .error (.unknownKey k)
  | _ => .error .keyType

/-- Puts the entries of a mapping into a draft one after the other. -/
def Draft.putAll (d : Draft) : List (Tree × Tree) → Except ShapeError Draft
  | [] => .ok d
  | (k, v) :: rest => (d.put k v).bind fun d => putAll d rest

/-- The output that a tree describes: a bare name or a mapping with a name. -/
def ofTree : Tree → Except ShapeError Output
  | .string name => .ok (named name)
  | .mapping entries => do
    let d ← Draft.putAll ⟨none, "", false⟩ entries
    match d.name with
    | some name => .ok ⟨name, d.description, d.isSensitive⟩
    | none => .error .noName
  | _ => .error .shape

/-- Reads an output. -/
def decoder : Decoder Output :=
  Decoder.ofTree fun t => (ofTree t).mapError ShapeError.message

end Output

/-! ## Levels and kinds -/

/-- A level that does not exist. -/
def ValidationLevel.unknownText (level : String) : String :=
  "invalid validation level '" ++ level ++ "' (\"ERROR\", \"WARNING\", \"IGNORE\")"

/-- Reads a level from its name or number. -/
def ValidationLevel.decoder : Decoder ValidationLevel := fun path node => do
  let unknown (level : String) : Except Yaml.Error ValidationLevel :=
    .error (.data (.domain (ValidationLevel.unknownText level)) none)
  match ← Decoder.alternative path node with
  | .scalar (.text s) =>
    match ValidationLevel.ofName? s with
    | some level => .ok level
    | none => unknown s
  | .scalar (.number (.int n)) =>
    if 0 ≤ n && n < 256 then
      match ValidationLevel.ofCode? n with
      | some level => .ok level
      | none => unknown (toString n)
    else .error (.data (.noAlternative "LevelRepr") none)
  | _ => .error (.data (.noAlternative "LevelRepr") none)

/-- Reads a module kind. -/
def ModuleKind.decoder : Decoder ModuleKind :=
  Decoder.variant [("terraform", .terraform), ("packer", .packer)]

/-! ## Records -/

/-- Reads a map of values; a repeated name keeps its place and takes the last value. -/
def valuesDecoder : Decoder (OrderedMap Value) := fun path node =>
  (Decoder.pairs Value.decoder path node).map OrderedMap.ofList

/-- Reads a set of names. -/
def nameSetDecoder : Decoder NameSet := fun path node =>
  (Decoder.list Decoder.text path node).map NameSet.ofList

/-- Reads a field of a record and stores it. -/
def field (d : Decoder α) (store : α → σ) : Decoder σ := fun path node =>
  (d path node).map store

/-- Reads a backend. -/
def Backend.decoder : Decoder Backend :=
  Decoder.record "TerraformBackend" ["type", "configuration"] Backend.empty
    (fun name b =>
      if name == "type" then field Decoder.text fun x => { b with type := x }
      else field valuesDecoder fun x => { b with configuration := x })
    .ok

/-- A validator as far as it is read. -/
structure ValidatorEntry.Draft where
  validator : Option String
  skip : Bool
  inputs : OrderedMap Value

/-- Reads a validator. -/
def ValidatorEntry.decoder : Decoder ValidatorEntry :=
  Decoder.record "ValidatorConfig" ["validator", "skip", "inputs"]
    (⟨none, false, []⟩ : ValidatorEntry.Draft)
    (fun name d =>
      if name == "validator" then field Decoder.text fun x => { d with validator := some x }
      else if name == "skip" then field Decoder.bool fun x => { d with skip := x }
      else field valuesDecoder fun x => { d with inputs := x })
    (fun d => do
      let validator ← Decoder.required "validator" d.validator
      return ⟨validator, d.skip, d.inputs⟩)

/-- A module as far as it is read. -/
structure Module.Draft where
  id : Option String
  source : Option String
  kind : ModuleKind
  uses : List String
  settings : OrderedMap Value
  outputs : List Output

/-- Reads a module. -/
def Module.decoder : Decoder Module :=
  Decoder.record "Module" ["id", "source", "kind", "use", "settings", "outputs"]
    (⟨none, none, .terraform, [], [], []⟩ : Module.Draft)
    (fun name d =>
      if name == "id" then field Decoder.text fun x => { d with id := some x }
      else if name == "source" then field Decoder.text fun x => { d with source := some x }
      else if name == "kind" then field ModuleKind.decoder fun x => { d with kind := x }
      else if name == "use" then field (Decoder.list Decoder.text) fun x => { d with uses := x }
      else if name == "settings" then field valuesDecoder fun x => { d with settings := x }
      else field (Decoder.list Output.decoder) fun x => { d with outputs := x })
    (fun d => do
      let id ← Decoder.required "id" d.id
      let source ← Decoder.required "source" d.source
      return ⟨id, source, d.kind, d.uses, d.settings, d.outputs, none⟩)

/-- A group as far as it is read. -/
structure Group.Draft where
  name : Option String
  backend : Option Backend
  modules : Option (List Module)

/-- Reads a group. -/
def Group.decoder : Decoder Group :=
  Decoder.record "DeploymentGroup" ["group", "terraform_backend", "modules"]
    (⟨none, none, none⟩ : Group.Draft)
    (fun name d =>
      if name == "group" then field Decoder.text fun x => { d with name := some x }
      else if name == "terraform_backend" then
        field (Decoder.optional Backend.decoder) fun x => { d with backend := x }
      else field (Decoder.list Module.decoder) fun x => { d with modules := some x })
    (fun d => do
      let name ← Decoder.required "group" d.name
      let modules ← Decoder.required "modules" d.modules
      return ⟨name, d.backend, modules⟩)

/-- A blueprint as far as it is read. -/
structure Blueprint.Draft where
  name : Option String
  toolkitVersion : String
  validators : List ValidatorEntry
  level : ValidationLevel
  skipped : NameSet
  vars : OrderedMap Value
  backendDefaults : Backend
  groups : Option (List Group)

/-- A blueprint of which nothing is read yet. -/
def Blueprint.Draft.empty : Blueprint.Draft :=
  ⟨none, "", [], .warning, [], [], Backend.empty, none⟩

/-- The fields of a blueprint. -/
def Blueprint.fieldNames : List String :=
  ["blueprint_name", "toolkit_version", "validators", "validation_level", "skip_validators",
   "vars", "terraform_backend_defaults", "deployment_groups"]

/-- Reads a blueprint. -/
def Blueprint.decoder : Decoder Blueprint :=
  Decoder.record "Blueprint" Blueprint.fieldNames Blueprint.Draft.empty
    (fun name d =>
      if name == "blueprint_name" then field Decoder.text fun x => { d with name := some x }
      else if name == "toolkit_version" then
        field Decoder.text fun x => { d with toolkitVersion := x }
      else if name == "validators" then
        field (Decoder.list ValidatorEntry.decoder) fun x => { d with validators := x }
      else if name == "validation_level" then
        field ValidationLevel.decoder fun x => { d with level := x }
      else if name == "skip_validators" then field nameSetDecoder fun x => { d with skipped := x }
      else if name == "vars" then field valuesDecoder fun x => { d with vars := x }
      else if name == "terraform_backend_defaults" then
        field Backend.decoder fun x => { d with backendDefaults := x }
      else field (Decoder.list Group.decoder) fun x => { d with groups := some x })
    (fun d => do
      let name ← Decoder.required "blueprint_name" d.name
      let groups ← Decoder.required "deployment_groups" d.groups
      return ⟨name, d.toolkitVersion, d.validators, d.level, d.skipped, d.vars,
        d.backendDefaults, groups⟩)

/-- Reads the settings of a run. -/
def Settings.decoder : Decoder Settings :=
  Decoder.record "DeploymentSettings" ["vars", "terraform_backend_defaults"] Settings.empty
    (fun name s =>
      if name == "vars" then field valuesDecoder fun x => { s with vars := x }
      else field Backend.decoder fun x => { s with backendDefaults := x })
    .ok

end HpcBlueprint
