/-
  Why a run fails.

  Every constructor is a cause with what is needed to describe it; the wording of each is
  in one function, `message`.
-/
import HpcBlueprint.Blueprint.Decode
import HpcBlueprint.Files.Error
import HpcBlueprint.Reference

namespace HpcBlueprint

/-! ## Reading documents -/

/-- Why a text or file could not be read as data. -/
inductive DecodeError
  /-- A text is no YAML literal. -/
  | literal (text : String) (error : Yaml.Error)
  /-- A literal has a shape that no value has. -/
  | shape (error : Value.ShapeError)
  /-- A document is not what it should be. -/
  | document (noun : String) (file : Option String) (error : Yaml.Error)
  /-- An expanded blueprint is not what it should be; its file is named without a line. -/
  | artifact (file : Option String) (error : Yaml.Error)
  | unreadable (file : String) (error : FileError)
  /-- A file of environment variables is malformed. -/
  | environment (file : String)
  | environmentUnreadable (file : String) (error : FileError)

/-- The place in front of a message about a document. -/
def placeText (file : Option String) (error : Yaml.Error) : Option String :=
  match file, error.mark? with
  | some f, some m => some (f ++ ":" ++ toString (m.line + 1) ++ ":" ++ toString (m.column + 1))
  | some f, none => some f
  | none, some m => some m.describe
  | none, none => none

/-- What is wrong, without the place in front. -/
def DecodeError.problem : DecodeError → String
  | .literal text e => "cannot decode literal '" ++ text ++ "': " ++ e.message
  | .shape e => e.message
  | .document noun _ e => "invalid " ++ noun ++ ": " ++ e.message
  | .artifact _ e => "invalid expanded blueprint: " ++ e.message
  | .unreadable _ e => "Failed to read file: " ++ e.message
  | .environment _ => "Failed to load .env file: Error parsing line: <dotenv syntax error>"
  | .environmentUnreadable _ e => "Failed to load .env file: " ++ e.message

/-- The place in front of the message. -/
def DecodeError.place : DecodeError → Option String
  | .literal _ e => e.mark?.map Yaml.Mark.describe
  | .shape _ => none
  | .document _ file e => placeText file e
  | .artifact file _ => file
  | .unreadable file _ => some file
  | .environment file => some file
  | .environmentUnreadable file _ => some file

/-- The wording of a decode error. -/
def DecodeError.message (e : DecodeError) : String :=
  match e.place with
  | some place => place ++ ": " ++ e.problem
  | none => e.problem

/-! ## Configuration -/

/-- Why a reference leads nowhere. -/
inductive Unresolved
  | noModule (module : String)
  | noOutput (module output : String)
  /-- The variable exists later or not at all, and a variable may refer to earlier ones only. -/
  | notYetDefined
  | notDefined
deriving DecidableEq

/-- The wording of the reason. -/
def Unresolved.message : Unresolved → String
  | .noModule m => "module '" ++ m ++ "' does not exist"
  | .noOutput m o => "module '" ++ m ++ "' has no output named '" ++ o ++ "'"
  | .notYetDefined => "variable is not defined before this point"
  | .notDefined => "variable is not defined"

/-- Why a reference may not stand where it does. -/
inductive Misuse
  | malformed (error : ReferenceError)
  | usesItself (module : String)
  | usesPacker (module : String)
  | notText (name type : String)
  | outputInText (reference : Reference)
  | outputOutsideModule (reference : Reference)
  | packerOutput (module : String)
deriving DecidableEq

/-- The wording of the misuse. -/
def Misuse.message : Misuse → String
  | .malformed e => e.message
  | .usesItself m => "module '" ++ m ++ "' cannot use itself"
  | .usesPacker m => "packer module '" ++ m ++ "' has no outputs to use"
  | .notText v type =>
    "variable '" ++ v ++ "' is a " ++ type ++ " and cannot be interpolated into text"
  | .outputInText r => "module output reference '" ++ r.text ++ "' must be the entire value"
  | .outputOutsideModule r =>
    "'" ++ r.text ++ "' cannot be used here; only variables may be referenced"
  | .packerOutput m => "packer module '" ++ m ++ "' has no outputs that can be referenced"

/-- What is wrong with the deployment name. -/
inductive NameProblem
  | missing
  | notText
  | notDirectoryName (name : String)
deriving DecidableEq

/-- The wording of the problem. -/
def NameProblem.message : NameProblem → String
  | .missing => deploymentNameVar ++ " must be set"
  | .notText => deploymentNameVar ++ " must be a non-empty string"
  | .notDirectoryName name =>
    deploymentNameVar ++ " '" ++ name ++ "' must be a single directory name"

/-- Where the problem is. -/
def NameProblem.path : NameProblem → String
  | .missing => "vars"
  | _ => "vars." ++ deploymentNameVar

/-- Why a module's schema could not be read. -/
inductive SchemaProblem
  | unlistable (error : FileError)
  | noFiles (suffix : String)
  | unreadable (error : FileError)
  | malformed
  | unnamed (block : String)
deriving DecidableEq

/-- The wording of the problem. -/
def SchemaProblem.message : SchemaProblem → String
  | .unlistable e => "cannot list directory: " ++ e.message
  | .noFiles suffix => "no " ++ suffix ++ " files found"
  | .unreadable e => "cannot read file: " ++ e.message
  | .malformed => "invalid HCL: <hcl syntax error>"
  | .unnamed block => block ++ " block without a name"

/-- Why a blueprint, its settings or its modules are refused. -/
inductive ConfigError
  | fileNotFound (path : String)
  | decode (error : DecodeError)
  /-- An override has no equals sign. -/
  | invalidOverride (pair : String)
  | invalidOverrideValue (key value : String)
  | invalidLevel (level : String)
  | duplicateName (noun name path : String)
  | unknownSetting (module setting path : String)
  | missingInput (module input path : String)
  | unresolved (reference : String) (reason : Unresolved) (path : String)
  | forwardReference (module target targetGroup path : String)
  | cycle (members : List String)
  | invalidReference (misuse : Misuse) (path : String)
  | unknownOutput (module output path : String)
  | kindMismatch (group : String) (first second : ModuleKind) (path : String)
  /-- A local path leads into the embedded module tree. -/
  | embeddedLocalPath (source : String)
  | invalidName (problem : NameProblem)
  | schema (path : String) (problem : SchemaProblem)

/-- The wording of a configuration error. -/
def ConfigError.message : ConfigError → String
  | .fileNotFound path => "File not found: " ++ path
  | .decode e => e.message
  | .invalidOverride pair =>
    "invalid format: '" ++ pair ++ "' should follow the 'name=value' format"
  | .invalidOverrideValue key value =>
    "invalid input: unable to convert '" ++ key ++ "' value '" ++ value ++ "' to known type"
  | .invalidLevel level => ValidationLevel.unknownText level
  | .duplicateName noun name path => path ++ ": duplicate " ++ noun ++ " name '" ++ name ++ "'"
  | .unknownSetting m setting path =>
    path ++ ": module '" ++ m ++ "' has no input named '" ++ setting ++ "'"
  | .missingInput m input path =>
    path ++ ": module '" ++ m ++ "' is missing required input '" ++ input ++ "'"
  | .unresolved reference reason path =>
    path ++ ": unresolved reference '" ++ reference ++ "': " ++ reason.message
  | .forwardReference m target targetGroup path =>
    path ++ ": module '" ++ m ++ "' references '" ++ target ++ "' from later group '" ++
      targetGroup ++ "'"
  | .cycle members => "reference cycle detected between: " ++ " -> ".intercalate members
  | .invalidReference misuse path => path ++ ": " ++ misuse.message
  | .unknownOutput m output path =>
    path ++ ": module '" ++ m ++ "' does not declare output '" ++ output ++ "'"
  | .kindMismatch group first second path =>
    path ++ ": group '" ++ group ++ "' mixes module kinds " ++ first.name ++ " and " ++ second.name
  | .embeddedLocalPath source =>
    source ++ ": using embedded modules with local paths is no longer supported; " ++
      "use the embedded path instead"
  | .invalidName problem => problem.path ++ ": " ++ problem.message
  | .schema path problem =>
    "failed to read module schema at " ++ path ++ ": " ++ problem.message

/-! ## Fetching -/

/-- Why a package could not be fetched. -/
inductive FetchError
  | files (context : String) (error : FileError)
  | command (line stderr : String)
  | s3 (message : String)
  | unsupported (address : String)
  /-- A packer source names a directory inside the package, which may be the reason. -/
  | packerSubdir (source : String) (inner : FetchError)
deriving DecidableEq

/-- The wording of a fetch error. -/
def FetchError.message : FetchError → String
  | .files context e => context ++ ": " ++ e.message
  | .command line stderr => "command \x60" ++ line ++ "\x60 failed: " ++ stderr
  | .s3 text => "S3 fetch error: " ++ text
  | .unsupported address => "unsupported module source: " ++ address
  | .packerSubdir source inner =>
    "module source " ++ source ++ " included \"//\" package syntax; the \"//\" should " ++
      "typically be placed at the root of the repository:\n" ++ inner.message

/-! ## Validation and overwriting -/

/-- A validator that did not pass. -/
structure ValidationFailure where
  validator : String
  message : String
  hint : Option String
deriving DecidableEq, Inhabited

/-- The wording of a failure. -/
def ValidationFailure.text (f : ValidationFailure) : String :=
  "validator \"" ++ f.validator ++ "\" failed: " ++ f.message ++
    (match f.hint with
      | some hint => "\nHint: " ++ hint
      | none => "")

/-- The wording of several failures. -/
def failuresText (fs : List ValidationFailure) : String :=
  "\n".intercalate (fs.map ValidationFailure.text)

/-- Why a deployment may not be overwritten. -/
inductive Refusal
  /-- The directory was not made by this toolkit. -/
  | notManaged (dir : String)
  | missingArtifact (dir artifact : String)
  | invalidArtifact (reason : String)
  | versionMismatch (dir previous current : String)
  | overwriteNotRequested (dir : String)
  | groupRemoved (group : String)
deriving DecidableEq

namespace Refusal

/-- A version for people. -/
def versionText (version : String) : String := if version.isEmpty then "<unknown>" else version

/-- The wording of a refusal. -/
def message : Refusal → String
  | .notManaged dir =>
    "while trying to update the deployment directory at " ++ dir ++
      ", the folder was found to exist but was not created by this toolkit"
  | .missingArtifact dir artifact =>
    "the deployment directory at " ++ dir ++ " has no expanded blueprint at " ++ artifact
  | .invalidArtifact reason => "failed to load the previous expanded blueprint: " ++ reason
  | .versionMismatch dir previous current =>
    "the deployment at " ++ dir ++ " was created with toolkit " ++ versionText previous ++
      " but this is " ++ versionText current ++
      "; mixing versions against a live deployment is not supported"
  | .overwriteNotRequested dir => "the deployment directory " ++ dir ++ " already exists"
  | .groupRemoved group =>
    "removing deployment group " ++ group ++ " from an existing deployment is not supported"

/-- The way around most refusals. -/
def forceHint : String :=
  "Use \x60--force\x60 to overwrite the deployment anyway. Proceed at your own risk."

/-- What to do about a refusal. -/
def hint : Refusal → String
  | .missingArtifact .. =>
    "This may be caused by a version mismatch between the toolkit that created the " ++
      "deployment and this one. " ++ forceHint
  | .overwriteNotRequested _ =>
    "Use \x60-w/--overwrite-deployment\x60 to overwrite the existing deployment."
  | _ => forceHint

end Refusal

/-! ## Runs -/

/-- Why a run fails. -/
inductive Error
  | config (error : ConfigError)
  | fetch (error : FetchError)
  | validation (failures : List ValidationFailure)
  | overwrite (refusal : Refusal)
  | files (error : FileError)
  /-- A deployment record cannot be read back. -/
  | badRecord (path : String)
  /-- An expanded blueprint has no name to make a directory of. -/
  | noDeploymentName
  /-- The lookup of a module's schema never finished. -/
  | lookupLost

/-- The wording of an error. -/
def Error.message : Error → String
  | .config e => e.message
  | .fetch e => "Failed to fetch module: " ++ e.message
  | .validation fs => failuresText fs
  | .overwrite r => r.message ++ "\nHint: " ++ r.hint
  | .files e => "IO error: " ++ e.message
  | .badRecord path =>
    "Internal error: Failed to parse deployment record " ++ path ++ ": <json error>"
  | .noDeploymentName => "Internal error: expanded blueprint has no deployment name"
  | .lookupLost => "Internal error: missing module info result"

end HpcBlueprint
