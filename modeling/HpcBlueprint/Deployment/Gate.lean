/-
  Whether a deployment may be written over.

  A directory that does not exist may always be written, and force allows everything.
  Otherwise the directory has to hold an expanded blueprint of the same toolkit version,
  overwriting has to be asked for, and no group may disappear.
-/
import HpcBlueprint.Blueprint.Document
import HpcBlueprint.Deployment.Layout

namespace HpcBlueprint.Deployment

/-- What a run may do to a deployment that exists. -/
structure Permission where
  /-- Whether a compatible deployment may be overwritten. -/
  overwrite : Bool
  /-- Whether nothing is checked. -/
  force : Bool
deriving DecidableEq, Inhabited

/-- The blueprint that was written last. -/
def previous (fs : FileSystem) (dir : String) : Except Refusal Blueprint :=
  let path := artifactPath dir
  match fs.read path with
  | .error e => .error (.invalidArtifact e.message)
  | .ok text =>
    match Blueprint.ofArtifact (some path) text with
    | .ok b => .ok b
    | .error e => .error (.invalidArtifact e.message)

/-- The first group of a blueprint that another one lacks. -/
def removedGroup? (old new : Blueprint) : Option String :=
  old.groupNames.find? fun g => !new.groupNames.contains g

/-- Checks that a blueprint may be written over the one before it. -/
def checkSuccessor (dir : String) (old new : Blueprint) (p : Permission) : Except Refusal Unit :=
  if old.toolkitVersion ≠ new.toolkitVersion then
    .error (.versionMismatch dir old.toolkitVersion new.toolkitVersion)
  else if !p.overwrite then .error (.overwriteNotRequested dir)
  else
    match removedGroup? old new with
    | some group => .error (.groupRemoved group)
    | none => .ok ()

/-- Checks that a blueprint may be written to a directory. -/
def checkOverwrite (fs : FileSystem) (dir : String) (new : Blueprint) (p : Permission) :
    Except Refusal Unit :=
  if !fs.contains dir || p.force then .ok ()
  else if !fs.isDirectory (markerDir dir) then .error (.notManaged dir)
  else if !fs.isFile (artifactPath dir) then .error (.missingArtifact dir (artifactPath dir))
  else do
    let old ← previous fs dir
    checkSuccessor dir old new p

end HpcBlueprint.Deployment
