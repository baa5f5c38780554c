/-
  Creating a deployment.

  The blueprint is expanded and validated and the gate is asked; only then anything is
  written.
-/
import HpcBlueprint.Deployment.Gate
import HpcBlueprint.Deployment.Writer
import HpcBlueprint.Digest.Compare
import HpcBlueprint.Run.Expansion

namespace HpcBlueprint.Run

variable {ω : Type}

/-- Where a deployment goes, and what may happen to one that is there. -/
structure Destination where
  /-- The directory that holds deployments. -/
  out : String
  permission : Deployment.Permission

/-- A deployment that was written. -/
structure Created where
  expansion : Expansion
  dir : String
  instructions : String
  /-- Whether the blueprint is the one that was deployed before. -/
  isUnchanged : Bool

/-- Whether the record in a directory is one of this blueprint. -/
def isUnchanged (fs : FileSystem) (dir : String) (b : Blueprint) : Bool :=
  match Deployment.readRecord fs dir with
  | .ok (some r) => Digest.sameDigest b.hash r.blueprintHash
  | _ => false

/-- The directory of a blueprint's deployment. -/
def deploymentDir (out : String) (b : Blueprint) : Except Error String :=
  match b.deploymentName? with
  | some name => .ok (Path.join out name)
  | none => .error .noDeploymentName

/-- The directory that an expansion may be written to. -/
def cleared (fs : FileSystem) (d : Destination) (x : Expansion) : Except Error String := do
  let dir ← deploymentDir d.out x.result.blueprint
  (Deployment.checkOverwrite fs dir x.result.blueprint d.permission).mapError .overwrite
  return dir

/-- Creates the deployment of a run at some time. -/
def create (t : Tools ω) (o : Options) (d : Destination) (now : Instant) (s : Catalog.State ω) :
    Except Error Created × Catalog.State ω :=
  match expand t o s with
  | (.error e, s) => (.error e, s)
  | (.ok x, s) =>
    match cleared s.files d x with
    | .error e => (.error e, s)
    | .ok dir =>
      let unchanged := isUnchanged s.files dir x.result.blueprint
      match Deployment.write s.files x.result.blueprint dir now with
      | (.ok _, fs) => (.ok ⟨x, dir, Deployment.instructionsPath dir, unchanged⟩, s.withFiles fs)
      | (.error e, fs) => (.error (.files e), s.withFiles fs)

end HpcBlueprint.Run
