/-
  Writing a deployment.

  The directories are made first. Then the expanded blueprint, the record and the
  instructions are replaced one after the other, each in the steps of a `Replacement`.
-/
import HpcBlueprint.Blueprint.Document
import HpcBlueprint.Deployment.Record
import HpcBlueprint.Files.Step

namespace HpcBlueprint.Deployment

/-! ## Contents -/

/-- The record of a blueprint that is written at some time. -/
def recordOf (b : Blueprint) (now : Instant) : Record :=
  ⟨b.toolkitVersion, b.hash, now, b.groupNames⟩

/-- One line about a group. -/
def groupLine (g : Group) : String :=
  "  - " ++ g.name ++ " (" ++ toString g.modules.length ++ " modules)\n"

/-- What to do after a deployment is written. -/
def instructions (b : Blueprint) (dir : String) : String :=
  "Deployment " ++ b.deploymentName?.getD "" ++ " was expanded by clusterkit " ++
    b.toolkitVersion ++ ".\n\nThe materialized blueprint is at:\n  " ++ artifactPath dir ++
    "\n\nDeployment groups, in provisioning order:\n" ++ String.join (b.groups.map groupLine) ++
    "\nTo change the deployment, edit the blueprint and run \x60clusterkit create -w\x60 again.\n"

/-! ## Steps -/

/-- The replacement of a file in a directory; its new content is written under the same name
    with another extension. -/
def replacementIn (dir name text : String) : Replacement :=
  ⟨Path.join dir name, Path.join dir (Path.withExtension name "tmp"), text⟩

/-- What is replaced to write a deployment, in order. -/
def replacements (b : Blueprint) (dir : String) (now : Instant) : List Replacement := [
  replacementIn (artifactsDir dir) artifactName b.render,
  replacementIn (artifactsDir dir) recordName (recordOf b now).render,
  replacementIn dir instructionsName (instructions b dir)]

/-- Writes a deployment. What was done before a failure stays. -/
def write (fs : FileSystem) (b : Blueprint) (dir : String) (now : Instant) :
    Except FileError Unit × FileSystem :=
  match fs.makeDirectories (Path.ancestors (artifactsDir dir)) with
  | (.error e, fs) => (.error e, fs)
  | (.ok _, fs) => fs.applyAll ((replacements b dir now).flatMap Replacement.steps)

end HpcBlueprint.Deployment
