/-
  Where things are in a deployment directory.
-/
import HpcBlueprint.Files.Path

namespace HpcBlueprint.Deployment

/-- The directory that marks a deployment of this toolkit. -/
def markerName : String := ".clusterkit"

/-- The directory of the artifacts below the marker. -/
def artifactsName : String := "artifacts"

/-- The file of the expanded blueprint. -/
def artifactName : String := "expanded_blueprint.yaml"

/-- The file of the deployment record. -/
def recordName : String := "deployment.json"

/-- The file of the instructions. -/
def instructionsName : String := "instructions.txt"

/-- The marker directory of a deployment. -/
def markerDir (dir : String) : String := Path.join dir markerName

/-- The artifact directory of a deployment. -/
def artifactsDir (dir : String) : String := Path.join (markerDir dir) artifactsName

/-- The expanded blueprint of a deployment. -/
def artifactPath (dir : String) : String := Path.join (artifactsDir dir) artifactName

/-- The record of a deployment. -/
def recordPath (dir : String) : String := Path.join (artifactsDir dir) recordName

/-- The instructions of a deployment. -/
def instructionsPath (dir : String) : String := Path.join dir instructionsName

end HpcBlueprint.Deployment
