/-
  The record beside an expanded blueprint: what was deployed, and when.
-/
import HpcBlueprint.Deployment.Layout
import HpcBlueprint.Error
import HpcBlueprint.Files.Tree
import HpcBlueprint.Json.Reader
import HpcBlueprint.Time.Reader

namespace HpcBlueprint.Deployment

/-- What is recorded of a deployment. -/
structure Record where
  toolkitVersion : String
  /-- The digest of the expanded blueprint. -/
  blueprintHash : String
  writtenAt : Instant
  /-- The groups in order. -/
  groups : List String
deriving DecidableEq, Inhabited

namespace Record

/-- The text of a record. -/
def render (r : Record) : String :=
  (Json.Data.object [
    ("toolkit_version", .string r.toolkitVersion),
    ("blueprint_hash", .string r.blueprintHash),
    ("written_at", .string (r.writtenAt.render "Z")),
    ("groups", .texts r.groups)]).render

/-- The record of four values. -/
def ofValues? (version hash time groups : Json.Data) : Option Record := do
  let version ← version.string?
  let hash ← hash.string?
  let time ← time.string?
  let time ← Instant.ofText? time
  let groups ← groups.strings?
  return ⟨version, hash, time, groups⟩

/-- The record that data describes: an object with each field once, or the values in order. -/
def ofData? : Json.Data → Option Record
  | .object fields => do
    let value := Json.Data.single? fields
    ofValues? (← value "toolkit_version") (← value "blueprint_hash") (← value "written_at")
      (← value "groups")
  | .array [version, hash, time, groups] => ofValues? version hash time groups
  | _ => none

/-- The record that a text holds. -/
def ofText? (text : String) : Option Record := do
  let data ← Json.Data.ofText? text
  ofData? data

end Record

/-- The record of a deployment, if there is one. -/
def readRecord (fs : FileSystem) (dir : String) : Except Error (Option Record) :=
  let path := recordPath dir
  if fs.contains path then
    match fs.read path with
    | .error e => .error (.files e)
    | .ok text =>
      match Record.ofText? text with
      | some r => .ok (some r)
      | none => .error (.badRecord path)
  else .ok none

end HpcBlueprint.Deployment
