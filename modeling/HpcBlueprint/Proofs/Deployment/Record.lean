/-
  What the record of a deployment says.

  The text of a record reads back with every field as it was written; only the time of
  writing has to be readable on its own.
-/
import HpcBlueprint.Deployment.Record
import HpcBlueprint.Proofs.Json.RoundTrip

namespace HpcBlueprint.Deployment.Record

/-- The fields that a record is written as. -/
def fields (r : Record) : List (String × Json.Data) := [
  ("toolkit_version", .string r.toolkitVersion),
  ("blueprint_hash", .string r.blueprintHash),
  ("written_at", .string (r.writtenAt.render "Z")),
  ("groups", .texts r.groups)]

theorem render_eq (r : Record) : r.render = (Json.Data.object r.fields).render := rfl

theorem numberFree_fields (r : Record) : (Json.Data.object r.fields).NumberFree := by
  have hgroups : (Json.Data.texts r.groups).NumberFree := by
    refine .array fun d hd => ?_
    obtain ⟨group, -, rfl⟩ := List.mem_map.mp hd
    exact .string group
  refine .object fun field hfield => ?_
  simp only [fields, List.mem_cons, List.not_mem_nil, or_false] at hfield
  rcases hfield with rfl | rfl | rfl | rfl
  · exact .string _
  · exact .string _
  · exact .string _
  · exact hgroups

theorem ofText?_render_fields (r : Record) :
    Json.Data.ofText? r.render = some (.object r.fields) := by
  rw [render_eq, Json.Data.ofText?_render r.numberFree_fields]

theorem strings?_texts (items : List String) : (Json.Data.texts items).strings? = some items := by
  rw [Json.Data.texts, Json.Data.strings?]
  induction items with
  | nil => rfl
  | cons item rest ih => simp [Json.Data.string?, ih]

/-- Every field is written once. -/
theorem single?_fields (r : Record) :
    Json.Data.single? r.fields "toolkit_version" = some (.string r.toolkitVersion) ∧
      Json.Data.single? r.fields "blueprint_hash" = some (.string r.blueprintHash) ∧
      Json.Data.single? r.fields "written_at" = some (.string (r.writtenAt.render "Z")) ∧
      Json.Data.single? r.fields "groups" = some (.texts r.groups) :=
  ⟨rfl, rfl, rfl, rfl⟩

/-- A record reads back, if the time of writing does. -/
theorem ofText?_render (r : Record) :
    ofText? r.render =
      (Instant.ofText? (r.writtenAt.render "Z")).map fun time => { r with writtenAt := time } := by
  obtain ⟨hversion, hhash, htime, hgroups⟩ := r.single?_fields
  rw [ofText?, ofText?_render_fields, Option.bind_eq_bind, Option.bind_some, ofData?]
  simp only [hversion, hhash, htime, hgroups, Option.bind_eq_bind, Option.bind_some, ofValues?,
    Json.Data.string?, strings?_texts]
  cases Instant.ofText? (r.writtenAt.render "Z") <;> rfl

/-- The hash that the text of a record names. -/
def hashIn? (text : String) : Option String := do
  match ← Json.Data.ofText? text with
  | .object fields => (← Json.Data.single? fields "blueprint_hash").string?
  | _ => none

theorem hashIn?_render (r : Record) : hashIn? r.render = some r.blueprintHash := by
  obtain ⟨-, hhash, -, -⟩ := r.single?_fields
  rw [hashIn?, ofText?_render_fields, Option.bind_eq_bind, Option.bind_some]
  simp only [hhash, Option.bind_some, Json.Data.string?]

end HpcBlueprint.Deployment.Record
