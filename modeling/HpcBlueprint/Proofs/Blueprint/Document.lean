/-
  What the document of a blueprint tells about it.

  The version of the toolkit and the names of the groups can be read off the document, so
  blueprints of the same document agree on them.
-/
import HpcBlueprint.Blueprint.Encode

namespace HpcBlueprint

open Yaml (Tree)

/-! ## Fields of a mapping -/

/-- The value of the first entry under a text. -/
def Tree.value? (name : String) : List (Tree × Tree) → Option Tree
  | [] => none
  | (.string key, t) :: rest => if key = name then some t else value? name rest
  | _ :: rest => value? name rest

namespace Tree

theorem value?_field_self (name : String) (t : Tree) (rest : List (Tree × Tree)) :
    value? name (field name t :: rest) = some t := by
  rw [field, value?, if_pos rfl]

theorem value?_field_ne {key name : String} (hne : key ≠ name) (t : Tree)
    (rest : List (Tree × Tree)) : value? name (field key t :: rest) = value? name rest := by
  rw [field, value?, if_neg hne]

theorem value?_fieldIf_self (present : Bool) (name : String) (t : Tree)
    (rest : List (Tree × Tree)) :
    value? name (fieldIf present name t ++ rest) =
      if present then some t else value? name rest := by
  cases present with
  | false => rfl
  | true => exact value?_field_self name t rest

theorem value?_fieldIf_ne {key name : String} (hne : key ≠ name) (present : Bool) (t : Tree)
    (rest : List (Tree × Tree)) :
    value? name (fieldIf present key t ++ rest) = value? name rest := by
  cases present with
  | false => rfl
  | true => exact value?_field_ne hne t rest

end Tree

/-- The value of a field of a tree that is a mapping. -/
def Tree.valueOf? (name : String) : Tree → Option Tree
  | .mapping entries => value? name entries
  | _ => none

/-- The text of a tree that is one. -/
def Tree.text? : Tree → Option String
  | .string s => some s
  | _ => none

/-- The items of a tree that is a sequence. -/
def Tree.items : Tree → List Tree
  | .sequence items => items
  | _ => []

/-! ## Blueprints -/

theorem Group.text?_toTree (g : Group) :
    (Tree.valueOf? "group" g.toTree).bind Tree.text? = some g.name := by
  rw [toTree, Tree.valueOf?, List.cons_append, Tree.value?_field_self]
  rfl

namespace Blueprint

/-- The document of a blueprint names the version of the toolkit, if there is one. -/
theorem text?_toTree (b : Blueprint) :
    ((Tree.valueOf? "toolkit_version" b.toTree).bind Tree.text?).getD "" = b.toolkitVersion := by
  have hvalue : Tree.valueOf? "toolkit_version" b.toTree =
      if !b.toolkitVersion.isEmpty then some (.string b.toolkitVersion) else none := by
    rw [toTree, Tree.valueOf?]
    simp (disch := decide) only [List.cons_append, List.append_assoc, List.nil_append,
      Tree.value?_field_ne, Tree.value?_fieldIf_self, Tree.value?_fieldIf_ne, Tree.value?]
  rw [hvalue]
  cases hempty : b.toolkitVersion.isEmpty with
  | true => exact (String.isEmpty_iff.mp hempty).symm
  | false => rfl

/-- The document of a blueprint names its groups in order. -/
theorem items_toTree (b : Blueprint) :
    ((Tree.valueOf? "deployment_groups" b.toTree).elim [] Tree.items).filterMap
      (fun t => (Tree.valueOf? "group" t).bind Tree.text?) = b.groupNames := by
  have hvalue : Tree.valueOf? "deployment_groups" b.toTree =
      some (.sequence (b.groups.map Group.toTree)) := by
    rw [toTree, Tree.valueOf?]
    simp (disch := decide) only [List.cons_append, List.append_assoc, List.nil_append,
      Tree.value?_field_self, Tree.value?_field_ne, Tree.value?_fieldIf_ne]
  rw [hvalue, Option.elim_some, Tree.items, List.filterMap_map, groupNames]
  have hname : (fun t => (Tree.valueOf? "group" t).bind Tree.text?) ∘ Group.toTree =
      some ∘ (·.name) := funext Group.text?_toTree
  rw [hname, List.filterMap_eq_map]

theorem toolkitVersion_eq_of_toTree_eq {b b' : Blueprint} (h : b.toTree = b'.toTree) :
    b.toolkitVersion = b'.toolkitVersion := by
  rw [← b.text?_toTree, h, b'.text?_toTree]

theorem groupNames_eq_of_toTree_eq {b b' : Blueprint} (h : b.toTree = b'.toTree) :
    b.groupNames = b'.groupNames := by
  rw [← b.items_toTree, h, b'.items_toTree]

end Blueprint

end HpcBlueprint
