/-
  Attaching schemas to the modules of a blueprint.

  The schemas of all modules are looked up at once, and the lookups may finish in any
  order. Each is filed under the place of its module, so what is attached, and which
  failure is reported, depends on the order of the modules only.
-/
import HpcBlueprint.Error

namespace HpcBlueprint

/-- The place of a module: its group and its number in the group. -/
structure Place where
  group : Nat
  module : Nat
deriving DecidableEq, Inhabited

/-- A lookup that has finished. -/
structure Finished where
  place : Place
  outcome : Except Error Schema

namespace Blueprint

/-- The modules of a group with their places, from number `j` on. -/
def placedModules (i : Nat) : Nat → List Module → List (Place × Module)
  | _, [] => []
  | j, m :: rest => (⟨i, j⟩, m) :: placedModules i (j + 1) rest

/-- The modules of the groups from number `i` on, with their places. -/
def placedGroups : Nat → List Group → List (Place × Module)
  | _, [] => []
  | i, g :: rest => placedModules i 0 g.modules ++ placedGroups (i + 1) rest

/-- All modules with their places, in order. -/
def placed (b : Blueprint) : List (Place × Module) := placedGroups 0 b.groups

/-- The outcome that was filed under a place. -/
def outcomeAt (finished : List Finished) (p : Place) : Except Error Schema :=
  match finished.find? (·.place == p) with
  | some f => f.outcome
  | none => .error .lookupLost

/-- Attaches schemas to the modules of a group from number `j` on. -/
def attachModules (outcome : Place → Except Error Schema) (i : Nat) :
    Nat → List Module → Except Error (List Module)
  | _, [] => .ok []
  | j, m :: rest => do
    let schema ← outcome ⟨i, j⟩
    return { m with schema := some schema } :: (← attachModules outcome i (j + 1) rest)

/-- Attaches schemas to the modules of the groups from number `i` on. -/
def attachGroups (outcome : Place → Except Error Schema) :
    Nat → List Group → Except Error (List Group)
  | _, [] => .ok []
  | i, g :: rest => do
    let modules ← attachModules outcome i 0 g.modules
    return { g with modules } :: (← attachGroups outcome (i + 1) rest)

/-- Attaches the schemas that the lookups found; the first module in order whose lookup
    failed decides. -/
def attach (b : Blueprint) (finished : List Finished) : Except Error Blueprint := do
  return { b with groups := ← attachGroups (outcomeAt finished) 0 b.groups }

end Blueprint

end HpcBlueprint
