/-
  Running the validators of a blueprint.
-/
import HpcBlueprint.Expand.Materialize

namespace HpcBlueprint

/-- What a validator has against a blueprint. -/
structure Objection where
  message : String
  hint : Option String
deriving DecidableEq, Inhabited

/-- A check of an expanded blueprint under given inputs. -/
abbrev Validator := Materialized → OrderedMap Value → Option Objection

namespace Validator

/-- Validators by name. -/
abbrev Registry := List (String × Validator)

/-- The objection to a validator that does not exist. -/
def unknown : Objection :=
  ⟨"unknown validator", some "remove it from the blueprint's validators list"⟩

/-- Whether a validator of a blueprint runs. -/
def isActive (b : Blueprint) (v : ValidatorEntry) : Bool := !v.skip && !b.isSkipped v.validator

/-- What one validator of a blueprint finds. -/
def Registry.check (r : Registry) (m : Materialized) (v : ValidatorEntry) :
    Option ValidationFailure :=
  let objection := match r.lookup v.validator with
    | some check => check m v.inputs
    | none => some unknown
  objection.map fun o => ⟨v.validator, o.message, o.hint⟩

/-- The failures of all validators that run, in the order of the blueprint. -/
def Registry.failures (r : Registry) (m : Materialized) : List ValidationFailure :=
  (m.blueprint.validators.filter (isActive m.blueprint)).filterMap (r.check m)

/-- Runs the validators of a blueprint, unless its level is to ignore them. -/
def Registry.run (r : Registry) (m : Materialized) : List ValidationFailure :=
  match m.blueprint.level with
  | .ignore => []
  | _ => r.failures m

/-- Runs the validators and draws the consequence: an error, or warnings. -/
def Registry.verdict (r : Registry) (m : Materialized) :
    Except (List ValidationFailure) (List ValidationFailure) :=
  let found := r.run m
  if m.blueprint.level == .error && !found.isEmpty then .error found else .ok found

end Validator

end HpcBlueprint
