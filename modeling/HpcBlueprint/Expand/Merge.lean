/-
  Merging the settings of a run into a blueprint.
-/
import HpcBlueprint.Blueprint.Basic

namespace HpcBlueprint.Blueprint

/-- The blueprint with settings: their variables win, their backend replaces the default one
    if it has a type, their level wins, and skipped validators add up. -/
def merge (b : Blueprint) (s : Settings) : Blueprint :=
  { b with
    vars := b.vars.insertAll s.vars
    backendDefaults :=
      if s.backendDefaults.type.isEmpty then b.backendDefaults else s.backendDefaults
    level := s.level.getD b.level
    skipped := b.skipped.union s.skipped }

/-- The blueprint with the version of this toolkit, whatever it said before. -/
def stamp (b : Blueprint) : Blueprint := { b with toolkitVersion := HpcBlueprint.toolkitVersion }

/-- The blueprint with settings and version. -/
def prepare (b : Blueprint) (s : Settings) : Blueprint := (b.merge s).stamp

end HpcBlueprint.Blueprint
