/-
  Expanding a blueprint.

  Settings and version are merged in and the shape is checked before any schema is looked
  up; then inputs are wired, defaults filled in and references resolved.
-/
import HpcBlueprint.Expand.Merge
import HpcBlueprint.Expand.Lookup
import HpcBlueprint.Expand.Wiring
import HpcBlueprint.Expand.Defaults
import HpcBlueprint.Expand.Materialize

namespace HpcBlueprint.Blueprint

/-- What has to hold before schemas are looked up. -/
def readied (b : Blueprint) (s : Settings) : Except Error Blueprint := do
  let b := b.prepare s
  (Expand.checkStructure b).mapError .config
  return b

/-- A blueprint with schemas, wired and with defaults: what references are resolved in. -/
def filled (b : Blueprint) : Blueprint := b.wire.spreadBackend.withValidators

/-- Completes the expansion of a blueprint whose modules have their schemas. -/
def complete (b : Blueprint) : Except Error Materialized :=
  b.filled.materialize.mapError .config

/-- Expands a blueprint, given the finished lookups of its modules' schemas. -/
def expand (b : Blueprint) (s : Settings) (finished : List Finished) :
    Except Error Materialized := do
  let b ← b.readied s
  let b ← b.attach finished
  b.complete

end HpcBlueprint.Blueprint
