/-
  Expanding the blueprint in a file.

  The blueprint and the settings of the run are loaded, the blueprint is expanded with the
  schemas of a catalog, and its validators run. What is expanded may be written to a file.
-/
import HpcBlueprint.Blueprint.Document
import HpcBlueprint.Blueprint.Override
import HpcBlueprint.Catalog.Lookup
import HpcBlueprint.Expand.Run
import HpcBlueprint.Validate.Registry

namespace HpcBlueprint.Run

variable {ω : Type}

/-- What a run expands. -/
structure Options where
  blueprint : String
  /-- A file of settings. -/
  settingsFile : Option String
  overrides : Overrides

/-- What every run works with. -/
structure Tools (ω : Type) where
  catalog : Catalog ω
  validators : Validator.Registry

/-- A blueprint that was expanded and validated. -/
structure Expansion where
  result : Materialized
  /-- The failures of validators that do not end the run. -/
  warnings : List ValidationFailure

/-- The settings of a run: those of the file, overridden. -/
def settings (fs : FileSystem) (o : Options) : Except ConfigError Settings := do
  let base ← match o.settingsFile with
    | some file => Settings.load fs file
    | none => .ok Settings.empty
  (base.override o.overrides).toExcept

/-- The blueprint and the settings of a run. -/
def sources (fs : FileSystem) (o : Options) : Except ConfigError (Blueprint × Settings) := do
  let b ← Blueprint.load fs o.blueprint
  let s ← settings fs o
  return (b, s)

/-- Expands a blueprint with the schemas of a catalog. -/
def expandBlueprint (c : Catalog ω) (b : Blueprint) (settings : Settings) (s : Catalog.State ω) :
    Except Error Materialized × Catalog.State ω :=
  match b.readied settings with
  | .error e => (.error e, s)
  | .ok ready =>
    match c.lookupAll ready.placed s with
    | (finished, s) => (b.expand settings finished, s)

/-- The consequence of an expansion's validators. -/
def validated (r : Validator.Registry) (m : Materialized) : Except Error Expansion :=
  match r.verdict m with
  | .ok warnings => .ok ⟨m, warnings⟩
  | .error failures => .error (.validation failures)

/-- Expands and validates the blueprint of a run. -/
def expand (t : Tools ω) (o : Options) (s : Catalog.State ω) :
    Except Error Expansion × Catalog.State ω :=
  match sources s.files o with
  | .error e => (.error (.config e), s)
  | .ok (b, settings) =>
    match expandBlueprint t.catalog b settings s with
    | (.error e, s) => (.error e, s)
    | (.ok m, s) => (validated t.validators m, s)

/-- Expands and validates the blueprint of a run and writes the result to a file. -/
def expandToFile (t : Tools ω) (o : Options) (out : String) (s : Catalog.State ω) :
    Except Error Expansion × Catalog.State ω :=
  match expand t o s with
  | (.error e, s) => (.error e, s)
  | (.ok x, s) =>
    match s.files.writeText out x.result.blueprint.render with
    | .ok fs => (.ok x, s.withFiles fs)
    | .error e => (.error (.files e), s)

end HpcBlueprint.Run
