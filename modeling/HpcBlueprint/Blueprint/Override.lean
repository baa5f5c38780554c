/-
  Overrides of a run's settings.

  Overrides are written `name=value`. They are applied one after the other until one cannot
  be; what was applied before it stays.
-/
import HpcBlueprint.Error
import HpcBlueprint.Text.Search

namespace HpcBlueprint

/-- What may be overridden for one run. -/
structure Overrides where
  /-- Variables, as `name=literal`. -/
  vars : List String
  /-- The backend, as `type=name` and `key=text`. -/
  backend : List String
  level : Option String
  /-- Validators that do not run; empty names mean nothing. -/
  skipped : List String
deriving DecidableEq, Inhabited

/-- No overrides. -/
def Overrides.none : Overrides := ⟨[], [], Option.none, []⟩

/-- Settings with the overrides up to the first that cannot be applied. -/
structure Overridden where
  settings : Settings
  failure : Option ConfigError

namespace Overridden

/-- Goes on with further overrides unless one has failed. -/
def andThen (o : Overridden) (next : Settings → Overridden) : Overridden :=
  match o.failure with
  | none => next o.settings
  | some _ => o

/-- The settings, if all overrides could be applied. -/
def toExcept (o : Overridden) : Except ConfigError Settings :=
  match o.failure with
  | none => .ok o.settings
  | some e => .error e

end Overridden

namespace Settings

/-- The two sides of an override. -/
def splitPair (pair : String) : Except ConfigError (String × String) :=
  match Text.splitOnce '=' pair with
  | some sides => .ok sides
  | none => .error (.invalidOverride pair)

/-- The name and value of a variable override. -/
def varOfPair (pair : String) : Except ConfigError (String × Value) := do
  let (key, text) ← splitPair pair
  match Value.parse text with
  | .ok v => .ok (key, v)
  | .error _ => .error (.invalidOverrideValue key text)

/-- Overrides variables one after the other. -/
def overrideVars (s : Settings) : List String → Overridden
  | [] => ⟨s, none⟩
  | pair :: rest =>
    match varOfPair pair with
    | .ok (key, v) => overrideVars { s with vars := s.vars.insert key v } rest
    | .error e => ⟨s, some e⟩

/-- The type of a backend whose overrides give none. -/
def defaultBackendType : String := "gcs"

/-- Puts overrides into a backend one after the other. -/
def putBackend (b : Backend) : List String → Except ConfigError Backend
  | [] => .ok b
  | pair :: rest => do
    let (key, text) ← splitPair pair
    putBackend
      (if key == "type" then { b with type := text }
        else { b with configuration := b.configuration.insert key (.string text) }) rest

/-- Overrides the default backend; any override replaces it altogether. -/
def overrideBackend (s : Settings) (pairs : List String) : Overridden :=
  if pairs.isEmpty then ⟨s, none⟩
  else
    match putBackend ⟨defaultBackendType, []⟩ pairs with
    | .ok b => ⟨{ s with backendDefaults := b }, none⟩
    | .error e => ⟨s, some e⟩

/-- Overrides the validation level. -/
def overrideLevel (s : Settings) : Option String → Overridden
  | none => ⟨s, none⟩
  | some name =>
    match ValidationLevel.ofName? name with
    | some level => ⟨{ s with level := some level }, none⟩
    | none => ⟨s, some (.invalidLevel name)⟩

/-- Adds validators that do not run. -/
def skip (s : Settings) (names : List String) : Settings :=
  { s with skipped := s.skipped.union (names.filter fun n => !n.isEmpty) }

/-- Applies overrides: variables, then the backend, the level and the skipped validators. -/
def override (s : Settings) (o : Overrides) : Overridden :=
  (s.overrideVars o.vars).andThen fun s =>
    (s.overrideBackend o.backend).andThen fun s =>
      (s.overrideLevel o.level).andThen fun s => ⟨s.skip o.skipped, none⟩

end Settings

end HpcBlueprint
