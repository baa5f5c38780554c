/-
  Several calls to one catalog at a time.

  Any number of calls look up schemas at once, and between any two of their steps anything
  else may happen to the files and surroundings.  What is remembered under a key is kept in a
  cell that one call at a time may fill: a call that finds the cell of its source and kind
  empty takes it and loads the schema, and on the way it may find the cell of a package empty,
  take that and fetch the package.  A cell is given back with a value or without one; while
  it is taken, the other calls for it have to wait.

  A fetch takes effect when it ends, and so does the reading of a schema.  As the workspace
  may have been changed to anything until then, they may meet anything.
-/
import HpcBlueprint.Proofs.Catalog.Memory
import Mathlib.Logic.Function.Basic

namespace HpcBlueprint
namespace Catalog

variable {ω : Type} {c : Catalog ω}

/-! ## Calls -/

/-- What schemas are remembered by. -/
abbrev Key := String × ModuleKind

/-- The package of a remote source. -/
def Key.package (key : Key) : String := (Source.splitPackage key.1).1

/-- How far a call to look up a schema has come. -/
inductive Call
  /-- Not made yet. -/
  | idle
  /-- Waits for what is remembered, or for the right to load it. -/
  | asked (key : Key)
  /-- Loads, and looks for the directory of the module; for a remote source it waits for its
      package, or for the right to fetch it. -/
  | locating (key : Key)
  /-- Loads, and fetches the package. -/
  | fetching (key : Key)
  /-- Loads, and reads the module in a directory. -/
  | reading (key : Key) (dir : String)
  /-- Has loaded. -/
  | loaded (key : Key) (outcome : Except Error Schema)
  | returned (key : Key) (outcome : Except Error Entry)

namespace Call

/-- What a call is loading. -/
def loads? : Call → Option Key
  | .locating key | .fetching key | .reading key _ | .loaded key _ => some key
  | .idle | .asked _ | .returned _ _ => none

/-- The package that a call is fetching. -/
def fetches? : Call → Option String
  | .fetching key => some key.package
  | _ => none

/-- A load goes on in the directory that was found for it, or is over. -/
def located (key : Key) : Except Error String → Call
  | .ok dir => .reading key dir
  | .error e => .loaded key (.error e)

/-- A load goes on after its package was fetched, or is over. -/
def fetched (key : Key) : Except FetchError String → Call
  | .ok _ => .locating key
  | .error e =>
    .loaded key (.error (.fetch (explain key.1 key.2 (Source.splitPackage key.1).2 e)))

end Call

/-! ## Steps -/

/-- A catalog that answers calls: what it remembers and works on, which calls have taken the
    cells that are being filled, and how far every call has come. -/
structure Session (ω : Type) where
  state : State ω
  loading : Key → Option Nat
  fetching : String → Option Nat
  calls : Nat → Call

/-- What happens in a step, as far as loads and fetches are concerned. -/
inductive Event
  | loadStarted (key : Key)
  | loadEnded (key : Key) (succeeded : Bool)
  | fetchStarted (package : String)
  | fetchEnded (package : String) (succeeded : Bool)
  | other
deriving DecidableEq

/-- What a call does that concerns no other one. -/
inductive Moves (c : Catalog ω) (s : State ω) : Call → Call → Prop
  | ask (key : Key) : Moves c s .idle (.asked key)
  | remember {key : Key} {e : Entry} (known : s.memory.entry? key.1 key.2 = some e) :
      Moves c s (.asked key) (.returned key (.ok e))
  | locate {key : Key}
      (known : Source.kind key.1 = .remote → s.memory.packages.lookup key.package ≠ none) :
      Moves c s (.locating key) (.located key (c.directory key.1 key.2 s).1)
  | read {key : Key} {dir : String} :
      Moves c s (.reading key dir) (.loaded key (Schema.ofDirectory s.files key.2 dir))

/-- Remembers a schema that was loaded. -/
def State.keep (s : State ω) (key : Key) : Except Error Schema → State ω
  | .ok schema => s.learn key.1 key.2 schema
  | .error _ => s

namespace Session

/-- A call comes to another point. -/
def go (s : Session ω) (t : Nat) (call : Call) : Session ω :=
  { s with calls := Function.update s.calls t call }

/-- The step that one call takes, or that others take in the workspace. -/
inductive Step (c : Catalog ω) : Session ω → Event → Session ω → Prop
  | move {s : Session ω} {t : Nat} {call : Call} (moves : Moves c s.state (s.calls t) call) :
      Step c s .other (s.go t call)
  | elsewhere {s : Session ω} (w : Workspace ω) :
      Step c s .other { s with state := { s.state with workspace := w } }
  | loadStart {s : Session ω} {t : Nat} {key : Key} (asked : s.calls t = .asked key)
      (unknown : s.state.memory.entry? key.1 key.2 = none) (free : s.loading key = none) :
      Step c s (.loadStarted key)
        { s with
          loading := Function.update s.loading key (some t)
          calls := Function.update s.calls t (.locating key) }
  | loadEnd {s : Session ω} {t : Nat} {key : Key} {outcome : Except Error Schema}
      (loaded : s.calls t = .loaded key outcome) :
      Step c s (.loadEnded key outcome.isOk)
        { s with
          state := s.state.keep key outcome
          loading := Function.update s.loading key none
          calls := Function.update s.calls t
            (.returned key (outcome.map fun schema => ⟨s.state.memory.entries, schema⟩)) }
  | fetchStart {s : Session ω} {t : Nat} {key : Key} (locating : s.calls t = .locating key)
      (remote : Source.kind key.1 = .remote)
      (unknown : s.state.memory.packages.lookup key.package = none)
      (free : s.fetching key.package = none) :
      Step c s (.fetchStarted key.package)
        { s with
          fetching := Function.update s.fetching key.package (some t)
          calls := Function.update s.calls t (.fetching key) }
  | fetchEnd {s : Session ω} {t : Nat} {key : Key} {outcome : Except FetchError String}
      {state : State ω} (fetching : s.calls t = .fetching key)
      (fetched : c.download key.package s.state = (outcome, state)) :
      Step c s (.fetchEnded key.package outcome.isOk)
        { s with
          state := state
          fetching := Function.update s.fetching key.package none
          calls := Function.update s.calls t (.fetched key outcome) }

/-- What happens in steps that are taken one after the other. -/
inductive Run (c : Catalog ω) (start : Session ω) : List Event → Session ω → Prop
  | start : Run c start [] start
  | step {events : List Event} {event : Event} {s s' : Session ω} (before : Run c start events s)
      (step : Step c s event s') : Run c start (events ++ [event]) s'

/-- No call has been made; anything may be remembered already. -/
structure Initial (s : Session ω) : Prop where
  loading : ∀ key, s.loading key = none
  fetching : ∀ package, s.fetching package = none
  calls : ∀ t, s.calls t = .idle

/-- Nothing is remembered of a source and kind, and no call is loading it. -/
def SchemaEmpty (s : Session ω) (key : Key) : Prop :=
  s.state.memory.entry? key.1 key.2 = none ∧ s.loading key = none

/-- Nothing is remembered of a package, and no call is fetching it. -/
def PackageEmpty (s : Session ω) (package : String) : Prop :=
  s.state.memory.packages.lookup package = none ∧ s.fetching package = none

end Session

/-! ## Who has taken what -/

/-- A cell is marked as taken by a call exactly while the call works on it. -/
def Marked {κ : Type} (works : Nat → Option κ) (takenBy : κ → Option Nat) : Prop :=
  ∀ t key, works t = some key ↔ takenBy key = some t

namespace Marked

variable {κ : Type} {works : Nat → Option κ} {takenBy : κ → Option Nat} {t : Nat} {key : κ}

/-- Only one call works on a cell. -/
theorem eq (h : Marked works takenBy) {u : Nat} (ht : works t = some key)
    (hu : works u = some key) : t = u :=
  Option.some.inj (((h t key).mp ht).symm.trans ((h u key).mp hu))

variable [DecidableEq κ]

/-- A call that works on nothing takes a free cell. -/
theorem take (h : Marked works takenBy) (idle : works t = none) (free : takenBy key = none) :
    Marked (Function.update works t (some key)) (Function.update takenBy key (some t)) := by
  intro u k
  by_cases hu : u = t
  · subst hu
    rw [Function.update_self]
    by_cases hk : k = key
    · subst hk
      simp
    · -- a call that works on nothing holds no other cell
      have hne : takenBy k ≠ some u := fun htaken => by
        rw [(h u k).mpr htaken] at idle
        cases idle
      simp [Function.update_of_ne hk, hne, Ne.symm hk]
  · rw [Function.update_of_ne hu]
    by_cases hk : k = key
    · -- no other call worked on the free cell
      subst hk
      have hne : works u ≠ some k := fun hworks => by
        rw [(h u k).mp hworks] at free
        cases free
      simp [hne, Ne.symm hu]
    · rw [Function.update_of_ne hk]
      exact h u k

/-- A call gives its cell back. -/
theorem release (h : Marked works takenBy) (working : works t = some key) :
    Marked (Function.update works t none) (Function.update takenBy key none) := by
  intro u k
  by_cases hu : u = t
  · subst hu
    rw [Function.update_self]
    by_cases hk : k = key
    · subst hk
      simp
    · have hne : takenBy k ≠ some u := fun htaken => by
        rw [(h u k).mpr htaken] at working
        exact hk (Option.some.inj working)
      simp [Function.update_of_ne hk, hne]
  · rw [Function.update_of_ne hu]
    by_cases hk : k = key
    · subst hk
      have hne : works u ≠ some k := fun hworks => hu (h.eq hworks working)
      simp [hne]
    · rw [Function.update_of_ne hk]
      exact h u k

end Marked

end Catalog
end HpcBlueprint
