/-
  Finding the schemas of modules, and remembering them.

  A catalog knows where embedded modules are and how packages are fetched. Schemas are
  remembered by source and kind, packages by their address; what failed is not remembered,
  so it is tried again.
-/
import HpcBlueprint.Fetch.Basic
import HpcBlueprint.Schema.Directory
import HpcBlueprint.Source.Locator

namespace HpcBlueprint

/-- Where modules are looked for. -/
structure Catalog (ω : Type) where
  /-- The root of the embedded modules. -/
  embeddedRoot : String
  /-- The fetchers in the order in which they are asked. -/
  fetchers : List (Fetcher ω)

namespace Catalog

/-! ## Memory -/

/-- A schema that was found, with a number that no other one has. -/
structure Entry where
  number : Nat
  schema : Schema

/-- What is remembered. -/
structure Memory where
  schemas : List ((String × ModuleKind) × Entry)
  /-- The download directory of every package that was fetched. -/
  packages : List (String × String)
  /-- How many entries there have been. -/
  entries : Nat
  /-- How many downloads there have been, failed ones included. -/
  downloads : Nat

namespace Memory

/-- Nothing is remembered. -/
def empty : Memory := ⟨[], [], 0, 0⟩

/-- Remembers a schema in place of what was remembered for the same source and kind. -/
def learn (m : Memory) (source : String) (kind : ModuleKind) (s : Schema) : Memory :=
  { m with
    schemas := ((source, kind), ⟨m.entries, s⟩) :: m.schemas.filter (·.1 != (source, kind))
    entries := m.entries + 1 }

/-- What is remembered for a source and kind. -/
def entry? (m : Memory) (source : String) (kind : ModuleKind) : Option Entry :=
  m.schemas.lookup (source, kind)

end Memory

/-- What a catalog remembers, and the files and surroundings that it works on. -/
structure State (ω : Type) where
  memory : Memory
  workspace : Workspace ω

namespace State

variable {ω : Type}

/-- The files that a run sees. -/
def files (s : State ω) : FileSystem := s.workspace.files

/-- The same state with other files. -/
def withFiles (s : State ω) (fs : FileSystem) : State ω :=
  { s with workspace := { s.workspace with files := fs } }

end State

end Catalog

end HpcBlueprint
