/-
  Fetching packages.

  A fetcher knows some kind of package address and puts such a package into a directory.
  The first fetcher that handles an address gets it.
-/
import HpcBlueprint.Error
import HpcBlueprint.Files.Tree

namespace HpcBlueprint

/-- The files that a run sees, and what it meets besides them. -/
structure Workspace (ω : Type) where
  files : FileSystem
  outside : ω

/-- A way to fetch packages. -/
structure Fetcher (ω : Type) where
  name : String
  /-- Whether an address is of the kind that the fetcher knows. -/
  handles : String → Bool
  /-- Puts the package at an address into a directory. -/
  fetch : String → String → Workspace ω → Except FetchError Unit × Workspace ω

namespace Fetcher

variable {ω : Type}

/-- Fetches a package with the first fetcher that handles its address. -/
def fetchFirst (fetchers : List (Fetcher ω)) (package dest : String) (w : Workspace ω) :
    Except FetchError Unit × Workspace ω :=
  match fetchers.find? (·.handles package) with
  | some f => f.fetch package dest w
  | none => (.error (.unsupported package), w)

end Fetcher

end HpcBlueprint
