/-
  Where modules come from.

  A source is a path into the embedded module tree, a path of the local filesystem, or
  the address of a package that has to be fetched. A package address may be followed by
  `//` and a directory inside the package; a query stays with the package.
-/
import HpcBlueprint.Text.Search

namespace HpcBlueprint.Source

/-- Where a module lives. -/
inductive Kind
  | embedded
  | local
  | remote
deriving DecidableEq, Inhabited

/-- Whether a source names an embedded module. -/
def isEmbedded (source : String) : Bool :=
  Text.startsWith "modules/" source || Text.startsWith "community/modules/" source

/-- Whether a source names a local directory. -/
def isLocal (source : String) : Bool :=
  Text.startsWith "./" source || Text.startsWith "../" source || Text.startsWith "/" source

/-- The kind of a source. -/
def kind (source : String) : Kind :=
  if isEmbedded source then .embedded else if isLocal source then .local else .remote

/-- The part of an address up to and including its first scheme separator, and the rest. -/
def afterScheme (address : List Char) : List Char × List Char :=
  match Text.breakOn "://".toList address with
  | some (scheme, rest) => (scheme ++ "://".toList, rest)
  | none => ([], address)

/-- The package address of a source and the directory inside the package. The first `//`
    behind the scheme and before the query separates them. -/
def splitPackage (source : String) : String × String :=
  let chars := source.toList
  let address := chars.takeWhile (· != '?')
  let query := chars.dropWhile (· != '?')
  let (scheme, rest) := afterScheme address
  match Text.breakOn "//".toList rest with
  | none => (source, "")
  | some (before, dir) => (String.ofList (scheme ++ before ++ query), String.ofList dir)

end HpcBlueprint.Source
