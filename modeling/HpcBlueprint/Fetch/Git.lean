/-
  Fetching packages with git.

  A package is cloned without its history. Only a commit needs the history: it cannot be
  cloned by its name, so it is checked out of a full clone.
-/
import HpcBlueprint.Fetch.Basic
import HpcBlueprint.Text.Blank

namespace HpcBlueprint.Git

/-! ## Addresses -/

/-- A repository, and what of it is wanted. -/
structure Address where
  url : String
  /-- A branch, a tag or a commit. -/
  ref : Option String
deriving DecidableEq, Inhabited

/-- Whether an address is one of a repository. -/
def handles (package : String) : Bool :=
  Text.startsWith "git::" package || Text.startsWith "git@" package ||
    Text.startsWith "github.com/" package || Text.startsWith "gitlab.com/" package

/-- The ref that a query names first, unless it is empty. -/
def refOf (query : String) : Option String :=
  ((Text.splitAll '&' query).findSome? (Text.dropStart? "ref=")).filter (!·.isEmpty)

/-- The URL of a repository; some hosts may be named without a scheme. -/
def urlOf (base : String) : String :=
  let base := (Text.dropStart? "git::" base).getD base
  if Text.startsWith "github.com/" base || Text.startsWith "gitlab.com/" base then
    "https://" ++ base
  else base

/-- The address that a package address stands for. -/
def Address.ofPackage (package : String) : Address :=
  let (base, query) := (Text.splitOnce '?' package).getD (package, "")
  ⟨urlOf base, refOf query⟩

/-! ## Commands -/

/-- Whether a character is a hexadecimal digit. -/
def isHexDigit (c : Char) : Bool :=
  c.isDigit || ('a' ≤ c && c ≤ 'f') || ('A' ≤ c && c ≤ 'F')

/-- Whether a ref is a commit, in full or abbreviated. -/
def isCommit (ref : String) : Bool :=
  7 ≤ ref.length && ref.length ≤ 40 && ref.toList.all isHexDigit

/-- The arguments of the commands that put a repository into a directory. -/
def commands (a : Address) (dest : String) : List (List String) :=
  match a.ref with
  | none => [["clone", "--quiet", "--depth", "1", a.url, dest]]
  | some ref =>
    if isCommit ref then
      [["clone", "--quiet", a.url, dest], ["-C", dest, "checkout", "--quiet", ref]]
    else [["clone", "--quiet", "--depth", "1", "--branch", ref, a.url, dest]]

/-- Why a command failed. -/
inductive Failure
  /-- There is no git to run. -/
  | notStarted (error : FileError)
  /-- What git said about it. -/
  | refused (stderr : String)

/-- A command as it would be typed. -/
def lineOf (args : List String) : String := "git " ++ " ".intercalate args

/-- The error about a command. -/
def Failure.error (args : List String) : Failure → FetchError
  | .notStarted e => .files ("failed to run \x60" ++ lineOf args ++ "\x60") e
  | .refused stderr => .command (lineOf args) (Text.trim stderr)

/-- A git that can be run with arguments. -/
abbrev Program (ω : Type) := List String → Workspace ω → Except Failure Unit × Workspace ω

variable {ω : Type}

/-- Runs commands one after the other up to the first that fails. -/
def runAll (git : Program ω) :
    List (List String) → Workspace ω → Except FetchError Unit × Workspace ω
  | [], w => (.ok (), w)
  | args :: rest, w =>
    match git args w with
    | (.ok _, w) => runAll git rest w
    | (.error f, w) => (.error (f.error args), w)

/-- The fetcher that runs git. -/
def fetcher (git : Program ω) : Fetcher ω where
  name := "git"
  handles := handles
  fetch package dest := runAll git (commands (.ofPackage package) dest)

/-- A git that is not there. -/
def missing : Program ω := fun _ w => (.error (.notStarted .notFound), w)

end HpcBlueprint.Git
