/-
  A tree of files and directories.

  A `FileSystem` maps locations, the lists of names from the root, to what stands there.
  Paths are walked piece by piece: every directory that is passed has to exist, the last
  piece need not.
-/
import HpcBlueprint.Files.Error
import HpcBlueprint.Files.Path

namespace HpcBlueprint

/-- What a file holds. -/
inductive Content
  | text (s : String)
  /-- Bytes that are no UTF-8 text. -/
  | binary (bytes : List UInt8)
deriving DecidableEq, Inhabited

/-- What stands at a location. -/
inductive FileNode
  | file (content : Content)
  | directory
deriving DecidableEq, Inhabited

/-- A place in a tree: the names from the root. -/
abbrev Location := List String

/-- A tree of files, and the directory that relative paths start from. -/
structure FileSystem where
  /-- What stands where; the root is always a directory. -/
  nodes : List (Location × FileNode)
  workingDir : Location
deriving DecidableEq, Inhabited

namespace FileSystem

/-! ## Locations -/

/-- What stands at a location. -/
def node? (fs : FileSystem) (loc : Location) : Option FileNode :=
  if loc.isEmpty then some .directory else fs.nodes.lookup loc

/-- Puts something at a location in place of what stood there. -/
def put (fs : FileSystem) (loc : Location) (n : FileNode) : FileSystem :=
  { fs with nodes := (loc, n) :: fs.nodes.filter (·.1 != loc) }

/-- Takes away what stands at a location. -/
def remove (fs : FileSystem) (loc : Location) : FileSystem :=
  { fs with nodes := fs.nodes.filter (·.1 != loc) }

/-- Takes away a location and everything below it. -/
def removeTree (fs : FileSystem) (loc : Location) : FileSystem :=
  { fs with nodes := fs.nodes.filter fun (l, _) => !loc.isPrefixOf l }

/-- The names in a directory, in whatever order they stand in the tree. -/
def entries (fs : FileSystem) (loc : Location) : List String :=
  (fs.nodes.filter fun (l, _) => !l.isEmpty && l.dropLast == loc).filterMap
    fun (l, _) => l.getLast?

/-- The names in a directory, in order. -/
def names (fs : FileSystem) (loc : Location) : List String :=
  (fs.entries loc).mergeSort (fun a b => decide (a ≤ b))

/-! ## Paths -/

/-- How many bytes a name may have. -/
def maxName : Nat := 255

/-- How many bytes a path may have. -/
def maxPath : Nat := 4095

/-- Follows the pieces of a path. Whatever a piece is looked up in has to be a directory. -/
def walk (fs : FileSystem) : Location → List String → Except FileError Location
  | loc, [] => .ok loc
  | loc, piece :: rest =>
    match fs.node? loc with
    | none => .error .notFound
    | some (.file _) => .error .notDirectory
    | some .directory =>
      if piece.isEmpty || piece == "." then walk fs loc rest
      else if piece == ".." then walk fs loc.dropLast rest
      else if maxName < piece.utf8ByteSize then .error .tooLong
      else walk fs (loc ++ [piece]) rest

/-- Where a path starts. -/
def start (fs : FileSystem) (path : String) : Location :=
  if Path.isAbsolute path then [] else fs.workingDir

/-- The location of a path. -/
def locate (fs : FileSystem) (path : String) : Except FileError Location :=
  if path.toList.contains '\x00' then .error .nulInPath
  else if path.isEmpty then .error .notFound
  else if maxPath < path.utf8ByteSize then .error .tooLong
  else fs.walk (fs.start path) (Path.pieces path)

/-- What a path leads to, and where. -/
def find (fs : FileSystem) (path : String) : Except FileError (Location × FileNode) := do
  let loc ← fs.locate path
  match fs.node? loc with
  | some n => return (loc, n)
  | none => .error .notFound

/-! ## Looking -/

/-- Whether something stands at a path. -/
def contains (fs : FileSystem) (path : String) : Bool := (fs.find path).toOption.isSome

/-- Whether a path leads to a directory. -/
def isDirectory (fs : FileSystem) (path : String) : Bool :=
  match fs.find path with
  | .ok (_, .directory) => true
  | _ => false

/-- Whether a path leads to a file. -/
def isFile (fs : FileSystem) (path : String) : Bool :=
  match fs.find path with
  | .ok (_, .file _) => true
  | _ => false

/-- The text of a file. -/
def read (fs : FileSystem) (path : String) : Except FileError String := do
  match ← fs.find path with
  | (_, .file (.text s)) => return s
  | (_, .file (.binary _)) => .error .notText
  | (_, .directory) => .error .isDirectory

/-- The names in the directory at a path, in no order that could be relied on. -/
def list (fs : FileSystem) (path : String) : Except FileError (List String) := do
  match ← fs.find path with
  | (loc, .directory) => return fs.entries loc
  | (_, .file _) => .error .notDirectory

/-! ## Absolute paths -/

/-- How many bytes the names of a location have, with a slash before each. -/
def pathSize : Location → Nat
  | [] => 0
  | name :: rest => name.utf8ByteSize + 1 + pathSize rest

/-- Whether pieces can be followed by absolute paths. A name is looked up under the absolute
    path that ends in it, with a slash behind it if anything follows. -/
def inReach : Location → List String → Bool
  | _, [] => true
  | loc, piece :: rest =>
    if piece.isEmpty || piece == "." then inReach loc rest
    else if piece == ".." then inReach loc.dropLast rest
    else
      decide (pathSize (loc ++ [piece]) + (if rest.isEmpty then 0 else 1) ≤ maxPath) &&
        inReach (loc ++ [piece]) rest

/-- The location of something that exists, if it can be followed to there by absolute paths.
    How long the path is as it is written does not matter. -/
def canonical? (fs : FileSystem) (path : String) : Option Location :=
  if path.toList.contains '\x00' || path.isEmpty then none
  else
    match fs.walk (fs.start path) (Path.pieces path) with
    | .error _ => none
    | .ok loc =>
      if (fs.node? loc).isSome && inReach (fs.start path) (Path.pieces path) then some loc
      else none

end FileSystem

end HpcBlueprint
