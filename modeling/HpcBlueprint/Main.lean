/-
  The program as it runs on a machine.

  The files that a run may need are read once, the run itself is computed on them, and what
  it changed is written back. Git and object stores are out of reach from here, so packages
  cannot be fetched.
-/
import HpcBlueprint.CommandLine.Program
import HpcBlueprint.Fetch.Git
import HpcBlueprint.Fetch.S3

namespace HpcBlueprint.Machine

/-! ## Reading -/

/-- The content of bytes. -/
def contentOf (bytes : ByteArray) : Content :=
  match String.fromUTF8? bytes with
  | some s => .text s
  | none => .binary bytes.toList

/-- The names in an absolute path. -/
def locationOf (path : String) : Location :=
  (Path.pieces path).filter fun p => !p.isEmpty && p != "."

/-- The directories above a location. -/
def parentsOf (loc : Location) : List (Location × FileNode) :=
  (List.range loc.length).map fun n => (loc.take n, .directory)

/-- What stands at an entry of a directory and below it. -/
partial def readEntry (e : IO.FS.DirEntry) (loc : Location) : IO (List (Location × FileNode)) := do
  if ← e.path.isDir then
    let entries ← e.path.readDir
    let below ← entries.toList.mapM fun e => readEntry e (loc ++ [e.fileName])
    return (loc, .directory) :: below.flatten
  else
    return [(loc, .file (contentOf (← IO.FS.readBinFile e.path)))]

/-- What stands at an absolute path and below it, if anything does. -/
def readTree (path : String) : IO (List (Location × FileNode)) := do
  let e : IO.FS.DirEntry := ⟨path, "."⟩
  if ← e.path.pathExists then
    let loc := locationOf path
    return parentsOf loc ++ (← readEntry e loc)
  else return []

/-- The variables of the environment. -/
def readEnvironment : IO Environment := do
  let text := (String.fromUTF8? (← IO.FS.readBinFile "/proc/self/environ")).getD ""
  return OrderedMap.ofList ((Text.splitAll '\x00' text).filterMap (Text.splitOnce '='))

/-- The time now, as it is stamped on a new file. -/
def readClock : IO Instant := do
  let (_, path) ← IO.FS.createTempFile
  let stamp := (← path.metadata).modified
  IO.FS.removeFile path
  return ⟨stamp.sec, stamp.nsec.toNat⟩

/-! ## Writing -/

/-- The bytes of a content. -/
def bytesOf : Content → ByteArray
  | .text s => s.toUTF8
  | .binary bytes => ⟨bytes.toArray⟩

/-- Writes what stands at a location. -/
def writeNode (loc : Location) (n : FileNode) : IO Unit := do
  let path := "/" ++ "/".intercalate loc
  match n with
  | .directory => IO.FS.createDirAll path
  | .file content => IO.FS.writeBinFile path (bytesOf content)

/-- Writes what a run has changed, parents first. -/
def writeChanges (before after : FileSystem) : IO Unit := do
  let changed := after.nodes.filter fun (loc, n) => before.node? loc != some n
  for (loc, n) in changed.mergeSort fun a b => decide (a.1.length ≤ b.1.length) do
    writeNode loc n

/-! ## Running -/

/-- The trees that a run under a command line may need. -/
def treesFor (cwd : String) (env : Environment) (words : List String) : List String :=
  let paths := env.embeddedRoot :: words.map Path.directory
  cwd :: (paths.filter Path.isAbsolute)

/-- Reads the files that a run may need. -/
def readFiles (env : Environment) (words : List String) : IO FileSystem := do
  let cwd := (← IO.currentDir).toString
  let trees ← (treesFor cwd env words).mapM readTree
  return ⟨trees.flatten, locationOf cwd⟩

end HpcBlueprint.Machine

open HpcBlueprint in
/-- Carries out a command line. -/
def main (words : List String) : IO UInt32 := do
  let environment ← Machine.readEnvironment
  let files ← Machine.readFiles environment words
  let setting : CommandLine.Setting Unit :=
    ⟨[Git.fetcher Git.missing, S3.fetcher .unreachable fun _ w => w], environment,
     ← Machine.readClock⟩
  let done := CommandLine.perform setting ⟨files, ()⟩ words
  Machine.writeChanges files done.workspace.files
  IO.print done.output
  IO.eprint done.errors
  return UInt32.ofNat done.exitCode
