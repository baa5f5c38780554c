/-
  Changing a tree of files.

  A `FileStep` is one change that happens at once or not at all. A file is replaced in
  three of them (`Replacement`): its new content is written beside it and then takes its
  place, so that at no time the file holds anything but its old or its new content.
-/
import HpcBlueprint.Files.Tree

namespace HpcBlueprint

/-! ## Places to write -/

namespace FileSystem

/-- The location of a directory that may be missing; slashes at the end of its path mean
    nothing. -/
def withoutSlashes (path : String) : String :=
  let kept := (path.toList.reverse.dropWhile (· == '/')).reverse
  if kept.isEmpty then path else String.ofList kept

/-- Where a file that may be missing is written. -/
def writable (fs : FileSystem) (path : String) : Except FileError Location :=
  match fs.locate path with
  | .ok loc => .ok loc
  | .error .notFound =>
    if Text.endsWith "/" path && (fs.locate (withoutSlashes path)).toOption.isSome then
      .error .isDirectory
    else .error .notFound
  | .error e => .error e

/-- Makes an empty file at a location, or empties the one that stands there. -/
def createAt (fs : FileSystem) (loc : Location) : Except FileError FileSystem :=
  match fs.node? loc.dropLast, fs.node? loc with
  | none, _ => .error .notFound
  | some (.file _), _ => .error .notDirectory
  | some .directory, some .directory => .error .isDirectory
  | some .directory, _ => .ok (fs.put loc (.file (.text "")))

/-- Gives the file at a location its content. -/
def writeAt (fs : FileSystem) (loc : Location) (content : Content) :
    Except FileError FileSystem :=
  match fs.node? loc with
  | none => .error .notFound
  | some .directory => .error .isDirectory
  | some (.file _) => .ok (fs.put loc (.file content))

/-- Moves the file at a location to another one, in place of a file that stands there. -/
def renameAt (fs : FileSystem) (source target : Location) : Except FileError FileSystem :=
  match fs.node? source, fs.node? target with
  | none, _ => .error .notFound
  | some .directory, _ => .error .isDirectory
  | _, some .directory => .error .isDirectory
  | some (.file content), _ => .ok ((fs.remove source).put target (.file content))

end FileSystem

/-! ## Steps -/

/-- One change of a tree. -/
inductive FileStep
  /-- Makes an empty file, or empties one. -/
  | create (path : String)
  /-- Gives a file its content. -/
  | write (path : String) (content : Content)
  /-- Moves a file to another path, in place of a file that stands there. -/
  | rename (source target : String)
deriving DecidableEq

/-- What a step does. -/
def FileStep.apply (fs : FileSystem) : FileStep → Except FileError FileSystem
  | .create path => do fs.createAt (← fs.writable path)
  | .write path content => do fs.writeAt (← fs.locate path) content
  | .rename source target => do fs.renameAt (← fs.locate source) (← fs.locate target)

/-- A new content for a file, and where it is written before it takes the file's place. -/
structure Replacement where
  path : String
  beside : String
  text : String
deriving DecidableEq

namespace Replacement

/-- The steps that write the new content beside the file. -/
def prepare (r : Replacement) : List FileStep := [.create r.beside, .write r.beside (.text r.text)]

/-- The steps that replace the file. -/
def steps (r : Replacement) : List FileStep := r.prepare ++ [.rename r.beside r.path]

end Replacement

namespace FileSystem

/-- Takes steps up to the first that fails; what was done before it stays. -/
def applyAll (fs : FileSystem) : List FileStep → Except FileError Unit × FileSystem
  | [] => (.ok (), fs)
  | step :: rest =>
    match step.apply fs with
    | .ok next => applyAll next rest
    | .error e => (.error e, fs)

/-- Writes a file with any content, or leaves everything as it is. -/
def writeContent (fs : FileSystem) (path : String) (content : Content) :
    Except FileError FileSystem := do
  let made ← (FileStep.create path).apply fs
  (FileStep.write path content).apply made

/-- Writes a file that holds a text, or leaves everything as it is. -/
def writeText (fs : FileSystem) (path text : String) : Except FileError FileSystem :=
  fs.writeContent path (.text text)

/-! ## Directories -/

/-- Makes one directory. -/
def makeDirectory (fs : FileSystem) (path : String) : Except FileError FileSystem := do
  let loc ← fs.locate path
  match fs.node? loc with
  | some _ => .error .exists
  | none => return fs.put loc .directory

/-- Makes the directories of a path, given with its parents from the longest on: a parent is
    made only if a directory cannot be made without it. -/
def makeDirectories (fs : FileSystem) : List String → Except FileError Unit × FileSystem
  | [] => (.ok (), fs)
  | path :: parents =>
    match fs.makeDirectory (withoutSlashes path) with
    | .ok next => (.ok (), next)
    | .error .notFound =>
      match fs.makeDirectories parents with
      | (.error e, next) => (.error e, next)
      | (.ok _, next) =>
        match next.makeDirectory (withoutSlashes path) with
        | .ok done => (.ok (), done)
        | .error e => if next.isDirectory path then (.ok (), next) else (.error e, next)
    | .error e => if fs.isDirectory path then (.ok (), fs) else (.error e, fs)

end FileSystem

end HpcBlueprint
