/-
  Fetching packages from an object store.

  A package is a bucket and the beginning of keys in it. All objects below that beginning
  are stored under the rest of their keys; keys that end in a slash stand for directories
  and are passed over.
-/
import HpcBlueprint.Fetch.Basic
import HpcBlueprint.Fetch.ObjectStore
import HpcBlueprint.Files.Step

namespace HpcBlueprint.S3

/-! ## Addresses -/

/-- A bucket and the beginning of keys in it. -/
structure Address where
  bucket : String
  /-- Empty, or ends in a slash. -/
  start : String
deriving DecidableEq, Inhabited

/-- Whether an address is one of objects. -/
def handles (package : String) : Bool :=
  Text.startsWith "s3://" package || Text.startsWith "s3::" package

/-- Cuts a text at its first slash. -/
def cutSlash (text : String) : String × String := (Text.splitOnce '/' text).getD (text, "")

/-- The end of the hosts that serve objects. -/
def hostEnd : String := ".amazonaws.com"

/-- The bucket and the beginning of keys that a URL names. The bucket is either the first
    piece of the path or the part of the host before `.s3`. -/
def ofUrl? (rest : String) : Option (String × String) :=
  let (host, path) := cutSlash rest
  if !Text.endsWith hostEnd host then none
  else if Text.startsWith "s3." host || Text.startsWith "s3-" host then some (cutSlash path)
  else (Text.breakOn ".s3".toList host.toList).map fun (bucket, _) => (String.ofList bucket, path)

/-- The bucket and the beginning of keys that an address without its query names. -/
def parts? (address : String) : Option (String × String) :=
  let address := (Text.dropStart? "s3::" address).getD address
  match Text.dropStart? "s3://" address with
  | some rest => some (cutSlash rest)
  | none =>
    match ["https://", "http://"].findSome? (Text.dropStart? · address) with
    | some rest => ofUrl? rest
    | none => some (cutSlash address)

/-- The address that a package address stands for. -/
def Address.ofPackage? (package : String) : Option Address := do
  let address := String.ofList (package.toList.takeWhile (· != '?'))
  let (bucket, start) ← parts? address
  if bucket.isEmpty || bucket.toList.contains ':' then none
  else some ⟨bucket, if start.isEmpty || Text.endsWith "/" start then start else start ++ "/"⟩

/-- An address as it is shown. -/
def urlOf (bucket key : String) : String := "s3://" ++ bucket ++ "/" ++ key

/-! ## Objects -/

/-- The path of an object below the destination; none if it is passed over. -/
def relative? (start key : String) : Option String :=
  let rest := (Text.dropStart? start key).getD key
  if rest.isEmpty || Text.endsWith "/" rest then none else some rest

/-- Stores an object, with the directories above it. -/
def store (fs : FileSystem) (target : String) (content : Content) :
    Except FetchError Unit × FileSystem :=
  let parent := (Path.parent? target).getD ""
  match fs.makeDirectories (Path.ancestors parent) with
  | (.error e, fs) => (.error (.files ("failed to create " ++ parent) e), fs)
  | (.ok _, fs) =>
    match fs.writeContent target content with
    | .ok fs => (.ok (), fs)
    | .error e => (.error (.files ("failed to write " ++ target) e), fs)

/-! ## Packages -/

/-- What fetching has come to. -/
structure Progress where
  /-- How many objects have been stored. -/
  count : Nat
  /-- The requests so far, in order. -/
  requests : List ObjectStore.Request
  files : FileSystem

/-- Gets and stores one object. -/
def download (s : ObjectStore) (bucket key target : String) (p : Progress) :
    Except FetchError Unit × Progress :=
  let p := { p with requests := p.requests ++ [.get bucket key] }
  match s.get bucket key with
  | .error f => (.error (.s3 ("Failed to get " ++ urlOf bucket key ++ ": " ++ f.message)), p)
  | .ok content =>
    match store p.files target content with
    | (.ok _, files) => (.ok (), { p with count := p.count + 1, files })
    | (.error e, files) => (.error e, { p with files })

/-- Gets and stores the objects of a page up to the first that fails. -/
def downloadAll (s : ObjectStore) (a : Address) (dest : String) :
    List String → Progress → Except FetchError Unit × Progress
  | [], p => (.ok (), p)
  | key :: rest, p =>
    match relative? a.start key with
    | none => downloadAll s a dest rest p
    | some relative =>
      match download s a.bucket key (Path.join dest relative) p with
      | (.ok _, p) => downloadAll s a dest rest p
      | (.error e, p) => (.error e, p)

/-- Gets page after page, from the key of some number on. -/
def downloadFrom (s : ObjectStore) (a : Address) (dest : String) (keys : List String)
    (number : Nat) (p : Progress) : Except FetchError Unit × Progress :=
  let p := { p with requests := p.requests ++ [.list a.bucket a.start number] }
  match downloadAll s a dest ((keys.drop number).take s.pageSize) p with
  | (.error e, p) => (.error e, p)
  | (.ok _, p) =>
    if number + s.pageSize < keys.length then
      downloadFrom s a dest keys (number + s.pageSize) p
    else (.ok (), p)
termination_by keys.length - number
decreasing_by have := s.pageSize_pos; omega

/-- Puts the objects at an address into a directory; there has to be one at least. -/
def fetchObjects (s : ObjectStore) (a : Address) (dest : String) (fs : FileSystem) :
    Except FetchError Unit × Progress :=
  match s.keys a.bucket a.start with
  | .error f =>
    (.error (.s3 ("Failed to list " ++ urlOf a.bucket a.start ++ ": " ++ f.message)),
      ⟨0, if s.isReachable then [.list a.bucket a.start 0] else [], fs⟩)
  | .ok keys =>
    match downloadFrom s a dest keys 0 ⟨0, [], fs⟩ with
    | (.error e, p) => (.error e, p)
    | (.ok _, p) =>
      if p.count == 0 then
        (.error (.s3 ("no objects found under " ++ urlOf a.bucket a.start)), p)
      else (.ok (), p)

/-- Puts the package at an address into a directory. -/
def fetch (s : ObjectStore) (package dest : String) (fs : FileSystem) :
    Except FetchError Unit × Progress :=
  match Address.ofPackage? package with
  | none => (.error (.unsupported package), ⟨0, [], fs⟩)
  | some a => fetchObjects s a dest fs

/-- The fetcher of a store; `note` keeps the requests. -/
def fetcher {ω : Type} (s : ObjectStore) (note : List ObjectStore.Request → ω → ω) :
    Fetcher ω where
  name := "s3"
  handles := handles
  fetch package dest w :=
    match fetch s package dest w.files with
    | (r, p) => (r, ⟨p.files, note p.requests w.outside⟩)

end HpcBlueprint.S3
