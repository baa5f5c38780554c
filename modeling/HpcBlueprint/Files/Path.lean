/-
  Paths as they are written.

  A path is a text of pieces between slashes. Empty pieces and single dots change nothing,
  except that a path which begins with a slash starts at the root and that a leading dot
  stands for itself.
-/
import HpcBlueprint.Text.Search

namespace HpcBlueprint.Path

/-- The pieces of a path. -/
def pieces (path : String) : List String := Text.splitAll '/' path

/-- Whether a path starts at the root. -/
def isAbsolute (path : String) : Bool := Text.startsWith "/" path

/-- The path of `rest` seen from `base`. -/
def join (base rest : String) : String :=
  if isAbsolute rest then rest
  else if base.isEmpty || Text.endsWith "/" base then base ++ rest
  else base ++ "/" ++ rest

/-- Pieces, last first, without those at the end that change nothing. -/
def trim : List String → List String
  | [] => []
  | [first] => [first]
  | piece :: rest => if piece.isEmpty || piece == "." then trim rest else piece :: rest

/-- The path of pieces, last first. -/
def ofReversed (rev : List String) : String :=
  if rev == [""] then "/" else "/".intercalate rev.reverse

/-- The path without its last piece. -/
def parent? (path : String) : Option String :=
  match trim (pieces path).reverse with
  | [] => none
  | last :: rest => if rest.isEmpty && last.isEmpty then none else some (ofReversed (trim rest))

/-- A path and its parents that are not empty, given a bound on their number. -/
def ancestorsWithin : Nat → String → List String
  | 0, _ => []
  | n + 1, path =>
    if path.isEmpty then []
    else path :: (match parent? path with
      | some p => ancestorsWithin n p
      | none => [])

/-- A path and its parents, longest first, as far as they are not empty. -/
def ancestors (path : String) : List String := ancestorsWithin (pieces path).length path

/-- The directory of a file; the working directory if the path names none. -/
def directory (path : String) : String :=
  match parent? path with
  | some p => if p.isEmpty then "." else p
  | none => "."

/-- A file name with another extension. -/
def withExtension (name extension : String) : String :=
  match (Text.splitAll '.' name).reverse with
  | _ :: second :: more =>
    if more.isEmpty && second.isEmpty then name ++ "." ++ extension
    else ".".intercalate (second :: more).reverse ++ "." ++ extension
  | _ => name ++ "." ++ extension

end HpcBlueprint.Path
