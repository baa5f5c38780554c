/-
  Why an operation on files fails.
-/

namespace HpcBlueprint

/-- A refusal of the operating system, or a file that holds no text. -/
inductive FileError
  | notFound
  | exists
  | notDirectory
  | isDirectory
  /-- A name or a path is longer than the system allows. -/
  | tooLong
  /-- A path holds a NUL character. -/
  | nulInPath
  | notText
deriving DecidableEq, Inhabited

/-- The wording of a file error. -/
def FileError.message : FileError → String
  | .notFound => "No such file or directory (os error 2)"
  | .exists => "File exists (os error 17)"
  | .notDirectory => "Not a directory (os error 20)"
  | .isDirectory => "Is a directory (os error 21)"
  | .tooLong => "File name too long (os error 36)"
  | .nulInPath => "file name contained an unexpected NUL byte"
  | .notText => "stream did not contain valid UTF-8"

end HpcBlueprint
