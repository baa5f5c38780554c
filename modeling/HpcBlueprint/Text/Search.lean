/-
  Cutting a text at the first place where a pattern occurs.
-/

namespace HpcBlueprint.Text

/-- The characters before and after the first occurrence of a pattern. -/
def breakOn (pattern : List Char) : List Char → Option (List Char × List Char)
  | [] => if pattern.isEmpty then some ([], []) else none
  | c :: rest =>
    if pattern.isPrefixOf (c :: rest) then some ([], (c :: rest).drop pattern.length)
    else (breakOn pattern rest).map fun (before, after) => (c :: before, after)

/-- Cuts a text at the first occurrence of a character. -/
def splitOnce (sep : Char) (text : String) : Option (String × String) :=
  (breakOn [sep] text.toList).map fun (before, after) => (String.ofList before, String.ofList after)

/-- The pieces between the occurrences of a character; there is always one. -/
def pieces (sep : Char) : List Char → List (List Char)
  | [] => [[]]
  | c :: rest =>
    if c == sep then [] :: pieces sep rest
    else
      match pieces sep rest with
      | [] => [[c]]
      | piece :: more => (c :: piece) :: more

/-- Cuts a text at every occurrence of a character. -/
def splitAll (sep : Char) (text : String) : List String :=
  (pieces sep text.toList).map String.ofList

/-- The text after a given beginning. -/
def dropStart? (start text : String) : Option String :=
  if start.toList.isPrefixOf text.toList then
    some (String.ofList (text.toList.drop start.toList.length))
  else none

/-- Whether a text begins with another. -/
def startsWith (start text : String) : Bool := start.toList.isPrefixOf text.toList

/-- Whether a text ends with another. -/
def endsWith (stop text : String) : Bool := stop.toList.isSuffixOf text.toList

end HpcBlueprint.Text
