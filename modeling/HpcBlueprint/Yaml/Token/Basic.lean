/-
  The tokens of a YAML text.
-/
import HpcBlueprint.Yaml.Mark

namespace HpcBlueprint.Yaml

/-- How a scalar is written. -/
inductive ScalarStyle
  | plain
  | singleQuoted
  | doubleQuoted
  | literal
  | folded
deriving DecidableEq, Inhabited

/-- One token. The start of a block mapping or of its first key is noticed only when the
    colon behind the key is reached, so such tokens are inserted before earlier ones. -/
inductive Token
  | versionDirective (major minor : Nat)
  | tagDirective (handle stem : String)
  | documentStart
  | documentEnd
  | streamEnd
  | blockSequenceStart
  | blockMappingStart
  | blockEnd
  | flowSequenceStart
  | flowSequenceEnd
  | flowMappingStart
  | flowMappingEnd
  | blockEntry
  | flowEntry
  | key
  | value
  | alias (name : String)
  | anchor (name : String)
  | tag (handle suffix : String)
  | scalar (style : ScalarStyle) (text : String)
deriving DecidableEq, Inhabited

/-- A token with the places where it starts and stops. -/
structure Lexeme where
  token : Token
  start : Mark
  stop : Mark
deriving Inhabited

end HpcBlueprint.Yaml
