/-
  Blueprints and settings as documents.
-/
import HpcBlueprint.Blueprint.Encode
import HpcBlueprint.Digest.Sha256
import HpcBlueprint.Error
import HpcBlueprint.Files.Tree
import HpcBlueprint.Yaml.Printer

namespace HpcBlueprint

/-- The text of a document file. -/
def readDocument (fs : FileSystem) (file : String) : Except ConfigError String :=
  if fs.contains file then
    (fs.read file).mapError fun e => .decode (.unreadable file e)
  else .error (.fileNotFound file)

/-- Reads a document of some kind from a text. -/
def ofDocument (decoder : Yaml.Decoder α) (noun : String) (file : Option String) (text : String) :
    Except ConfigError α :=
  (Yaml.Decoder.ofText decoder text).mapError fun e => .decode (.document noun file e)

namespace Blueprint

/-- The blueprint that a text holds. -/
def ofText (file : Option String) (text : String) : Except ConfigError Blueprint :=
  ofDocument decoder "blueprint" file text

/-- The blueprint in a file. -/
def load (fs : FileSystem) (file : String) : Except ConfigError Blueprint :=
  readDocument fs file >>= ofText (some file)

/-- The expanded blueprint that a text holds. -/
def ofArtifact (file : Option String) (text : String) : Except ConfigError Blueprint :=
  (Yaml.Decoder.ofText decoder text).mapError fun e => .decode (.artifact file e)

/-- The text of a blueprint. -/
def render (b : Blueprint) : String := Yaml.Printer.render b.toTree

/-- The digest of a blueprint's text, which tells two blueprints apart. -/
def hash (b : Blueprint) : String := Sha256.digest b.render

end Blueprint

namespace Settings

/-- The settings that a text holds. -/
def ofText (file : Option String) (text : String) : Except ConfigError Settings :=
  ofDocument decoder "deployment settings" file text

/-- The settings in a file. -/
def load (fs : FileSystem) (file : String) : Except ConfigError Settings :=
  readDocument fs file >>= ofText (some file)

end Settings

end HpcBlueprint
