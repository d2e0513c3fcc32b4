import Prospectus.Digest.Sha256
import Prospectus.Json.Printer
import Prospectus.Settings.Basic
import Prospectus.Settings.Layers
import Prospectus.Yaml.Node

/-!
# Reading settings

Settings are written in YAML, one text a layer. The merged layers have a canonical text, whose
digest tells which settings a run had.
-/

namespace Prospectus

open Json (DecodeError Value)

/-- Why settings cannot be read. A layer is refused for its own text, and the merged layers for
their shape; that a single layer is no settings by itself is no error. -/
inductive SettingsError
  | unreadableFile (path : String)
  /-- A layer is not well-formed. -/
  | malformed
  /-- A layer says something that JSON cannot say. -/
  | notJson
  /-- The merged layers are not of the shape of settings. -/
  | wrongShape (cause : DecodeError)
  deriving DecidableEq

def SettingsError.message : SettingsError → String
  | .unreadableFile path => "failed to read yaml path: " ++ path
  | .malformed => "invalid yaml"
  | .notJson => "yaml->json conversion failed"
  | .wrongShape _ => "config does not match catalog schema"

namespace Settings

/-- The layer that a text writes. A text without a document is null. -/
def layerOfText (text : String) : Except SettingsError Value :=
  match Yaml.Node.ofText? text with
  | none => .error .malformed
  | some node =>
    match node.toJson? with
    | none => .error .notJson
    | some j => .ok (.ofJson j)

/-- The merged layers of some texts. The first text that is wrong is the error. -/
def mergedOfTexts (texts : List String) : Except SettingsError Value :=
  return mergeLayers (← texts.mapM layerOfText)

/-- The settings that the merged layers say. Names that no setting has are passed over here; they
are reported by `reportUnused`. -/
def ofValue (v : Value) : Except SettingsError Settings :=
  (Json.decodeValue decode v).mapError .wrongShape

/-- The text of the merged layers on one line, which does not depend on the order of members. -/
def canonicalText (v : Value) : String := v.tree.compact

/-- The digest of the canonical text. It tells merged layers apart by all that they hold, also by
what no setting reads. -/
def fingerprint (v : Value) : String := Digest.sha256Hex (canonicalText v)

end Settings

end Prospectus
