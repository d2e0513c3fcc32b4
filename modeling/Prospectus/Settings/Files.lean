import Prospectus.Settings.Reading
import Prospectus.Store.Access

/-!
# Settings in files

All files are read before any of them is looked into.
-/

namespace Prospectus.Settings

open Json (Value)
open Store (FileAccess Path)

variable {m : Type → Type} [Monad m] [FileAccess m]

/-- The text of one layer. -/
def layerText (file : Path) : ExceptT SettingsError m String := do
  match ← (FileAccess.readText file : m _) with
  | .ok text => return text
  | .error _ => throw (.unreadableFile file.text)

/-- The merged layers of some files, the first file at the bottom. -/
def mergedOfFiles (files : List Path) : ExceptT SettingsError m Value := do
  ExceptT.mk (pure (mergedOfTexts (← files.mapM layerText)))

end Prospectus.Settings
