import LayoutScript.Settings.Node
import LayoutScript.Settings.Scalar
import LayoutScript.Text.Lines

/-!
Settings files as settings: the structure of the text is read first, and then each
plain scalar is understood. Of several entries for a key the last one holds.
-/

namespace LayoutScript.Settings

mutual

def Node.toSetting : Node → Except SettingsError Setting
  | .plain text => understand text
  | .quoted text => .ok (.text (String.ofList text))
  | .list items => do return .list (← itemSettings items)
  | .mapping entries => do return .mapping (← entrySettings entries [])

def itemSettings : List Node → Except SettingsError (List Setting)
  | [] => .ok []
  | item :: items => do
      let setting ← item.toSetting
      return setting :: (← itemSettings items)

/-- Adds entries to the settings before them. -/
def entrySettings : List (Node × Node) → Settings → Except SettingsError Settings
  | [], settings => .ok settings
  | (key, value) :: entries, settings => do
      let key ← key.toSetting
      let value ← value.toSetting
      entrySettings entries (settings.insert key value)

end

/-- Removes a mark of the byte order from the start of a text. -/
def dropByteOrderMark : List Char → List Char
  | '\ufeff' :: rest => rest
  | text => text

/-- Reads the text of a settings file. -/
def readDocument (text : String) : Except SettingsError Setting :=
  (Node.ofText (dropByteOrderMark (Text.unifyReturns text.toList))).toSetting

end LayoutScript.Settings
