import LayoutScript.Settings.Document
import LayoutScript.Settings.Path

/-!
Loading of limits. An explicit file must exist; without one the first file of the
search path that exists is used, and without any the defaults hold.
-/

namespace LayoutScript.Settings

/-- Where settings may come from: the home directory and the file that the
environment names, if it names one. -/
structure Surroundings where
  home : String
  named : Option String
deriving Repr

/-- The file that the environment names, and the file of the user. -/
def searchPaths (surroundings : Surroundings) : Except SettingsError (List Path) := do
  let user := (Path.ofText surroundings.home).append [".config", "boba", "config.yaml"]
  match surroundings.named with
  | none => return [user]
  | some named =>
      if named.isEmpty then return [user]
      else
        match (Path.ofText named).expandHome? surroundings.home with
        | some path => return [path, user]
        | none => .error .noHome

/-- Limits from the text of a file; an empty file changes nothing. -/
def limitsOfText (path : Path) (text : String) : Except SettingsError Limits := do
  match ← readDocument text with
  | .null => return {}
  | .mapping entries => Limits.ofSettings entries
  | _ => .error (.notMapping path.text)

/-- The first file among paths. -/
def firstFile? (files : Files) : List Path → Except SettingsError (Option (Path × String))
  | [] => .ok none
  | path :: paths =>
      match files path with
      | .file text => .ok (some (path, text))
      | .nameTooLong => .error (.nameTooLong path.text)
      | _ => firstFile? files paths

/-- The outcome of loading, with the path of the file that was opened. -/
structure Loading where
  opened : Option Path
  limits : Except SettingsError Limits

def load (files : Files) (surroundings : Surroundings) (explicit : Option String) : Loading :=
  match explicit with
  | some text =>
      match (Path.ofText text).expandHome? surroundings.home with
      | none => ⟨none, .error .noHome⟩
      | some path =>
          match files path with
          | .missing => ⟨none, .error (.missingFile path.text)⟩
          | .nameTooLong => ⟨none, .error (.nameTooLong path.text)⟩
          | .directory => ⟨some path, .error (.directory path.text)⟩
          | .file text => ⟨some path, limitsOfText path text⟩
  | none =>
      match searchPaths surroundings >>= firstFile? files with
      | .error error => ⟨none, .error error⟩
      | .ok (some (path, text)) => ⟨some path, limitsOfText path text⟩
      | .ok none => ⟨none, .ok {}⟩

end LayoutScript.Settings
