import LayoutScript.Limits
import LayoutScript.Number.Shortest
import LayoutScript.Text.Quoted

/-!
Settings are loosely typed values as they come from a host or from a file. Limits
are made from a mapping of settings, and whatever does not fit is refused.
-/

namespace LayoutScript

inductive Setting where
  | null
  | bool (value : Bool)
  | int (value : Int)
  | float (value : Binary64)
  | text (value : String)
  | list (items : List Setting)
  | mapping (entries : List (Setting × Setting))
deriving Repr, Inhabited

namespace Setting

mutual

/-- A setting as messages show it. -/
def listed : Setting → String
  | .null => "None"
  | .bool true => "True"
  | .bool false => "False"
  | .int value => Numeral.ofInt value
  | .float value => value.text
  | .text value => Text.listed value
  | .list items => Text.bracketed (listedAll items)
  | .mapping entries => "\x7b" ++ ", ".intercalate (listedEntries entries) ++ "\x7d"

def listedAll : List Setting → List String
  | [] => []
  | item :: items => item.listed :: listedAll items

def listedEntries : List (Setting × Setting) → List String
  | [] => []
  | (key, value) :: entries => (key.listed ++ ": " ++ value.listed) :: listedEntries entries

end

/-- The place of a number on the number line. A truth value counts as one or zero. -/
def place? : Setting → Option Place
  | .bool value => some (.ofInt (if value then 1 else 0))
  | .int value => some (.ofInt value)
  | .float value => Place.ofBinary64? value
  | _ => none

/-- Whether two keys name the same entry: numbers of one value do, however they are
written. -/
def sameKey (left right : Setting) : Bool :=
  match left, right with
  | .null, .null => true
  | .text left, .text right => left == right
  | _, _ =>
      match left.place?, right.place? with
      | some left, some right => left.compare right == .eq
      | _, _ => false

/-- The order in which messages list keys: numbers by size, all else by text. -/
def keyBefore (left right : Setting) : Bool :=
  match left, right with
  | .text left, .text right => left ≤ right
  | _, _ =>
      match left.place?, right.place? with
      | some left, some right => left.compare right != .gt
      | _, _ => left.listed ≤ right.listed

end Setting

/-- A mapping of settings, which has one entry for each key. -/
abbrev Settings := List (Setting × Setting)

namespace Settings

/-- Sets the value of a key. A key that is there already keeps its place and its
spelling. -/
def insert (settings : Settings) (key value : Setting) : Settings :=
  match settings with
  | [] => [(key, value)]
  | entry :: rest =>
      if entry.1.sameKey key then (entry.1, value) :: rest
      else entry :: insert rest key value

def get? (settings : Settings) (name : String) : Option Setting :=
  (settings.find? fun entry => entry.1.sameKey (.text name)).map (·.2)

/-- The keys in the order in which messages list them. -/
def keys (settings : Settings) : List Setting :=
  (settings.map (·.1)).mergeSort Setting.keyBefore

end Settings

/-- The limits in the order in which they are checked. -/
inductive LimitField where
  | callDepth | steps | nesting | intBits | stringLength
deriving Repr, DecidableEq

def LimitField.name : LimitField → String
  | callDepth => "max_call_depth"
  | steps => "max_steps"
  | nesting => "max_nesting"
  | intBits => "max_int_bits"
  | stringLength => "max_string_length"

def LimitField.all : List LimitField := [callDepth, steps, nesting, intBits, stringLength]

/-- Why settings were refused. -/
inductive SettingsError where
  | notPositive (field : LimitField) (found : Setting)
  | unknownKeys (keys : List Setting)
  | notMapping (path : String)
  | missingFile (path : String)
  | directory (path : String)
  | nameTooLong (path : String)
  | noHome
  | noPath
  | tooManyDigits (count : Nat)
deriving Repr

namespace SettingsError

/-- The names of all limits in the order of their text. -/
def knownNames : List String := (LimitField.all.map LimitField.name).mergeSort

def message : SettingsError → String
  | notPositive field found =>
      field.name ++ " must be a positive integer, got " ++ found.listed
  | unknownKeys keys =>
      "Unknown interpreter config key(s): " ++ Text.bracketed (keys.map Setting.listed) ++
        ". Known keys: " ++ Text.bracketed (knownNames.map Text.listed)
  | notMapping path => "Invalid config format in " ++ path ++ ": expected mapping at root"
  | missingFile path => "Config file not found: " ++ path
  | directory path => "[Errno 21] Is a directory: " ++ Text.listed path
  | nameTooLong path => "[Errno 36] File name too long: " ++ Text.listed path
  | noHome => "Could not determine home directory."
  | noPath => "expected str, bytes or os.PathLike object, not list"
  | tooManyDigits count =>
      "Exceeds the limit (4300 digits) for integer string conversion: value has " ++
        Numeral.ofNat count ++
        " digits; use sys.set_int_max_str_digits() to increase the limit"

end SettingsError

/-- A limit from a setting. Null means no limit, except for the nesting. -/
def LimitField.read (field : LimitField) (setting : Setting) :
    Except SettingsError (Option Nat) :=
  match setting with
  | .null => if field = .nesting then .error (.notPositive field setting) else .ok none
  | .int value => if value > 0 then .ok (some value.toNat) else .error (.notPositive field setting)
  | _ => .error (.notPositive field setting)

/-- The limit for a field, or a default if the settings do not mention it. -/
def LimitField.readFrom (field : LimitField) (settings : Settings) (default : Option Nat) :
    Except SettingsError (Option Nat) :=
  match settings.get? field.name with
  | some setting => field.read setting
  | none => .ok default

def Setting.isLimitName : Setting → Bool
  | .text name => SettingsError.knownNames.contains name
  | _ => false

/-- Limits from the settings that name them. -/
def Limits.ofFields (settings : Settings) : Except SettingsError Limits := do
  let defaults : Limits := {}
  let callDepth ← LimitField.callDepth.readFrom settings defaults.callDepth
  let steps ← LimitField.steps.readFrom settings defaults.steps
  let nesting ← LimitField.nesting.readFrom settings (some defaults.nesting)
  let intBits ← LimitField.intBits.readFrom settings defaults.intBits
  let stringLength ← LimitField.stringLength.readFrom settings defaults.stringLength
  return { callDepth, steps, nesting := nesting.getD defaults.nesting, intBits, stringLength }

/-- The settings below the key `interpreter`, if that is a mapping. -/
def Settings.unwrapped (settings : Settings) : Settings :=
  match settings.get? "interpreter" with
  | some (.mapping inner) => inner
  | _ => settings

/-- Limits from a mapping; keys that name no limit are refused first. -/
def Limits.ofSettings (settings : Settings) : Except SettingsError Limits :=
  let inner := settings.unwrapped
  match inner.keys.filter fun key => !key.isLimitName with
  | [] => Limits.ofFields inner
  | unknown => .error (.unknownKeys unknown)

end LayoutScript
