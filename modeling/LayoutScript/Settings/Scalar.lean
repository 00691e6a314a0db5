import LayoutScript.Settings.Basic
import LayoutScript.Text.Numeric

/-!
Plain scalars of settings files: null, truth values, integers in four bases or in
minutes and seconds, numbers with a point, and else texts. Underscores among digits
are passed over.
-/

namespace LayoutScript.Settings

/-- Divides a sign from what follows it. -/
def splitSign : List Char → Bool × List Char
  | '-' :: rest => (true, rest)
  | '+' :: rest => (false, rest)
  | rest => (false, rest)

def isDigitPart (char : Char) : Bool := Text.isDigit char || char = '_'

def dropUnderscores (text : List Char) : List Char := text.filter (· ≠ '_')

/-- The longest decimal numeral that is read as an integer. -/
def digitLimit : Nat := 4300

/-- A decimal numeral; one that is too long is refused. -/
def readDecimal (digits : List Char) : Except SettingsError Nat :=
  if digitLimit < digits.length then .error (.tooManyDigits digits.length)
  else .ok (Numeral.value digits)

/-- Digits of a base in which numerals have no greatest length. -/
def readBased? (base : Nat) (isBaseDigit : Char → Bool) (text : List Char) :
    Option (Except SettingsError Nat) :=
  if text.all fun char => isBaseDigit char || char = '_' then
    some (.ok (Numeral.valueIn base (dropUnderscores text)))
  else none

/-- The parts of a text between colons. -/
def splitColons : List Char → List Char × List (List Char)
  | [] => ([], [])
  | char :: rest =>
      let (first, others) := splitColons rest
      if char = ':' then ([], first :: others) else (char :: first, others)

/-- A number below sixty, in one digit or two. -/
def readSixtieth? : List Char → Option Nat
  | [ones] => if Text.isDigit ones then some (Numeral.digitValue ones) else none
  | [tens, ones] =>
      if '0' ≤ tens && tens ≤ '5' && Text.isDigit ones then some (Numeral.value [tens, ones])
      else none
  | _ => none

/-- An integer without a sign. A leading zero makes it octal unless a letter names
another base. -/
def readNatural? : List Char → Option (Except SettingsError Nat)
  | [] => none
  | ['0'] => some (.ok 0)
  | '0' :: 'b' :: first :: rest =>
      readBased? 2 (fun char => char = '0' || char = '1') (first :: rest)
  | '0' :: 'x' :: first :: rest =>
      readBased? 16
        (fun char => Text.isDigit char || ('a' ≤ char && char ≤ 'f') || ('A' ≤ char && char ≤ 'F'))
        (first :: rest)
  | '0' :: rest => readBased? 8 (fun char => '0' ≤ char && char ≤ '7') rest
  | first :: rest =>
      let (whole, others) := splitColons rest
      if Text.isDigit first && whole.all isDigitPart then
        (others.mapM readSixtieth?).map fun numbers =>
          (readDecimal (dropUnderscores (first :: whole))).map fun value =>
            numbers.foldl (fun total number => 60 * total + number) value
      else none

def readInt? (text : List Char) : Option (Except SettingsError Int) :=
  let (negative, magnitude) := splitSign text
  (readNatural? magnitude).map fun value =>
    value.map fun value => if negative then -(value : Int) else value

/-- The exponent at the end of a number, zero if there is none; it needs a sign. -/
def readExponent? : List Char → Option Int
  | [] => some 0
  | mark :: sign :: digits =>
      if (mark = 'e' || mark = 'E') && !digits.isEmpty && digits.all Text.isDigit then
        if sign = '-' then some (-(Numeral.value digits : Int))
        else if sign = '+' then some (Numeral.value digits)
        else none
      else none
  | _ => none

/-- The number with the given digits before and behind its point. -/
def pointNumber (whole fraction : List Char) (exponent : Int) : Binary64 :=
  let fraction := dropUnderscores fraction
  .ofDecimal false (Numeral.value (dropUnderscores whole ++ fraction))
    (exponent - (fraction.length : Int))

/-- Sums up numbers that count units, sixties of units and so on. -/
def sumSixtieths : Int → Binary64 → List Binary64 → Binary64
  | _, sum, [] => sum
  | unit, sum, number :: numbers =>
      sumSixtieths (60 * unit) (sum.add (number.mul (.ofInt unit))) numbers

/-- A number that starts with a digit and has a point, perhaps with minutes and seconds
but then without an exponent. -/
def readPointed? (text : List Char) : Option Binary64 :=
  let (whole, others) := splitColons (text.takeWhile (· ≠ '.'))
  match text.dropWhile (· ≠ '.') with
  | [] => none
  | _ :: rest =>
      let fraction := rest.takeWhile isDigitPart
      let after := rest.dropWhile isDigitPart
      if !whole.all isDigitPart then none
      else
        match others.reverse with
        | [] => (readExponent? after).map (pointNumber whole fraction)
        | last :: middle =>
            if after.isEmpty && (others.all fun part => (readSixtieth? part).isSome) then
              some (sumSixtieths 60 (pointNumber last fraction 0)
                ((middle ++ [whole]).map fun part => pointNumber part [] 0))
            else none

/-- A number that is not an integer. Only those that start with a digit, and the
infinite ones, may have a sign. -/
def readFloat? (text : List Char) : Option Binary64 :=
  let (negative, magnitude) := splitSign text
  let signed (value : Binary64) : Binary64 := if negative then value.neg else value
  if [".inf", ".Inf", ".INF"].contains (String.ofList magnitude) then
    some (signed (.infinite false))
  else if [".nan", ".NaN", ".NAN"].contains (String.ofList text) then some .nan
  else
    match magnitude with
    | '.' :: first :: rest =>
        if Text.isDigit first && magnitude.length = text.length then
          (readExponent? (rest.dropWhile isDigitPart)).map
            (pointNumber [] (first :: rest.takeWhile isDigitPart))
        else none
    | first :: _ => if Text.isDigit first then (readPointed? magnitude).map signed else none
    | [] => none

/-- Words that are not texts; no word at all is null. -/
def readWord? (text : String) : Option Setting :=
  if ["", "~", "null", "Null", "NULL"].contains text then some .null
  else if ["true", "True", "TRUE", "yes", "Yes", "YES", "on", "On", "ON"].contains text then
    some (.bool true)
  else if ["false", "False", "FALSE", "no", "No", "NO", "off", "Off", "OFF"].contains text then
    some (.bool false)
  else none

/-- What a plain scalar denotes. -/
def understand (text : List Char) : Except SettingsError Setting :=
  match readWord? (String.ofList text), readFloat? text, readInt? text with
  | some setting, _, _ => .ok setting
  | none, some value, _ => .ok (.float value)
  | none, none, some value => value.map .int
  | none, none, none => .ok (.text (String.ofList text))

end LayoutScript.Settings
