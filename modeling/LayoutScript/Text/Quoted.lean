import LayoutScript.Text.Printable

/-!
Two quoted forms of text. A script literal escapes only what a script cannot
hold between its quotes; a listing escapes every character that is not
printable, so that a listed text stays on one line. Both use single quotes
unless the text has a single quote and no double quote.
-/

namespace LayoutScript.Text

/-- The quote that needs the fewest escapes, the single one if both are equal. -/
def preferredQuote (text : List Char) : Char :=
  if text.contains '\'' && !text.contains '"' then '"' else '\''

/-- One character of a script literal enclosed in `quote`. -/
def scriptChar (quote char : Char) : List Char :=
  if char = quote then ['\\', char]
  else if char = '\\' then ['\\', '\\']
  else if char = '\n' then ['\\', 'n']
  else if char = '\t' then ['\\', 't']
  else if char = '\r' then ['\\', 'r']
  else if char = '\x00' then ['\\', '0']
  else [char]

/-- A script literal that reads back as the text. -/
def scriptLiteral (text : String) : String :=
  let quote := preferredQuote text.toList
  String.ofList (quote :: text.toList.flatMap (scriptChar quote) ++ [quote])

/-- The last `width` hexadecimal digits of a number, in lower case. -/
def hexDigits : Nat → Nat → List Char
  | 0, _ => []
  | width + 1, number => hexDigits width (number / 16) ++ [Nat.digitChar (number % 16)]

/-- One character of a listed text enclosed in `quote`. -/
def listedChar (quote char : Char) : List Char :=
  if char = quote || char = '\\' then ['\\', char]
  else if char = '\n' then ['\\', 'n']
  else if char = '\r' then ['\\', 'r']
  else if char = '\t' then ['\\', 't']
  else if isPrintable char then [char]
  else if char.toNat < 0x100 then '\\' :: 'x' :: hexDigits 2 char.toNat
  else if char.toNat < 0x10000 then '\\' :: 'u' :: hexDigits 4 char.toNat
  else '\\' :: 'U' :: hexDigits 8 char.toNat

/-- The form in which names and texts appear in listings and messages. -/
def listed (text : String) : String :=
  let quote := preferredQuote text.toList
  String.ofList (quote :: text.toList.flatMap (listedChar quote) ++ [quote])

/-- A bracketed, comma-separated list. -/
def bracketed (items : List String) : String := "[" ++ ", ".intercalate items ++ "]"

end LayoutScript.Text
