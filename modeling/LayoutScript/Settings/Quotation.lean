import LayoutScript.Number.Numeral

/-!
Texts of settings files that go on over several lines, and the two quoted forms. A
single line end reads as a blank, of several the first is dropped, and the blanks
around line ends vanish. Between single quotes a quote is written twice; between
double quotes a backslash starts an escape.
-/

namespace LayoutScript.Settings

/-- What a line end reads as. Those that only Unicode knows stand for themselves. -/
def lineEnd? (char : Char) : Option Char :=
  if char = '\n' || char = '\u0085' then some '\n'
  else if char = '\u2028' || char = '\u2029' then some char
  else none

/-- What stands between two visible characters: blanks alone, or line ends. The first
of the line ends is missing if it was escaped. -/
inductive Gap where
  | blanks (text : List Char)
  | lines (first : Option Char) (others : List Char)
deriving Repr, DecidableEq

namespace Gap

def empty : Gap := .blanks []

def addBlank (char : Char) : Gap → Gap
  | .blanks text => .blanks (text ++ [char])
  | .lines first others => .lines first others

def addLine (lineEnd : Char) : Gap → Gap
  | .blanks _ => .lines (some lineEnd) []
  | .lines first others => .lines first (others ++ [lineEnd])

/-- The characters that a gap contributes to a text. -/
def text : Gap → List Char
  | .blanks text => text
  | .lines none others => others
  | .lines (some first) others =>
      if first = '\n' then
        if others.isEmpty then [' '] else others
      else first :: others

end Gap

def isQuotedBlank (char : Char) : Bool := char = ' ' || char = '\t'

/-- Reads up to the closing single quote; gives the text and what follows. -/
def readSingle : Gap → List Char → List Char × List Char
  | gap, [] => (gap.text, [])
  | gap, '\'' :: '\'' :: rest =>
      let (text, after) := readSingle .empty rest
      (gap.text ++ '\'' :: text, after)
  | gap, '\'' :: rest => (gap.text, rest)
  | gap, char :: rest =>
      match lineEnd? char with
      | some lineEnd => readSingle (gap.addLine lineEnd) rest
      | none =>
          if isQuotedBlank char then readSingle (gap.addBlank char) rest
          else
            let (text, after) := readSingle .empty rest
            (gap.text ++ char :: text, after)

/-- The number of hexadecimal digits that follow the letter of an escape. -/
def codeLength? : Char → Option Nat
  | 'x' => some 2
  | 'u' => some 4
  | 'U' => some 8
  | _ => none

/-- The character that a backslash and a letter denote. -/
def escaped : Char → Char
  | '0' => '\x00'
  | 'a' => '\x07'
  | 'b' => '\x08'
  | 't' => '\t'
  | 'n' => '\n'
  | 'v' => '\x0b'
  | 'f' => '\x0c'
  | 'r' => '\r'
  | 'e' => '\x1b'
  | 'N' => '\u0085'
  | '_' => '\u00a0'
  | 'L' => '\u2028'
  | 'P' => '\u2029'
  | other => other

/-- The character with a code; codes that no character has read as the replacement
character. -/
def charOfCode (code : Nat) : Char := if code.isValidChar then Char.ofNat code else '\ufffd'

/-- How far an escape has been read. -/
inductive Escape where
  | outside
  | letter
  | code (remaining : Nat) (value : Nat)
deriving Repr, DecidableEq

/-- Reads up to the closing double quote; gives the text and what follows. An escaped
line end joins two lines without a blank. -/
def readDouble : Escape → Gap → List Char → List Char × List Char
  | _, gap, [] => (gap.text, [])
  | .letter, _, char :: rest =>
      match lineEnd? char, codeLength? char with
      | some _, _ => readDouble .outside (.lines none []) rest
      | none, some length => readDouble (.code length 0) .empty rest
      | none, none =>
          let (text, after) := readDouble .outside .empty rest
          (escaped char :: text, after)
  | .code remaining value, _, char :: rest =>
      let value := 16 * value + Numeral.hexDigitValue char
      if remaining ≤ 1 then
        let (text, after) := readDouble .outside .empty rest
        (charOfCode value :: text, after)
      else readDouble (.code (remaining - 1) value) .empty rest
  | .outside, gap, char :: rest =>
      match lineEnd? char with
      | some lineEnd => readDouble .outside (gap.addLine lineEnd) rest
      | none =>
          if isQuotedBlank char then readDouble .outside (gap.addBlank char) rest
          else if char = '"' then (gap.text, rest)
          else if char = '\\' then
            let (text, after) := readDouble .letter .empty rest
            (gap.text ++ text, after)
          else
            let (text, after) := readDouble .outside .empty rest
            (gap.text ++ char :: text, after)

end LayoutScript.Settings
