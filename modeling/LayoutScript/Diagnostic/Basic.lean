import LayoutScript.Source.Span

/-!
Diagnostics and their layout: a header, the quoted source line with carets under
the range, and the hints.
-/

namespace LayoutScript

inductive Severity where
  | error | warning | fatal
deriving Repr, DecidableEq, Inhabited

namespace Severity

def name : Severity → String
  | error => "error"
  | warning => "warning"
  | fatal => "fatal"

def ofName? : String → Option Severity
  | "error" => some error
  | "warning" => some warning
  | "fatal" => some fatal
  | _ => none

end Severity

structure Diagnostic where
  code : String
  message : String
  severity : Severity
  span : Option Span
  sourceLine : Option String
  hints : List String
deriving Repr, DecidableEq, Inhabited

namespace Diagnostic

/-- Severity, code and message, behind the start of the range if there is one. -/
def header (diagnostic : Diagnostic) : String :=
  let place := match diagnostic.span with
    | some span => span.startText ++ ": "
    | none => ""
  place ++ diagnostic.severity.name ++ "[" ++ diagnostic.code ++ "]: " ++ diagnostic.message

/-- A number right-aligned in three columns. -/
def alignedNumber (number : Nat) : String :=
  let digits := Numeral.ofNat number
  String.ofList (List.replicate (3 - digits.length) ' ') ++ digits

/-- The column behind the carets: the end of the range, or of the line if the
range goes on. -/
def caretEnd (span : Span) (sourceLine : String) : Nat :=
  if span.start.line = span.stop.line then span.stop.column else sourceLine.length + 1

/-- The quoted source line; at least one caret stands under it. -/
def excerpt (span : Span) (sourceLine : String) : List String :=
  let carets := max 1 (caretEnd span sourceLine - span.start.column)
  ["  |",
   alignedNumber span.start.line ++ " | " ++ sourceLine,
   "    | " ++ String.ofList (List.replicate (span.start.column - 1) ' ') ++
     String.ofList (List.replicate carets '^')]

def formatLines (diagnostic : Diagnostic) (showSource : Bool) : List String :=
  let quoted := match diagnostic.span, diagnostic.sourceLine with
    | some span, some sourceLine => if showSource then excerpt span sourceLine else []
    | _, _ => []
  diagnostic.header :: quoted ++ diagnostic.hints.map ("    = hint: " ++ ·)

def format (diagnostic : Diagnostic) (showSource : Bool) : String :=
  "\n".intercalate (diagnostic.formatLines showSource)

/-- Fills in the source line if it is not known yet and the range starts in one of
the lines. -/
def attachSource (diagnostic : Diagnostic) (lines : List String) : Diagnostic :=
  match diagnostic.sourceLine, diagnostic.span with
  | none, some span =>
      if span.start.line = 0 then diagnostic
      else { diagnostic with sourceLine := lines[span.start.line - 1]? }
  | _, _ => diagnostic

end Diagnostic

end LayoutScript
