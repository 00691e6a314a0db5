import LayoutScript.Machine.Basic

/-!
Binding of names and patterns. The shape of the value and all names of a pattern are
checked before the first name is bound. Then the names are bound one after the other,
each by a step that checks its own name once more.
-/

namespace LayoutScript

mutual

/-- Whether a value has the shape of a pattern. -/
def Pattern.checkShape : Pattern → Value → Except ScriptError Unit
  | .identifier _ _, _ => .ok ()
  | .tuple span elements, value =>
      match value with
      | .tuple values =>
          if values.length = elements.length then Pattern.checkShapes elements values
          else .error (.located (.destructureArity elements.length values.length) span)
      | other => .error (.located (.destructureType other.kind) span)

def Pattern.checkShapes : List Pattern → List Value → Except ScriptError Unit
  | pattern :: patterns, value :: values => do
      pattern.checkShape value
      Pattern.checkShapes patterns values
  | _, _ => .ok ()

end

mutual

/-- The names of a pattern with their ranges, in the order of the source. -/
def Pattern.leaves : Pattern → List (Span × String)
  | .identifier span name => [(span, name)]
  | .tuple _ elements => Pattern.leavesAll elements

def Pattern.leavesAll : List Pattern → List (Span × String)
  | [] => []
  | pattern :: patterns => pattern.leaves ++ Pattern.leavesAll patterns

end

namespace Store

/-- Names to declare must be distinct and new to the current frame. -/
def checkDeclared (store : Store) :
    List String → List (Span × String) → Except ScriptError Unit
  | _, [] => .ok ()
  | seen, (span, name) :: leaves =>
      if seen.contains name || store.bindsHere name then
        .error (.located (.redeclaration name) span)
      else
        store.checkDeclared (name :: seen) leaves

/-- Names to assign must be bound somewhere outward. -/
def checkAssigned (store : Store) : List (Span × String) → Except ScriptError Unit
  | [] => .ok ()
  | (span, name) :: leaves =>
      if store.contains name then store.checkAssigned leaves
      else .error (.located (.undefinedVariable name) span)

end Store

namespace Evaluation

/-- Rebinds a name. -/
def assign (span : Span) (name : String) (value : Value) : Evaluation Unit :=
  changeStore (fun store => store.assign? name value) (.located (.undefinedVariable name) span)

/-- Declares a name in the current frame; nothing of the source may be to blame. -/
def declareAt (span : Option Span) (name : String) (value : Value) : Evaluation Unit :=
  changeStore (fun store => store.declare? name value) ⟨.redeclaration name, span, none⟩

/-- Declares a name that stands in the source. -/
def declare (span : Span) (name : String) (value : Value) : Evaluation Unit :=
  declareAt (some span) name value

mutual

/-- Stores the parts of a value under the names of a pattern, one after the other.
Nothing is checked here but what storing a single name checks. -/
def storePattern (store : Span → String → Value → Evaluation Unit) :
    Pattern → Value → Evaluation Unit
  | .identifier span name, value => store span name value
  | .tuple _ elements, value =>
      match value with
      | .tuple values => storePatterns store elements values
      | _ => throw (.fault .notIterable)

def storePatterns (store : Span → String → Value → Evaluation Unit) :
    List Pattern → List Value → Evaluation Unit
  | pattern :: patterns, value :: values => do
      storePattern store pattern value
      storePatterns store patterns values
  | _, _ => pure ()

end

/-- Binds a pattern in three passes: over its shape, over its names, and to store. -/
def bindPattern (check : Store → List (Span × String) → Except ScriptError Unit)
    (store : Span → String → Value → Evaluation Unit) (pattern : Pattern) (value : Value) :
    Evaluation Unit := do
  checkStore fun _ => pattern.checkShape value
  checkStore fun current => check current pattern.leaves
  storePattern store pattern value

/-- Declares the names of a pattern in the current frame. -/
def declarePattern (pattern : Pattern) (value : Value) : Evaluation Unit :=
  bindPattern (fun store => store.checkDeclared []) declare pattern value

/-- Rebinds the names of a pattern where they are bound. -/
def assignPattern (pattern : Pattern) (value : Value) : Evaluation Unit :=
  bindPattern Store.checkAssigned assign pattern value

/-- Declares the parameters of a function in the current frame. -/
def declareParameters : List String → List Value → Evaluation Unit
  | parameter :: parameters, argument :: arguments => do
      declareAt none parameter argument
      declareParameters parameters arguments
  | _, _ => pure ()

end Evaluation

end LayoutScript
