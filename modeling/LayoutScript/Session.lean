import LayoutScript.Machine.Evaluator
import LayoutScript.Tree.Parser

/-!
Running source texts: once against a machine, or one after another in a session
that keeps its global frame. Errors found while running quote the text that was
being run.
-/

namespace LayoutScript

def Halt.toStop : Halt → Stop
  | .error found => .error found
  | .outOfFuel => .outOfFuel

/-- Adds the quoted line to an error that lacks it. -/
def Stop.attachSource (lines : List String) : Stop → Stop
  | .error found => .error (found.attachSource lines)
  | .fault found => .fault found
  | .outOfFuel => .outOfFuel

/-- The lines that errors of a source text quote. -/
def sourceLines (source : String) : List String := Text.lines (Text.dropReturns source.toList)

/-- Reads and runs a source text. -/
def Machine.runSource (machine : Machine) (limits : Limits) (callCapacity fuel : Nat)
    (source : String) (file : Option String) : Except Stop Value × Machine :=
  match Program.ofSource source file limits with
  | .error halt => (.error halt.toStop, machine)
  | .ok program =>
      match machine.run ⟨limits, none, callCapacity⟩ fuel program with
      | (.ok value, machine) => (.ok value, machine)
      | (.error stop, machine) => (.error (stop.attachSource (sourceLines source)), machine)

/-- A machine that is used again and again until it is closed. -/
structure Session where
  limits : Limits
  callCapacity : Nat
  machine : Machine
  closed : Bool

namespace Session

def start (limits : Limits) (callCapacity : Nat) : Session :=
  ⟨limits, callCapacity, .initial, false⟩

def context (session : Session) : Context := ⟨session.limits, none, session.callCapacity⟩

/-- Runs a source text. A closed session runs nothing. -/
def execute (session : Session) (fuel : Nat) (source : String) (file : Option String) :
    Except Stop Value × Session :=
  if session.closed then
    (.error (.fault .sessionClosed), session)
  else
    let (result, machine) :=
      session.machine.runSource session.limits session.callCapacity fuel source file
    (result, { session with machine })

/-- Reads a global name. -/
def lookup (session : Session) (name : String) : Except ScriptError Value :=
  match session.machine.store.lookupFrom? Store.globalFrame name with
  | some value => .ok value
  | none => .error ⟨.undefinedVariable name, none, none⟩

/-- Declares a name in the current frame. -/
def declare (session : Session) (name : String) (value : Value) :
    Except ScriptError Session :=
  match session.machine.store.declare? name value with
  | some store => .ok { session with machine := { session.machine with store } }
  | none => .error ⟨.redeclaration name, none, none⟩

/-- Runs a part of the first statement of a source text. Errors quote no line. -/
def runFirst (session : Session) (source : String) (file : Option String)
    (run : Machine → Statement → Except Stop Value × Machine) :
    Except Stop (Option Value) × Session :=
  match Program.ofSource source file session.limits with
  | .error halt => (.error halt.toStop, session)
  | .ok program =>
      match program.statements with
      | [] => (.ok none, session)
      | first :: _ =>
          let (result, machine) := run session.machine first
          (result.map some, { session with machine })

/-- Evaluates the expression that a source text starts with, none if it is empty. -/
def evaluateFirst (session : Session) (fuel : Nat) (source : String) (file : Option String) :
    Except Stop (Option Value) × Session :=
  session.runFirst source file fun machine statement =>
    match statement with
    | .evaluate _ expression _ => machine.runExpression session.context fuel expression
    | other => (.error (.fault (.notAnExpression other.kind)), machine)

/-- Executes the statement that a source text starts with, none if it is empty. -/
def executeFirst (session : Session) (fuel : Nat) (source : String) (file : Option String) :
    Except Stop (Option Value) × Session :=
  session.runFirst source file fun machine statement =>
    machine.runStatement session.context fuel statement

/-- Removes all global bindings for good. -/
def close (session : Session) : Session :=
  if session.closed then session
  else
    { session with
      machine := { session.machine with store := session.machine.store.close }
      closed := true }

end Session

end LayoutScript
