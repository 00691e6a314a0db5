import LayoutScript.Command.Arguments
import LayoutScript.Session
import LayoutScript.Settings.Load
import LayoutScript.Tree.Outline

/-!
The actions of the command line as functions of the files they read. A report says
what is written to the two output streams and how the command ends.
-/

namespace LayoutScript.Command

structure Report where
  exit : Nat
  stdout : String
  stderr : String
deriving Repr, DecidableEq

/-- How a command ends: with a report, by its arguments alone, by a file that cannot be
read, or by a fault of the host in the middle of a run. -/
inductive Ending where
  | report (report : Report)
  | usage (exit : Nat) (stdout : String)
  | fault (error : SettingsError)
  | crash (stdout stderr : String) (fault : Fault)

/-- The same ending, with text in front of what is written to the second stream. -/
def Ending.behind (text : String) : Ending → Ending
  | report ended => report { ended with stderr := text ++ ended.stderr }
  | crash stdout stderr raised => crash stdout (text ++ stderr) raised
  | ending => ending

/-- The parts of the program that write a log. -/
inductive Component where
  | settings | reader | evaluator
deriving Repr, DecidableEq

def Component.name : Component → String
  | settings => "boba.config"
  | reader => "boba.parser"
  | evaluator => "boba.runtime.interpreter"

/-- A line of the log, written only by verbose commands. -/
def logLine (verbose : Bool) (component : Component) (message : String) : String :=
  if verbose then "DEBUG " ++ component.name ++ ": " ++ message ++ "\n" else ""

def readLog (verbose : Bool) (program : Program) (file : String) : String :=
  logLine verbose .reader
    ("parsed " ++ Numeral.ofNat program.statements.length ++ " top-level statement(s) from " ++
      (if file.isEmpty then "<source>" else file))

/-- Where an error arose, as the log shows it. -/
def spanText (error : ScriptError) : String :=
  match error.span with
  | some span => span.text
  | none => "None"

/-- What the evaluator logs about an error that ended it. -/
def stopLog (verbose : Bool) (error : ScriptError) : String :=
  match error.cause with
  | .interrupted (.stepBudget steps) =>
      logLine verbose .evaluator ((Interruption.stepBudget steps).reason ++ " at " ++ spanText error)
  | .interrupted .stoppedByHost =>
      logLine verbose .evaluator ("interrupted by step hook at " ++ spanText error)
  | .stackOverflow (some limit) =>
      logLine verbose .evaluator
        ("call depth limit " ++ Numeral.ofNat limit ++ " exceeded at " ++ spanText error)
  | .stackOverflow none => logLine verbose .evaluator ("stack overflow at " ++ spanText error)
  | _ => ""

/-- The tokens of a file, one to a line, up to the first error. -/
def listTokens (invocation : Invocation) (source : String) : Report :=
  let reading := tokenize source (some invocation.file)
  let stdout := String.join (reading.tokens.map fun token =>
    token.span.start.text ++ "\t" ++ token.text ++ "\n")
  match reading.failure with
  | some error => ⟨1, stdout, error.diagnostic.format true ++ "\n"⟩
  | none => ⟨0, stdout, ""⟩

/-- Reads a file and writes something about its tree. -/
def showProgram (invocation : Invocation) (source : String) (limits : Limits)
    (describe : Program → String) : Report :=
  match Program.ofSource source (some invocation.file) limits with
  | .ok program =>
      ⟨0, describe program ++ "\n", readLog invocation.verbose program invocation.file⟩
  | .error (.error error) => ⟨1, "", error.diagnostic.format true ++ "\n"⟩
  | .error .outOfFuel => ⟨1, "", "out of fuel\n"⟩

/-- Runs a file in a session of its own and writes the value unless it is none. -/
def runProgram (invocation : Invocation) (source : String) (limits : Limits)
    (callCapacity fuel : Nat) : Ending :=
  let verbose := invocation.verbose
  let file := some invocation.file
  let started := logLine verbose .evaluator "session started"
  let closed := logLine verbose .evaluator "session closed"
  let parsed := match Program.ofSource source file limits with
    | .ok program => readLog verbose program invocation.file
    | .error _ => ""
  let (result, session) := (Session.start limits callCapacity).execute fuel source file
  let output := session.machine.output
  match result with
  | .ok value =>
      let shown := match value with
        | .nothing => ""
        | other => other.written ++ "\n"
      .report ⟨0, output ++ shown, started ++ parsed ++ closed⟩
  | .error (.error error) =>
      let failed := logLine verbose .evaluator
        ("execution failed: " ++ error.cause.kind.name ++ "[" ++ error.cause.code ++ "]")
      .report ⟨1, output,
        started ++ parsed ++ stopLog verbose error ++ failed ++ closed ++
          error.cause.kind.name ++ ": " ++ error.diagnostic.format true ++ "\n"⟩
  | .error (.fault fault) => .crash output (started ++ parsed ++ closed) fault
  | .error .outOfFuel => .report ⟨1, output, started ++ parsed ++ closed ++ "out of fuel\n"⟩

/-- Carries out an action that needs limits. -/
def actWithLimits (invocation : Invocation) (source : String) (limits : Limits)
    (callCapacity fuel : Nat) : Ending :=
  match invocation.action with
  | .check =>
      .report (showProgram invocation source limits fun program =>
        "OK: " ++ Numeral.ofNat program.statements.length ++ " top-level statement(s)")
  | .ast => .report (showProgram invocation source limits fun program => program.outline.text)
  | .run => runProgram invocation source limits callCapacity fuel
  | .tokens => .report (listTokens invocation source)

/-- Carries out an action on the text of its file. Tokens need no limits. -/
def act (files : Files) (surroundings : Settings.Surroundings) (callCapacity fuel : Nat)
    (invocation : Invocation) (source : String) : Ending :=
  let loading (explicit : Option String) : Ending :=
    let loading := Settings.load files surroundings explicit
    let opened := match loading.opened with
      | some path =>
          logLine invocation.verbose .settings ("loading config from " ++ path.text)
      | none => ""
    match loading.limits with
    | .error .noHome => .fault .noHome
    | .error error =>
        .report ⟨1, "", opened ++ "Error: Invalid config: " ++ error.message ++ "\n"⟩
    | .ok limits => (actWithLimits invocation source limits callCapacity fuel).behind opened
  if invocation.action = .tokens then .report (listTokens invocation source)
  else
    match invocation.config with
    | .search => loading none
    | .file path => loading (some path)
    | .erased => .fault .noPath

/-- Carries out a request of the command line. -/
def perform (files : Files) (surroundings : Settings.Surroundings) (callCapacity fuel : Nat) :
    Request → Ending
  | .misuse => .usage 2 ""
  | .showHelp => .usage 0 ""
  | .showVersion => .usage 0 "python -m boba 0.1.0\n"
  | .invoke invocation =>
      let path := Path.ofText invocation.file
      match files path with
      | .missing => .report ⟨1, "", "Error: File not found: " ++ path.text ++ "\n"⟩
      | .directory => .fault (.directory path.text)
      | .nameTooLong => .fault (.nameTooLong path.text)
      | .file text =>
          act files surroundings callCapacity fuel invocation
            (String.ofList (Text.unifyReturns text.toList))

end LayoutScript.Command
