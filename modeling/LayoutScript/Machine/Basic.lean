import LayoutScript.Builtin
import LayoutScript.Limits
import LayoutScript.Value.Operators

/-!
The machine that evaluates scripts: the store, the output, and the counters that
limits refer to. An evaluation always leaves a machine behind, also when it stops
early, so that what a script did before an error stays done.
-/

namespace LayoutScript

/-- A node about to run and the frames it runs in, innermost first. -/
structure Checkpoint where
  kind : NodeKind
  span : Span
  frames : List String
deriving Repr, DecidableEq

/-- A host that watches checkpoints and may stop after a number of them. -/
structure Watch where
  stopAfter : Option Nat
deriving Repr, DecidableEq

/-- What does not change during an evaluation. -/
structure Context where
  limits : Limits
  watch : Option Watch
  /-- Calls that the stack of the host can hold whatever the limits say. -/
  callCapacity : Nat
deriving Repr

structure Machine where
  store : Store
  output : String
  /-- Checkpoints passed since the evaluation started. -/
  steps : Nat
  /-- Calls in progress. -/
  depth : Nat
  /-- Where the last checkpoint was. -/
  lastSpan : Option Span
  /-- Checkpoints seen by a watching host, the latest first. -/
  trace : List Checkpoint

/-- Why an evaluation stopped without a value. -/
inductive Stop where
  | error (error : ScriptError)
  | fault (fault : Fault)
  | outOfFuel
deriving Repr, DecidableEq

abbrev Evaluation := ExceptT Stop (StateM Machine)

namespace Machine

/-- A machine at rest around a store. -/
def ofStore (store : Store) : Machine :=
  { store, output := "", steps := 0, depth := 0, lastSpan := none, trace := [] }

def initial : Machine := ofStore .initial

end Machine

namespace Evaluation

def fail {α : Type} (cause : Cause) (span : Span) : Evaluation α :=
  throw (.error (.located cause span))

def outOfFuel {α : Type} : Evaluation α := throw .outOfFuel

/-- The result of an operator that was applied at a range. -/
def ofOperator {α : Type} (span : Span) : Except Failure α → Evaluation α
  | .ok value => pure value
  | .error (.cause cause) => fail cause span
  | .error (.fault fault) => throw (.fault fault)

def write (text : String) : Evaluation Unit :=
  modify fun machine => { machine with output := machine.output ++ text }

/-- Fails unless a check of the store passes. -/
def checkStore (check : Store → Except ScriptError Unit) : Evaluation Unit := do
  match check (← get).store with
  | .ok () => pure ()
  | .error error => throw (.error error)

/-- Changes the store by one step. A step that is refused leaves it alone. -/
def changeStore (change : Store → Option Store) (refused : ScriptError) : Evaluation Unit := do
  match change (← get).store with
  | some store => modify fun machine => { machine with store }
  | none => throw (.error refused)

/-- Runs a body on a machine. Whatever the outcome, the given frame is current at the
end and the given number of calls is in progress. -/
@[noinline]
def returningTo {α : Type} (current : FrameId) (depth : Nat) (machine : Machine)
    (body : Evaluation α) : Except Stop α × Machine :=
  let (result, after) := body.run machine
  (result, { after with store := after.store.goTo current, depth })

/-- Runs a body after a change to the machine. Whatever the outcome, the frame that
was current and the number of calls in progress are as before. -/
def restoring {α : Type} (change : Machine → Machine) (body : Evaluation α) : Evaluation α :=
  ExceptT.mk fun machine =>
    returningTo machine.store.current machine.depth (change machine) body

/-- Runs a body in a new frame below the current one. -/
def inScope {α : Type} (name : String) (body : Evaluation α) : Evaluation α :=
  restoring (fun machine => { machine with store := machine.store.enter name machine.store.current })
    body

/-- Counts a step and gives the limits and the host an occasion to stop. -/
def checkpoint (context : Context) (kind : NodeKind) (span : Span) : Evaluation Unit := do
  modify fun machine => { machine with steps := machine.steps + 1, lastSpan := some span }
  let steps := (← get).steps
  match Limits.exceeds steps context.limits.steps with
  | some limit => fail (.interrupted (.stepBudget limit)) span
  | none =>
      match context.watch with
      | none => pure ()
      | some watch =>
          modify fun machine =>
            let seen : Checkpoint := ⟨kind, span, machine.store.chain.map (·.name)⟩
            { machine with trace := seen :: machine.trace }
          if watch.stopAfter.any (· < steps) then fail (.interrupted .stoppedByHost) span

end Evaluation

end LayoutScript
