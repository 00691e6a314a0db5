import LayoutScript.Machine.Binding

/-!
Evaluation of trees, strictly from left to right. Every statement and every final
expression of a body passes a checkpoint before it runs. Fuel bounds the evaluation
from outside; running out of it is no outcome of a script.
-/

namespace LayoutScript

namespace Evaluation

/-- Reads a name. -/
def lookup (span : Span) (name : String) : Evaluation Value := do
  match (← get).store.lookup? name with
  | some value => pure value
  | none => fail (.undefinedVariable name) span

/-- Makes a function that captures the current frame. -/
def makeClosure (name : Option String) (parameters : List String) (body : Block) :
    Evaluation Value :=
  modifyGet fun machine =>
    let (identity, store) := machine.store.freshFunction
    (.function (.closure ⟨identity, name, parameters, body, store.current⟩), { machine with store })

/-- The member of a tuple. -/
def member (span : Span) (target : Value) (index : Nat) : Evaluation Value :=
  match target with
  | .tuple elements =>
      match elements[index]? with
      | some element => pure element
      | none => fail (.memberIndex index elements.length) span
  | other => fail (.memberless other.kind) span

/-- Calls a function of the host. -/
def callNative (native : Native) (arguments : List Value) : Evaluation Value := do
  if native.prints then
    write (String.join (arguments.map fun argument => argument.display ++ "\n"))
  return .nothing

/-- Runs the body of a function in a new frame below the captured one. Beyond the
limit on calls in progress, or beyond what the host can hold, it does not run. -/
def inCall {α : Type} (context : Context) (span : Span) (closure : Closure)
    (arguments : List Value) (body : Evaluation α) : Evaluation α := do
  let machine ← get
  let depth := machine.depth + 1
  match Limits.exceeds depth context.limits.callDepth with
  | some limit => fail (.stackOverflow (some limit)) span
  | none =>
      if depth > context.callCapacity then
        throw (.error ⟨.stackOverflow none, machine.lastSpan, none⟩)
      else
        let name := "fn " ++ (Callable.closure closure).callName
        restoring
          (fun machine => { machine with store := machine.store.enter name closure.frame, depth })
          do
            declareParameters closure.parameters arguments
            body

end Evaluation

open Evaluation

mutual

def evaluate (context : Context) : Nat → Expression → Evaluation Value
  | 0, _ => outOfFuel
  | fuel + 1, expression =>
      match expression with
      | .literal _ value => pure (.ofLiteral value)
      | .identifier span name => lookup span name
      | .tuple _ elements => do return .tuple (← evaluateAll context fuel elements)
      | .binary span left operator right =>
          match operator with
          | .conjunction => evaluateLogical context fuel left .conjunction right false
          | .disjunction => evaluateLogical context fuel left .disjunction right true
          | _ => do
              let leftValue ← evaluate context fuel left
              let rightValue ← evaluate context fuel right
              ofOperator span (operator.apply context.limits leftValue rightValue)
      | .unary span operator operand => do
          ofOperator span (operator.apply (← evaluate context fuel operand))
      | .call span callee arguments => evaluateCall context fuel span callee arguments
      | .member span target index => do member span (← evaluate context fuel target) index
      | .conditional _ condition whenTrue whenFalse => do
          if ← evaluateCondition context fuel condition then evaluate context fuel whenTrue
          else evaluate context fuel whenFalse
      | .rebind span name value => do
          let result ← evaluate context fuel value
          assign span name result
          return result
      | .function _ parameters body => makeClosure none parameters body

/-- Evaluates expressions in order. -/
def evaluateAll (context : Context) : Nat → List Expression → Evaluation (List Value)
  | 0, _ => outOfFuel
  | _ + 1, [] => pure []
  | fuel + 1, expression :: expressions => do
      let value ← evaluate context fuel expression
      return value :: (← evaluateAll context fuel expressions)

/-- A logical operator; its left operand decides alone if it equals `decisive`. -/
def evaluateLogical (context : Context) :
    Nat → Expression → BinaryOperator → Expression → Bool → Evaluation Value
  | 0, _, _, _, _ => outOfFuel
  | fuel + 1, left, operator, right, decisive => do
      match ← evaluate context fuel left with
      | .bool leftValue =>
          if leftValue = decisive then
            return .bool decisive
          else
            match ← evaluate context fuel right with
            | .bool rightValue => return .bool rightValue
            | other => fail (.logicalOperand operator other.kind) right.span
      | other => fail (.logicalOperand operator other.kind) left.span

/-- Evaluates a condition; only truth values are conditions. -/
def evaluateCondition (context : Context) : Nat → Expression → Evaluation Bool
  | 0, _ => outOfFuel
  | fuel + 1, condition => do
      match ← evaluate context fuel condition with
      | .bool holds => return holds
      | other => fail (.conditionType other.kind) condition.span

/-- Evaluates the callee, then the arguments, then the call. -/
def evaluateCall (context : Context) :
    Nat → Span → Expression → List Expression → Evaluation Value
  | 0, _, _, _ => outOfFuel
  | fuel + 1, span, callee, arguments => do
      match ← evaluate context fuel callee with
      | .function callable =>
          let values ← evaluateAll context fuel arguments
          if values.length ≠ callable.arity then
            fail (.argumentCount callable.callName callable.arity values.length) span
          else
            match callable with
            | .native native => callNative native values
            | .closure closure =>
                inCall context span closure values (executeBlock context fuel closure.body)
      | other => fail (.notCallable other.kind) callee.span

/-- Executes a body in the current frame and gives its value. -/
def executeBlock (context : Context) : Nat → Block → Evaluation Value
  | 0, _ => outOfFuel
  | fuel + 1, .valued _ statements value => do
      executeAll context fuel statements
      checkpoint context value.kind value.span
      evaluate context fuel value
  | fuel + 1, .silent _ statements => do
      executeAll context fuel statements
      return .nothing

/-- Executes statements in order. -/
def executeAll (context : Context) : Nat → List Statement → Evaluation Unit
  | 0, _ => outOfFuel
  | _ + 1, [] => pure ()
  | fuel + 1, statement :: statements => do
      let _ ← execute context fuel statement
      executeAll context fuel statements

/-- Executes a statement. Only an open expression gives a value. -/
def execute (context : Context) : Nat → Statement → Evaluation Value
  | 0, _ => outOfFuel
  | fuel + 1, statement => do
      checkpoint context statement.kind statement.span
      match statement with
      | .evaluate _ expression closed =>
          let value ← evaluate context fuel expression
          return if closed then .nothing else value
      | .declare _ pattern initial =>
          let value ← evaluate context fuel initial
          declarePattern pattern value
          return .nothing
      | .assign _ target replacement =>
          let value ← evaluate context fuel replacement
          assignPattern target value
          return .nothing
      | .whileLoop _ condition body =>
          repeatWhile context fuel condition body
          return .nothing
      | .ifBlock _ condition body =>
          if ← evaluateCondition context fuel condition then
            let _ ← inScope "if-body" (executeBlock context fuel body)
          return .nothing
      | .define span name parameters body =>
          let value ← makeClosure (some name) parameters body
          Evaluation.declare span name value
          return .nothing

/-- Runs a body, each time in a new frame, as long as a condition holds. -/
def repeatWhile (context : Context) : Nat → Expression → Block → Evaluation Unit
  | 0, _, _ => outOfFuel
  | fuel + 1, condition, body => do
      if ← evaluateCondition context fuel condition then
        let _ ← inScope "while-body" (executeBlock context fuel body)
        repeatWhile context fuel condition body
      else
        pure ()

end

/-- Executes the statements of a program; the value is that of the last one. -/
def executeProgram (context : Context) (fuel : Nat) :
    List Statement → Value → Evaluation Value
  | [], value => pure value
  | statement :: statements, _ => do
      let value ← execute context fuel statement
      executeProgram context fuel statements value

namespace Machine

/-- Runs one evaluation from outside: counters start anew, and the frame that was
current is current again at the end. -/
def guarded {α : Type} (machine : Machine) (body : Evaluation α) : Except Stop α × Machine :=
  (restoring (fun machine => { machine with steps := 0, depth := 0, lastSpan := none }) body).run
    { machine with depth := 0 }

def run (machine : Machine) (context : Context) (fuel : Nat) (program : Program) :
    Except Stop Value × Machine :=
  machine.guarded (executeProgram context fuel program.statements .nothing)

def runStatement (machine : Machine) (context : Context) (fuel : Nat) (statement : Statement) :
    Except Stop Value × Machine :=
  machine.guarded (execute context fuel statement)

def runExpression (machine : Machine) (context : Context) (fuel : Nat)
    (expression : Expression) : Except Stop Value × Machine :=
  machine.guarded (evaluate context fuel expression)

end Machine

end LayoutScript
