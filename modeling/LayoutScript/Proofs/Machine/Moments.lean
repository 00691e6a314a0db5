import LayoutScript.Proofs.Machine.Evolution
import LayoutScript.Proofs.Machine.Preservation
import Mathlib.Logic.Relation

/-!
The moments of a run. An evaluator starts others on its way, each on the machine as it is by
then, so that a run is a tree of tasks. What evaluation carries on from stage to stage is
carried on to every one of these moments, and not only from the start of a run to its end; so a
class of values that evaluation keeps is kept at all of them.
-/

namespace LayoutScript

open Evaluation

/-- What an evaluator is asked to do. -/
inductive Task where
  | evaluate (tree : Expression)
  | evaluateAll (trees : List Expression)
  | evaluateLogical (left : Expression) (operator : BinaryOperator) (right : Expression)
      (decisive : Bool)
  | evaluateCondition (tree : Expression)
  | evaluateCall (span : Span) (callee : Expression) (arguments : List Expression)
  | executeBlock (tree : Block)
  | executeAll (trees : List Statement)
  | execute (tree : Statement)
  | repeatWhile (condition : Expression) (body : Block)

/-- Performs a task and gives the values that it results in. -/
def Task.perform (context : Context) (fuel : Nat) : Task → Evaluation (List Value)
  | .evaluate tree => do return [← LayoutScript.evaluate context fuel tree]
  | .evaluateAll trees => LayoutScript.evaluateAll context fuel trees
  | .evaluateLogical left operator right decisive => do
      return [← LayoutScript.evaluateLogical context fuel left operator right decisive]
  | .evaluateCondition tree => do
      return [.bool (← LayoutScript.evaluateCondition context fuel tree)]
  | .evaluateCall span callee arguments => do
      return [← LayoutScript.evaluateCall context fuel span callee arguments]
  | .executeBlock tree => do return [← LayoutScript.executeBlock context fuel tree]
  | .executeAll trees => do
      LayoutScript.executeAll context fuel trees
      return []
  | .execute tree => do return [← LayoutScript.execute context fuel tree]
  | .repeatWhile condition body => do
      LayoutScript.repeatWhile context fuel condition body
      return []

/-- A task about to be performed on a machine. -/
structure Moment where
  fuel : Nat
  task : Task
  machine : Machine

/-- How the task of a moment ends. -/
def Moment.ending (context : Context) (moment : Moment) : Except Stop (List Value) × Machine :=
  (moment.task.perform context moment.fuel).run moment.machine

/-- One task starts another. There is one case for each place where an evaluator calls an
evaluator; what was evaluated before gives the machine that the call starts on. -/
inductive Moment.Starts (context : Context) : Moment → Moment → Prop where
  | elements {fuel machine span trees} :
      Starts context ⟨fuel + 1, .evaluate (.tuple span trees), machine⟩
        ⟨fuel, .evaluateAll trees, machine⟩
  | conjunction {fuel machine span left right} :
      Starts context ⟨fuel + 1, .evaluate (.binary span left .conjunction right), machine⟩
        ⟨fuel, .evaluateLogical left .conjunction right false, machine⟩
  | disjunction {fuel machine span left right} :
      Starts context ⟨fuel + 1, .evaluate (.binary span left .disjunction right), machine⟩
        ⟨fuel, .evaluateLogical left .disjunction right true, machine⟩
  | leftOperand {fuel machine span left operator right}
      (strict : operator ≠ .conjunction ∧ operator ≠ .disjunction) :
      Starts context ⟨fuel + 1, .evaluate (.binary span left operator right), machine⟩
        ⟨fuel, .evaluate left, machine⟩
  | rightOperand {fuel machine span left operator right value after}
      (strict : operator ≠ .conjunction ∧ operator ≠ .disjunction)
      (first : (evaluate context fuel left).run machine = (.ok value, after)) :
      Starts context ⟨fuel + 1, .evaluate (.binary span left operator right), machine⟩
        ⟨fuel, .evaluate right, after⟩
  | operand {fuel machine span operator tree} :
      Starts context ⟨fuel + 1, .evaluate (.unary span operator tree), machine⟩
        ⟨fuel, .evaluate tree, machine⟩
  | call {fuel machine span callee trees} :
      Starts context ⟨fuel + 1, .evaluate (.call span callee trees), machine⟩
        ⟨fuel, .evaluateCall span callee trees, machine⟩
  | target {fuel machine span tree index} :
      Starts context ⟨fuel + 1, .evaluate (.member span tree index), machine⟩
        ⟨fuel, .evaluate tree, machine⟩
  | condition {fuel machine span condition whenTrue whenFalse} :
      Starts context ⟨fuel + 1, .evaluate (.conditional span condition whenTrue whenFalse), machine⟩
        ⟨fuel, .evaluateCondition condition, machine⟩
  | whenTrue {fuel machine span condition whenTrue whenFalse after}
      (holds : (evaluateCondition context fuel condition).run machine = (.ok true, after)) :
      Starts context ⟨fuel + 1, .evaluate (.conditional span condition whenTrue whenFalse), machine⟩
        ⟨fuel, .evaluate whenTrue, after⟩
  | whenFalse {fuel machine span condition whenTrue whenFalse after}
      (fails : (evaluateCondition context fuel condition).run machine = (.ok false, after)) :
      Starts context ⟨fuel + 1, .evaluate (.conditional span condition whenTrue whenFalse), machine⟩
        ⟨fuel, .evaluate whenFalse, after⟩
  | rebound {fuel machine span name tree} :
      Starts context ⟨fuel + 1, .evaluate (.rebind span name tree), machine⟩
        ⟨fuel, .evaluate tree, machine⟩
  | firstOfAll {fuel machine tree trees} :
      Starts context ⟨fuel + 1, .evaluateAll (tree :: trees), machine⟩
        ⟨fuel, .evaluate tree, machine⟩
  | restOfAll {fuel machine tree trees value after}
      (first : (evaluate context fuel tree).run machine = (.ok value, after)) :
      Starts context ⟨fuel + 1, .evaluateAll (tree :: trees), machine⟩
        ⟨fuel, .evaluateAll trees, after⟩
  | leftTruth {fuel machine left operator right decisive} :
      Starts context ⟨fuel + 1, .evaluateLogical left operator right decisive, machine⟩
        ⟨fuel, .evaluate left, machine⟩
  | rightTruth {fuel machine left operator right decisive holds after}
      (first : (evaluate context fuel left).run machine = (.ok (.bool holds), after))
      (undecided : holds ≠ decisive) :
      Starts context ⟨fuel + 1, .evaluateLogical left operator right decisive, machine⟩
        ⟨fuel, .evaluate right, after⟩
  | tested {fuel machine tree} :
      Starts context ⟨fuel + 1, .evaluateCondition tree, machine⟩ ⟨fuel, .evaluate tree, machine⟩
  | callee {fuel machine span callee trees} :
      Starts context ⟨fuel + 1, .evaluateCall span callee trees, machine⟩
        ⟨fuel, .evaluate callee, machine⟩
  | arguments {fuel machine span callee trees callable after}
      (first : (evaluate context fuel callee).run machine = (.ok (.function callable), after)) :
      Starts context ⟨fuel + 1, .evaluateCall span callee trees, machine⟩
        ⟨fuel, .evaluateAll trees, after⟩
  | body {fuel machine span callee trees closure ready arguments after inside}
      (first : (evaluate context fuel callee).run machine =
        (.ok (.function (.closure closure)), ready))
      (second : (evaluateAll context fuel trees).run ready = (.ok arguments, after))
      (arity : arguments.length = closure.parameters.length)
      (admitted : admission context span after = .ok ())
      (bound : (declareParameters closure.parameters arguments).run (enteringCall closure after) =
        (.ok (), inside)) :
      Starts context ⟨fuel + 1, .evaluateCall span callee trees, machine⟩
        ⟨fuel, .executeBlock closure.body, inside⟩
  | bodyOfValued {fuel machine span trees value} :
      Starts context ⟨fuel + 1, .executeBlock (.valued span trees value), machine⟩
        ⟨fuel, .executeAll trees, machine⟩
  | bodyValue {fuel machine span trees value ready after}
      (first : (executeAll context fuel trees).run machine = (.ok (), ready))
      (passed : (checkpoint context value.kind value.span).run ready = (.ok (), after)) :
      Starts context ⟨fuel + 1, .executeBlock (.valued span trees value), machine⟩
        ⟨fuel, .evaluate value, after⟩
  | bodyOfSilent {fuel machine span trees} :
      Starts context ⟨fuel + 1, .executeBlock (.silent span trees), machine⟩
        ⟨fuel, .executeAll trees, machine⟩
  | firstStatement {fuel machine tree trees} :
      Starts context ⟨fuel + 1, .executeAll (tree :: trees), machine⟩
        ⟨fuel, .execute tree, machine⟩
  | restOfStatements {fuel machine tree trees value after}
      (first : (execute context fuel tree).run machine = (.ok value, after)) :
      Starts context ⟨fuel + 1, .executeAll (tree :: trees), machine⟩
        ⟨fuel, .executeAll trees, after⟩
  | expression {fuel machine span tree closed ready}
      (passed : (checkpoint context (Statement.evaluate span tree closed).kind
        (Statement.evaluate span tree closed).span).run machine = (.ok (), ready)) :
      Starts context ⟨fuel + 1, .execute (.evaluate span tree closed), machine⟩
        ⟨fuel, .evaluate tree, ready⟩
  | initial {fuel machine span pattern tree ready}
      (passed : (checkpoint context (Statement.declare span pattern tree).kind
        (Statement.declare span pattern tree).span).run machine = (.ok (), ready)) :
      Starts context ⟨fuel + 1, .execute (.declare span pattern tree), machine⟩
        ⟨fuel, .evaluate tree, ready⟩
  | replacement {fuel machine span pattern tree ready}
      (passed : (checkpoint context (Statement.assign span pattern tree).kind
        (Statement.assign span pattern tree).span).run machine = (.ok (), ready)) :
      Starts context ⟨fuel + 1, .execute (.assign span pattern tree), machine⟩
        ⟨fuel, .evaluate tree, ready⟩
  | loop {fuel machine span condition body ready}
      (passed : (checkpoint context (Statement.whileLoop span condition body).kind
        (Statement.whileLoop span condition body).span).run machine = (.ok (), ready)) :
      Starts context ⟨fuel + 1, .execute (.whileLoop span condition body), machine⟩
        ⟨fuel, .repeatWhile condition body, ready⟩
  | ifCondition {fuel machine span condition body ready}
      (passed : (checkpoint context (Statement.ifBlock span condition body).kind
        (Statement.ifBlock span condition body).span).run machine = (.ok (), ready)) :
      Starts context ⟨fuel + 1, .execute (.ifBlock span condition body), machine⟩
        ⟨fuel, .evaluateCondition condition, ready⟩
  | ifBody {fuel machine span condition body ready after}
      (passed : (checkpoint context (Statement.ifBlock span condition body).kind
        (Statement.ifBlock span condition body).span).run machine = (.ok (), ready))
      (holds : (evaluateCondition context fuel condition).run ready = (.ok true, after)) :
      Starts context ⟨fuel + 1, .execute (.ifBlock span condition body), machine⟩
        ⟨fuel, .executeBlock body, entering "if-body" Store.current 0 after⟩
  | loopCondition {fuel machine condition body} :
      Starts context ⟨fuel + 1, .repeatWhile condition body, machine⟩
        ⟨fuel, .evaluateCondition condition, machine⟩
  | loopBody {fuel machine condition body after}
      (holds : (evaluateCondition context fuel condition).run machine = (.ok true, after)) :
      Starts context ⟨fuel + 1, .repeatWhile condition body, machine⟩
        ⟨fuel, .executeBlock body, entering "while-body" Store.current 0 after⟩
  | loopAgain {fuel machine condition body ready value after}
      (holds : (evaluateCondition context fuel condition).run machine = (.ok true, ready))
      (once : (inScope "while-body" (executeBlock context fuel body)).run ready =
        (.ok value, after)) :
      Starts context ⟨fuel + 1, .repeatWhile condition body, machine⟩
        ⟨fuel, .repeatWhile condition body, after⟩

/-- A statement of a program is about to be executed. -/
inductive Program.Starts (context : Context) (fuel : Nat) :
    List Statement → Machine → Moment → Prop where
  | here {tree trees machine} :
      Starts context fuel (tree :: trees) machine ⟨fuel, .execute tree, machine⟩
  | later {tree trees machine value after moment}
      (first : (execute context fuel tree).run machine = (.ok value, after))
      (others : Starts context fuel trees after moment) :
      Starts context fuel (tree :: trees) machine moment

/-- A moment of the run of a program: a task that the execution of a statement starts, at
once or through other tasks. -/
def Machine.Visits (machine : Machine) (context : Context) (fuel : Nat) (program : Program)
    (moment : Moment) : Prop :=
  ∃ first, Program.Starts context fuel program.statements machine.readied first ∧
    Relation.ReflTransGen (Moment.Starts context) first moment

/-- All nodes that a task is about satisfy a condition. -/
def Task.Every (Allowed : Node → Prop) : Task → Prop
  | .evaluate tree | .evaluateCondition tree => tree.Every Allowed
  | .evaluateAll trees => ∀ tree ∈ trees, tree.Every Allowed
  | .evaluateLogical left _ right _ => left.Every Allowed ∧ right.Every Allowed
  | .evaluateCall span callee arguments => (Expression.call span callee arguments).Every Allowed
  | .executeBlock tree => tree.Every Allowed
  | .executeAll trees => ∀ tree ∈ trees, tree.Every Allowed
  | .execute tree => tree.Every Allowed
  | .repeatWhile condition body => condition.Every Allowed ∧ body.Every Allowed

section Growing

variable {Stage : Type} [Preorder Stage] {Allowed : Node → Prop}
variable {Good : Stage → Value → Prop} {At : Stage → Machine → Prop}

/-- Whatever relates all evaluators from stage to stage relates the tasks. -/
theorem Task.perform_grows {first second : Context} {gap : Nat}
    {Related : Layer → Stage → {α : Type} → (Stage → α → Prop) → Evaluation α → Evaluation α → Prop}
    (rules : GrowingCorrespondence first second gap Allowed Good Related) (fuel : Nat)
    (stage : Stage) (task : Task) (every : task.Every Allowed) :
    Related .statement stage (fun late values => ∀ value ∈ values, Good late value)
      (task.perform first fuel) (task.perform second (fuel + gap)) := by
  have related := rules.related_at_every_fuel fuel stage
  have single {late : Stage} {value : Value} (good : Good late value) :
      ∀ other ∈ [value], Good late other := List.forall_mem_singleton.2 good
  have nothing {late : Stage} : ∀ value ∈ ([] : List Value), Good late value :=
    List.forall_mem_nil _
  cases task with
  | evaluate tree =>
      exact rules.bind (rules.widen (related.evaluate tree every)) fun _ _ _ good =>
        rules.pure (single good)
  | evaluateAll trees => exact rules.widen (related.evaluateAll trees every)
  | evaluateLogical left operator right decisive =>
      exact rules.bind (rules.widen (related.evaluateLogical left right operator decisive every.1
        every.2)) fun _ _ _ good => rules.pure (single good)
  | evaluateCondition tree =>
      exact rules.bind (rules.widen (related.evaluateCondition tree every)) fun _ _ _ _ =>
        rules.pure (single rules.bool)
  | evaluateCall span callee arguments =>
      exact rules.bind (rules.widen (related.evaluateCall span callee arguments every))
        fun _ _ _ good => rules.pure (single good)
  | executeBlock tree =>
      exact rules.bind (related.executeBlock tree every) fun _ _ _ good => rules.pure (single good)
  | executeAll trees =>
      exact rules.bind (related.executeAll trees every) fun _ _ _ _ => rules.pure nothing
  | execute tree =>
      exact rules.bind (related.execute tree every) fun _ _ _ good => rules.pure (single good)
  | repeatWhile condition body =>
      exact rules.bind (rules.widen (related.repeatWhile condition body every.1 every.2))
        fun _ _ _ _ => rules.pure nothing

/-- A moment that has come to a stage, and whose task is about allowed nodes. -/
structure Moment.SoundAt (Allowed : Node → Prop) (At : Stage → Machine → Prop) (stage : Stage)
    (moment : Moment) : Prop where
  holds : At stage moment.machine
  every : moment.task.Every Allowed

/-- A moment that has come to a stage leads to a later one with each task that it starts. -/
theorem Moment.Starts.evolves {context : Context} {before next : Moment} {stage : Stage}
    (evolution : Evolution context Allowed At Good) (starts : Moment.Starts context before next)
    (sound : before.SoundAt Allowed At stage) :
    ∃ late, stage ≤ late ∧ next.SoundAt Allowed At late := by
  have ⟨holds, every⟩ := sound
  have rules := evolution.rules
  have leads (fuel : Nat) (stage : Stage) := rules.related_at_every_fuel fuel stage
  cases starts with
  | elements => exact ⟨stage, le_rfl, holds, Expression.Every.tuple every⟩
  | conjunction | disjunction => exact ⟨stage, le_rfl, holds, Expression.Every.binary every⟩
  | leftOperand => exact ⟨stage, le_rfl, holds, (Expression.Every.binary every).1⟩
  | rightOperand _ first =>
      have ⟨leftEvery, rightEvery⟩ := Expression.Every.binary every
      have ⟨late, grows, after, _⟩ := ((leads _ stage).evaluate _ leftEvery).after first holds
      exact ⟨late, grows, after, rightEvery⟩
  | operand => exact ⟨stage, le_rfl, holds, Expression.Every.unary every⟩
  | call => exact ⟨stage, le_rfl, holds, every⟩
  | target => exact ⟨stage, le_rfl, holds, Expression.Every.member every⟩
  | condition => exact ⟨stage, le_rfl, holds, (Expression.Every.conditional every).1⟩
  | whenTrue first =>
      have ⟨conditionEvery, trueEvery, _⟩ := Expression.Every.conditional every
      have ⟨late, grows, after, _⟩ :=
        ((leads _ stage).evaluateCondition _ conditionEvery).after first holds
      exact ⟨late, grows, after, trueEvery⟩
  | whenFalse first =>
      have ⟨conditionEvery, _, falseEvery⟩ := Expression.Every.conditional every
      have ⟨late, grows, after, _⟩ :=
        ((leads _ stage).evaluateCondition _ conditionEvery).after first holds
      exact ⟨late, grows, after, falseEvery⟩
  | rebound => exact ⟨stage, le_rfl, holds, Expression.Every.rebind every⟩
  | firstOfAll => exact ⟨stage, le_rfl, holds, (List.forall_mem_cons.1 every).1⟩
  | restOfAll first =>
      have ⟨firstEvery, othersEvery⟩ := List.forall_mem_cons.1 every
      have ⟨late, grows, after, _⟩ := ((leads _ stage).evaluate _ firstEvery).after first holds
      exact ⟨late, grows, after, othersEvery⟩
  | leftTruth => exact ⟨stage, le_rfl, holds, every.1⟩
  | rightTruth first =>
      have ⟨late, grows, after, _⟩ := ((leads _ stage).evaluate _ every.1).after first holds
      exact ⟨late, grows, after, every.2⟩
  | tested => exact ⟨stage, le_rfl, holds, every⟩
  | callee => exact ⟨stage, le_rfl, holds, (Expression.Every.call every).1⟩
  | arguments first =>
      have ⟨calleeEvery, treesEvery⟩ := Expression.Every.call every
      have ⟨late, grows, after, _⟩ := ((leads _ stage).evaluate _ calleeEvery).after first holds
      exact ⟨late, grows, after, treesEvery⟩
  | body first second _ _ bound =>
      have ⟨calleeEvery, treesEvery⟩ := Expression.Every.call every
      have ⟨middle, grows, ready, closureGood⟩ :=
        ((leads _ stage).evaluate _ calleeEvery).after first holds
      have ⟨late, further, after, good⟩ :=
        ((leads _ middle).evaluateAll _ treesEvery).after second ready
      have ⟨last, entered, inside⟩ :=
        evolution.bound after (rules.later further closureGood) good bound
      exact ⟨last, (grows.trans further).trans entered, inside, rules.closureBody closureGood⟩
  | bodyOfValued => exact ⟨stage, le_rfl, holds, (Block.Every.valued every).1⟩
  | bodyValue first passed =>
      have ⟨treesEvery, valueEvery⟩ := Block.Every.valued every
      have ⟨middle, grows, ready, _⟩ := ((leads _ stage).executeAll _ treesEvery).after first holds
      have ⟨late, further, after, _⟩ :=
        (rules.checkpointExpression valueEvery.self).after passed ready
      exact ⟨late, grows.trans further, after, valueEvery⟩
  | bodyOfSilent => exact ⟨stage, le_rfl, holds, Block.Every.silent every⟩
  | firstStatement => exact ⟨stage, le_rfl, holds, (List.forall_mem_cons.1 every).1⟩
  | restOfStatements first =>
      have ⟨firstEvery, othersEvery⟩ := List.forall_mem_cons.1 every
      have ⟨late, grows, after, _⟩ := ((leads _ stage).execute _ firstEvery).after first holds
      exact ⟨late, grows, after, othersEvery⟩
  | expression passed =>
      have ⟨late, grows, ready, _⟩ :=
        (rules.checkpointStatement (Statement.Every.self every)).after passed holds
      exact ⟨late, grows, ready, Statement.Every.evaluate every⟩
  | initial passed =>
      have ⟨late, grows, ready, _⟩ :=
        (rules.checkpointStatement (Statement.Every.self every)).after passed holds
      exact ⟨late, grows, ready, Statement.Every.declare every⟩
  | replacement passed =>
      have ⟨late, grows, ready, _⟩ :=
        (rules.checkpointStatement (Statement.Every.self every)).after passed holds
      exact ⟨late, grows, ready, Statement.Every.assign every⟩
  | loop passed =>
      have ⟨late, grows, ready, _⟩ :=
        (rules.checkpointStatement (Statement.Every.self every)).after passed holds
      exact ⟨late, grows, ready, Statement.Every.whileLoop every⟩
  | ifCondition passed =>
      have ⟨late, grows, ready, _⟩ :=
        (rules.checkpointStatement (Statement.Every.self every)).after passed holds
      exact ⟨late, grows, ready, (Statement.Every.ifBlock every).1⟩
  | ifBody passed first =>
      have ⟨conditionEvery, bodyEvery⟩ := Statement.Every.ifBlock every
      have ⟨middle, grows, ready, _⟩ :=
        (rules.checkpointStatement (Statement.Every.self every)).after passed holds
      have ⟨late, further, after, _⟩ :=
        ((leads _ middle).evaluateCondition _ conditionEvery).after first ready
      have ⟨last, entered, inside⟩ := evolution.entered after "if-body"
      exact ⟨last, (grows.trans further).trans entered, inside, bodyEvery⟩
  | loopCondition => exact ⟨stage, le_rfl, holds, every.1⟩
  | loopBody first =>
      have ⟨late, grows, after, _⟩ :=
        ((leads _ stage).evaluateCondition _ every.1).after first holds
      have ⟨last, entered, inside⟩ := evolution.entered after "while-body"
      exact ⟨last, grows.trans entered, inside, every.2⟩
  | loopAgain first once =>
      have ⟨middle, grows, ready, _⟩ :=
        ((leads _ stage).evaluateCondition _ every.1).after first holds
      have ⟨late, further, after, _⟩ :=
        (evolution.in_scope fun inside _ => (leads _ inside).executeBlock _ every.2).after once ready
      exact ⟨late, grows.trans further, after, every⟩

/-- One statement of a program leads to a later stage for the next. -/
theorem Program.Starts.evolves {context : Context} {fuel : Nat} {trees : List Statement}
    {machine : Machine} {moment : Moment} {stage : Stage}
    (evolution : Evolution context Allowed At Good)
    (starts : Program.Starts context fuel trees machine moment) (holds : At stage machine)
    (every : ∀ tree ∈ trees, tree.Every Allowed) :
    ∃ late, stage ≤ late ∧ moment.SoundAt Allowed At late := by
  induction starts generalizing stage with
  | here => exact ⟨stage, le_rfl, holds, (List.forall_mem_cons.1 every).1⟩
  | later first _ induction =>
      have ⟨firstEvery, othersEvery⟩ := List.forall_mem_cons.1 every
      have leads := evolution.rules.related_at_every_fuel fuel stage
      have ⟨middle, grows, after, _⟩ := (leads.execute _ firstEvery).after first holds
      have ⟨late, further, sound⟩ := induction after othersEvery
      exact ⟨late, grows.trans further, sound⟩

/-- What evaluation carries on from stage to stage holds, at some later stage, at every moment
of a run. -/
theorem Machine.Visits.evolves {machine : Machine} {context : Context} {fuel : Nat}
    {program : Program} {moment : Moment} {stage : Stage}
    (evolution : Evolution context Allowed At Good)
    (visits : machine.Visits context fuel program moment) (holds : At stage machine.readied)
    (every : program.Every Allowed) : ∃ late, stage ≤ late ∧ moment.SoundAt Allowed At late := by
  obtain ⟨first, starts, reached⟩ := visits
  induction reached with
  | refl => exact starts.evolves evolution holds every.statements
  | tail _ next induction =>
      have ⟨middle, grows, sound⟩ := induction
      have ⟨late, further, lateSound⟩ := next.evolves evolution sound
      exact ⟨late, grows.trans further, lateSound⟩

end Growing

/-- A moment at which the values in the store are good and the task is about allowed nodes. -/
structure Moment.Sound (Allowed : Node → Prop) (Good : Value → Prop) (moment : Moment) : Prop where
  holds : moment.machine.store.Holds Good
  every : moment.task.Every Allowed

variable {Allowed : Node → Prop} {Good : Value → Prop}

/-- Whatever relates all evaluators relates the tasks. -/
theorem Task.perform_related {first second : Context} {gap : Nat}
    {Related : Layer → {α : Type} → (α → Prop) → Evaluation α → Evaluation α → Prop}
    (rules : Correspondence first second gap Allowed Good Related) (fuel : Nat) (task : Task)
    (every : task.Every Allowed) :
    Related .statement (fun values => ∀ value ∈ values, Good value) (task.perform first fuel)
      (task.perform second (fuel + gap)) :=
  task.perform_grows rules.growing fuel ⟨⟩ every

theorem entering_holds {machine : Machine} (holds : machine.store.Holds Good) (name : String)
    (parent : Store → FrameId) (calls : Nat) :
    (entering name parent calls machine).store.Holds Good :=
  Store.holds_enter holds name _

/-- To keep a class of values is to stay at the only stage there is. -/
theorem keeps_iff_evolves {α : Type} {stage : SoleStage} {post : SoleStage → α → Prop}
    {body : Evaluation α} :
    Keeps Good (post stage) body ↔
      Evolves (fun (_ : SoleStage) machine => machine.store.Holds Good) stage post body := by
  constructor
  · intro keeps machine holds
    exact ⟨⟨⟩, le_rfl, keeps machine holds⟩
  · intro evolves machine holds
    have ⟨_, _, after⟩ := evolves machine holds
    exact after

theorem preservation_evolution (values : ValueClass Allowed Good) (context : Context) :
    Evolution context Allowed (fun (_ : SoleStage) machine => machine.store.Holds Good)
      (fun _ => Good) where
  rules := by
    simpa only [keeps_iff_evolves] using (preservation_correspondence values context).growing
  entered holds name := ⟨⟨⟩, le_rfl, entering_holds holds name _ _⟩
  bound {_ machine inside closure _} holds _ good ran := by
    have entered : (enteringCall closure machine).store.Holds Good := entering_holds holds _ _ _
    have kept : inside.store.Holds Good := by
      simpa only [ran] using (keeps_declare_parameters closure.parameters good _ entered).1
    exact ⟨⟨⟩, le_rfl, kept⟩

/-- A class of values that a program keeps is kept at every moment of its run. -/
theorem Machine.Visits.sound {machine : Machine} {context : Context} {fuel : Nat}
    {program : Program} {moment : Moment} (values : ValueClass Allowed Good)
    (visits : machine.Visits context fuel program moment) (holds : machine.store.Holds Good)
    (every : program.Every Allowed) : moment.Sound Allowed Good := by
  have ⟨_, _, sound⟩ : ∃ late : SoleStage, ⟨⟩ ≤ late ∧
      moment.SoundAt Allowed (fun _ machine => machine.store.Holds Good) late :=
    visits.evolves (preservation_evolution values context) holds every
  exact ⟨sound.holds, sound.every⟩

end LayoutScript
