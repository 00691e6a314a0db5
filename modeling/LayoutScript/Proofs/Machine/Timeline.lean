import LayoutScript.Proofs.Machine.Ledger

/-!
The time line of a run. The number of functions made so far never goes down, so it tells the time
of a machine. A task begins at one time and ends at another. What it starts happens in between,
and of two tasks that it starts one has ended when the other begins. So no two functions are made
at the same time.
-/

namespace LayoutScript

open Evaluation

/-- How many functions have been made. -/
def Machine.time (machine : Machine) : Nat := machine.store.nextFunction

/-- Time does not run backwards during an evaluation, whatever its outcome. -/
def Ascends {α : Type} (body : Evaluation α) : Prop :=
  ∀ machine : Machine, machine.time ≤ (body.run machine).2.time

section Ascends

variable {α β : Type}

theorem ascends_still {body : Evaluation α}
    (still : ∀ machine : Machine, (body.run machine).2.time = machine.time) : Ascends body :=
  fun machine => (still machine).ge

theorem ascends_pure (value : α) : Ascends (pure value) := ascends_still fun _ => rfl

theorem ascends_throw (stop : Stop) : Ascends (throw stop : Evaluation α) :=
  ascends_still fun _ => rfl

/-- What is done first has ended by the end. -/
theorem first_ends {body : Evaluation α} {next : α → Evaluation β}
    (rest : ∀ value, Ascends (next value)) (machine : Machine) :
    (body.run machine).2.time ≤ ((body >>= next).run machine).2.time := by
  cases run_cases body machine with
  | inl ended =>
      have ⟨value, after, run⟩ := ended
      rw [run_bind_ok run, run]
      exact rest value after
  | inr stopped =>
      have ⟨stop, after, run⟩ := stopped
      rw [run_bind_error run, run]

theorem ascends_bind {body : Evaluation α} {next : α → Evaluation β} (start : Ascends body)
    (rest : ∀ value, Ascends (next value)) : Ascends (body >>= next) :=
  fun machine => (start machine).trans (first_ends rest machine)

theorem Ascends.after {body : Evaluation α} (ascends : Ascends body) {machine after : Machine}
    {result : Except Stop α} (ran : body.run machine = (result, after)) :
    machine.time ≤ after.time := by
  have later := ascends machine
  rwa [ran] at later

theorem ascends_operator (span : Span) (result : Except Failure α) :
    Ascends (ofOperator span result) := by
  match result with
  | .ok value => exact ascends_pure value
  | .error (.cause cause) => exact ascends_throw _
  | .error (.fault fault) => exact ascends_throw _

theorem ascends_member (span : Span) (target : Value) (index : Nat) :
    Ascends (member span target index) := by
  unfold member
  split
  · split
    · exact ascends_pure _
    · exact ascends_throw _
  · exact ascends_throw _

theorem ascends_lookup (span : Span) (name : String) : Ascends (lookup span name) := by
  apply ascends_still
  intro machine
  rw [run_lookup]
  split <;> rfl

/-- Changes to bindings take no time. -/
theorem ascends_update_store {plan : Store → Except ScriptError α} {change : α → Store → Store}
    (sameShape : ∀ store planned, (change planned store).shape = store.shape) :
    Ascends (updateStore plan change) := by
  apply ascends_still
  intro machine
  rw [run_update_store]
  split
  · exact congrArg (·.2.2) (sameShape _ _)
  · rfl

theorem ascends_assign (span : Span) (name : String) (value : Value) :
    Ascends (assign span name value) := by
  rw [assign_eq]
  exact ascends_update_store fun _ _ => Store.shape_replace_binding _ _ _ _

theorem ascends_declare_at (span : Option Span) (name : String) (value : Value) :
    Ascends (declareAt span name value) := by
  rw [declare_at_eq]
  exact ascends_update_store fun _ _ => Store.shape_add_binding _ _ _ _

theorem ascends_declare_pattern (pattern : Pattern) (value : Value) :
    Ascends (declarePattern pattern value) := by
  rw [declare_pattern_eq]
  exact ascends_update_store fun _ _ => Store.shape_add_all _ _

theorem ascends_assign_pattern (pattern : Pattern) (value : Value) :
    Ascends (assignPattern pattern value) := by
  rw [assign_pattern_eq]
  exact ascends_update_store fun _ _ => Store.shape_assign_all _ _

theorem ascends_declare_parameters (parameters : List String) (arguments : List Value) :
    Ascends (declareParameters parameters arguments) := by
  fun_induction declareParameters parameters arguments with
  | case1 parameter parameters argument arguments induction =>
      exact ascends_bind (ascends_declare_at _ _ _) fun _ => induction
  | case2 => exact ascends_pure ()

theorem checkpoint_time (context : Context) (kind : NodeKind) (span : Span) (machine : Machine) :
    ((checkpoint context kind span).run machine).2.time = machine.time := by
  rw [run_checkpoint]
  split
  · rfl
  · split
    · rfl
    · split <;> rfl

theorem ascends_checkpoint (context : Context) (kind : NodeKind) (span : Span) :
    Ascends (checkpoint context kind span) :=
  ascends_still (checkpoint_time context kind span)

theorem ascends_call_native (native : Native) (arguments : List Value) :
    Ascends (callNative native arguments) := by
  apply ascends_still
  intro machine
  rw [run_call_native]
  split <;> rfl

theorem ascends_make_closure (name : Option String) (parameters : List String) (body : Block) :
    Ascends (makeClosure name parameters body) := by
  intro machine
  rw [run_make_closure]
  exact Nat.le_succ _

theorem ascends_admit_call (context : Context) (span : Span) : Ascends (admitCall context span) :=
  ascends_still fun _ => rfl

end Ascends

theorem entering_time (name : String) (parent : Store → FrameId) (calls : Nat)
    (machine : Machine) : (entering name parent calls machine).time = machine.time := rfl

theorem entering_call_time (closure : Closure) (machine : Machine) :
    (enteringCall closure machine).time = machine.time := rfl

/-- A body in a frame of its own ends when the body ends. -/
theorem in_scope_time {α : Type} (name : String) (body : Evaluation α) (machine : Machine) :
    (body.run (entering name Store.current 0 machine)).2.time =
      ((inScope name body).run machine).2.time := rfl

section Evolves

variable {α : Type} {stage : Nat}

/-- The time of a machine as the stage that it has come to. -/
def Machine.IsAt (time : Nat) (machine : Machine) : Prop := machine.time = time

theorem Ascends.evolves {body : Evaluation α} (ascends : Ascends body) :
    Evolves Machine.IsAt stage (fun _ _ => True) body := by
  intro machine here
  have later := ascends machine
  rw [here] at later
  exact ⟨_, later, rfl, fun _ _ => trivial⟩

theorem ascends_of_evolves {post : Nat → α → Prop} {body : Evaluation α}
    (evolves : ∀ stage, Evolves Machine.IsAt stage post body) : Ascends body := by
  intro machine
  have ⟨late, later, here, _⟩ := evolves machine.time machine rfl
  rw [here]
  exact later

theorem evolves_in_time {post : Nat → α → Prop} {body : Evaluation α} (name : String)
    (parent : Store → FrameId) (calls : Nat) (related : Evolves Machine.IsAt stage post body) :
    Evolves Machine.IsAt stage post (restoring (entering name parent calls) body) := by
  intro machine here
  rw [run_restoring]
  exact related (entering name parent calls machine) here

theorem evolves_call_in_time (context : Context) (span : Span) (closure : Closure)
    (arguments : List Value) {post : Nat → α → Prop} {body : Evaluation α}
    (related : ∀ late, stage ≤ late → Evolves Machine.IsAt late post body) :
    Evolves Machine.IsAt stage post (inCall context span closure arguments body) := by
  rw [in_call_eq]
  apply evolves_bind (ascends_admit_call context span).evolves
  intro ready _ readied _
  apply evolves_in_time
  apply evolves_bind (ascends_declare_parameters closure.parameters arguments).evolves
  intro late _ bound _
  exact related late (readied.trans bound)

theorem ascends_in_scope {body : Evaluation α} (name : String) (ascends : Ascends body) :
    Ascends (inScope name body) := by
  rw [in_scope_eq_restoring]
  exact ascends_of_evolves fun _ => evolves_in_time _ _ _ ascends.evolves

theorem ascends_call (context : Context) (span : Span) (closure : Closure)
    (arguments : List Value) {body : Evaluation α} (ascends : Ascends body) :
    Ascends (inCall context span closure arguments body) :=
  ascends_of_evolves fun _ => evolves_call_in_time _ _ _ _ fun _ _ => ascends.evolves

end Evolves

/-- Evaluation goes on in time. -/
theorem time_evolution (context : Context) :
    Evolution context (fun _ => True) Machine.IsAt (fun _ _ => True) where
  rules := {
    later := fun _ _ => trivial
    pure := evolves_pure
    bind := evolves_bind
    widen := fun related => related
    outOfFuel := fun _ => evolves_throw _
    failExpression := fun _ => evolves_throw _
    literal := fun _ => trivial
    nothing := trivial
    bool := trivial
    tuple := fun _ => trivial
    lookup := fun _ => (ascends_lookup _ _).evolves
    binary := fun _ _ _ _ => (ascends_operator _ _).evolves
    unary := fun _ _ => (ascends_operator _ _).evolves
    member := fun _ _ => (ascends_member _ _ _).evolves
    assign := fun _ _ => (ascends_assign _ _ _).evolves
    function := fun _ => (ascends_make_closure _ _ _).evolves
    native := fun _ => (ascends_call_native _ _).evolves
    closureBody := fun _ _ _ => trivial
    call := fun _ _ _ _ related => evolves_call_in_time _ _ _ _ related
    inScope := fun {stage _ _ _ _ _} related => by
      rw [in_scope_eq_restoring]
      exact evolves_in_time _ _ _ (related stage le_rfl)
    checkpointExpression := fun _ => (ascends_checkpoint _ _ _).evolves
    checkpointStatement := fun _ => (ascends_checkpoint _ _ _).evolves
    declarePattern := fun _ _ => (ascends_declare_pattern _ _).evolves
    assignPattern := fun _ _ => (ascends_assign_pattern _ _).evolves
    define := fun _ => (ascends_make_closure _ _ _).evolves
    declare := fun _ _ => (ascends_declare_at _ _ _).evolves }
  entered here _ := ⟨_, le_rfl, here⟩
  bound {_ machine inside closure arguments} here _ _ ran := by
    have later := (ascends_declare_parameters closure.parameters arguments).after ran
    have entered : (enteringCall closure machine).time = _ := here
    rw [entered] at later
    exact ⟨inside.time, later, rfl⟩

section Evaluators

variable (context : Context) (fuel : Nat)

theorem evaluators_ascend (stage : Nat) :
    EvaluatorsGrow context context 0 (fun _ => True) (fun _ _ => True)
      (fun _ stage _ post body _ => Evolves Machine.IsAt stage post body) fuel stage :=
  (time_evolution context).rules.related_at_every_fuel fuel stage

theorem ascends_evaluate (tree : Expression) : Ascends (evaluate context fuel tree) :=
  ascends_of_evolves fun stage =>
    (evaluators_ascend context fuel stage).evaluate tree fun _ _ => trivial

theorem ascends_evaluate_all (trees : List Expression) :
    Ascends (evaluateAll context fuel trees) :=
  ascends_of_evolves fun stage =>
    (evaluators_ascend context fuel stage).evaluateAll trees fun _ _ _ _ => trivial

theorem ascends_execute_block (tree : Block) : Ascends (executeBlock context fuel tree) :=
  ascends_of_evolves fun stage =>
    (evaluators_ascend context fuel stage).executeBlock tree fun _ _ => trivial

theorem ascends_execute_all (trees : List Statement) : Ascends (executeAll context fuel trees) :=
  ascends_of_evolves fun stage =>
    (evaluators_ascend context fuel stage).executeAll trees fun _ _ _ _ => trivial

theorem ascends_execute (tree : Statement) : Ascends (execute context fuel tree) :=
  ascends_of_evolves fun stage =>
    (evaluators_ascend context fuel stage).execute tree fun _ _ => trivial

theorem ascends_execute_program (trees : List Statement) (value : Value) :
    Ascends (executeProgram context fuel trees value) :=
  ascends_of_evolves fun stage =>
    (time_evolution context).rules.execute_program_related fuel stage trees value
      (fun _ _ _ _ => trivial) trivial

theorem ascends_repeat_while (condition : Expression) (body : Block) :
    Ascends (repeatWhile context fuel condition body) :=
  ascends_of_evolves fun stage =>
    (evaluators_ascend context fuel stage).repeatWhile condition body (fun _ _ => trivial)
      fun _ _ => trivial

/-- What remains of a logical operator once its right operand is known. -/
theorem ascends_truth (span : Span) (operator : BinaryOperator) (value : Value) :
    Ascends (match value with
      | .bool holds => pure (.bool holds)
      | other => fail (.logicalOperand operator other.kind) span : Evaluation Value) := by
  split
  · exact ascends_pure _
  · exact ascends_throw _

/-- What remains of a call once the callee and the arguments are known. -/
theorem ascends_application (span : Span) (callable : Callable) (values : List Value) :
    Ascends (if values.length ≠ callable.arity then
        fail (.argumentCount callable.callName callable.arity values.length) span
      else
        match callable with
        | .native native => callNative native values
        | .closure closure =>
            inCall context span closure values (executeBlock context fuel closure.body)) := by
  split
  · exact ascends_throw _
  · split
    · exact ascends_call_native _ _
    · exact ascends_call _ _ _ _ (ascends_execute_block _ _ _)

end Evaluators

theorem run_then_pure {α β : Type} (body : Evaluation α) (result : α → β) (machine : Machine) :
    ((body >>= fun value => pure (result value)).run machine).2 = (body.run machine).2 := by
  cases run_cases body machine with
  | inl ended =>
      have ⟨value, after, run⟩ := ended
      rw [run_bind_ok run, run, run_pure]
  | inr stopped =>
      have ⟨stop, after, run⟩ := stopped
      rw [run_bind_error run, run]

/-- The machine that a task leaves behind. -/
def Task.after (context : Context) (fuel : Nat) (machine : Machine) : Task → Machine
  | .evaluate tree => ((LayoutScript.evaluate context fuel tree).run machine).2
  | .evaluateAll trees => ((LayoutScript.evaluateAll context fuel trees).run machine).2
  | .evaluateLogical left operator right decisive =>
      ((LayoutScript.evaluateLogical context fuel left operator right decisive).run machine).2
  | .evaluateCondition tree => ((LayoutScript.evaluateCondition context fuel tree).run machine).2
  | .evaluateCall span callee arguments =>
      ((LayoutScript.evaluateCall context fuel span callee arguments).run machine).2
  | .executeBlock tree => ((LayoutScript.executeBlock context fuel tree).run machine).2
  | .executeAll trees => ((LayoutScript.executeAll context fuel trees).run machine).2
  | .execute tree => ((LayoutScript.execute context fuel tree).run machine).2
  | .repeatWhile condition body =>
      ((LayoutScript.repeatWhile context fuel condition body).run machine).2

theorem Task.every_node (task : Task) : task.Every fun _ => True := by
  cases task <;> simp [Task.Every, Expression.Every, Block.Every, Statement.Every]

namespace Moment

/-- When a task begins. -/
def begins (moment : Moment) : Nat := moment.machine.time

/-- When a task ends. -/
def ends (context : Context) (moment : Moment) : Nat := (moment.ending context).2.time

theorem ends_eq (context : Context) (fuel : Nat) (task : Task) (machine : Machine) :
    (⟨fuel, task, machine⟩ : Moment).ends context = (task.after context fuel machine).time := by
  apply congrArg Machine.time
  cases task with
  | evaluateAll trees => rfl
  | _ => exact run_then_pure _ _ _

/-- What a task starts has ended by the end of the task. -/
theorem Starts.ends_within {context : Context} {before next : Moment}
    (starts : Starts context before next) : next.ends context ≤ before.ends context := by
  -- What ran before the start is known to have succeeded; what follows it can only let time pass.
  cases starts <;> rw [ends_eq, ends_eq] <;> dsimp only [Task.after]
  case elements =>
    rw [evaluate]
    exact first_ends (fun _ => ascends_pure _) _
  case conjunction | disjunction => rw [evaluate]
  case leftOperand strict =>
    rw [evaluate_binary_strict _ _ _ _ _ _ strict]
    exact first_ends
      (fun _ => ascends_bind (ascends_evaluate _ _ _) fun _ => ascends_operator _ _) _
  case rightOperand strict first =>
    rw [evaluate_binary_strict _ _ _ _ _ _ strict, run_bind_ok first]
    exact first_ends (fun _ => ascends_operator _ _) _
  case operand =>
    rw [evaluate]
    exact first_ends (fun _ => ascends_operator _ _) _
  case call => rw [evaluate]
  case target =>
    rw [evaluate]
    exact first_ends (fun _ => ascends_member _ _ _) _
  case condition =>
    rw [evaluate]
    apply first_ends
    intro holds
    split <;> exact ascends_evaluate _ _ _
  case whenTrue holds =>
    rw [evaluate, run_bind_ok holds]
    exact le_rfl
  case whenFalse fails =>
    rw [evaluate, run_bind_ok fails]
    exact le_rfl
  case rebound =>
    rw [evaluate]
    exact first_ends (fun _ => ascends_bind (ascends_assign _ _ _) fun _ => ascends_pure _) _
  case firstOfAll =>
    rw [evaluateAll]
    exact first_ends
      (fun _ => ascends_bind (ascends_evaluate_all _ _ _) fun _ => ascends_pure _) _
  case restOfAll first =>
    rw [evaluateAll, run_bind_ok first]
    exact first_ends (fun _ => ascends_pure _) _
  case leftTruth =>
    rw [evaluateLogical]
    apply first_ends
    intro value
    split
    · split
      · exact ascends_pure _
      · exact ascends_bind (ascends_evaluate _ _ _) fun _ => ascends_truth _ _ _
    · exact ascends_throw _
  case rightTruth first undecided =>
    rw [evaluateLogical, run_bind_ok first]
    dsimp only
    rw [if_neg undecided]
    exact first_ends (fun _ => ascends_truth _ _ _) _
  case tested =>
    rw [evaluateCondition]
    apply first_ends
    intro value
    split
    · exact ascends_pure _
    · exact ascends_throw _
  case callee =>
    rw [evaluateCall]
    apply first_ends
    intro value
    split
    · exact ascends_bind (ascends_evaluate_all _ _ _) fun _ => ascends_application _ _ _ _ _
    · exact ascends_throw _
  case arguments first =>
    rw [evaluateCall, run_bind_ok first]
    exact first_ends (fun _ => ascends_application _ _ _ _ _) _
  case body first second arity admitted bound =>
    rename_i span _ _ closure ready arguments after inside
    have enough : ¬arguments.length ≠ (Callable.closure closure).arity := not_not.2 arity
    have admits : (admitCall context span).run after = (.ok (), after) := by
      rw [run_admit_call, admitted]
    rw [evaluateCall, run_bind_ok first]
    dsimp only
    rw [run_bind_ok second, if_neg enough, in_call_eq, run_bind_ok admits,
      run_restoring, run_bind_ok bound]
    exact le_rfl
  case bodyOfValued =>
    rw [executeBlock]
    exact first_ends
      (fun _ => ascends_bind (ascends_checkpoint _ _ _) fun _ => ascends_evaluate _ _ _) _
  case bodyValue first passed => rw [executeBlock, run_bind_ok first, run_bind_ok passed]
  case bodyOfSilent =>
    rw [executeBlock]
    exact first_ends (fun _ => ascends_pure _) _
  case firstStatement =>
    rw [executeAll]
    exact first_ends (fun _ => ascends_execute_all _ _ _) _
  case restOfStatements first => rw [executeAll, run_bind_ok first]
  case expression passed =>
    rw [execute_eq_checkpoint, run_bind_ok passed]
    exact first_ends (fun _ => ascends_pure _) _
  case initial passed =>
    rw [execute_eq_checkpoint, run_bind_ok passed]
    exact first_ends
      (fun _ => ascends_bind (ascends_declare_pattern _ _) fun _ => ascends_pure _) _
  case replacement passed =>
    rw [execute_eq_checkpoint, run_bind_ok passed]
    exact first_ends
      (fun _ => ascends_bind (ascends_assign_pattern _ _) fun _ => ascends_pure _) _
  case loop passed =>
    rw [execute_eq_checkpoint, run_bind_ok passed]
    exact first_ends (fun _ => ascends_pure _) _
  case ifCondition passed =>
    rw [execute_eq_checkpoint, run_bind_ok passed]
    apply first_ends
    intro holds
    split
    · exact ascends_bind (ascends_in_scope _ (ascends_execute_block _ _ _)) fun _ => ascends_pure _
    · exact ascends_pure _
  case ifBody passed holds =>
    rw [execute_eq_checkpoint, run_bind_ok passed, afterCheckpoint, run_bind_ok holds, if_pos rfl,
      in_scope_time]
    exact first_ends (fun _ => ascends_pure _) _
  case loopCondition =>
    rw [repeatWhile]
    apply first_ends
    intro holds
    split
    · exact ascends_bind (ascends_in_scope _ (ascends_execute_block _ _ _)) fun _ =>
        ascends_repeat_while _ _ _ _
    · exact ascends_pure _
  case loopBody holds =>
    rw [repeatWhile, run_bind_ok holds, if_pos rfl, in_scope_time]
    exact first_ends (fun _ => ascends_repeat_while _ _ _ _) _
  case loopAgain holds once => rw [repeatWhile, run_bind_ok holds, if_pos rfl, run_bind_ok once]

/-- What a task starts does not begin before the task. -/
theorem Starts.begins_within {context : Context} {before next : Moment}
    (starts : Starts context before next) : before.begins ≤ next.begins := by
  have ⟨late, later, here, _⟩ :=
    starts.evolves (time_evolution context) ⟨rfl, before.task.every_node⟩
  rw [begins, begins, here]
  exact later

/-- One of two tasks, each with its context, has ended when the other begins. -/
def Apart (firstContext : Context) (first : Moment) (secondContext : Context) (second : Moment) :
    Prop :=
  first.ends firstContext ≤ second.begins ∨ second.ends secondContext ≤ first.begins

/-- What happens within tasks that are one after the other is one after the other. -/
theorem Apart.within {firstContext secondContext : Context} {outer first otherOuter second : Moment}
    (apart : Apart firstContext outer secondContext otherOuter)
    (inside : outer.begins ≤ first.begins ∧ first.ends firstContext ≤ outer.ends firstContext)
    (otherInside : otherOuter.begins ≤ second.begins ∧
      second.ends secondContext ≤ otherOuter.ends secondContext) :
    Apart firstContext first secondContext second := by
  cases apart with
  | inl before => exact .inl (inside.2.trans (before.trans otherInside.1))
  | inr after => exact .inr (otherInside.2.trans (after.trans inside.1))

/-- Of two tasks that a task starts, one has ended when the other begins. Evaluation gives one
result alone, so that two tasks started at the same place are the same; of two places, one gives
the machine that the other begins with, or one from which that machine has come about. -/
theorem Starts.ordered {context : Context} {parent first second : Moment}
    (one : Starts context parent first) (other : Starts context parent second) :
    first = second ∨ Apart context first context second := by
  have arguments (fuel : Nat) (trees : List Expression) (machine : Machine) :=
    ascends_evaluate_all context fuel trees machine
  have checkpoints (kind : NodeKind) (span : Span) (machine : Machine) :=
    ascends_checkpoint context kind span machine
  have parameters (closure : Closure) (values : List Value) (machine : Machine) :=
    ascends_declare_parameters closure.parameters values (enteringCall closure machine)
  have bodies (name : String) (fuel : Nat) (body : Block) (machine : Machine) :=
    ascends_in_scope name (ascends_execute_block context fuel body) machine
  cases one <;> cases other <;> try exact .inl rfl
  all_goals
    simp only [Apart, ends_eq, Task.after, begins, in_scope_time, entering_time]
    grind only [entering_call_time]

section Reached

variable {context : Context} {root first second : Moment}

theorem reached_within (reached : Relation.ReflTransGen (Starts context) root first) :
    root.begins ≤ first.begins ∧ first.ends context ≤ root.ends context := by
  induction reached with
  | refl => exact ⟨le_rfl, le_rfl⟩
  | tail _ starts within =>
      exact ⟨within.1.trans starts.begins_within, starts.ends_within.trans within.2⟩

/-- Of two tasks that a task starts, at once or through others, one starts the other or they are
one after the other. -/
theorem reached_ordered (one : Relation.ReflTransGen (Starts context) root first)
    (other : Relation.ReflTransGen (Starts context) root second) :
    Relation.ReflTransGen (Starts context) first second ∨
      Relation.ReflTransGen (Starts context) second first ∨ Apart context first context second := by
  induction one using Relation.ReflTransGen.head_induction_on with
  | refl => exact .inl other
  | @head parent child starts reached induction =>
      cases Relation.ReflTransGen.cases_head other with
      | inl same =>
          rw [← same]
          exact .inr (.inl (.head starts reached))
      | inr started =>
          have ⟨sibling, siblingStarts, siblingReached⟩ := started
          -- Below the same child the question is asked again, below two children it is decided.
          cases starts.ordered siblingStarts with
          | inl same =>
              rw [← same] at siblingReached
              exact induction siblingReached
          | inr apart =>
              exact .inr (.inr (apart.within (reached_within reached)
                (reached_within siblingReached)))

end Reached

/-- A moment makes a function: its task is to evaluate a function literal, or to execute a
definition that passes its checkpoint. -/
inductive Makes (context : Context) : Moment → Closure → Prop where
  | literal {fuel machine span parameters body closure after}
      (made : (makeClosure none parameters body).run machine =
        (.ok (.function (.closure closure)), after)) :
      Makes context ⟨fuel + 1, .evaluate (.function span parameters body), machine⟩ closure
  | definition {fuel machine span name parameters body ready closure after}
      (passed : (checkpoint context (Statement.define span name parameters body).kind
        (Statement.define span name parameters body).span).run machine = (.ok (), ready))
      (made : (makeClosure (some name) parameters body).run ready =
        (.ok (.function (.closure closure)), after)) :
      Makes context ⟨fuel + 1, .execute (.define span name parameters body), machine⟩ closure

section Makes

variable {context : Context} {moment next : Moment} {closure : Closure}

/-- A function is known by the time at which it is made. -/
theorem Makes.identity (makes : Makes context moment closure) :
    closure.identity = .script moment.begins := by
  cases makes with
  | literal made =>
      rw [run_make_closure] at made
      cases made
      rfl
  | definition passed made =>
      have still := congrArg (fun ran => ran.2.time) passed
      rw [checkpoint_time] at still
      rw [run_make_closure] at made
      cases made
      exact congrArg Identity.script still.symm

/-- To make a function takes time, so that the same moment does not come again. -/
theorem Makes.takes_time (makes : Makes context moment closure) :
    moment.begins < moment.ends context := by
  cases makes with
  | literal made =>
      rw [ends_eq]
      dsimp only [Task.after]
      rw [evaluate, run_make_closure]
      exact Nat.lt_succ_self _
  | @definition fuel machine span name parameters body ready closure after passed made =>
      have still := congrArg (fun ran => ran.2.time) passed
      rw [checkpoint_time] at still
      have later : ((makeClosure (some name) parameters body).run ready).2.time ≤ _ :=
        first_ends (fun value => ascends_bind (ascends_declare_at (some span) name value) fun _ =>
          ascends_pure Value.nothing) ready
      rw [run_make_closure] at later
      rw [ends_eq]
      dsimp only [Task.after]
      rw [execute_eq_checkpoint, run_bind_ok passed, begins, still]
      exact later

theorem Makes.starts_nothing (makes : Makes context moment closure)
    (starts : Starts context moment next) : False := by
  cases makes <;> cases starts

theorem Makes.reaches_itself (makes : Makes context moment closure)
    (reached : Relation.ReflTransGen (Starts context) moment next) : moment = next := by
  cases Relation.ReflTransGen.cases_head reached with
  | inl same => exact same
  | inr started =>
      have ⟨_, starts, _⟩ := started
      exact (makes.starts_nothing starts).elim

/-- Functions that are made one after the other are different functions. -/
theorem Makes.identities_differ {secondContext : Context} {second : Moment} {other : Closure}
    (makes : Makes context moment closure) (makesToo : Makes secondContext second other)
    (apart : Apart context moment secondContext second) : closure.identity ≠ other.identity := by
  intro same
  rw [makes.identity, makesToo.identity] at same
  have sameTime : moment.begins = second.begins := Identity.script.inj same
  have firstTakes := makes.takes_time
  have secondTakes := makesToo.takes_time
  rcases apart with before | after <;> omega

end Makes

end Moment

section Program

variable {context : Context} {fuel : Nat} {trees : List Statement} {machine : Machine}
variable {first second : Moment}

theorem Program.Starts.within (starts : Program.Starts context fuel trees machine first)
    (value : Value) :
    machine.time ≤ first.begins ∧
      first.ends context ≤ ((executeProgram context fuel trees value).run machine).2.time := by
  induction starts generalizing value with
  | here =>
      rw [Moment.ends_eq, executeProgram]
      exact ⟨le_rfl, first_ends (fun _ => ascends_execute_program _ _ _ _) _⟩
  | @later _ _ _ result _ _ ran others induction =>
      have within := induction result
      rw [executeProgram, run_bind_ok ran]
      exact ⟨((ascends_execute _ _ _).after ran).trans within.1, within.2⟩

theorem Program.Starts.ordered (one : Program.Starts context fuel trees machine first)
    (other : Program.Starts context fuel trees machine second) :
    first = second ∨ Moment.Apart context first context second := by
  induction one with
  | here =>
      cases other with
      | here => exact .inl rfl
      | later ran others =>
          have ended := (others.within .nothing).1
          rw [Moment.Apart, Moment.ends_eq]
          dsimp only [Task.after]
          rw [ran]
          exact .inr (.inl ended)
  | later ran others induction =>
      cases other with
      | here =>
          have ended := (others.within .nothing).1
          rw [Moment.Apart, Moment.ends_eq, Moment.ends_eq]
          dsimp only [Task.after]
          rw [ran]
          exact .inr (.inr ended)
      | later ranToo othersToo =>
          have same := congrArg Prod.snd (ran.symm.trans ranToo)
          dsimp only at same
          rw [← same] at othersToo
          exact induction othersToo

end Program

section Visits

variable {machine : Machine} {context : Context} {fuel : Nat} {program : Program}
variable {first second : Moment}

theorem Machine.Visits.within (visits : machine.Visits context fuel program first) :
    machine.time ≤ first.begins ∧ first.ends context ≤ (machine.run context fuel program).2.time := by
  have ⟨root, starts, reached⟩ := visits
  have inProgram := starts.within .nothing
  have inRoot := Moment.reached_within reached
  exact ⟨inProgram.1.trans inRoot.1, inRoot.2.trans inProgram.2⟩

/-- Of two moments of a run one starts the other, or they are one after the other. -/
theorem Machine.Visits.ordered (one : machine.Visits context fuel program first)
    (other : machine.Visits context fuel program second) :
    Relation.ReflTransGen (Moment.Starts context) first second ∨
      Relation.ReflTransGen (Moment.Starts context) second first ∨
      Moment.Apart context first context second := by
  have ⟨root, starts, reached⟩ := one
  have ⟨otherRoot, otherStarts, otherReached⟩ := other
  cases starts.ordered otherStarts with
  | inl same =>
      rw [← same] at otherReached
      exact Moment.reached_ordered reached otherReached
  | inr apart =>
      exact .inr (.inr (apart.within (Moment.reached_within reached)
        (Moment.reached_within otherReached)))

end Visits

end LayoutScript
