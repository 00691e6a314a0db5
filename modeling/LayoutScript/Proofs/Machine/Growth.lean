import LayoutScript.Proofs.Machine.Storing
import LayoutScript.Proofs.Tree.Nodes
import Mathlib.Order.Basic

/-!
One induction over all evaluators, for relations between two evaluations of the same
tree. The two may differ in their context, and the second may have more fuel. Whoever
wants to relate them says what is related among the parts that evaluators are made of;
that the whole is related follows once and for all. What is known of values may depend
on the stage that an evaluation has come to, since frames and functions come into being
on its way; at later stages no less is known.
-/

namespace LayoutScript

open Evaluation

/-- Statements may add names to the frame they run in, expressions may not. -/
inductive Layer where
  | expression | statement

variable {Stage : Type} [Preorder Stage]

/-- A relation between evaluations that respects all the parts of evaluators, from whatever
stage on. `Allowed` restricts the nodes of the trees that are evaluated, and `Good` is what is
known of their values at a stage. The predicate in `Related` holds of every result at the stage
at which the evaluation ends. -/
structure GrowingCorrespondence (first second : Context) (gap : Nat) (Allowed : Node → Prop)
    (Good : Stage → Value → Prop)
    (Related : Layer → Stage → {α : Type} → (Stage → α → Prop) → Evaluation α → Evaluation α → Prop) :
    Prop where
  later {early late : Stage} {value : Value} (grows : early ≤ late) (good : Good early value) :
    Good late value
  pure {layer : Layer} {stage : Stage} {α : Type} {post : Stage → α → Prop} {value : α}
    (holds : post stage value) : Related layer stage post (pure value) (pure value)
  bind {layer : Layer} {stage : Stage} {α β : Type} {between : Stage → α → Prop}
    {post : Stage → β → Prop} {body body' : Evaluation α} {next next' : α → Evaluation β}
    (start : Related layer stage between body body')
    (rest : ∀ late value, stage ≤ late → between late value →
      Related layer late post (next value) (next' value)) :
    Related layer stage post (body >>= next) (body' >>= next')
  widen {stage : Stage} {α : Type} {post : Stage → α → Prop} {body body' : Evaluation α}
    (related : Related .expression stage post body body') : Related .statement stage post body body'
  outOfFuel {layer : Layer} {stage : Stage} {α : Type} {post : Stage → α → Prop}
    {body : Evaluation α} (same : gap = 0 → body = outOfFuel) :
    Related layer stage post outOfFuel body
  failExpression {layer : Layer} {stage : Stage} {α : Type} {post : Stage → α → Prop}
    {tree : Expression} {cause : Cause} (allowed : Allowed (.expression tree)) :
    Related layer stage post (fail cause tree.span) (fail cause tree.span)
  literal {stage : Stage} {span : Span} {value : Literal}
    (allowed : Allowed (.expression (.literal span value))) : Good stage (.ofLiteral value)
  nothing {stage : Stage} : Good stage .nothing
  bool {stage : Stage} {holds : Bool} : Good stage (.bool holds)
  tuple {stage : Stage} {elements : List Value} (good : ∀ element ∈ elements, Good stage element) :
    Good stage (.tuple elements)
  lookup {stage : Stage} {span : Span} {name : String}
    (allowed : Allowed (.expression (.identifier span name))) :
    Related .expression stage Good (lookup span name) (lookup span name)
  binary {stage : Stage} {span : Span} {left right : Expression} {operator : BinaryOperator}
    {leftValue rightValue : Value}
    (allowed : Allowed (.expression (.binary span left operator right)))
    (strict : operator ≠ .conjunction ∧ operator ≠ .disjunction)
    (leftGood : Good stage leftValue) (rightGood : Good stage rightValue) :
    Related .expression stage Good
      (ofOperator span (operator.apply first.limits leftValue rightValue))
      (ofOperator span (operator.apply second.limits leftValue rightValue))
  unary {stage : Stage} {span : Span} {operator : UnaryOperator} {operand : Expression}
    {value : Value} (allowed : Allowed (.expression (.unary span operator operand)))
    (good : Good stage value) :
    Related .expression stage Good (ofOperator span (operator.apply value))
      (ofOperator span (operator.apply value))
  member {stage : Stage} {span : Span} {target : Expression} {index : Nat} {value : Value}
    (allowed : Allowed (.expression (.member span target index))) (good : Good stage value) :
    Related .expression stage Good (member span value index) (member span value index)
  assign {stage : Stage} {span : Span} {name : String} {tree : Expression} {value : Value}
    (allowed : Allowed (.expression (.rebind span name tree))) (good : Good stage value) :
    Related .expression stage (fun _ _ => True) (assign span name value) (assign span name value)
  function {stage : Stage} {span : Span} {parameters : List String} {body : Block}
    (every : (Expression.function span parameters body).Every Allowed) :
    Related .expression stage Good (makeClosure none parameters body)
      (makeClosure none parameters body)
  native {stage : Stage} {native : Native} {arguments : List Value}
    (good : ∀ value ∈ arguments, Good stage value) :
    Related .expression stage Good (callNative native arguments) (callNative native arguments)
  closureBody {stage : Stage} {closure : Closure}
    (good : Good stage (.function (.closure closure))) : closure.body.Every Allowed
  call {stage : Stage} {span : Span} {callee : Expression} {trees : List Expression}
    {closure : Closure} {arguments : List Value} {body body' : Evaluation Value}
    (allowed : Allowed (.expression (.call span callee trees)))
    (closureGood : Good stage (.function (.closure closure)))
    (good : ∀ value ∈ arguments, Good stage value)
    (arity : arguments.length = closure.parameters.length)
    (related : ∀ late, stage ≤ late → Related .statement late Good body body') :
    Related .expression stage Good (inCall first span closure arguments body)
      (inCall second span closure arguments body')
  inScope {stage : Stage} {α : Type} {post : Stage → α → Prop} {name : String}
    {body body' : Evaluation α}
    (related : ∀ late, stage ≤ late → Related .statement late post body body') :
    Related .expression stage post (inScope name body) (inScope name body')
  checkpointExpression {stage : Stage} {tree : Expression} (allowed : Allowed (.expression tree)) :
    Related .statement stage (fun _ _ => True) (checkpoint first tree.kind tree.span)
      (checkpoint second tree.kind tree.span)
  checkpointStatement {stage : Stage} {tree : Statement} (allowed : Allowed (.statement tree)) :
    Related .statement stage (fun _ _ => True) (checkpoint first tree.kind tree.span)
      (checkpoint second tree.kind tree.span)
  declarePattern {stage : Stage} {span : Span} {pattern : Pattern} {tree : Expression}
    {value : Value} (every : (Statement.declare span pattern tree).Every Allowed)
    (good : Good stage value) :
    Related .statement stage (fun _ _ => True) (declarePattern pattern value)
      (declarePattern pattern value)
  assignPattern {stage : Stage} {span : Span} {pattern : Pattern} {tree : Expression}
    {value : Value} (every : (Statement.assign span pattern tree).Every Allowed)
    (good : Good stage value) :
    Related .expression stage (fun _ _ => True) (assignPattern pattern value)
      (assignPattern pattern value)
  define {stage : Stage} {span : Span} {name : String} {parameters : List String} {body : Block}
    (every : (Statement.define span name parameters body).Every Allowed) :
    Related .expression stage Good (makeClosure (some name) parameters body)
      (makeClosure (some name) parameters body)
  declare {stage : Stage} {span : Span} {name : String} {parameters : List String} {body : Block}
    {value : Value} (allowed : Allowed (.statement (.define span name parameters body)))
    (good : Good stage value) :
    Related .statement stage (fun _ _ => True) (Evaluation.declare span name value)
      (Evaluation.declare span name value)

/-- All evaluators are related from a stage on, at one amount of fuel. -/
structure EvaluatorsGrow (first second : Context) (gap : Nat) (Allowed : Node → Prop)
    (Good : Stage → Value → Prop)
    (Related : Layer → Stage → {α : Type} → (Stage → α → Prop) → Evaluation α → Evaluation α → Prop)
    (fuel : Nat) (stage : Stage) : Prop where
  evaluate (tree : Expression) (every : tree.Every Allowed) :
    Related .expression stage Good (evaluate first fuel tree) (evaluate second (fuel + gap) tree)
  evaluateAll (trees : List Expression) (every : ∀ tree ∈ trees, tree.Every Allowed) :
    Related .expression stage (fun late values => ∀ value ∈ values, Good late value)
      (evaluateAll first fuel trees) (evaluateAll second (fuel + gap) trees)
  evaluateLogical (left right : Expression) (operator : BinaryOperator) (decisive : Bool)
    (leftEvery : left.Every Allowed) (rightEvery : right.Every Allowed) :
    Related .expression stage Good (evaluateLogical first fuel left operator right decisive)
      (evaluateLogical second (fuel + gap) left operator right decisive)
  evaluateCondition (tree : Expression) (every : tree.Every Allowed) :
    Related .expression stage (fun _ _ => True) (evaluateCondition first fuel tree)
      (evaluateCondition second (fuel + gap) tree)
  evaluateCall (span : Span) (callee : Expression) (trees : List Expression)
    (every : (Expression.call span callee trees).Every Allowed) :
    Related .expression stage Good (evaluateCall first fuel span callee trees)
      (evaluateCall second (fuel + gap) span callee trees)
  executeBlock (tree : Block) (every : tree.Every Allowed) :
    Related .statement stage Good (executeBlock first fuel tree)
      (executeBlock second (fuel + gap) tree)
  executeAll (trees : List Statement) (every : ∀ tree ∈ trees, tree.Every Allowed) :
    Related .statement stage (fun _ _ => True) (executeAll first fuel trees)
      (executeAll second (fuel + gap) trees)
  execute (tree : Statement) (every : tree.Every Allowed) :
    Related .statement stage Good (execute first fuel tree) (execute second (fuel + gap) tree)
  repeatWhile (condition : Expression) (body : Block) (conditionEvery : condition.Every Allowed)
    (bodyEvery : body.Every Allowed) :
    Related .expression stage (fun _ _ => True) (repeatWhile first fuel condition body)
      (repeatWhile second (fuel + gap) condition body)

theorem evaluate_binary_strict (context : Context) (fuel : Nat) (span : Span)
    (left right : Expression) (operator : BinaryOperator)
    (strict : operator ≠ .conjunction ∧ operator ≠ .disjunction) :
    evaluate context (fuel + 1) (.binary span left operator right) = (do
      let leftValue ← evaluate context fuel left
      let rightValue ← evaluate context fuel right
      ofOperator span (operator.apply context.limits leftValue rightValue)) := by
  rw [evaluate]
  · exact strict.1
  · exact strict.2

/-- What a statement does once its checkpoint is passed. -/
def afterCheckpoint (context : Context) (fuel : Nat) : Statement → Evaluation Value
  | .evaluate _ expression closed => do
      let value ← evaluate context fuel expression
      return if closed then .nothing else value
  | .declare _ pattern initial => do
      let value ← evaluate context fuel initial
      declarePattern pattern value
      return .nothing
  | .assign _ target replacement => do
      let value ← evaluate context fuel replacement
      assignPattern target value
      return .nothing
  | .whileLoop _ condition body => do
      repeatWhile context fuel condition body
      return .nothing
  | .ifBlock _ condition body => do
      if ← evaluateCondition context fuel condition then
        let _ ← inScope "if-body" (executeBlock context fuel body)
      return .nothing
  | .define span name parameters body => do
      let value ← makeClosure (some name) parameters body
      Evaluation.declare span name value
      return .nothing

theorem execute_eq_checkpoint (context : Context) (fuel : Nat) (tree : Statement) :
    execute context (fuel + 1) tree = (do
      checkpoint context tree.kind tree.span
      afterCheckpoint context fuel tree) := by
  cases tree <;> rw [execute] <;> rfl

namespace GrowingCorrespondence

variable {first second : Context} {gap fuel : Nat} {Allowed : Node → Prop}
variable {Good : Stage → Value → Prop}
variable {Related : Layer → Stage → {α : Type} → (Stage → α → Prop) → Evaluation α →
  Evaluation α → Prop}

theorem evaluate_step (rules : GrowingCorrespondence first second gap Allowed Good Related)
    (smaller : ∀ stage, EvaluatorsGrow first second gap Allowed Good Related fuel stage)
    (stage : Stage) (tree : Expression) (every : tree.Every Allowed) :
    Related .expression stage Good (evaluate first (fuel + 1) tree)
      (evaluate second (fuel + gap + 1) tree) := by
  have allowed := every.self
  cases tree with
  | literal span value =>
      rw [evaluate, evaluate]
      exact rules.pure (rules.literal allowed)
  | identifier span name =>
      rw [evaluate, evaluate]
      exact rules.lookup allowed
  | tuple span elements =>
      rw [evaluate, evaluate]
      apply rules.bind ((smaller stage).evaluateAll elements every.tuple)
      intro late values _ good
      exact rules.pure (rules.tuple good)
  | binary span left operator right =>
      have ⟨leftEvery, rightEvery⟩ := every.binary
      by_cases conjunction : operator = .conjunction
      · subst conjunction
        rw [evaluate, evaluate]
        exact (smaller stage).evaluateLogical left right _ _ leftEvery rightEvery
      by_cases disjunction : operator = .disjunction
      · subst disjunction
        rw [evaluate, evaluate]
        exact (smaller stage).evaluateLogical left right _ _ leftEvery rightEvery
      rw [evaluate_binary_strict _ _ _ _ _ _ ⟨conjunction, disjunction⟩,
        evaluate_binary_strict _ _ _ _ _ _ ⟨conjunction, disjunction⟩]
      apply rules.bind ((smaller stage).evaluate left leftEvery)
      intro middle leftValue _ leftGood
      apply rules.bind ((smaller middle).evaluate right rightEvery)
      intro late rightValue grows rightGood
      exact rules.binary allowed ⟨conjunction, disjunction⟩ (rules.later grows leftGood) rightGood
  | unary span operator operand =>
      rw [evaluate, evaluate]
      apply rules.bind ((smaller stage).evaluate operand every.unary)
      intro late value _ good
      exact rules.unary allowed good
  | call span callee arguments =>
      rw [evaluate, evaluate]
      exact (smaller stage).evaluateCall span callee arguments every
  | member span target index =>
      rw [evaluate, evaluate]
      apply rules.bind ((smaller stage).evaluate target every.member)
      intro late value _ good
      exact rules.member allowed good
  | conditional span condition whenTrue whenFalse =>
      have ⟨conditionEvery, trueEvery, falseEvery⟩ := every.conditional
      rw [evaluate, evaluate]
      apply rules.bind ((smaller stage).evaluateCondition condition conditionEvery)
      intro late holds _ _
      cases holds with
      | true => exact (smaller late).evaluate whenTrue trueEvery
      | false => exact (smaller late).evaluate whenFalse falseEvery
  | rebind span name value =>
      rw [evaluate, evaluate]
      apply rules.bind ((smaller stage).evaluate value every.rebind)
      intro middle result _ good
      apply rules.bind (rules.assign allowed good)
      intro late _ grows _
      exact rules.pure (rules.later grows good)
  | function span parameters body =>
      rw [evaluate, evaluate]
      exact rules.function every

theorem evaluate_all_step (rules : GrowingCorrespondence first second gap Allowed Good Related)
    (smaller : ∀ stage, EvaluatorsGrow first second gap Allowed Good Related fuel stage)
    (stage : Stage) (trees : List Expression) (every : ∀ tree ∈ trees, tree.Every Allowed) :
    Related .expression stage (fun late values => ∀ value ∈ values, Good late value)
      (evaluateAll first (fuel + 1) trees) (evaluateAll second (fuel + gap + 1) trees) := by
  cases trees with
  | nil =>
      rw [evaluateAll, evaluateAll]
      exact rules.pure (List.forall_mem_nil _)
  | cons tree trees =>
      have ⟨firstEvery, othersEvery⟩ := List.forall_mem_cons.1 every
      rw [evaluateAll, evaluateAll]
      apply rules.bind ((smaller stage).evaluate tree firstEvery)
      intro middle value _ good
      apply rules.bind ((smaller middle).evaluateAll trees othersEvery)
      intro late values grows allGood
      exact rules.pure (List.forall_mem_cons.2 ⟨rules.later grows good, allGood⟩)

theorem evaluate_logical_step (rules : GrowingCorrespondence first second gap Allowed Good Related)
    (smaller : ∀ stage, EvaluatorsGrow first second gap Allowed Good Related fuel stage)
    (stage : Stage) (left right : Expression) (operator : BinaryOperator) (decisive : Bool)
    (leftEvery : left.Every Allowed) (rightEvery : right.Every Allowed) :
    Related .expression stage Good (evaluateLogical first (fuel + 1) left operator right decisive)
      (evaluateLogical second (fuel + gap + 1) left operator right decisive) := by
  rw [evaluateLogical, evaluateLogical]
  apply rules.bind ((smaller stage).evaluate left leftEvery)
  intro middle leftValue _ _
  cases leftValue with
  | bool leftHolds =>
      by_cases decided : leftHolds = decisive
      · simp only [if_pos decided]
        exact rules.pure rules.bool
      · simp only [if_neg decided]
        apply rules.bind ((smaller middle).evaluate right rightEvery)
        intro late rightValue _ _
        cases rightValue with
        | bool rightHolds => exact rules.pure rules.bool
        | _ => exact rules.failExpression rightEvery.self
  | _ => exact rules.failExpression leftEvery.self

theorem evaluate_condition_step
    (rules : GrowingCorrespondence first second gap Allowed Good Related)
    (smaller : ∀ stage, EvaluatorsGrow first second gap Allowed Good Related fuel stage)
    (stage : Stage) (tree : Expression) (every : tree.Every Allowed) :
    Related .expression stage (fun _ _ => True) (evaluateCondition first (fuel + 1) tree)
      (evaluateCondition second (fuel + gap + 1) tree) := by
  rw [evaluateCondition, evaluateCondition]
  apply rules.bind ((smaller stage).evaluate tree every)
  intro late value _ _
  cases value with
  | bool holds => exact rules.pure trivial
  | _ => exact rules.failExpression every.self

theorem evaluate_call_step (rules : GrowingCorrespondence first second gap Allowed Good Related)
    (smaller : ∀ stage, EvaluatorsGrow first second gap Allowed Good Related fuel stage)
    (stage : Stage) (span : Span) (callee : Expression) (trees : List Expression)
    (every : (Expression.call span callee trees).Every Allowed) :
    Related .expression stage Good (evaluateCall first (fuel + 1) span callee trees)
      (evaluateCall second (fuel + gap + 1) span callee trees) := by
  have ⟨calleeEvery, treesEvery⟩ := every.call
  have allowed := every.self
  rw [evaluateCall, evaluateCall]
  apply rules.bind ((smaller stage).evaluate callee calleeEvery)
  intro middle value _ calleeGood
  cases value with
  | function callable =>
      apply rules.bind ((smaller middle).evaluateAll trees treesEvery)
      intro late arguments grows good
      by_cases arity : arguments.length ≠ callable.arity
      · simp only [if_pos arity]
        exact rules.failExpression allowed
      · simp only [if_neg arity]
        cases callable with
        | native native => exact rules.native good
        | closure closure =>
            have closureGood := rules.later grows calleeGood
            apply rules.call allowed closureGood good (Decidable.not_not.1 arity)
            intro inside _
            exact (smaller inside).executeBlock closure.body (rules.closureBody calleeGood)
  | _ => exact rules.failExpression calleeEvery.self

theorem execute_block_step (rules : GrowingCorrespondence first second gap Allowed Good Related)
    (smaller : ∀ stage, EvaluatorsGrow first second gap Allowed Good Related fuel stage)
    (stage : Stage) (tree : Block) (every : tree.Every Allowed) :
    Related .statement stage Good (executeBlock first (fuel + 1) tree)
      (executeBlock second (fuel + gap + 1) tree) := by
  cases tree with
  | valued span statements value =>
      have ⟨statementsEvery, valueEvery⟩ := every.valued
      rw [executeBlock, executeBlock]
      apply rules.bind ((smaller stage).executeAll statements statementsEvery)
      intro middle _ _ _
      apply rules.bind (rules.checkpointExpression valueEvery.self)
      intro late _ _ _
      exact rules.widen ((smaller late).evaluate value valueEvery)
  | silent span statements =>
      rw [executeBlock, executeBlock]
      apply rules.bind ((smaller stage).executeAll statements every.silent)
      intro late _ _ _
      exact rules.pure rules.nothing

theorem execute_all_step (rules : GrowingCorrespondence first second gap Allowed Good Related)
    (smaller : ∀ stage, EvaluatorsGrow first second gap Allowed Good Related fuel stage)
    (stage : Stage) (trees : List Statement) (every : ∀ tree ∈ trees, tree.Every Allowed) :
    Related .statement stage (fun _ _ => True) (executeAll first (fuel + 1) trees)
      (executeAll second (fuel + gap + 1) trees) := by
  cases trees with
  | nil =>
      rw [executeAll, executeAll]
      exact rules.pure trivial
  | cons tree trees =>
      have ⟨firstEvery, othersEvery⟩ := List.forall_mem_cons.1 every
      rw [executeAll, executeAll]
      apply rules.bind ((smaller stage).execute tree firstEvery)
      intro late _ _ _
      exact (smaller late).executeAll trees othersEvery

theorem after_checkpoint_step (rules : GrowingCorrespondence first second gap Allowed Good Related)
    (smaller : ∀ stage, EvaluatorsGrow first second gap Allowed Good Related fuel stage)
    (stage : Stage) (tree : Statement) (every : tree.Every Allowed) :
    Related .statement stage Good (afterCheckpoint first fuel tree)
      (afterCheckpoint second (fuel + gap) tree) := by
  cases tree with
  | declare span pattern initial =>
      apply rules.bind (rules.widen ((smaller stage).evaluate initial every.declare))
      intro middle value _ good
      apply rules.bind (rules.declarePattern every good)
      intro late _ _ _
      exact rules.pure rules.nothing
  | assign span target replacement =>
      apply rules.bind (rules.widen ((smaller stage).evaluate replacement every.assign))
      intro middle value _ good
      apply rules.bind (rules.widen (rules.assignPattern every good))
      intro late _ _ _
      exact rules.pure rules.nothing
  | evaluate span expression closed =>
      apply rules.bind (rules.widen ((smaller stage).evaluate expression every.evaluate))
      intro late value _ good
      cases closed with
      | true => exact rules.pure rules.nothing
      | false => exact rules.pure good
  | whileLoop span condition body =>
      have ⟨conditionEvery, bodyEvery⟩ := every.whileLoop
      apply rules.bind
        (rules.widen ((smaller stage).repeatWhile condition body conditionEvery bodyEvery))
      intro late _ _ _
      exact rules.pure rules.nothing
  | ifBlock span condition body =>
      have ⟨conditionEvery, bodyEvery⟩ := every.ifBlock
      apply rules.bind (rules.widen ((smaller stage).evaluateCondition condition conditionEvery))
      intro middle holds _ _
      cases holds with
      | true =>
          apply rules.bind (rules.widen (rules.inScope fun inside _ =>
            (smaller inside).executeBlock body bodyEvery))
          intro late _ _ _
          exact rules.pure rules.nothing
      | false => exact rules.pure rules.nothing
  | define span name parameters body =>
      apply rules.bind (rules.widen (rules.define every))
      intro middle value _ good
      apply rules.bind (rules.declare every.self good)
      intro late _ _ _
      exact rules.pure rules.nothing

theorem execute_step (rules : GrowingCorrespondence first second gap Allowed Good Related)
    (smaller : ∀ stage, EvaluatorsGrow first second gap Allowed Good Related fuel stage)
    (stage : Stage) (tree : Statement) (every : tree.Every Allowed) :
    Related .statement stage Good (execute first (fuel + 1) tree)
      (execute second (fuel + gap + 1) tree) := by
  rw [execute_eq_checkpoint, execute_eq_checkpoint]
  apply rules.bind (rules.checkpointStatement every.self)
  intro late _ _ _
  exact rules.after_checkpoint_step smaller late tree every

theorem repeat_while_step (rules : GrowingCorrespondence first second gap Allowed Good Related)
    (smaller : ∀ stage, EvaluatorsGrow first second gap Allowed Good Related fuel stage)
    (stage : Stage) (condition : Expression) (body : Block)
    (conditionEvery : condition.Every Allowed) (bodyEvery : body.Every Allowed) :
    Related .expression stage (fun _ _ => True) (repeatWhile first (fuel + 1) condition body)
      (repeatWhile second (fuel + gap + 1) condition body) := by
  rw [repeatWhile, repeatWhile]
  apply rules.bind ((smaller stage).evaluateCondition condition conditionEvery)
  intro middle holds _ _
  cases holds with
  | true =>
      apply rules.bind (rules.inScope fun inside _ => (smaller inside).executeBlock body bodyEvery)
      intro late _ _ _
      exact (smaller late).repeatWhile condition body conditionEvery bodyEvery
  | false => exact rules.pure trivial

/-- The second evaluation is out of fuel as well unless it has more. -/
theorem related_without_fuel (rules : GrowingCorrespondence first second gap Allowed Good Related)
    (stage : Stage) : EvaluatorsGrow first second gap Allowed Good Related 0 stage := by
  constructor <;> intros
  case evaluate => rw [evaluate]; exact rules.outOfFuel (by rintro rfl; rw [evaluate])
  case evaluateAll => rw [evaluateAll]; exact rules.outOfFuel (by rintro rfl; rw [evaluateAll])
  case evaluateLogical =>
      rw [evaluateLogical]; exact rules.outOfFuel (by rintro rfl; rw [evaluateLogical])
  case evaluateCondition =>
      rw [evaluateCondition]; exact rules.outOfFuel (by rintro rfl; rw [evaluateCondition])
  case evaluateCall => rw [evaluateCall]; exact rules.outOfFuel (by rintro rfl; rw [evaluateCall])
  case executeBlock => rw [executeBlock]; exact rules.outOfFuel (by rintro rfl; rw [executeBlock])
  case executeAll => rw [executeAll]; exact rules.outOfFuel (by rintro rfl; rw [executeAll])
  case execute => rw [execute]; exact rules.outOfFuel (by rintro rfl; rw [execute])
  case repeatWhile => rw [repeatWhile]; exact rules.outOfFuel (by rintro rfl; rw [repeatWhile])

theorem related_at_every_fuel (rules : GrowingCorrespondence first second gap Allowed Good Related)
    (fuel : Nat) (stage : Stage) :
    EvaluatorsGrow first second gap Allowed Good Related fuel stage := by
  induction fuel generalizing stage with
  | zero => exact rules.related_without_fuel stage
  | succ fuel smaller =>
      have shifted : fuel + 1 + gap = fuel + gap + 1 := Nat.add_right_comm fuel 1 gap
      constructor <;> rw [shifted]
      · exact rules.evaluate_step smaller stage
      · exact rules.evaluate_all_step smaller stage
      · exact rules.evaluate_logical_step smaller stage
      · exact rules.evaluate_condition_step smaller stage
      · exact rules.evaluate_call_step smaller stage
      · exact rules.execute_block_step smaller stage
      · exact rules.execute_all_step smaller stage
      · exact rules.execute_step smaller stage
      · exact rules.repeat_while_step smaller stage

theorem execute_program_related
    (rules : GrowingCorrespondence first second gap Allowed Good Related)
    (fuel : Nat) (stage : Stage) (statements : List Statement) (value : Value)
    (every : ∀ statement ∈ statements, statement.Every Allowed) (good : Good stage value) :
    Related .statement stage Good (executeProgram first fuel statements value)
      (executeProgram second (fuel + gap) statements value) := by
  induction statements generalizing stage value with
  | nil => exact rules.pure good
  | cons statement statements induction =>
      have ⟨firstEvery, othersEvery⟩ := List.forall_mem_cons.1 every
      apply rules.bind ((rules.related_at_every_fuel fuel stage).execute statement firstEvery)
      intro late result _ resultGood
      exact induction late result othersEvery resultGood

end GrowingCorrespondence

end LayoutScript
