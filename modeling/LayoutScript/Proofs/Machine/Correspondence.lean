import LayoutScript.Proofs.Machine.Growth

/-!
Relations between two evaluations of the same tree that know the same of values at every
stage. Whoever wants to relate the two says what is related among the parts that evaluators
are made of; that the whole is related follows from the induction for relations that grow,
with a single stage. A property of a single evaluation is a relation that ignores the second
one.
-/

namespace LayoutScript

open Evaluation

/-- A relation between evaluations that respects all the parts of evaluators. `Allowed`
restricts the nodes of the trees that are evaluated, and `Good` is what is known of
their values. The predicate in `Related` holds of every result. -/
structure Correspondence (first second : Context) (gap : Nat) (Allowed : Node → Prop)
    (Good : Value → Prop)
    (Related : Layer → {α : Type} → (α → Prop) → Evaluation α → Evaluation α → Prop) : Prop where
  pure {layer : Layer} {α : Type} {post : α → Prop} {value : α} (holds : post value) :
    Related layer post (pure value) (pure value)
  bind {layer : Layer} {α β : Type} {between : α → Prop} {post : β → Prop}
    {body body' : Evaluation α} {next next' : α → Evaluation β}
    (start : Related layer between body body')
    (rest : ∀ value, between value → Related layer post (next value) (next' value)) :
    Related layer post (body >>= next) (body' >>= next')
  widen {α : Type} {post : α → Prop} {body body' : Evaluation α}
    (related : Related .expression post body body') : Related .statement post body body'
  outOfFuel {layer : Layer} {α : Type} {post : α → Prop} {body : Evaluation α}
    (same : gap = 0 → body = outOfFuel) : Related layer post outOfFuel body
  failExpression {layer : Layer} {α : Type} {post : α → Prop} {tree : Expression} {cause : Cause}
    (allowed : Allowed (.expression tree)) :
    Related layer post (fail cause tree.span) (fail cause tree.span)
  literal {span : Span} {value : Literal} (allowed : Allowed (.expression (.literal span value))) :
    Good (.ofLiteral value)
  nothing : Good .nothing
  bool {holds : Bool} : Good (.bool holds)
  tuple {elements : List Value} (good : ∀ element ∈ elements, Good element) :
    Good (.tuple elements)
  lookup {span : Span} {name : String} (allowed : Allowed (.expression (.identifier span name))) :
    Related .expression Good (lookup span name) (lookup span name)
  binary {span : Span} {left right : Expression} {operator : BinaryOperator}
    {leftValue rightValue : Value}
    (allowed : Allowed (.expression (.binary span left operator right)))
    (strict : operator ≠ .conjunction ∧ operator ≠ .disjunction)
    (leftGood : Good leftValue) (rightGood : Good rightValue) :
    Related .expression Good (ofOperator span (operator.apply first.limits leftValue rightValue))
      (ofOperator span (operator.apply second.limits leftValue rightValue))
  unary {span : Span} {operator : UnaryOperator} {operand : Expression} {value : Value}
    (allowed : Allowed (.expression (.unary span operator operand))) (good : Good value) :
    Related .expression Good (ofOperator span (operator.apply value))
      (ofOperator span (operator.apply value))
  member {span : Span} {target : Expression} {index : Nat} {value : Value}
    (allowed : Allowed (.expression (.member span target index))) (good : Good value) :
    Related .expression Good (member span value index) (member span value index)
  assign {span : Span} {name : String} {tree : Expression} {value : Value}
    (allowed : Allowed (.expression (.rebind span name tree))) (good : Good value) :
    Related .expression (fun _ => True) (assign span name value) (assign span name value)
  function {span : Span} {parameters : List String} {body : Block}
    (every : (Expression.function span parameters body).Every Allowed) :
    Related .expression Good (makeClosure none parameters body) (makeClosure none parameters body)
  native {native : Native} {arguments : List Value} (good : ∀ value ∈ arguments, Good value) :
    Related .expression Good (callNative native arguments) (callNative native arguments)
  closureBody {closure : Closure} (good : Good (.function (.closure closure))) :
    closure.body.Every Allowed
  call {span : Span} {callee : Expression} {trees : List Expression} {closure : Closure}
    {arguments : List Value} {body body' : Evaluation Value}
    (allowed : Allowed (.expression (.call span callee trees)))
    (closureGood : Good (.function (.closure closure)))
    (good : ∀ value ∈ arguments, Good value)
    (arity : arguments.length = closure.parameters.length)
    (related : Related .statement Good body body') :
    Related .expression Good (inCall first span closure arguments body)
      (inCall second span closure arguments body')
  inScope {α : Type} {post : α → Prop} {name : String} {body body' : Evaluation α}
    (related : Related .statement post body body') :
    Related .expression post (inScope name body) (inScope name body')
  checkpointExpression {tree : Expression} (allowed : Allowed (.expression tree)) :
    Related .statement (fun _ => True) (checkpoint first tree.kind tree.span)
      (checkpoint second tree.kind tree.span)
  checkpointStatement {tree : Statement} (allowed : Allowed (.statement tree)) :
    Related .statement (fun _ => True) (checkpoint first tree.kind tree.span)
      (checkpoint second tree.kind tree.span)
  declarePattern {span : Span} {pattern : Pattern} {tree : Expression} {value : Value}
    (every : (Statement.declare span pattern tree).Every Allowed) (good : Good value) :
    Related .statement (fun _ => True) (declarePattern pattern value)
      (declarePattern pattern value)
  assignPattern {span : Span} {pattern : Pattern} {tree : Expression} {value : Value}
    (every : (Statement.assign span pattern tree).Every Allowed) (good : Good value) :
    Related .expression (fun _ => True) (assignPattern pattern value)
      (assignPattern pattern value)
  define {span : Span} {name : String} {parameters : List String} {body : Block}
    (every : (Statement.define span name parameters body).Every Allowed) :
    Related .expression Good (makeClosure (some name) parameters body)
      (makeClosure (some name) parameters body)
  declare {span : Span} {name : String} {parameters : List String} {body : Block} {value : Value}
    (allowed : Allowed (.statement (.define span name parameters body))) (good : Good value) :
    Related .statement (fun _ => True) (Evaluation.declare span name value)
      (Evaluation.declare span name value)

/-- All evaluators are related at one amount of fuel. -/
structure EvaluatorsRelated (first second : Context) (gap : Nat) (Allowed : Node → Prop)
    (Good : Value → Prop)
    (Related : Layer → {α : Type} → (α → Prop) → Evaluation α → Evaluation α → Prop)
    (fuel : Nat) : Prop where
  evaluate (tree : Expression) (every : tree.Every Allowed) :
    Related .expression Good (evaluate first fuel tree) (evaluate second (fuel + gap) tree)
  evaluateAll (trees : List Expression) (every : ∀ tree ∈ trees, tree.Every Allowed) :
    Related .expression (fun values => ∀ value ∈ values, Good value)
      (evaluateAll first fuel trees) (evaluateAll second (fuel + gap) trees)
  evaluateLogical (left right : Expression) (operator : BinaryOperator) (decisive : Bool)
    (leftEvery : left.Every Allowed) (rightEvery : right.Every Allowed) :
    Related .expression Good (evaluateLogical first fuel left operator right decisive)
      (evaluateLogical second (fuel + gap) left operator right decisive)
  evaluateCondition (tree : Expression) (every : tree.Every Allowed) :
    Related .expression (fun _ => True) (evaluateCondition first fuel tree)
      (evaluateCondition second (fuel + gap) tree)
  evaluateCall (span : Span) (callee : Expression) (trees : List Expression)
    (every : (Expression.call span callee trees).Every Allowed) :
    Related .expression Good (evaluateCall first fuel span callee trees)
      (evaluateCall second (fuel + gap) span callee trees)
  executeBlock (tree : Block) (every : tree.Every Allowed) :
    Related .statement Good (executeBlock first fuel tree)
      (executeBlock second (fuel + gap) tree)
  executeAll (trees : List Statement) (every : ∀ tree ∈ trees, tree.Every Allowed) :
    Related .statement (fun _ => True) (executeAll first fuel trees)
      (executeAll second (fuel + gap) trees)
  execute (tree : Statement) (every : tree.Every Allowed) :
    Related .statement Good (execute first fuel tree) (execute second (fuel + gap) tree)
  repeatWhile (condition : Expression) (body : Block) (conditionEvery : condition.Every Allowed)
    (bodyEvery : body.Every Allowed) :
    Related .expression (fun _ => True) (repeatWhile first fuel condition body)
      (repeatWhile second (fuel + gap) condition body)

/-- A stage that there is no other beside. -/
structure SoleStage where

instance : Preorder SoleStage where
  le _ _ := True
  le_refl _ := trivial
  le_trans _ _ _ _ _ := trivial

namespace Correspondence

variable {first second : Context} {gap fuel : Nat} {Allowed : Node → Prop} {Good : Value → Prop}
variable {Related : Layer → {α : Type} → (α → Prop) → Evaluation α → Evaluation α → Prop}

/-- What is known of values stays the same where there is but one stage. -/
theorem growing (rules : Correspondence first second gap Allowed Good Related) :
    GrowingCorrespondence first second gap Allowed (fun _ : SoleStage => Good)
      (fun layer stage _ post body body' => Related layer (post stage) body body') where
  later _ good := good
  pure := rules.pure
  bind start rest := rules.bind start fun value => rest ⟨⟩ value le_rfl
  widen := rules.widen
  outOfFuel := rules.outOfFuel
  failExpression := rules.failExpression
  literal := rules.literal
  nothing := rules.nothing
  bool := rules.bool
  tuple := rules.tuple
  lookup := rules.lookup
  binary := rules.binary
  unary := rules.unary
  member := rules.member
  assign := rules.assign
  function := rules.function
  native := rules.native
  closureBody := rules.closureBody
  call allowed closureGood good arity related :=
    rules.call allowed closureGood good arity (related ⟨⟩ le_rfl)
  inScope related := rules.inScope (related ⟨⟩ le_rfl)
  checkpointExpression := rules.checkpointExpression
  checkpointStatement := rules.checkpointStatement
  declarePattern := rules.declarePattern
  assignPattern := rules.assignPattern
  define := rules.define
  declare := rules.declare

theorem after_checkpoint_step (rules : Correspondence first second gap Allowed Good Related)
    (smaller : EvaluatorsRelated first second gap Allowed Good Related fuel)
    (tree : Statement) (every : tree.Every Allowed) :
    Related .statement Good (afterCheckpoint first fuel tree)
      (afterCheckpoint second (fuel + gap) tree) :=
  rules.growing.after_checkpoint_step (fun _ => ⟨smaller.evaluate, smaller.evaluateAll,
    smaller.evaluateLogical, smaller.evaluateCondition, smaller.evaluateCall, smaller.executeBlock,
    smaller.executeAll, smaller.execute, smaller.repeatWhile⟩) ⟨⟩ tree every

theorem related_at_every_fuel (rules : Correspondence first second gap Allowed Good Related)
    (fuel : Nat) : EvaluatorsRelated first second gap Allowed Good Related fuel :=
  have grown := rules.growing.related_at_every_fuel fuel ⟨⟩
  ⟨grown.evaluate, grown.evaluateAll, grown.evaluateLogical, grown.evaluateCondition,
    grown.evaluateCall, grown.executeBlock, grown.executeAll, grown.execute, grown.repeatWhile⟩

theorem execute_program_related (rules : Correspondence first second gap Allowed Good Related)
    (fuel : Nat) (statements : List Statement) (value : Value)
    (every : ∀ statement ∈ statements, statement.Every Allowed) (good : Good value) :
    Related .statement Good (executeProgram first fuel statements value)
      (executeProgram second (fuel + gap) statements value) :=
  rules.growing.execute_program_related fuel ⟨⟩ statements value every good

end Correspondence

/-- Every value that an evaluation can give. -/
def Evaluation.Yields {α : Type} (post : α → Prop) (body : Evaluation α) : Prop :=
  ∀ machine value, (body.run machine).1 = .ok value → post value

theorem yields_bind {α β : Type} {between : α → Prop} {post : β → Prop} {body : Evaluation α}
    {next : α → Evaluation β} (start : Yields between body)
    (rest : ∀ value, between value → Yields post (next value)) :
    Yields post (body >>= next) := by
  intro machine result given
  rcases run_cases body machine with ⟨value, after, run⟩ | ⟨stop, after, run⟩
  · rw [run_bind_ok run] at given
    exact rest value (start machine value (by rw [run])) after result given
  · rw [run_bind_error run] at given
    cases given

/-- A relation that asks nothing of trees and values, and relates plain steps to
themselves. -/
structure PlainCorrespondence (first second : Context) (gap : Nat)
    (Related : {α : Type} → Evaluation α → Evaluation α → Prop) : Prop where
  plain {α : Type} {body : Evaluation α} (isPlain : Plain body) : Related body body
  bind {α β : Type} {body body' : Evaluation α} {next next' : α → Evaluation β}
    (start : Related body body')
    (rest : ∀ value, (∃ machine, (body.run machine).1 = .ok value) →
      Related (next value) (next' value)) :
    Related (body >>= next) (body' >>= next')
  outOfFuel {α : Type} {body : Evaluation α} (same : gap = 0 → body = outOfFuel) :
    Related outOfFuel body
  checkpoint (kind : NodeKind) (span : Span) :
    Related (checkpoint first kind span) (checkpoint second kind span)
  operator (span : Span) (operator : BinaryOperator) (left right : Value) :
    Related (ofOperator span (operator.apply first.limits left right))
      (ofOperator span (operator.apply second.limits left right))
  admission (span : Span) : Related (admitCall first span) (admitCall second span)
  restoring {α : Type} {body body' : Evaluation α} (name : String) (parent : Store → FrameId)
    (calls : Nat) (related : Related body body') :
    Related (restoring (entering name parent calls) body)
      (restoring (entering name parent calls) body')

namespace PlainCorrespondence

variable {first second : Context} {gap : Nat}
variable {Related : {α : Type} → Evaluation α → Evaluation α → Prop}

theorem call (rules : PlainCorrespondence first second gap Related) (span : Span)
    (closure : Closure) (arguments : List Value) {body body' : Evaluation Value}
    (related : Related body body') :
    Related (inCall first span closure arguments body)
      (inCall second span closure arguments body') := by
  rw [in_call_eq, in_call_eq]
  apply rules.bind (rules.admission span)
  intro _ _
  apply rules.restoring
  apply rules.bind (rules.plain (plain_declare_parameters _ _))
  intro _ _
  exact related

/-- Nothing has to be known of a value that every value satisfies. -/
theorem correspondence (rules : PlainCorrespondence first second gap Related) :
    Correspondence first second gap (fun _ => True) (fun _ => True)
      (fun _ _ post body body' => Related body body' ∧ Yields post body) where
  pure holds := by
    refine ⟨rules.plain (plain_pure _), fun machine value given => ?_⟩
    cases given
    exact holds
  bind start rest := by
    refine ⟨rules.bind start.1 fun value ⟨machine, given⟩ => ?_, ?_⟩
    · exact (rest value (start.2 machine value given)).1
    · exact yields_bind start.2 fun value holds => (rest value holds).2
  widen related := related
  outOfFuel same := by
    refine ⟨rules.outOfFuel same, fun machine value given => ?_⟩
    cases given
  failExpression _ := by
    refine ⟨rules.plain (plain_fail _ _), fun machine value given => ?_⟩
    cases given
  literal _ := trivial
  nothing := trivial
  bool := trivial
  tuple _ := trivial
  lookup _ := ⟨rules.plain (plain_lookup _ _), fun _ _ _ => trivial⟩
  binary _ _ _ _ := ⟨rules.operator _ _ _ _, fun _ _ _ => trivial⟩
  unary _ _ := ⟨rules.plain (plain_operator _ _), fun _ _ _ => trivial⟩
  member _ _ := ⟨rules.plain (plain_member _ _ _), fun _ _ _ => trivial⟩
  assign _ _ := ⟨rules.plain (plain_assign _ _ _), fun _ _ _ => trivial⟩
  function _ := ⟨rules.plain (plain_make_closure _ _ _), fun _ _ _ => trivial⟩
  native _ := ⟨rules.plain (plain_call_native _ _), fun _ _ _ => trivial⟩
  closureBody _ := fun _ _ => trivial
  call _ _ _ _ related := ⟨rules.call _ _ _ related.1, fun _ _ _ => trivial⟩
  inScope related := by
    rw [in_scope_eq_restoring, in_scope_eq_restoring]
    refine ⟨rules.restoring _ _ _ related.1, fun machine value given => ?_⟩
    exact related.2 _ value given
  checkpointExpression _ := ⟨rules.checkpoint _ _, fun _ _ _ => trivial⟩
  checkpointStatement _ := ⟨rules.checkpoint _ _, fun _ _ _ => trivial⟩
  declarePattern _ _ := ⟨rules.plain (plain_declare_pattern _ _), fun _ _ _ => trivial⟩
  assignPattern _ _ := ⟨rules.plain (plain_assign_pattern _ _), fun _ _ _ => trivial⟩
  define _ := ⟨rules.plain (plain_make_closure _ _ _), fun _ _ _ => trivial⟩
  declare _ _ := ⟨rules.plain (plain_declare_at _ _ _), fun _ _ _ => trivial⟩

theorem execute_program (rules : PlainCorrespondence first second gap Related) (fuel : Nat)
    (statements : List Statement) (value : Value) :
    Related (executeProgram first fuel statements value)
      (executeProgram second (fuel + gap) statements value) :=
  (rules.correspondence.execute_program_related fuel statements value
    (fun _ _ _ _ => trivial) trivial).1

end PlainCorrespondence

end LayoutScript
