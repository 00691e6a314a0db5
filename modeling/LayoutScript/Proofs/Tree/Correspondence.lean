import LayoutScript.Tree.Parser

/-!
One induction over all readers of trees, for relations between two readings. The two may
differ in the limit on nesting, and the second may have more fuel. What readers do to a
feed is related step by step; the readers are then related as a whole.
-/

namespace LayoutScript

open Parse

/-- The token that was taken last. -/
def Parse.lastTaken : Parse (Option Token) := do return (← get).previous

/-- What ends a statement that neither a newline nor the end of a block follows. -/
def Parse.endedBy : Option Token → Parse Unit
  | some previous =>
      if previous.kind = .newline || previous.kind = .dedent then return ()
      else unexpected .statementEnd
  | none => unexpected .statementEnd

theorem Parse.block_closed_eq : blockClosed = (do
    return (← lastTaken).any fun token => token.kind == .dedent) := rfl

theorem Parse.span_from_eq (start : Token) : spanFrom start = (do
    return start.span.join ((← lastTaken).getD start).span) := rfl

theorem Parse.statement_end_eq : statementEnd = (do
    let token ← current
    if token.kind = .endOfInput || token.kind = .dedent then return ()
    else if token.kind = .newline then modify Feed.advance
    else endedBy (← lastTaken)) := rfl

/-- A relation between readings that respects all the parts of readers. -/
structure ReaderCorrespondence (lower upper : Nat) (gap : Nat)
    (Related : {α : Type} → Parse α → Parse α → Prop) : Prop where
  pure {α : Type} (value : α) : Related (pure value) (pure value)
  bind {α β : Type} {reader reader' : Parse α} {next next' : α → Parse β}
    (start : Related reader reader') (rest : ∀ value, Related (next value) (next' value)) :
    Related (reader >>= next) (reader' >>= next')
  outOfFuel {α : Type} {reader : Parse α} (same : gap = 0 → reader = outOfFuel) :
    Related outOfFuel reader
  fail {α : Type} (error : ScriptError) : Related (fail error : Parse α) (fail error)
  current : Related current current
  second : Related second second
  lastTaken : Related lastTaken lastTaken
  skipNewlines : Related skipNewlines skipNewlines
  step : Related (modify Feed.advance) (modify Feed.advance)
  enter (depth : Nat) (token : Token) : Related (enter lower depth token) (enter upper depth token)

/-- All readers are related at one amount of fuel. -/
structure ReadersRelated (lower upper : Nat) (gap : Nat)
    (Related : {α : Type} → Parse α → Parse α → Prop) (fuel : Nat) : Prop where
  expression (depth : Nat) :
    Related (expression lower fuel depth) (expression upper (fuel + gap) depth)
  rebinding (depth : Nat) :
    Related (rebinding lower fuel depth) (rebinding upper (fuel + gap) depth)
  conditional (depth : Nat) :
    Related (conditional lower fuel depth) (conditional upper (fuel + gap) depth)
  binary (depth least : Nat) :
    Related (binary lower fuel depth least) (binary upper (fuel + gap) depth least)
  binaryRest (depth least : Nat) (left : Expression) :
    Related (binaryRest lower fuel depth least left)
      (binaryRest upper (fuel + gap) depth least left)
  unary (depth : Nat) : Related (unary lower fuel depth) (unary upper (fuel + gap) depth)
  power (depth : Nat) : Related (power lower fuel depth) (power upper (fuel + gap) depth)
  postfixed (depth : Nat) :
    Related (postfixed lower fuel depth) (postfixed upper (fuel + gap) depth)
  postfixRest (depth : Nat) (subject : Expression) :
    Related (postfixRest lower fuel depth subject) (postfixRest upper (fuel + gap) depth subject)
  callArguments (depth : Nat) :
    Related (callArguments lower fuel depth) (callArguments upper (fuel + gap) depth)
  moreExpressions (depth : Nat) :
    Related (moreExpressions lower fuel depth) (moreExpressions upper (fuel + gap) depth)
  primary (depth : Nat) : Related (primary lower fuel depth) (primary upper (fuel + gap) depth)
  group (depth : Nat) : Related (group lower fuel depth) (group upper (fuel + gap) depth)
  functionLiteral (depth : Nat) :
    Related (functionLiteral lower fuel depth) (functionLiteral upper (fuel + gap) depth)
  block (depth : Nat) : Related (block lower fuel depth) (block upper (fuel + gap) depth)
  blockStatements (depth : Nat) :
    Related (blockStatements lower fuel depth) (blockStatements upper (fuel + gap) depth)
  statement (depth : Nat) :
    Related (statement lower fuel depth) (statement upper (fuel + gap) depth)
  simpleStatement (depth : Nat) (start : Token) :
    Related (simpleStatement lower fuel depth start)
      (simpleStatement upper (fuel + gap) depth start)
  declaration (depth : Nat) :
    Related (declaration lower fuel depth) (declaration upper (fuel + gap) depth)
  conditioned (depth : Nat) (make : Span → Expression → Block → Statement) :
    Related (conditioned lower fuel depth make) (conditioned upper (fuel + gap) depth make)
  definition (depth : Nat) :
    Related (definition lower fuel depth) (definition upper (fuel + gap) depth)
  pattern (depth : Nat) : Related (pattern lower fuel depth) (pattern upper (fuel + gap) depth)
  tuplePattern (depth : Nat) (start : Token) :
    Related (tuplePattern lower fuel depth start) (tuplePattern upper (fuel + gap) depth start)
  morePatterns (depth : Nat) :
    Related (morePatterns lower fuel depth) (morePatterns upper (fuel + gap) depth)

namespace ReaderCorrespondence

variable {lower upper gap fuel : Nat} {Related : {α : Type} → Parse α → Parse α → Prop}

/-- Both readings take the same branch. -/
theorem ite {α : Type} {condition : Prop} [Decidable condition] {yes yes' no no' : Parse α}
    (whenTrue : condition → Related yes yes') (whenFalse : ¬condition → Related no no') :
    Related (if condition then yes else no) (if condition then yes' else no') := by
  by_cases holds : condition
  · rw [if_pos holds, if_pos holds]
    exact whenTrue holds
  · rw [if_neg holds, if_neg holds]
    exact whenFalse holds

theorem ofExcept (rules : ReaderCorrespondence lower upper gap Related) {α : Type}
    (result : Except ScriptError α) : Related (ofExcept result) (ofExcept result) := by
  cases result with
  | ok value => exact rules.pure value
  | error error => exact rules.fail error

theorem blockClosed (rules : ReaderCorrespondence lower upper gap Related) :
    Related blockClosed blockClosed := by
  rw [block_closed_eq]
  apply rules.bind rules.lastTaken
  intro previous
  exact rules.pure _

theorem advance (rules : ReaderCorrespondence lower upper gap Related) :
    Related advance advance := by
  apply rules.bind rules.current
  intro token
  apply rules.bind rules.step
  intro _
  exact rules.pure token

theorem check (rules : ReaderCorrespondence lower upper gap Related) (kind : TokenClass) :
    Related (check kind) (check kind) := by
  apply rules.bind rules.current
  intro token
  exact rules.pure _

theorem accept (rules : ReaderCorrespondence lower upper gap Related) (kind : TokenClass) :
    Related (accept kind) (accept kind) := by
  apply rules.bind rules.current
  intro token
  apply ite
  · intro _
    apply rules.bind rules.advance
    intro taken
    exact rules.pure _
  · intro _
    exact rules.pure _

theorem acceptOpen (rules : ReaderCorrespondence lower upper gap Related) (kind : TokenClass) :
    Related (acceptOpen kind) (acceptOpen kind) := by
  apply rules.bind rules.blockClosed
  intro closed
  apply ite
  · intro _
    exact rules.pure _
  · intro _
    exact rules.accept kind

theorem unexpected (rules : ReaderCorrespondence lower upper gap Related) {α : Type}
    (expected : Expectation) :
    Related (unexpected expected : Parse α) (unexpected expected) := by
  apply rules.bind rules.current
  intro token
  apply ite
  · intro _
    exact rules.fail _
  · intro _
    exact rules.fail _

theorem consume (rules : ReaderCorrespondence lower upper gap Related) (kind : TokenClass)
    (expected : Expectation) : Related (consume kind expected) (consume kind expected) := by
  apply rules.bind rules.current
  intro token
  apply ite
  · intro _
    exact rules.advance
  · intro _
    exact rules.unexpected expected

theorem spanFrom (rules : ReaderCorrespondence lower upper gap Related) (start : Token) :
    Related (spanFrom start) (spanFrom start) := by
  rw [span_from_eq]
  apply rules.bind rules.lastTaken
  intro previous
  exact rules.pure _

/-- A tree that is made once its range is known. -/
theorem spanned (rules : ReaderCorrespondence lower upper gap Related) {α : Type} (start : Token)
    (make : Span → α) :
    Related (Parse.spanFrom start >>= fun span => Pure.pure (make span))
      (Parse.spanFrom start >>= fun span => Pure.pure (make span)) :=
  rules.bind (rules.spanFrom start) fun span => rules.pure (make span)

theorem closing (rules : ReaderCorrespondence lower upper gap Related) {α : Type} (value : α) :
    Related (Parse.consume .closeParen .closeParen >>= fun _ => Pure.pure value)
      (Parse.consume .closeParen .closeParen >>= fun _ => Pure.pure value) :=
  rules.bind (rules.consume _ _) fun _ => rules.pure value

theorem endedBy (rules : ReaderCorrespondence lower upper gap Related) (previous : Option Token) :
    Related (endedBy previous) (endedBy previous) := by
  cases previous with
  | none => exact rules.unexpected _
  | some token =>
      apply ite
      · intro _
        exact rules.pure _
      · intro _
        exact rules.unexpected _

theorem statementEnd (rules : ReaderCorrespondence lower upper gap Related) :
    Related statementEnd statementEnd := by
  rw [statement_end_eq]
  apply rules.bind rules.current
  intro token
  apply ite
  · intro _
    exact rules.pure _
  · intro _
    apply ite
    · intro _
      exact rules.step
    · intro _
      exact rules.bind rules.lastTaken rules.endedBy

/-- A statement that is made at its end. -/
theorem ended (rules : ReaderCorrespondence lower upper gap Related) (tree : Statement) :
    Related (Parse.statementEnd >>= fun _ => Pure.pure tree)
      (Parse.statementEnd >>= fun _ => Pure.pure tree) :=
  rules.bind rules.statementEnd fun _ => rules.pure tree

theorem parameterNames (rules : ReaderCorrespondence lower upper gap Related) (fuel : Nat)
    (names : List String) :
    Related (parameterNames fuel names) (parameterNames (fuel + gap) names) := by
  induction fuel generalizing names with
  | zero =>
      rw [Parse.parameterNames]
      apply rules.outOfFuel
      rintro rfl
      rw [Parse.parameterNames]
  | succ fuel induction =>
      rw [Nat.add_right_comm, Parse.parameterNames, Parse.parameterNames]
      apply rules.bind (rules.consume _ _)
      intro token
      cases token.name? with
      | none => exact rules.unexpected _
      | some name =>
          apply ite
          · intro _
            exact rules.fail _
          · intro _
            apply rules.bind (rules.accept _)
            intro comma
            apply ite
            · intro _
              exact rules.pure _
            · intro _
              apply rules.bind (rules.check _)
              intro closed
              apply ite
              · intro _
                exact rules.pure _
              · intro _
                exact induction _

theorem parameters (rules : ReaderCorrespondence lower upper gap Related) (fuel : Nat) :
    Related (parameters fuel) (parameters (fuel + gap)) := by
  apply rules.bind (rules.consume _ _)
  intro _
  apply rules.bind (rules.check _)
  intro empty
  apply ite
  · intro _
    exact rules.bind (rules.pure _) rules.closing
  · intro _
    exact rules.bind (rules.parameterNames fuel []) rules.closing

theorem pattern_step (rules : ReaderCorrespondence lower upper gap Related)
    (smaller : ReadersRelated lower upper gap Related fuel)
    (depth : Nat) :
    Related (Parse.pattern lower (fuel + 1) depth)
      (Parse.pattern upper (fuel + gap + 1) depth) := by
  rw [Parse.pattern, Parse.pattern]
  apply rules.bind rules.current
  intro token
  cases token.name? with
  | some name =>
      apply rules.bind rules.advance
      intro _
      exact rules.pure _
  | none =>
      apply ite
      · intro _
        apply rules.bind rules.advance
        intro _
        apply rules.bind (rules.enter depth token)
        intro _
        exact smaller.tuplePattern (depth + 1) token
      · intro _
        exact rules.unexpected _

theorem tuple_pattern_step (rules : ReaderCorrespondence lower upper gap Related)
    (smaller : ReadersRelated lower upper gap Related fuel)
    (depth : Nat) (start : Token) :
    Related (Parse.tuplePattern lower (fuel + 1) depth start)
      (Parse.tuplePattern upper (fuel + gap + 1) depth start) := by
  rw [Parse.tuplePattern, Parse.tuplePattern]
  apply rules.bind (rules.accept _)
  intro closed
  apply ite
  · intro _
    exact rules.spanned start _
  · intro _
    apply rules.bind (smaller.pattern depth)
    intro target
    apply rules.bind (rules.accept _)
    intro grouped
    apply ite
    · intro _
      exact rules.pure _
    · intro _
      apply rules.bind (smaller.morePatterns depth)
      intro others
      apply rules.bind (rules.consume _ _)
      intro _
      exact rules.spanned start _

theorem more_patterns_step (rules : ReaderCorrespondence lower upper gap Related)
    (smaller : ReadersRelated lower upper gap Related fuel)
    (depth : Nat) :
    Related (Parse.morePatterns lower (fuel + 1) depth)
      (Parse.morePatterns upper (fuel + gap + 1) depth) := by
  rw [Parse.morePatterns, Parse.morePatterns]
  apply rules.bind (rules.accept _)
  intro comma
  apply ite
  · intro _
    exact rules.pure _
  · intro _
    apply rules.bind (rules.check _)
    intro closed
    apply ite
    · intro _
      exact rules.pure _
    · intro _
      apply rules.bind (smaller.pattern depth)
      intro one
      apply rules.bind (smaller.morePatterns depth)
      intro others
      exact rules.pure _

theorem expression_step (rules : ReaderCorrespondence lower upper gap Related)
    (smaller : ReadersRelated lower upper gap Related fuel)
    (depth : Nat) :
    Related (Parse.expression lower (fuel + 1) depth)
      (Parse.expression upper (fuel + gap + 1) depth) := by
  rw [Parse.expression, Parse.expression]
  apply rules.bind rules.current
  intro token
  apply rules.bind (rules.enter depth token)
  intro _
  exact smaller.rebinding (depth + 1)

theorem rebinding_step (rules : ReaderCorrespondence lower upper gap Related)
    (smaller : ReadersRelated lower upper gap Related fuel)
    (depth : Nat) :
    Related (Parse.rebinding lower (fuel + 1) depth)
      (Parse.rebinding upper (fuel + gap + 1) depth) := by
  rw [Parse.rebinding, Parse.rebinding]
  apply rules.bind (smaller.conditional depth)
  intro target
  apply rules.bind (rules.acceptOpen _)
  intro walrus
  apply ite
  · intro _
    exact rules.pure _
  · intro _
    cases target with
    | identifier span name =>
        apply rules.bind (smaller.expression depth)
        intro value
        exact rules.pure _
    | _ => exact rules.fail _

theorem conditional_step (rules : ReaderCorrespondence lower upper gap Related)
    (smaller : ReadersRelated lower upper gap Related fuel)
    (depth : Nat) :
    Related (Parse.conditional lower (fuel + 1) depth)
      (Parse.conditional upper (fuel + gap + 1) depth) := by
  rw [Parse.conditional, Parse.conditional]
  apply rules.bind (smaller.binary depth 0)
  intro condition
  apply rules.bind (rules.acceptOpen _)
  intro question
  apply ite
  · intro _
    exact rules.pure _
  · intro _
    apply rules.bind (smaller.expression depth)
    intro whenTrue
    apply rules.bind (rules.consume _ _)
    intro _
    apply rules.bind (smaller.expression depth)
    intro whenFalse
    exact rules.pure _

theorem binary_step (rules : ReaderCorrespondence lower upper gap Related)
    (smaller : ReadersRelated lower upper gap Related fuel)
    (depth least : Nat) :
    Related (Parse.binary lower (fuel + 1) depth least)
      (Parse.binary upper (fuel + gap + 1) depth least) := by
  rw [Parse.binary, Parse.binary]
  apply rules.bind (smaller.unary depth)
  intro left
  exact smaller.binaryRest depth least left

theorem binary_rest_step (rules : ReaderCorrespondence lower upper gap Related)
    (smaller : ReadersRelated lower upper gap Related fuel)
    (depth least : Nat) (left : Expression) :
    Related (Parse.binaryRest lower (fuel + 1) depth least left)
      (Parse.binaryRest upper (fuel + gap + 1) depth least left) := by
  rw [Parse.binaryRest, Parse.binaryRest]
  apply rules.bind rules.current
  intro token
  cases binary? token with
  | none => exact rules.pure _
  | some found =>
      apply rules.bind rules.blockClosed
      intro closed
      apply ite
      · intro _
        exact rules.pure _
      · intro _
        apply rules.bind rules.advance
        intro _
        apply rules.bind (smaller.binary depth (found.2 + 1))
        intro right
        exact smaller.binaryRest depth least _

theorem unary_step (rules : ReaderCorrespondence lower upper gap Related)
    (smaller : ReadersRelated lower upper gap Related fuel)
    (depth : Nat) :
    Related (Parse.unary lower (fuel + 1) depth) (Parse.unary upper (fuel + gap + 1) depth) := by
  rw [Parse.unary, Parse.unary]
  apply rules.bind rules.current
  intro token
  cases UnaryOperator.ofTokenClass? token.kind with
  | none => exact smaller.power depth
  | some operator =>
      apply rules.bind rules.advance
      intro _
      apply rules.bind (rules.enter depth token)
      intro _
      apply rules.bind (smaller.unary (depth + 1))
      intro operand
      exact rules.pure _

theorem power_step (rules : ReaderCorrespondence lower upper gap Related)
    (smaller : ReadersRelated lower upper gap Related fuel)
    (depth : Nat) :
    Related (Parse.power lower (fuel + 1) depth) (Parse.power upper (fuel + gap + 1) depth) := by
  rw [Parse.power, Parse.power]
  apply rules.bind (smaller.postfixed depth)
  intro base
  apply rules.bind (rules.acceptOpen _)
  intro star
  cases star with
  | none => exact rules.pure _
  | some token =>
      apply rules.bind (rules.enter depth token)
      intro _
      apply rules.bind (smaller.unary (depth + 1))
      intro exponent
      exact rules.pure _

theorem postfixed_step (rules : ReaderCorrespondence lower upper gap Related)
    (smaller : ReadersRelated lower upper gap Related fuel)
    (depth : Nat) :
    Related (Parse.postfixed lower (fuel + 1) depth)
      (Parse.postfixed upper (fuel + gap + 1) depth) := by
  rw [Parse.postfixed, Parse.postfixed]
  apply rules.bind (smaller.primary depth)
  intro subject
  exact smaller.postfixRest depth subject

theorem postfix_rest_step (rules : ReaderCorrespondence lower upper gap Related)
    (smaller : ReadersRelated lower upper gap Related fuel)
    (depth : Nat) (subject : Expression) :
    Related (Parse.postfixRest lower (fuel + 1) depth subject)
      (Parse.postfixRest upper (fuel + gap + 1) depth subject) := by
  rw [Parse.postfixRest, Parse.postfixRest]
  apply rules.bind rules.blockClosed
  intro closed
  apply ite
  · intro _
    exact rules.pure _
  · intro _
    apply rules.bind rules.current
    intro token
    apply ite
    · intro _
      apply rules.bind (smaller.callArguments depth)
      intro arguments
      apply rules.bind (rules.spanFrom token)
      intro span
      exact smaller.postfixRest depth _
    · intro _
      apply ite
      · intro _
        apply rules.bind rules.advance
        intro _
        apply rules.bind (rules.consume _ _)
        intro indexToken
        cases indexToken.index? with
        | some index => exact smaller.postfixRest depth _
        | none => exact rules.unexpected _
      · intro _
        exact rules.pure _

theorem call_arguments_step (rules : ReaderCorrespondence lower upper gap Related)
    (smaller : ReadersRelated lower upper gap Related fuel)
    (depth : Nat) :
    Related (Parse.callArguments lower (fuel + 1) depth)
      (Parse.callArguments upper (fuel + gap + 1) depth) := by
  rw [Parse.callArguments, Parse.callArguments]
  apply rules.bind (rules.consume _ _)
  intro _
  apply rules.bind (rules.check _)
  intro empty
  apply ite
  · intro _
    exact rules.bind (rules.pure _) rules.closing
  · intro _
    apply rules.bind (smaller.expression depth)
    intro one
    apply rules.bind (smaller.moreExpressions depth)
    intro others
    exact rules.bind (rules.pure _) rules.closing

theorem more_expressions_step (rules : ReaderCorrespondence lower upper gap Related)
    (smaller : ReadersRelated lower upper gap Related fuel)
    (depth : Nat) :
    Related (Parse.moreExpressions lower (fuel + 1) depth)
      (Parse.moreExpressions upper (fuel + gap + 1) depth) := by
  rw [Parse.moreExpressions, Parse.moreExpressions]
  apply rules.bind (rules.accept _)
  intro comma
  apply ite
  · intro _
    exact rules.pure _
  · intro _
    apply rules.bind (rules.check _)
    intro closed
    apply ite
    · intro _
      exact rules.pure _
    · intro _
      apply rules.bind (smaller.expression depth)
      intro one
      apply rules.bind (smaller.moreExpressions depth)
      intro others
      exact rules.pure _

theorem primary_step (rules : ReaderCorrespondence lower upper gap Related)
    (smaller : ReadersRelated lower upper gap Related fuel)
    (depth : Nat) :
    Related (Parse.primary lower (fuel + 1) depth)
      (Parse.primary upper (fuel + gap + 1) depth) := by
  rw [Parse.primary, Parse.primary]
  apply rules.bind rules.current
  intro token
  cases token.literal? with
  | some value =>
      apply rules.bind rules.advance
      intro _
      exact rules.pure _
  | none =>
      cases token.name? with
      | some name =>
          apply rules.bind rules.advance
          intro _
          exact rules.pure _
      | none =>
          apply ite
          · intro _
            exact smaller.group depth
          · intro _
            apply ite
            · intro _
              exact smaller.functionLiteral depth
            · intro _
              exact rules.unexpected _

theorem group_step (rules : ReaderCorrespondence lower upper gap Related)
    (smaller : ReadersRelated lower upper gap Related fuel)
    (depth : Nat) :
    Related (Parse.group lower (fuel + 1) depth) (Parse.group upper (fuel + gap + 1) depth) := by
  rw [Parse.group, Parse.group]
  apply rules.bind rules.advance
  intro start
  apply rules.bind (rules.accept _)
  intro closed
  apply ite
  · intro _
    exact rules.spanned start _
  · intro _
    apply rules.bind (smaller.expression depth)
    intro one
    apply rules.bind (rules.accept _)
    intro grouped
    apply ite
    · intro _
      exact rules.pure _
    · intro _
      apply rules.bind (smaller.moreExpressions depth)
      intro others
      apply rules.bind (rules.consume _ _)
      intro _
      exact rules.spanned start _

theorem function_literal_step (rules : ReaderCorrespondence lower upper gap Related)
    (smaller : ReadersRelated lower upper gap Related fuel)
    (depth : Nat) :
    Related (Parse.functionLiteral lower (fuel + 1) depth)
      (Parse.functionLiteral upper (fuel + gap + 1) depth) := by
  rw [Parse.functionLiteral, Parse.functionLiteral]
  apply rules.bind rules.advance
  intro start
  apply rules.bind (rules.check _)
  intro named
  apply ite
  · intro _
    exact rules.unexpected _
  · intro _
    apply rules.bind (rules.parameters fuel)
    intro names
    apply rules.bind (rules.consume _ _)
    intro _
    apply rules.bind (rules.check _)
    intro indented
    apply ite
    · intro _
      exact rules.bind (smaller.block depth) fun body => rules.spanned start _
    · intro _
      apply rules.bind (smaller.expression depth)
      intro value
      exact rules.bind (rules.pure _) fun body => rules.spanned start _

theorem block_step (rules : ReaderCorrespondence lower upper gap Related)
    (smaller : ReadersRelated lower upper gap Related fuel)
    (depth : Nat) :
    Related (Parse.block lower (fuel + 1) depth) (Parse.block upper (fuel + gap + 1) depth) := by
  rw [Parse.block, Parse.block]
  apply rules.bind rules.current
  intro start
  apply rules.bind (rules.enter depth start)
  intro _
  apply rules.bind (rules.accept _)
  intro indented
  apply ite
  · intro _
    apply rules.bind rules.skipNewlines
    intro _
    apply rules.bind (rules.consume _ _)
    intro _
    apply rules.bind (smaller.blockStatements (depth + 1))
    intro statements
    apply rules.bind (rules.consume _ _)
    intro _
    exact rules.bind (rules.pure _) fun _ => rules.spanned start _
  · intro _
    apply rules.bind (smaller.statement (depth + 1))
    intro only
    exact rules.bind (rules.pure _) fun _ => rules.spanned start _

theorem block_statements_step (rules : ReaderCorrespondence lower upper gap Related)
    (smaller : ReadersRelated lower upper gap Related fuel)
    (depth : Nat) :
    Related (Parse.blockStatements lower (fuel + 1) depth)
      (Parse.blockStatements upper (fuel + gap + 1) depth) := by
  rw [Parse.blockStatements, Parse.blockStatements]
  apply rules.bind rules.current
  intro token
  apply ite
  · intro _
    exact rules.pure _
  · intro _
    apply rules.bind (smaller.statement depth)
    intro one
    apply rules.bind rules.skipNewlines
    intro _
    apply rules.bind (smaller.blockStatements depth)
    intro others
    exact rules.pure _

theorem statement_step (rules : ReaderCorrespondence lower upper gap Related)
    (smaller : ReadersRelated lower upper gap Related fuel)
    (depth : Nat) :
    Related (Parse.statement lower (fuel + 1) depth)
      (Parse.statement upper (fuel + gap + 1) depth) := by
  rw [Parse.statement, Parse.statement]
  apply rules.bind rules.skipNewlines
  intro _
  apply rules.bind rules.current
  intro token
  cases token.kind with
  | letWord => exact smaller.declaration depth
  | whileWord => exact smaller.conditioned depth _
  | ifWord => exact smaller.conditioned depth _
  | fnWord =>
      apply rules.bind rules.second
      intro following
      apply ite
      · intro _
        exact smaller.definition depth
      · intro _
        exact smaller.simpleStatement depth token
  | _ => exact smaller.simpleStatement depth token

theorem simple_statement_step (rules : ReaderCorrespondence lower upper gap Related)
    (smaller : ReadersRelated lower upper gap Related fuel)
    (depth : Nat) (start : Token) :
    Related (Parse.simpleStatement lower (fuel + 1) depth start)
      (Parse.simpleStatement upper (fuel + gap + 1) depth start) := by
  rw [Parse.simpleStatement, Parse.simpleStatement]
  apply rules.bind (smaller.expression depth)
  intro subject
  apply rules.bind (rules.acceptOpen _)
  intro assigned
  apply ite
  · intro _
    apply rules.bind (rules.ofExcept _)
    intro target
    apply rules.bind (smaller.expression depth)
    intro value
    exact rules.ended _
  · intro _
    apply rules.bind (rules.acceptOpen _)
    intro closed
    apply ite
    · intro _
      exact rules.bind (rules.spanFrom start) fun span => rules.ended _
    · intro _
      exact rules.bind (rules.pure _) fun span => rules.ended _

theorem declaration_step (rules : ReaderCorrespondence lower upper gap Related)
    (smaller : ReadersRelated lower upper gap Related fuel)
    (depth : Nat) :
    Related (Parse.declaration lower (fuel + 1) depth)
      (Parse.declaration upper (fuel + gap + 1) depth) := by
  rw [Parse.declaration, Parse.declaration]
  apply rules.bind rules.advance
  intro start
  apply rules.bind (smaller.pattern depth)
  intro target
  apply rules.bind (rules.consume _ _)
  intro _
  apply rules.bind (smaller.expression depth)
  intro value
  apply rules.bind (rules.spanFrom start)
  intro span
  exact rules.ended _

theorem conditioned_step (rules : ReaderCorrespondence lower upper gap Related)
    (smaller : ReadersRelated lower upper gap Related fuel)
    (depth : Nat) (make : Span → Expression → Block → Statement) :
    Related (Parse.conditioned lower (fuel + 1) depth make)
      (Parse.conditioned upper (fuel + gap + 1) depth make) := by
  rw [Parse.conditioned, Parse.conditioned]
  apply rules.bind rules.advance
  intro start
  apply rules.bind (smaller.expression depth)
  intro condition
  apply rules.bind (rules.consume _ _)
  intro _
  apply rules.bind (smaller.block depth)
  intro body
  exact rules.spanned start _

theorem definition_step (rules : ReaderCorrespondence lower upper gap Related)
    (smaller : ReadersRelated lower upper gap Related fuel)
    (depth : Nat) :
    Related (Parse.definition lower (fuel + 1) depth)
      (Parse.definition upper (fuel + gap + 1) depth) := by
  rw [Parse.definition, Parse.definition]
  apply rules.bind rules.advance
  intro start
  apply rules.bind (rules.consume _ _)
  intro nameToken
  cases nameToken.name? with
  | none => exact rules.unexpected _
  | some name =>
      apply rules.bind (rules.parameters fuel)
      intro names
      apply rules.bind (rules.consume _ _)
      intro _
      apply rules.bind (smaller.block depth)
      intro body
      exact rules.spanned start _

theorem related_without_fuel (rules : ReaderCorrespondence lower upper gap Related) :
    ReadersRelated lower upper gap Related 0 := by
  constructor <;> intros
  case expression =>
      rw [Parse.expression]
      exact rules.outOfFuel (by rintro rfl; rw [Parse.expression])
  case rebinding =>
      rw [Parse.rebinding]
      exact rules.outOfFuel (by rintro rfl; rw [Parse.rebinding])
  case conditional =>
      rw [Parse.conditional]
      exact rules.outOfFuel (by rintro rfl; rw [Parse.conditional])
  case binary =>
      rw [Parse.binary]
      exact rules.outOfFuel (by rintro rfl; rw [Parse.binary])
  case binaryRest =>
      rw [Parse.binaryRest]
      exact rules.outOfFuel (by rintro rfl; rw [Parse.binaryRest])
  case unary =>
      rw [Parse.unary]
      exact rules.outOfFuel (by rintro rfl; rw [Parse.unary])
  case power =>
      rw [Parse.power]
      exact rules.outOfFuel (by rintro rfl; rw [Parse.power])
  case postfixed =>
      rw [Parse.postfixed]
      exact rules.outOfFuel (by rintro rfl; rw [Parse.postfixed])
  case postfixRest =>
      rw [Parse.postfixRest]
      exact rules.outOfFuel (by rintro rfl; rw [Parse.postfixRest])
  case callArguments =>
      rw [Parse.callArguments]
      exact rules.outOfFuel (by rintro rfl; rw [Parse.callArguments])
  case moreExpressions =>
      rw [Parse.moreExpressions]
      exact rules.outOfFuel (by rintro rfl; rw [Parse.moreExpressions])
  case primary =>
      rw [Parse.primary]
      exact rules.outOfFuel (by rintro rfl; rw [Parse.primary])
  case group =>
      rw [Parse.group]
      exact rules.outOfFuel (by rintro rfl; rw [Parse.group])
  case functionLiteral =>
      rw [Parse.functionLiteral]
      exact rules.outOfFuel (by rintro rfl; rw [Parse.functionLiteral])
  case block =>
      rw [Parse.block]
      exact rules.outOfFuel (by rintro rfl; rw [Parse.block])
  case blockStatements =>
      rw [Parse.blockStatements]
      exact rules.outOfFuel (by rintro rfl; rw [Parse.blockStatements])
  case statement =>
      rw [Parse.statement]
      exact rules.outOfFuel (by rintro rfl; rw [Parse.statement])
  case simpleStatement =>
      rw [Parse.simpleStatement]
      exact rules.outOfFuel (by rintro rfl; rw [Parse.simpleStatement])
  case declaration =>
      rw [Parse.declaration]
      exact rules.outOfFuel (by rintro rfl; rw [Parse.declaration])
  case conditioned =>
      rw [Parse.conditioned]
      exact rules.outOfFuel (by rintro rfl; rw [Parse.conditioned])
  case definition =>
      rw [Parse.definition]
      exact rules.outOfFuel (by rintro rfl; rw [Parse.definition])
  case pattern =>
      rw [Parse.pattern]
      exact rules.outOfFuel (by rintro rfl; rw [Parse.pattern])
  case tuplePattern =>
      rw [Parse.tuplePattern]
      exact rules.outOfFuel (by rintro rfl; rw [Parse.tuplePattern])
  case morePatterns =>
      rw [Parse.morePatterns]
      exact rules.outOfFuel (by rintro rfl; rw [Parse.morePatterns])

theorem related_at_every_fuel (rules : ReaderCorrespondence lower upper gap Related) (fuel : Nat) :
    ReadersRelated lower upper gap Related fuel := by
  induction fuel with
  | zero => exact rules.related_without_fuel
  | succ fuel smaller =>
      have shifted : fuel + 1 + gap = fuel + gap + 1 := Nat.add_right_comm fuel 1 gap
      constructor <;> rw [shifted]
      · exact rules.expression_step smaller
      · exact rules.rebinding_step smaller
      · exact rules.conditional_step smaller
      · exact rules.binary_step smaller
      · exact rules.binary_rest_step smaller
      · exact rules.unary_step smaller
      · exact rules.power_step smaller
      · exact rules.postfixed_step smaller
      · exact rules.postfix_rest_step smaller
      · exact rules.call_arguments_step smaller
      · exact rules.more_expressions_step smaller
      · exact rules.primary_step smaller
      · exact rules.group_step smaller
      · exact rules.function_literal_step smaller
      · exact rules.block_step smaller
      · exact rules.block_statements_step smaller
      · exact rules.statement_step smaller
      · exact rules.simple_statement_step smaller
      · exact rules.declaration_step smaller
      · exact rules.conditioned_step smaller
      · exact rules.definition_step smaller
      · exact rules.pattern_step smaller
      · exact rules.tuple_pattern_step smaller
      · exact rules.more_patterns_step smaller

theorem programStatements (rules : ReaderCorrespondence lower upper gap Related) (fuel : Nat) :
    Related (programStatements lower fuel) (programStatements upper (fuel + gap)) := by
  induction fuel with
  | zero =>
      rw [Parse.programStatements]
      apply rules.outOfFuel
      rintro rfl
      rw [Parse.programStatements]
  | succ fuel induction =>
      rw [Nat.add_right_comm, Parse.programStatements, Parse.programStatements]
      apply rules.bind rules.current
      intro token
      apply ite
      · intro _
        exact rules.pure _
      · intro _
        apply rules.bind ((rules.related_at_every_fuel fuel).statement 0)
        intro one
        apply rules.bind rules.skipNewlines
        intro _
        apply rules.bind induction
        intro others
        exact rules.pure _

theorem program (rules : ReaderCorrespondence lower upper gap Related) (fuel : Nat) :
    Related (program lower fuel) (program upper (fuel + gap)) := by
  apply rules.bind rules.current
  intro start
  apply rules.bind rules.skipNewlines
  intro _
  apply rules.bind (rules.programStatements fuel)
  intro statements
  exact rules.spanned start _

end ReaderCorrespondence

end LayoutScript
