import LayoutScript.Proofs.Tree.Parallel

/-!
Every reader carries over to tokens in front of more. The readers call each other, so all of them
are treated at once, by induction on the fuel: there is one lemma for each reader, which takes the
others to carry over at a smaller amount of fuel.
-/

namespace LayoutScript

open Parse

/-- The same expression was read, and the line goes on or a block has ended. -/
def SameExpression (tree tree' : Expression) (after : Feed) : Prop := tree.Like tree' ∧ after.Inside

def SameExpressions (trees trees' : List Expression) (_ : Feed) : Prop :=
  Expression.unplacedAll trees' = Expression.unplacedAll trees

def SamePattern (tree tree' : Pattern) (after : Feed) : Prop :=
  tree'.unplaced = tree.unplaced ∧ ¬ after.Spent

def SamePatterns (trees trees' : List Pattern) (_ : Feed) : Prop :=
  Pattern.unplacedAll trees' = Pattern.unplacedAll trees

def SameStatement (tree tree' : Statement) (_ : Feed) : Prop := tree'.unplaced = tree.unplaced

def SameStatements (trees trees' : List Statement) (_ : Feed) : Prop :=
  Statement.unplacedAll trees' = Statement.unplacedAll trees

/-- All readers agree at one amount of fuel. Lists end where the reader of what they are part of
goes on. -/
structure ReadersCarry (limit gap : Nat) (more : List Token) (fuel : Nat) : Prop where
  expression (depth : Nat) {feed other : Feed} (beside : Beside more feed other) :
    Carries more (fun _ => True) SameExpression feed other (expression limit fuel depth)
      (expression limit (fuel + gap) depth)
  rebinding (depth : Nat) {feed other : Feed} (beside : Beside more feed other) :
    Carries more (fun _ => True) SameExpression feed other (rebinding limit fuel depth)
      (rebinding limit (fuel + gap) depth)
  conditional (depth : Nat) {feed other : Feed} (beside : Beside more feed other) :
    Carries more (fun _ => True) SameExpression feed other (conditional limit fuel depth)
      (conditional limit (fuel + gap) depth)
  binary (depth least : Nat) {feed other : Feed} (beside : Beside more feed other) :
    Carries more (fun _ => True) SameExpression feed other (binary limit fuel depth least)
      (binary limit (fuel + gap) depth least)
  binaryRest (depth least : Nat) {left left' : Expression} {feed other : Feed}
    (same : SameExpression left left' feed) (mirrors : Mirrors more feed other) :
    Carries more (fun _ => True) SameExpression feed other (binaryRest limit fuel depth least left)
      (binaryRest limit (fuel + gap) depth least left')
  unary (depth : Nat) {feed other : Feed} (beside : Beside more feed other) :
    Carries more (fun _ => True) SameExpression feed other (unary limit fuel depth)
      (unary limit (fuel + gap) depth)
  power (depth : Nat) {feed other : Feed} (beside : Beside more feed other) :
    Carries more (fun _ => True) SameExpression feed other (power limit fuel depth)
      (power limit (fuel + gap) depth)
  postfixed (depth : Nat) {feed other : Feed} (beside : Beside more feed other) :
    Carries more (fun _ => True) SameExpression feed other (postfixed limit fuel depth)
      (postfixed limit (fuel + gap) depth)
  postfixRest (depth : Nat) {subject subject' : Expression} {feed other : Feed}
    (same : SameExpression subject subject' feed) (mirrors : Mirrors more feed other) :
    Carries more (fun _ => True) SameExpression feed other (postfixRest limit fuel depth subject)
      (postfixRest limit (fuel + gap) depth subject')
  callArguments (depth : Nat) {feed other : Feed} (beside : Beside more feed other) :
    Carries more (fun _ => True) (fun trees trees' after => SameExpressions trees trees' after ∧
      after.Inside) feed other (callArguments limit fuel depth)
      (callArguments limit (fuel + gap) depth)
  moreExpressions (depth : Nat) {feed other : Feed} (mirrors : Mirrors more feed other) :
    Carries more (fun after => ¬ after.Spent) SameExpressions feed other
      (moreExpressions limit fuel depth) (moreExpressions limit (fuel + gap) depth)
  primary (depth : Nat) {feed other : Feed} (beside : Beside more feed other) :
    Carries more (fun _ => True) SameExpression feed other (primary limit fuel depth)
      (primary limit (fuel + gap) depth)
  group (depth : Nat) {feed other after : Feed} {start : Token} (beside : Beside more feed other)
    (opens : Takes feed start after) (isOpen : start.kind = .openParen) :
    Carries more (fun _ => True) SameExpression feed other (group limit fuel depth)
      (group limit (fuel + gap) depth)
  functionLiteral (depth : Nat) {feed other after : Feed} {start : Token}
    (beside : Beside more feed other) (takes : Takes feed start after)
    (isFunction : start.kind = .fnWord) :
    Carries more (fun _ => True) SameExpression feed other (functionLiteral limit fuel depth)
      (functionLiteral limit (fuel + gap) depth)
  block (depth : Nat) {feed other : Feed} (beside : Beside more feed other) :
    Carries more (fun _ => True) (fun tree tree' after => tree'.unplaced = tree.unplaced ∧
      ((∃ token, feed.current = .ok token ∧ token.kind = .newline) → after.Inside)) feed other
      (block limit fuel depth) (block limit (fuel + gap) depth)
  blockStatements (depth : Nat) {feed other : Feed} (mirrors : Mirrors more feed other) :
    Carries more (fun after => ¬ after.Spent) SameStatements feed other
      (blockStatements limit fuel depth) (blockStatements limit (fuel + gap) depth)
  statement (depth : Nat) {feed other : Feed} (beside : Beside more feed other) :
    Carries more (fun _ => True) SameStatement feed other (statement limit fuel depth)
      (statement limit (fuel + gap) depth)
  simpleStatement (depth : Nat) (start start' : Token) {feed other : Feed}
    (beside : Beside more feed other) :
    Carries more (fun _ => True) SameStatement feed other (simpleStatement limit fuel depth start)
      (simpleStatement limit (fuel + gap) depth start')
  declaration (depth : Nat) {feed other after : Feed} {start : Token}
    (beside : Beside more feed other) (takes : Takes feed start after) :
    Carries more (fun _ => True) SameStatement feed other (declaration limit fuel depth)
      (declaration limit (fuel + gap) depth)
  conditioned (depth : Nat) {make : Span → Expression → Block → Statement}
    (makes : ∀ {span span' : Span} {condition condition' : Expression} {body body' : Block},
      condition.Like condition' → body'.unplaced = body.unplaced →
      (make span' condition' body').unplaced = (make span condition body).unplaced)
    {feed other after : Feed} {start : Token} (beside : Beside more feed other)
    (takes : Takes feed start after) :
    Carries more (fun _ => True) SameStatement feed other (conditioned limit fuel depth make)
      (conditioned limit (fuel + gap) depth make)
  definition (depth : Nat) {feed other after : Feed} {start : Token}
    (beside : Beside more feed other) (takes : Takes feed start after) :
    Carries more (fun _ => True) SameStatement feed other (definition limit fuel depth)
      (definition limit (fuel + gap) depth)
  pattern (depth : Nat) {feed other : Feed} (beside : Beside more feed other) :
    Carries more (fun _ => True) SamePattern feed other (pattern limit fuel depth)
      (pattern limit (fuel + gap) depth)
  tuplePattern (depth : Nat) (start start' : Token) {feed other : Feed}
    (mirrors : Mirrors more feed other) (alive : ¬ feed.Spent) :
    Carries more (fun _ => True) SamePattern feed other (tuplePattern limit fuel depth start)
      (tuplePattern limit (fuel + gap) depth start')
  morePatterns (depth : Nat) {feed other : Feed} (mirrors : Mirrors more feed other) :
    Carries more (fun after => ¬ after.Spent) SamePatterns feed other
      (morePatterns limit fuel depth) (morePatterns limit (fuel + gap) depth)

mutual

/-- A target has the form of the expression that was taken as one. -/
theorem Expression.as_expression_to_pattern : ∀ {tree : Expression} {pattern : Pattern},
    tree.toPattern = .ok pattern → tree.unplaced = pattern.asExpression.unplaced
  | .identifier _ _, _, fits => by
      cases fits
      rfl
  | .tuple _ elements, _, fits => by
      rw [Expression.toPattern] at fits
      cases inner : Expression.toPatterns elements with
      | error error =>
          rw [inner] at fits
          cases fits
      | ok patterns =>
          rw [inner] at fits
          cases fits
          simp only [Pattern.asExpression, Expression.unplaced,
            Expression.as_expressions_to_patterns inner]
  | .literal _ _, _, fits | .binary _ _ _ _, _, fits | .unary _ _ _, _, fits
  | .call _ _ _, _, fits | .member _ _ _, _, fits | .conditional _ _ _ _, _, fits
  | .rebind _ _ _, _, fits | .function _ _ _, _, fits => by
      cases fits

theorem Expression.as_expressions_to_patterns : ∀ {trees : List Expression}
    {patterns : List Pattern}, Expression.toPatterns trees = .ok patterns →
      Expression.unplacedAll trees = Expression.unplacedAll (Pattern.asExpressions patterns)
  | [], _, fits => by
      cases fits
      rfl
  | tree :: trees, _, fits => by
      rw [Expression.toPatterns] at fits
      cases first : tree.toPattern with
      | error error =>
          rw [first] at fits
          cases fits
      | ok pattern =>
          cases others : Expression.toPatterns trees with
          | error error =>
              rw [first, others] at fits
              cases fits
          | ok patterns =>
              rw [first, others] at fits
              cases fits
              simp only [Pattern.asExpressions, Expression.unplacedAll,
                Expression.as_expression_to_pattern first,
                Expression.as_expressions_to_patterns others]

end

section Steps

variable {limit gap fuel : Nat} {more : List Token} {feed other : Feed}

theorem carries_parameter_names (names : List String) (beside : Beside more feed other) :
    Carries more (fun after => ¬ after.Spent) (fun names names' _ => names' = names) feed other
      (parameterNames fuel names) (parameterNames (fuel + gap) names) := by
  induction fuel generalizing feed other names with
  | zero =>
      rw [parameterNames]
      exact carries_out_of_fuel
  | succ fuel induction =>
      rw [Nat.add_right_comm, parameterNames, parameterNames]
      apply carries_bind (carries_consume beside (by decide) _)
      intro token token' behind behind' same mirrors
      rw [Token.name_of_same_sign same.1]
      cases token.name? with
      | none => exact carries_unexpected
      | some name =>
          apply carries_ite
          · intro _
            exact carries_fail
          · intro _
            cases mirrors.accept (same.alive mirrors rfl) .comma with
            | none run run' =>
                apply carries_run run run'
                exact carries_pure mirrors rfl
            | some run run' taken mirrors =>
                apply carries_run run run'
                obtain ⟨closed, run, run'⟩ := mirrors.check (taken.alive mirrors rfl) .closeParen
                apply carries_run run run'
                apply carries_ite
                · intro _
                  exact carries_pure mirrors rfl
                · intro _
                  exact induction _ mirrors.toBeside

/-- A value that is made once a parenthesis is closed. -/
theorem carries_closing {α : Type} {value value' : α} {post : α → α → Feed → Prop}
    (mirrors : Mirrors more feed other) (expected : Expectation)
    (holds : ∀ after : Feed, after.Inside → post value value' after) :
    Carries more (fun _ => True) post feed other
      (consume .closeParen expected >>= fun _ => pure value)
      (consume .closeParen expected >>= fun _ => pure value') := by
  apply carries_bind (carries_consume mirrors.toBeside (by decide) _)
  intro _ _ behind _ same mirrors
  exact carries_pure mirrors (holds behind (same.inside (by decide)))

theorem carries_parameters (beside : Beside more feed other) :
    Carries more (fun _ => True) (fun names names' _ => names' = names) feed other
      (parameters fuel) (parameters (fuel + gap)) := by
  apply carries_bind (carries_consume beside (by decide) _)
  intro token token' behind behind' same mirrors
  obtain ⟨closed, run, run'⟩ := mirrors.check (same.alive mirrors rfl) .closeParen
  apply carries_run run run'
  apply carries_ite
  · intro _
    exact carries_closing mirrors _ fun _ _ => rfl
  · intro _
    apply carries_bind_via _ (carries_parameter_names [] mirrors.toBeside)
      fun _ _ _ _ run _ => consume_alive (by decide) run
    intro names names' _ _ same mirrors
    exact carries_closing mirrors _ fun _ _ => same

/-- Readers of anything but lists do not start at the end of input. -/
theorem alive_of_reads {α : Type} {reader : Parse α} {phrase : α → Phrase}
    (reads : Reads feed reader phrase) (single : ∀ value, (phrase value).isList = false)
    {goal : Feed → Prop} (value : α) (after : Feed) (run : reader.run feed = .ok (value, after))
    (_ : goal after) : ¬ feed.Spent := by
  obtain ⟨_, tokens, derives⟩ := reads value after run
  exact fun spent => derives.nonempty (single value) (spent.derives derives).1

/-- Readers of lists that do not end at the end of input do not start there. -/
theorem alive_of_list {α : Type} {reader : Parse α} {phrase : α → Phrase}
    (reads : Reads feed reader phrase) (value : α) (after : Feed)
    (run : reader.run feed = .ok (value, after)) (going : ¬ after.Spent) : ¬ feed.Spent := by
  obtain ⟨_, tokens, derives⟩ := reads value after run
  exact fun spent => going (spent.derives derives).2

namespace ReadersCarry

theorem pattern_step (smaller : ReadersCarry limit gap more fuel) (depth : Nat)
    (beside : Beside more feed other) :
    Carries more (fun _ => True) SamePattern feed other (Parse.pattern limit (fuel + 1) depth)
      (Parse.pattern limit (fuel + gap + 1) depth) := by
  apply carries_given
    (alive_of_reads ((readers_sound limit (fuel + 1)).pattern depth beside.proper) fun _ => rfl)
  intro alive
  obtain ⟨token, after, takes⟩ := beside.has_token alive
  obtain ⟨token', after', takes', same, mirrors⟩ := beside.takes takes
  rw [Parse.pattern, Parse.pattern]
  apply carries_run (run_current takes.current) (run_current takes'.current)
  rw [Token.name_of_same_sign same, Token.kind_of_same_sign same]
  cases named : token.name? with
  | some name =>
      apply carries_run takes.run_advance takes'.run_advance
      refine carries_pure mirrors ⟨rfl, mirrors.alive takes.previous ?_⟩
      rw [Token.name_some named]
      rfl
  | none =>
      apply carries_ite
      · intro isOpen
        apply carries_run takes.run_advance takes'.run_advance
        apply carries_enter
        apply smaller.tuplePattern (depth + 1) token token' mirrors
        apply mirrors.alive takes.previous
        rw [isOpen]
        rfl
      · intro _
        exact carries_unexpected

theorem tuple_pattern_step (smaller : ReadersCarry limit gap more fuel) (depth : Nat)
    (start start' : Token) (mirrors : Mirrors more feed other) (alive : ¬ feed.Spent) :
    Carries more (fun _ => True) SamePattern feed other
      (Parse.tuplePattern limit (fuel + 1) depth start)
      (Parse.tuplePattern limit (fuel + gap + 1) depth start') := by
  rw [Parse.tuplePattern, Parse.tuplePattern]
  cases mirrors.accept alive .closeParen with
  | some run run' taken mirrors =>
      apply carries_run run run'
      apply carries_run (run_span_from start) (run_span_from start')
      exact carries_pure mirrors ⟨rfl, taken.alive mirrors rfl⟩
  | none run run' =>
      apply carries_run run run'
      apply carries_bind (smaller.pattern depth mirrors.toBeside)
      intro target target' behind behind' sameTarget mirrors
      cases mirrors.accept sameTarget.2 .closeParen with
      | some run run' taken mirrors =>
          apply carries_run run run'
          exact carries_pure mirrors ⟨sameTarget.1, taken.alive mirrors rfl⟩
      | none run run' =>
          apply carries_run run run'
          apply carries_bind_via _ (smaller.morePatterns depth mirrors)
            fun _ _ _ _ run _ => consume_alive (by decide) run
          intro others others' _ _ sameOthers mirrors
          apply carries_bind (carries_consume mirrors.toBeside (by decide) _)
          intro _ _ _ _ taken mirrors
          apply carries_run (run_span_from start) (run_span_from start')
          refine carries_pure mirrors ⟨?_, taken.alive mirrors rfl⟩
          simp only [Pattern.unplaced, Pattern.unplacedAll, sameTarget.1]
          rw [sameOthers]

theorem more_patterns_step (smaller : ReadersCarry limit gap more fuel) (depth : Nat)
    (mirrors : Mirrors more feed other) :
    Carries more (fun after => ¬ after.Spent) SamePatterns feed other
      (Parse.morePatterns limit (fuel + 1) depth)
      (Parse.morePatterns limit (fuel + gap + 1) depth) := by
  apply carries_given
    (alive_of_list ((readers_sound limit (fuel + 1)).morePatterns depth mirrors.proper))
  intro alive
  rw [Parse.morePatterns, Parse.morePatterns]
  cases mirrors.accept alive .comma with
  | none run run' =>
      apply carries_run run run'
      exact carries_pure mirrors rfl
  | some run run' taken mirrors =>
      apply carries_run run run'
      obtain ⟨closed, run, run'⟩ := mirrors.check (taken.alive mirrors rfl) .closeParen
      apply carries_run run run'
      apply carries_ite
      · intro _
        exact carries_pure mirrors rfl
      · intro _
        apply carries_bind (smaller.pattern depth mirrors.toBeside)
        intro one one' _ _ sameOne mirrors
        apply carries_bind_via _ (smaller.morePatterns depth mirrors)
        · intro others behind trees after run going
          cases run
          exact going
        · intro others others' _ _ sameOthers mirrors
          refine carries_pure mirrors ?_
          simp only [SamePatterns, Pattern.unplacedAll, sameOne.1]
          rw [sameOthers]

theorem expression_step (smaller : ReadersCarry limit gap more fuel) (depth : Nat)
    (beside : Beside more feed other) :
    Carries more (fun _ => True) SameExpression feed other
      (Parse.expression limit (fuel + 1) depth)
      (Parse.expression limit (fuel + gap + 1) depth) := by
  apply carries_given (alive_of_reads
    ((readers_sound limit (fuel + 1)).expression depth beside.proper) fun _ => rfl)
  intro alive
  obtain ⟨token, after, takes⟩ := beside.has_token alive
  obtain ⟨token', after', takes', _, _⟩ := beside.takes takes
  rw [Parse.expression, Parse.expression]
  apply carries_run (run_current takes.current) (run_current takes'.current)
  apply carries_enter
  exact smaller.rebinding (depth + 1) beside

theorem rebinding_step (smaller : ReadersCarry limit gap more fuel) (depth : Nat)
    (beside : Beside more feed other) :
    Carries more (fun _ => True) SameExpression feed other
      (Parse.rebinding limit (fuel + 1) depth)
      (Parse.rebinding limit (fuel + gap + 1) depth) := by
  rw [Parse.rebinding, Parse.rebinding]
  apply carries_bind (smaller.conditional depth beside)
  intro target target' behind behind' same mirrors
  cases mirrors.accept_open same.2 .walrus with
  | none run run' =>
      apply carries_run run run'
      exact carries_pure mirrors same
  | some run run' taken mirrors =>
      apply carries_run run run'
      simp only [Option.isNone_some, Bool.false_eq_true, if_false]
      cases target with
      | identifier span name =>
          obtain ⟨place, rfl⟩ := Expression.identifier_of_like same.1
          apply carries_bind (smaller.expression depth mirrors.toBeside)
          intro value value' _ _ sameValue mirrors
          refine carries_pure mirrors ⟨?_, sameValue.2⟩
          simp only [Expression.Like, Expression.unplaced, sameValue.1.eq]
      | _ => exact carries_fail

theorem conditional_step (smaller : ReadersCarry limit gap more fuel) (depth : Nat)
    (beside : Beside more feed other) :
    Carries more (fun _ => True) SameExpression feed other
      (Parse.conditional limit (fuel + 1) depth)
      (Parse.conditional limit (fuel + gap + 1) depth) := by
  rw [Parse.conditional, Parse.conditional]
  apply carries_bind (smaller.binary depth 0 beside)
  intro condition condition' behind behind' same mirrors
  cases mirrors.accept_open same.2 .question with
  | none run run' =>
      apply carries_run run run'
      exact carries_pure mirrors same
  | some run run' taken mirrors =>
      apply carries_run run run'
      apply carries_bind (smaller.expression depth mirrors.toBeside)
      intro whenTrue whenTrue' _ _ sameTrue mirrors
      apply carries_bind (carries_consume mirrors.toBeside (by decide) _)
      intro _ _ _ _ _ mirrors
      apply carries_bind (smaller.expression depth mirrors.toBeside)
      intro whenFalse whenFalse' _ _ sameFalse mirrors
      refine carries_pure mirrors ⟨?_, sameFalse.2⟩
      simp only [Expression.Like, Expression.unplaced, same.1.eq, sameTrue.1.eq, sameFalse.1.eq]

theorem binary_step (smaller : ReadersCarry limit gap more fuel) (depth least : Nat)
    (beside : Beside more feed other) :
    Carries more (fun _ => True) SameExpression feed other
      (Parse.binary limit (fuel + 1) depth least)
      (Parse.binary limit (fuel + gap + 1) depth least) := by
  rw [Parse.binary, Parse.binary]
  apply carries_bind (smaller.unary depth beside)
  intro left left' _ _ same mirrors
  exact smaller.binaryRest depth least same mirrors

theorem unary_step (smaller : ReadersCarry limit gap more fuel) (depth : Nat)
    (beside : Beside more feed other) :
    Carries more (fun _ => True) SameExpression feed other (Parse.unary limit (fuel + 1) depth)
      (Parse.unary limit (fuel + gap + 1) depth) := by
  apply carries_given (alive_of_reads
    ((readers_sound limit (fuel + 1)).unary depth beside.proper) fun _ => rfl)
  intro alive
  obtain ⟨token, after, takes⟩ := beside.has_token alive
  obtain ⟨token', after', takes', same, mirrors⟩ := beside.takes takes
  rw [Parse.unary, Parse.unary]
  apply carries_run (run_current takes.current) (run_current takes'.current)
  rw [Token.kind_of_same_sign same]
  cases UnaryOperator.ofTokenClass? token.kind with
  | none => exact smaller.power depth beside
  | some operator =>
      apply carries_run takes.run_advance takes'.run_advance
      apply carries_enter
      apply carries_bind (smaller.unary (depth + 1) mirrors.toBeside)
      intro operand operand' _ _ sameOperand mirrors
      refine carries_pure mirrors ⟨?_, sameOperand.2⟩
      simp only [Expression.Like, Expression.unplaced, sameOperand.1.eq]

theorem power_step (smaller : ReadersCarry limit gap more fuel) (depth : Nat)
    (beside : Beside more feed other) :
    Carries more (fun _ => True) SameExpression feed other (Parse.power limit (fuel + 1) depth)
      (Parse.power limit (fuel + gap + 1) depth) := by
  rw [Parse.power, Parse.power]
  apply carries_bind (smaller.postfixed depth beside)
  intro base base' behind behind' same mirrors
  cases mirrors.accept_open same.2 .doubleStar with
  | none run run' =>
      apply carries_run run run'
      exact carries_pure mirrors same
  | some run run' taken mirrors =>
      apply carries_run run run'
      apply carries_enter
      apply carries_bind (smaller.unary (depth + 1) mirrors.toBeside)
      intro exponent exponent' _ _ sameExponent mirrors
      refine carries_pure mirrors ⟨?_, sameExponent.2⟩
      simp only [Expression.Like, Expression.unplaced, same.1.eq, sameExponent.1.eq]

theorem postfixed_step (smaller : ReadersCarry limit gap more fuel) (depth : Nat)
    (beside : Beside more feed other) :
    Carries more (fun _ => True) SameExpression feed other
      (Parse.postfixed limit (fuel + 1) depth)
      (Parse.postfixed limit (fuel + gap + 1) depth) := by
  rw [Parse.postfixed, Parse.postfixed]
  apply carries_bind (smaller.primary depth beside)
  intro subject subject' _ _ same mirrors
  exact smaller.postfixRest depth same mirrors

theorem binary_rest_step (smaller : ReadersCarry limit gap more fuel) (follows : Follows more)
    (depth least : Nat) {left left' : Expression} (same : SameExpression left left' feed)
    (mirrors : Mirrors more feed other) :
    Carries more (fun _ => True) SameExpression feed other
      (Parse.binaryRest limit (fuel + 1) depth least left)
      (Parse.binaryRest limit (fuel + gap + 1) depth least left') := by
  rw [Parse.binaryRest, Parse.binaryRest]
  by_cases spent : feed.Spent
  · -- An operator may follow, but it does not continue what a body has ended.
    obtain ⟨ending, isCurrent, isEnd⟩ := spent.current
    obtain ⟨first, isCurrent', _⟩ := follows.current (mirrors.rest_at_end spent)
    have closed : other.blockClosed = true := by
      rw [mirrors.same_closed, mirrors.closed_at_end same.2 spent]
    have none : binary? ending = none := by
      rw [binary?, isEnd]
      rfl
    apply carries_run (run_current isCurrent) (run_current isCurrent')
    rw [none]
    cases binary? first with
    | none => exact carries_pure mirrors same
    | some found =>
        intro tree after run _
        cases run
        refine ⟨left', other, ?_, same, mirrors⟩
        dsimp only
        rw [run_bind_ok run_block_closed, closed, Bool.or_true, if_pos rfl]
        rfl
  · obtain ⟨token, after, takes⟩ := mirrors.has_token spent
    obtain ⟨token', after', takes', sameToken, behind⟩ := mirrors.takes takes
    apply carries_run (run_current takes.current) (run_current takes'.current)
    rw [binary_of_same_sign sameToken]
    cases binary? token with
    | none => exact carries_pure mirrors same
    | some found =>
        apply carries_run run_block_closed run_block_closed
        rw [mirrors.same_closed]
        apply carries_ite
        · intro _
          exact carries_pure mirrors same
        · intro _
          apply carries_run takes.run_advance takes'.run_advance
          apply carries_bind (smaller.binary depth (found.2 + 1) behind.toBeside)
          intro right right' _ _ sameRight mirrors
          refine smaller.binaryRest depth least ⟨?_, sameRight.2⟩ mirrors
          simp only [Expression.Like, Expression.unplaced, same.1.eq, sameRight.1.eq]

theorem postfix_rest_step (smaller : ReadersCarry limit gap more fuel) (depth : Nat)
    {subject subject' : Expression} (same : SameExpression subject subject' feed)
    (mirrors : Mirrors more feed other) :
    Carries more (fun _ => True) SameExpression feed other
      (Parse.postfixRest limit (fuel + 1) depth subject)
      (Parse.postfixRest limit (fuel + gap + 1) depth subject') := by
  rw [Parse.postfixRest, Parse.postfixRest]
  apply carries_run run_block_closed run_block_closed
  rw [mirrors.same_closed]
  apply carries_ite
  · intro _
    exact carries_pure mirrors same
  · intro isOpen
    have alive : ¬ feed.Spent := fun spent => isOpen (mirrors.closed_at_end same.2 spent)
    obtain ⟨token, after, takes⟩ := mirrors.has_token alive
    obtain ⟨token', after', takes', sameToken, behind⟩ := mirrors.takes takes
    apply carries_run (run_current takes.current) (run_current takes'.current)
    rw [Token.kind_of_same_sign sameToken]
    apply carries_ite
    · intro _
      apply carries_bind (smaller.callArguments depth mirrors.toBeside)
      intro arguments arguments' _ _ sameArguments mirrors
      apply carries_run (run_span_from token) (run_span_from token')
      refine smaller.postfixRest depth ⟨?_, sameArguments.2⟩ mirrors
      simp only [Expression.Like, Expression.unplaced, same.1.eq]
      rw [sameArguments.1]
    · intro _
      apply carries_ite
      · intro _
        apply carries_run takes.run_advance takes'.run_advance
        apply carries_bind (carries_consume behind.toBeside (by decide) _)
        intro place place' _ _ samePlace mirrors
        rw [Token.index_of_same_sign samePlace.1]
        cases place.index? with
        | none => exact carries_unexpected
        | some index =>
            refine smaller.postfixRest depth ⟨?_, samePlace.inside (by decide)⟩ mirrors
            simp only [Expression.Like, Expression.unplaced, same.1.eq]
      · intro _
        exact carries_pure mirrors same

theorem call_arguments_step (smaller : ReadersCarry limit gap more fuel) (depth : Nat)
    (beside : Beside more feed other) :
    Carries more (fun _ => True) (fun trees trees' after => SameExpressions trees trees' after ∧
      after.Inside) feed other (Parse.callArguments limit (fuel + 1) depth)
      (Parse.callArguments limit (fuel + gap + 1) depth) := by
  rw [Parse.callArguments, Parse.callArguments]
  apply carries_bind (carries_consume beside (by decide) _)
  intro token token' behind behind' same mirrors
  obtain ⟨closed, run, run'⟩ := mirrors.check (same.alive mirrors rfl) .closeParen
  apply carries_run run run'
  apply carries_ite
  · intro _
    exact carries_closing mirrors _ fun _ inside => ⟨rfl, inside⟩
  · intro _
    apply carries_bind (smaller.expression depth mirrors.toBeside)
    intro one one' _ _ sameOne mirrors
    apply carries_bind_via _ (smaller.moreExpressions depth mirrors)
    · intro others behind trees after run _
      have closes : (consume .closeParen .closeParen >>= fun _ => pure (one :: others)).run behind =
          .ok (trees, after) := run
      exact consume_alive (by decide) closes
    · intro others others' _ _ sameOthers mirrors
      refine carries_closing mirrors _ fun _ inside => ⟨?_, inside⟩
      simp only [SameExpressions, Expression.unplacedAll, sameOne.1.eq]
      rw [sameOthers]

theorem more_expressions_step (smaller : ReadersCarry limit gap more fuel) (depth : Nat)
    (mirrors : Mirrors more feed other) :
    Carries more (fun after => ¬ after.Spent) SameExpressions feed other
      (Parse.moreExpressions limit (fuel + 1) depth)
      (Parse.moreExpressions limit (fuel + gap + 1) depth) := by
  apply carries_given
    (alive_of_list ((readers_sound limit (fuel + 1)).moreExpressions depth mirrors.proper))
  intro alive
  rw [Parse.moreExpressions, Parse.moreExpressions]
  cases mirrors.accept alive .comma with
  | none run run' =>
      apply carries_run run run'
      exact carries_pure mirrors rfl
  | some run run' taken mirrors =>
      apply carries_run run run'
      obtain ⟨closed, run, run'⟩ := mirrors.check (taken.alive mirrors rfl) .closeParen
      apply carries_run run run'
      apply carries_ite
      · intro _
        exact carries_pure mirrors rfl
      · intro _
        apply carries_bind (smaller.expression depth mirrors.toBeside)
        intro one one' _ _ sameOne mirrors
        apply carries_bind_via _ (smaller.moreExpressions depth mirrors)
        · intro others behind trees after run going
          cases run
          exact going
        · intro others others' _ _ sameOthers mirrors
          refine carries_pure mirrors ?_
          simp only [SameExpressions, Expression.unplacedAll, sameOne.1.eq]
          rw [sameOthers]

theorem primary_step (smaller : ReadersCarry limit gap more fuel) (depth : Nat)
    (beside : Beside more feed other) :
    Carries more (fun _ => True) SameExpression feed other (Parse.primary limit (fuel + 1) depth)
      (Parse.primary limit (fuel + gap + 1) depth) := by
  apply carries_given (alive_of_reads
    ((readers_sound limit (fuel + 1)).primary depth beside.proper) fun _ => rfl)
  intro alive
  obtain ⟨token, after, takes⟩ := beside.has_token alive
  obtain ⟨token', after', takes', same, mirrors⟩ := beside.takes takes
  have inside (other : token.kind ≠ .newline) : after.Inside := by
    intro taken isTaken
    cases isTaken.symm.trans takes.previous
    exact other
  rw [Parse.primary, Parse.primary]
  apply carries_run (run_current takes.current) (run_current takes'.current)
  rw [Token.literal_of_same_sign same, Token.name_of_same_sign same, Token.kind_of_same_sign same]
  cases denotes : token.literal? with
  | some value =>
      apply carries_run takes.run_advance takes'.run_advance
      refine carries_pure mirrors ⟨rfl, inside ?_⟩
      rw [← Token.sign_kind, Token.sign_of_literal denotes]
      cases value <;> simp [Sign.kind, Literal.tokenClass]
  | none =>
      cases named : token.name? with
      | some name =>
          apply carries_run takes.run_advance takes'.run_advance
          refine carries_pure mirrors ⟨rfl, inside ?_⟩
          rw [Token.name_some named]
          decide
      | none =>
          apply carries_ite
          · intro isOpen
            exact smaller.group depth beside takes isOpen
          · intro _
            apply carries_ite
            · intro isFunction
              exact smaller.functionLiteral depth beside takes isFunction
            · intro _
              exact carries_unexpected

theorem group_step (smaller : ReadersCarry limit gap more fuel) (depth : Nat) {after : Feed}
    {start : Token} (beside : Beside more feed other) (opens : Takes feed start after)
    (isOpen : start.kind = .openParen) :
    Carries more (fun _ => True) SameExpression feed other (Parse.group limit (fuel + 1) depth)
      (Parse.group limit (fuel + gap + 1) depth) := by
  obtain ⟨start', after', opens', _, mirrors⟩ := beside.takes opens
  have alive : ¬ after.Spent := by
    apply mirrors.alive opens.previous
    rw [isOpen]
    rfl
  rw [Parse.group, Parse.group]
  apply carries_run opens.run_advance opens'.run_advance
  cases mirrors.accept alive .closeParen with
  | some run run' taken mirrors =>
      apply carries_run run run'
      apply carries_run (run_span_from start) (run_span_from start')
      exact carries_pure mirrors ⟨rfl, taken.inside (by decide)⟩
  | none run run' =>
      apply carries_run run run'
      apply carries_bind (smaller.expression depth mirrors.toBeside)
      intro one one' behind behind' sameOne mirrors
      have going : ∀ tree after, (do
          if (← accept .closeParen).isSome then
            return one
          else
            let others ← Parse.moreExpressions limit fuel depth
            let _ ← consume .closeParen .commaOrCloseParen
            return .tuple (← spanFrom start) (one :: others) : Parse Expression).run behind =
              .ok (tree, after) → True → ¬ behind.Spent := by
        intro tree after run _ spent
        obtain ⟨ending, isCurrent, isEnd⟩ := spent.current
        rw [run_bind_ok (run_accept_none isCurrent (by simp [isEnd]))] at run
        obtain ⟨others, between, listed, further⟩ := run_bind_inv run
        exact alive_of_list ((readers_sound limit fuel).moreExpressions depth mirrors.proper) others
          between listed (consume_alive (by decide) further) spent
      apply carries_given going
      intro alive
      cases mirrors.accept alive .closeParen with
      | some run run' taken mirrors =>
          apply carries_run run run'
          exact carries_pure mirrors ⟨sameOne.1, taken.inside (by decide)⟩
      | none run run' =>
          apply carries_run run run'
          apply carries_bind_via _ (smaller.moreExpressions depth mirrors)
            fun _ _ _ _ run _ => consume_alive (by decide) run
          intro others others' _ _ sameOthers mirrors
          apply carries_bind (carries_consume mirrors.toBeside (by decide) _)
          intro _ _ _ _ taken mirrors
          apply carries_run (run_span_from start) (run_span_from start')
          refine carries_pure mirrors ⟨?_, taken.inside (by decide)⟩
          simp only [Expression.Like, Expression.unplaced, Expression.unplacedAll, sameOne.1.eq]
          rw [sameOthers]

theorem function_literal_step (smaller : ReadersCarry limit gap more fuel) (depth : Nat)
    {after : Feed} {start : Token} (beside : Beside more feed other)
    (takes : Takes feed start after) (isFunction : start.kind = .fnWord) :
    Carries more (fun _ => True) SameExpression feed other
      (Parse.functionLiteral limit (fuel + 1) depth)
      (Parse.functionLiteral limit (fuel + gap + 1) depth) := by
  obtain ⟨start', after', takes', _, mirrors⟩ := beside.takes takes
  have alive : ¬ after.Spent := by
    apply mirrors.alive takes.previous
    rw [isFunction]
    rfl
  rw [Parse.functionLiteral, Parse.functionLiteral]
  apply carries_run takes.run_advance takes'.run_advance
  obtain ⟨named, run, run'⟩ := mirrors.check alive .identifier
  apply carries_run run run'
  apply carries_ite
  · intro _
    exact carries_unexpected
  · intro _
    apply carries_bind (carries_parameters mirrors.toBeside)
    rintro names _ _ _ rfl mirrors
    apply carries_bind (carries_consume mirrors.toBeside (by decide) _)
    intro _ _ behind behind' colon mirrors
    obtain ⟨token, later, ahead⟩ := mirrors.has_token (colon.alive mirrors rfl)
    obtain ⟨token', later', ahead', same, _⟩ := mirrors.takes ahead
    apply carries_run (run_check ahead.current .newline) (run_check ahead'.current .newline)
    rw [Token.kind_of_same_sign same]
    apply carries_ite
    · intro isNewline
      apply carries_bind (smaller.block depth mirrors.toBeside)
      intro body body' _ _ sameBody mirrors
      apply carries_run (run_span_from start) (run_span_from start')
      refine carries_pure mirrors ⟨?_, sameBody.2 ⟨token, ahead.current, by simpa using isNewline⟩⟩
      simp only [Expression.Like, Expression.unplaced, sameBody.1]
    · intro _
      apply carries_bind (smaller.expression depth mirrors.toBeside)
      intro value value' _ _ sameValue mirrors
      apply carries_run rfl rfl
      apply carries_run (run_span_from start) (run_span_from start')
      refine carries_pure mirrors ⟨?_, sameValue.2⟩
      simp only [Expression.Like, Expression.unplaced, Block.unplaced, sameValue.1.eq]

theorem block_step (smaller : ReadersCarry limit gap more fuel) (follows : Follows more)
    (depth : Nat) (beside : Beside more feed other) :
    Carries more (fun _ => True) (fun tree tree' after => tree'.unplaced = tree.unplaced ∧
      ((∃ token, feed.current = .ok token ∧ token.kind = .newline) → after.Inside)) feed other
      (Parse.block limit (fuel + 1) depth) (Parse.block limit (fuel + gap + 1) depth) := by
  apply carries_given (alive_of_reads
    ((readers_sound limit (fuel + 1)).block depth beside.proper) fun _ => rfl)
  intro alive
  obtain ⟨start, behind, takes⟩ := beside.has_token alive
  obtain ⟨start', behind', takes', same, mirrors⟩ := beside.takes takes
  have sameKind := Token.kind_of_same_sign same
  rw [Parse.block, Parse.block]
  apply carries_run (run_current takes.current) (run_current takes'.current)
  apply carries_enter
  by_cases isNewline : start.kind = .newline
  · apply carries_run (takes.run_accept isNewline) (takes'.run_accept (sameKind.trans isNewline))
    have mirrors := mirrors.skip_newlines follows
    apply carries_run rfl rfl
    apply carries_bind (carries_consume mirrors.toBeside (by decide) _)
    intro _ _ _ _ _ mirrors
    apply carries_bind_via _ (smaller.blockStatements (depth + 1) mirrors)
      fun _ _ _ _ run _ => consume_alive (by decide) run
    intro statements statements' _ _ sameStatements mirrors
    apply carries_bind (carries_consume mirrors.toBeside (by decide) _)
    intro _ _ _ _ dedent mirrors
    apply carries_run rfl rfl
    apply carries_run (run_span_from start) (run_span_from start')
    refine carries_pure mirrors ⟨?_, fun _ => dedent.inside (by decide)⟩
    rw [Block.of_statements_unplaced, Block.of_statements_unplaced, sameStatements]
  · apply carries_run (run_accept_none takes.current isNewline)
      (run_accept_none takes'.current (by rwa [sameKind]))
    apply carries_bind (smaller.statement (depth + 1) beside)
    intro only only' _ _ sameOnly mirrors
    apply carries_run rfl rfl
    apply carries_run (run_span_from start) (run_span_from start')
    refine carries_pure mirrors ⟨?_, ?_⟩
    · rw [Block.of_statements_unplaced, Block.of_statements_unplaced, Statement.unplacedAll,
        Statement.unplacedAll, sameOnly, Statement.unplacedAll, Statement.unplacedAll]
    · rintro ⟨token, isCurrent, contrary⟩
      cases isCurrent.symm.trans takes.current
      exact absurd contrary isNewline

theorem block_statements_step (smaller : ReadersCarry limit gap more fuel)
    (follows : Follows more) (depth : Nat) (mirrors : Mirrors more feed other) :
    Carries more (fun after => ¬ after.Spent) SameStatements feed other
      (Parse.blockStatements limit (fuel + 1) depth)
      (Parse.blockStatements limit (fuel + gap + 1) depth) := by
  apply carries_given
    (alive_of_list ((readers_sound limit (fuel + 1)).blockStatements depth mirrors.proper))
  intro alive
  obtain ⟨token, behind, takes⟩ := mirrors.has_token alive
  obtain ⟨token', behind', takes', same, _⟩ := mirrors.takes takes
  rw [Parse.blockStatements, Parse.blockStatements]
  apply carries_run (run_current takes.current) (run_current takes'.current)
  rw [Token.kind_of_same_sign same]
  apply carries_ite
  · intro _
    exact carries_pure mirrors rfl
  · intro _
    apply carries_bind (smaller.statement depth mirrors.toBeside)
    intro one one' _ _ sameOne mirrors
    have mirrors := mirrors.skip_newlines follows
    apply carries_run rfl rfl
    apply carries_bind_via _ (smaller.blockStatements depth mirrors)
    · intro others behind trees after run going
      cases run
      exact going
    · intro others others' _ _ sameOthers mirrors
      refine carries_pure mirrors ?_
      simp only [SameStatements, Statement.unplacedAll]
      rw [sameOne, sameOthers]

/-- The same expressions can be assigned to. -/
theorem carries_to_pattern {tree tree' : Expression} (like : tree.Like tree')
    (mirrors : Mirrors more feed other) :
    Carries more (fun _ => True) (fun target target' _ => target'.unplaced = target.unplaced)
      feed other (ofExcept tree.toPattern) (ofExcept tree'.toPattern) := by
  cases fits : tree.toPattern with
  | error error => exact carries_fail
  | ok target =>
      have form := Expression.as_expression_to_pattern fits
      obtain ⟨target', fits', same⟩ := Pattern.of_like target tree' (like.trans form)
      rw [fits']
      exact carries_pure mirrors same

/-- A statement that is made at its end. -/
theorem carries_ended (follows : Follows more) (mirrors : Mirrors more feed other)
    {tree tree' : Statement} (same : tree'.unplaced = tree.unplaced) :
    Carries more (fun _ => True) SameStatement feed other
      (statementEnd >>= fun _ => pure tree) (statementEnd >>= fun _ => pure tree') := by
  apply carries_bind (carries_statement_end mirrors follows)
  intro _ _ _ _ _ mirrors
  exact carries_pure mirrors same

theorem simple_statement_step (smaller : ReadersCarry limit gap more fuel)
    (follows : Follows more) (depth : Nat) (start start' : Token)
    (beside : Beside more feed other) :
    Carries more (fun _ => True) SameStatement feed other
      (Parse.simpleStatement limit (fuel + 1) depth start)
      (Parse.simpleStatement limit (fuel + gap + 1) depth start') := by
  rw [Parse.simpleStatement, Parse.simpleStatement]
  apply carries_bind (smaller.expression depth beside)
  intro subject subject' _ _ same mirrors
  cases mirrors.accept_open same.2 .assign with
  | some run run' _ mirrors =>
      apply carries_run run run'
      apply carries_bind (carries_to_pattern same.1 mirrors)
      intro target target' _ _ sameTarget mirrors
      apply carries_bind (smaller.expression depth mirrors.toBeside)
      intro value value' _ _ sameValue mirrors
      apply carries_ended follows mirrors
      simp only [Statement.unplaced, sameTarget, sameValue.1.eq]
  | none run run' =>
      apply carries_run run run'
      cases mirrors.accept_open same.2 .semicolon with
      | some run run' _ mirrors =>
          apply carries_run run run'
          apply carries_run (run_span_from start) (run_span_from start')
          apply carries_ended follows mirrors
          simp only [Statement.unplaced, same.1.eq, Option.isSome_some]
      | none run run' =>
          apply carries_run run run'
          apply carries_run rfl rfl
          apply carries_ended follows mirrors
          simp only [Statement.unplaced, same.1.eq, Option.isSome_none]

theorem declaration_step (smaller : ReadersCarry limit gap more fuel) (follows : Follows more)
    (depth : Nat) {after : Feed} {start : Token} (beside : Beside more feed other)
    (takes : Takes feed start after) :
    Carries more (fun _ => True) SameStatement feed other
      (Parse.declaration limit (fuel + 1) depth)
      (Parse.declaration limit (fuel + gap + 1) depth) := by
  obtain ⟨start', after', takes', _, mirrors⟩ := beside.takes takes
  rw [Parse.declaration, Parse.declaration]
  apply carries_run takes.run_advance takes'.run_advance
  apply carries_bind (smaller.pattern depth mirrors.toBeside)
  intro target target' _ _ sameTarget mirrors
  apply carries_bind (carries_consume mirrors.toBeside (by decide) _)
  intro _ _ _ _ _ mirrors
  apply carries_bind (smaller.expression depth mirrors.toBeside)
  intro value value' _ _ sameValue mirrors
  apply carries_run (run_span_from start) (run_span_from start')
  apply carries_ended follows mirrors
  simp only [Statement.unplaced, sameTarget.1, sameValue.1.eq]

theorem conditioned_step (smaller : ReadersCarry limit gap more fuel) (depth : Nat)
    {make : Span → Expression → Block → Statement}
    (makes : ∀ {span span' : Span} {condition condition' : Expression} {body body' : Block},
      condition.Like condition' → body'.unplaced = body.unplaced →
      (make span' condition' body').unplaced = (make span condition body).unplaced)
    {after : Feed} {start : Token} (beside : Beside more feed other)
    (takes : Takes feed start after) :
    Carries more (fun _ => True) SameStatement feed other
      (Parse.conditioned limit (fuel + 1) depth make)
      (Parse.conditioned limit (fuel + gap + 1) depth make) := by
  obtain ⟨start', after', takes', _, mirrors⟩ := beside.takes takes
  rw [Parse.conditioned, Parse.conditioned]
  apply carries_run takes.run_advance takes'.run_advance
  apply carries_bind (smaller.expression depth mirrors.toBeside)
  intro condition condition' _ _ sameCondition mirrors
  apply carries_bind (carries_consume mirrors.toBeside (by decide) _)
  intro _ _ _ _ _ mirrors
  apply carries_bind (smaller.block depth mirrors.toBeside)
  intro body body' _ _ sameBody mirrors
  apply carries_run (run_span_from start) (run_span_from start')
  exact carries_pure mirrors (makes sameCondition.1 sameBody.1)

theorem definition_step (smaller : ReadersCarry limit gap more fuel) (depth : Nat)
    {after : Feed} {start : Token} (beside : Beside more feed other)
    (takes : Takes feed start after) :
    Carries more (fun _ => True) SameStatement feed other
      (Parse.definition limit (fuel + 1) depth)
      (Parse.definition limit (fuel + gap + 1) depth) := by
  obtain ⟨start', after', takes', _, mirrors⟩ := beside.takes takes
  rw [Parse.definition, Parse.definition]
  apply carries_run takes.run_advance takes'.run_advance
  apply carries_bind (carries_consume mirrors.toBeside (by decide) _)
  intro named named' _ _ sameName mirrors
  rw [Token.name_of_same_sign sameName.1]
  cases named.name? with
  | none => exact carries_unexpected
  | some name =>
      apply carries_bind (carries_parameters mirrors.toBeside)
      rintro names _ _ _ rfl mirrors
      apply carries_bind (carries_consume mirrors.toBeside (by decide) _)
      intro _ _ _ _ _ mirrors
      apply carries_bind (smaller.block depth mirrors.toBeside)
      intro body body' _ _ sameBody mirrors
      apply carries_run (run_span_from start) (run_span_from start')
      refine carries_pure mirrors ?_
      simp only [SameStatement, Statement.unplaced, sameBody.1]

theorem statement_step (smaller : ReadersCarry limit gap more fuel) (follows : Follows more)
    (depth : Nat) (beside : Beside more feed other) :
    Carries more (fun _ => True) SameStatement feed other (Parse.statement limit (fuel + 1) depth)
      (Parse.statement limit (fuel + gap + 1) depth) := by
  have beside := beside.skip_newlines follows
  rw [Parse.statement, Parse.statement]
  apply carries_run rfl rfl
  by_cases spent : feed.skipNewlines.Spent
  · -- Nothing but newlines is no statement.
    obtain ⟨ending, isCurrent, isEnd⟩ := spent.current
    intro tree after run
    rw [run_bind_ok (run_current isCurrent), isEnd] at run
    obtain ⟨_, tokens, derives⟩ := (readers_sound limit fuel).simpleStatement depth beside.proper
      .none isCurrent tree after run
    exact absurd (spent.derives derives).1 (derives.nonempty rfl)
  · obtain ⟨token, behind, takes⟩ := beside.has_token spent
    obtain ⟨token', behind', takes', same, mirrors⟩ := beside.takes takes
    apply carries_run (run_current takes.current) (run_current takes'.current)
    rw [Token.kind_of_same_sign same]
    cases kind : token.kind with
    | letWord => exact smaller.declaration depth beside takes
    | whileWord =>
        refine smaller.conditioned depth ?_ beside takes
        intro _ _ _ _ _ _ sameCondition sameBody
        simp only [Statement.unplaced, sameCondition.eq, sameBody]
    | ifWord =>
        refine smaller.conditioned depth ?_ beside takes
        intro _ _ _ _ _ _ sameCondition sameBody
        simp only [Statement.unplaced, sameCondition.eq, sameBody]
    | fnWord =>
        have alive : ¬ behind.Spent := by
          apply mirrors.alive takes.previous
          rw [kind]
          rfl
        obtain ⟨second, later, ahead⟩ := mirrors.has_token alive
        obtain ⟨second', later', ahead', sameSecond, _⟩ := mirrors.takes ahead
        apply carries_run (takes.run_second ahead.current) (takes'.run_second ahead'.current)
        rw [Token.kind_of_same_sign sameSecond]
        apply carries_ite
        · intro _
          exact smaller.definition depth beside takes
        · intro _
          exact smaller.simpleStatement depth token token' beside
    | _ => exact smaller.simpleStatement depth token token' beside

end ReadersCarry

theorem readers_carry (limit gap fuel : Nat) (follows : Follows more) :
    ReadersCarry limit gap more fuel := by
  induction fuel with
  | zero =>
      constructor <;> intros
      case expression => rw [expression]; exact carries_out_of_fuel
      case rebinding => rw [rebinding]; exact carries_out_of_fuel
      case conditional => rw [conditional]; exact carries_out_of_fuel
      case binary => rw [binary]; exact carries_out_of_fuel
      case binaryRest => rw [binaryRest]; exact carries_out_of_fuel
      case unary => rw [unary]; exact carries_out_of_fuel
      case power => rw [power]; exact carries_out_of_fuel
      case postfixed => rw [postfixed]; exact carries_out_of_fuel
      case postfixRest => rw [postfixRest]; exact carries_out_of_fuel
      case callArguments => rw [callArguments]; exact carries_out_of_fuel
      case moreExpressions => rw [moreExpressions]; exact carries_out_of_fuel
      case primary => rw [primary]; exact carries_out_of_fuel
      case group => rw [group]; exact carries_out_of_fuel
      case functionLiteral => rw [functionLiteral]; exact carries_out_of_fuel
      case block => rw [block]; exact carries_out_of_fuel
      case blockStatements => rw [blockStatements]; exact carries_out_of_fuel
      case statement => rw [statement]; exact carries_out_of_fuel
      case simpleStatement => rw [simpleStatement]; exact carries_out_of_fuel
      case declaration => rw [declaration]; exact carries_out_of_fuel
      case conditioned => rw [conditioned]; exact carries_out_of_fuel
      case definition => rw [definition]; exact carries_out_of_fuel
      case pattern => rw [pattern]; exact carries_out_of_fuel
      case tuplePattern => rw [tuplePattern]; exact carries_out_of_fuel
      case morePatterns => rw [morePatterns]; exact carries_out_of_fuel
  | succ fuel smaller =>
      have shifted : fuel + 1 + gap = fuel + gap + 1 := Nat.add_right_comm fuel 1 gap
      constructor <;> rw [shifted]
      · exact fun depth _ _ => smaller.expression_step depth
      · exact fun depth _ _ => smaller.rebinding_step depth
      · exact fun depth _ _ => smaller.conditional_step depth
      · exact fun depth least _ _ => smaller.binary_step depth least
      · exact fun depth least _ _ _ _ => smaller.binary_rest_step follows depth least
      · exact fun depth _ _ => smaller.unary_step depth
      · exact fun depth _ _ => smaller.power_step depth
      · exact fun depth _ _ => smaller.postfixed_step depth
      · exact fun depth _ _ _ _ => smaller.postfix_rest_step depth
      · exact fun depth _ _ => smaller.call_arguments_step depth
      · exact fun depth _ _ => smaller.more_expressions_step depth
      · exact fun depth _ _ => smaller.primary_step depth
      · exact fun depth _ _ _ _ => smaller.group_step depth
      · exact fun depth _ _ _ _ => smaller.function_literal_step depth
      · exact fun depth _ _ => smaller.block_step follows depth
      · exact fun depth _ _ => smaller.block_statements_step follows depth
      · exact fun depth _ _ => smaller.statement_step follows depth
      · exact fun depth start start' _ _ => smaller.simple_statement_step follows depth start start'
      · exact fun depth _ _ _ _ => smaller.declaration_step follows depth
      · exact fun depth _ makes _ _ _ _ => smaller.conditioned_step depth makes
      · exact fun depth _ _ _ _ => smaller.definition_step depth
      · exact fun depth _ _ => smaller.pattern_step depth
      · exact fun depth start start' _ _ => smaller.tuple_pattern_step depth start start'
      · exact fun depth _ _ => smaller.more_patterns_step depth

end Steps

end LayoutScript
