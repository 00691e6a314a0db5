import LayoutScript.Proofs.Tree.Refinement
import LayoutScript.Proofs.Tree.Settling

/-!
The depth of calls. Between two levels of nesting lie at most sixteen calls: the loosest reader of
expressions down to the tightest, one for each strength of operators among them. So the limit on
nesting bounds the calls that are active at once, whatever the tokens are, and all of them can be
read through a buffer without an index that is out of range.
-/

namespace LayoutScript

/-- Room for the calls inside an expression at a depth of nesting, itself included. -/
def callRoom (limit depth : Nat) : Nat := 16 * (limit - depth) + 1

theorem call_room_enter {limit depth : Nat} (within : depth < limit) :
    callRoom limit (depth + 1) + 16 = callRoom limit depth := by
  unfold callRoom
  omega

/-- The readers from a buffer refine those from a feed at one amount of fuel. -/
structure ReadersRefine (all : List Token) (limit fuel : Nat) : Prop where
  expression (depth : Nat) (feed : Feed) :
    Refines all (callRoom limit depth) feed (Buffered.expression limit fuel depth)
      (Parse.expression limit fuel depth)
  rebinding (depth : Nat) (feed : Feed) :
    Refines all (callRoom limit depth + 15) feed (Buffered.rebinding limit fuel depth)
      (Parse.rebinding limit fuel depth)
  conditional (depth : Nat) (feed : Feed) :
    Refines all (callRoom limit depth + 14) feed (Buffered.conditional limit fuel depth)
      (Parse.conditional limit fuel depth)
  binary (depth least : Nat) (feed : Feed) :
    Refines all (callRoom limit depth + 6 + (7 - least)) feed
      (Buffered.binary limit fuel depth least) (Parse.binary limit fuel depth least)
  binaryRest (depth least : Nat) (left : Expression) (feed : Feed) :
    Refines all (callRoom limit depth + 5 + (7 - least)) feed
      (Buffered.binaryRest limit fuel depth least left)
      (Parse.binaryRest limit fuel depth least left)
  unary (depth : Nat) (feed : Feed) :
    Refines all (callRoom limit depth + 5) feed (Buffered.unary limit fuel depth)
      (Parse.unary limit fuel depth)
  power (depth : Nat) (feed : Feed) :
    Refines all (callRoom limit depth + 4) feed (Buffered.power limit fuel depth)
      (Parse.power limit fuel depth)
  postfixed (depth : Nat) (feed : Feed) :
    Refines all (callRoom limit depth + 3) feed (Buffered.postfixed limit fuel depth)
      (Parse.postfixed limit fuel depth)
  postfixRest (depth : Nat) (subject : Expression) (feed : Feed) :
    Refines all (callRoom limit depth + 2) feed (Buffered.postfixRest limit fuel depth subject)
      (Parse.postfixRest limit fuel depth subject)
  callArguments (depth : Nat) (feed : Feed) :
    Refines all (callRoom limit depth + 1) feed (Buffered.callArguments limit fuel depth)
      (Parse.callArguments limit fuel depth)
  moreExpressions (depth : Nat) (feed : Feed) :
    Refines all (callRoom limit depth) feed (Buffered.moreExpressions limit fuel depth)
      (Parse.moreExpressions limit fuel depth)
  primary (depth : Nat) (feed : Feed) :
    Refines all (callRoom limit depth + 2) feed (Buffered.primary limit fuel depth)
      (Parse.primary limit fuel depth)
  group (depth : Nat) (feed : Feed) :
    Refines all (callRoom limit depth + 1) feed (Buffered.group limit fuel depth)
      (Parse.group limit fuel depth)
  functionLiteral (depth : Nat) (feed : Feed) :
    Refines all (callRoom limit depth + 1) feed (Buffered.functionLiteral limit fuel depth)
      (Parse.functionLiteral limit fuel depth)
  block (depth : Nat) {feed : Feed} (begun : feed.Begun) :
    Refines all (callRoom limit depth) feed (Buffered.block limit fuel depth)
      (Parse.block limit fuel depth)
  blockStatements (depth : Nat) (feed : Feed) :
    Refines all (callRoom limit depth + 2) feed (Buffered.blockStatements limit fuel depth)
      (Parse.blockStatements limit fuel depth)
  statement (depth : Nat) (feed : Feed) :
    Refines all (callRoom limit depth + 2) feed (Buffered.statement limit fuel depth)
      (Parse.statement limit fuel depth)
  simpleStatement (depth : Nat) (start : Token) (feed : Feed) :
    Refines all (callRoom limit depth + 1) feed
      (Buffered.simpleStatement limit fuel depth start)
      (Parse.simpleStatement limit fuel depth start)
  declaration (depth : Nat) (feed : Feed) :
    Refines all (callRoom limit depth + 1) feed (Buffered.declaration limit fuel depth)
      (Parse.declaration limit fuel depth)
  conditioned (depth : Nat) (make : Span → Expression → Block → Statement) (feed : Feed) :
    Refines all (callRoom limit depth + 1) feed (Buffered.conditioned limit fuel depth make)
      (Parse.conditioned limit fuel depth make)
  definition (depth : Nat) (feed : Feed) :
    Refines all (callRoom limit depth + 1) feed (Buffered.definition limit fuel depth)
      (Parse.definition limit fuel depth)
  pattern (depth : Nat) (feed : Feed) :
    Refines all (callRoom limit depth) feed (Buffered.pattern limit fuel depth)
      (Parse.pattern limit fuel depth)
  tuplePattern (depth : Nat) (start : Token) (feed : Feed) :
    Refines all (callRoom limit depth) feed (Buffered.tuplePattern limit fuel depth start)
      (Parse.tuplePattern limit fuel depth start)
  morePatterns (depth : Nat) (feed : Feed) :
    Refines all (callRoom limit depth) feed (Buffered.morePatterns limit fuel depth)
      (Parse.morePatterns limit fuel depth)

section Parameters

variable {all : List Token} {room : Nat} {feed : Feed}

theorem parameter_names_refines (fuel : Nat) (names : List String) :
    Refines all room feed (Buffered.parameterNames fuel names)
      (Parse.parameterNames fuel names) := by
  induction fuel generalizing feed names with
  | zero => exact refines_out_of_fuel
  | succ fuel induction =>
      rw [Buffered.parameterNames, Parse.parameterNames]
      apply refines_after_consume (by decide)
      intro token behind _
      cases token.name? with
      | none => exact refines_unexpected _
      | some name =>
          apply refines_ite
          · intro _
            exact refines_fail _
          · intro _
            apply refines_after_accept (by decide)
            · exact refines_pure _
            · intro comma later _
              apply refines_bind (refines_check _)
              intro closed last _ _
              apply refines_ite
              · intro _
                exact refines_pure _
              · intro _
                exact induction _

/-- What was read is given once a parenthesis is closed. -/
theorem refines_closing {α : Type} (value : α) :
    Refines all room feed
      (Buffered.consume .closeParen .closeParen >>= fun _ => pure value)
      (Parse.consume .closeParen .closeParen >>= fun _ => pure value) :=
  refines_after_consume (by decide) fun _ _ _ => refines_pure value

theorem parameters_refines (fuel : Nat) :
    Refines all (room + 1) feed (Buffered.parameters fuel) (Parse.parameters fuel) := by
  apply refines_calling
  apply refines_after_consume (by decide)
  intro opens behind _
  apply refines_bind (refines_check _)
  intro empty later _ _
  apply refines_ite
  · intro _
    exact refines_bind (refines_pure _) fun names _ _ _ => refines_closing names
  · intro _
    exact refines_bind (parameter_names_refines fuel []) fun names _ _ _ => refines_closing names

end Parameters

section Targets

variable {all : List Token}

theorem of_except_bind {α β : Type} (result : Except ScriptError α)
    (next : α → Except ScriptError β) :
    Parse.ofExcept (result >>= next) =
      (Parse.ofExcept result >>= fun value => Parse.ofExcept (next value)) := by
  cases result with
  | ok value => rfl
  | error error => rfl

/-- Room for taking an expression, or further ones, as targets. -/
def Phrase.Convertible (all : List Token) (room : Nat) : Phrase → Prop
  | .expression tree => ∀ feed,
      Refines all room feed (Buffered.target tree) (Parse.ofExcept tree.toPattern)
  | .more trees => ∀ feed,
      Refines all room feed (Buffered.targets trees)
        (Parse.ofExcept (Expression.toPatterns trees))
  | _ => True

theorem solid_convertible {tree : Expression} (isSolid : tree.isSolid = true) {room : Nat}
    (present : 0 < room) : (Phrase.expression tree).Convertible all room := by
  intro feed
  cases tree with
  | identifier => cases isSolid
  | tuple => cases isSolid
  | _ =>
      rw [Buffered.target, Expression.toPattern]
      exact refines_call 0 present (refines_fail _)

theorem tuple_convertible {room : Nat} {span : Span} {trees : List Expression}
    (others : (Phrase.more trees).Convertible all room) :
    (Phrase.expression (.tuple span trees)).Convertible all (room + 1) := by
  intro feed
  rw [Buffered.target, Expression.toPattern, of_except_bind]
  exact refines_calling (refines_bind (others feed) fun _ _ _ _ => refines_pure _)

theorem cons_convertible {room : Nat} {tree : Expression} {trees : List Expression}
    (first : (Phrase.expression tree).Convertible all room)
    (others : (Phrase.more trees).Convertible all room) :
    (Phrase.more (tree :: trees)).Convertible all room := by
  intro feed
  rw [Buffered.targets, Expression.toPatterns, of_except_bind]
  apply refines_bind (first feed)
  intro target behind _ _
  rw [of_except_bind]
  exact refines_bind (others behind) fun _ _ _ _ => refines_pure _

/-- Tuples are nested no further than there are levels of nesting left. -/
theorem Brackets.convertible {limit depth : Nat} {feed after : Feed} {phrase : Phrase}
    (brackets : Brackets limit depth feed phrase after) :
    phrase.Convertible all (limit - depth) := by
  have level {depth : Nat} (within : depth < limit) : limit - depth = limit - (depth + 1) + 1 := by
    omega
  induction brackets with
  | solid within isSolid => exact solid_convertible isSolid (by omega)
  | name within =>
      intro feed
      rw [Buffered.target, Expression.toPattern]
      exact refines_call 0 (by omega) (refines_pure _)
  | empty within =>
      rw [level within]
      exact tuple_convertible fun feed => refines_pure _
  | grouped within _ _ _ _ _ inner => exact fun feed => refines_mono (inner feed) (by omega)
  | tuple within _ _ _ _ _ _ _ inner others =>
      rw [level within]
      exact tuple_convertible (cons_convertible inner others)
  | noMore =>
      intro feed
      exact refines_pure _
  | lastComma =>
      intro feed
      exact refines_pure _
  | oneMore _ _ _ _ inner others => exact cons_convertible inner others

end Targets

namespace ReadersRefine

variable {all : List Token} {limit fuel : Nat}

theorem pattern_step (smaller : ReadersRefine all limit fuel) (depth : Nat) (feed : Feed) :
    Refines all (callRoom limit depth) feed (Buffered.pattern limit (fuel + 1) depth)
      (Parse.pattern limit (fuel + 1) depth) := by
  rw [Buffered.pattern, Parse.pattern]
  apply refines_calling
  apply refines_bind refines_current
  intro token behind _ _
  cases token.name? with
  | some name => exact refines_bind refines_advance fun _ _ _ _ => refines_pure _
  | none =>
      apply refines_ite
      · intro _
        apply refines_bind refines_advance
        intro _ inside _ _
        apply refines_after_enter
        intro within
        have deeper := call_room_enter within
        exact refines_mono (smaller.tuplePattern (depth + 1) token inside) (by
          unfold callRoom at deeper ⊢; omega)
      · intro _
        exact refines_unexpected _

theorem tuple_pattern_step (smaller : ReadersRefine all limit fuel) (depth : Nat) (start : Token)
    (feed : Feed) :
    Refines all (callRoom limit depth) feed (Buffered.tuplePattern limit (fuel + 1) depth start)
      (Parse.tuplePattern limit (fuel + 1) depth start) := by
  rw [Buffered.tuplePattern, Parse.tuplePattern]
  apply refines_after_accept (by decide)
  · apply refines_bind (smaller.pattern depth feed)
    intro target between _ _
    apply refines_after_accept (by decide)
    · apply refines_bind (smaller.morePatterns depth between)
      intro others later _ _
      exact refines_after_consume (by decide) fun _ _ begun => refines_spanned start _ begun
    · exact fun _ _ _ => refines_pure _
  · exact fun _ _ begun => refines_spanned start _ begun

theorem more_patterns_step (smaller : ReadersRefine all limit fuel) (depth : Nat) (feed : Feed) :
    Refines all (callRoom limit depth) feed (Buffered.morePatterns limit (fuel + 1) depth)
      (Parse.morePatterns limit (fuel + 1) depth) := by
  rw [Buffered.morePatterns, Parse.morePatterns]
  apply refines_after_accept (by decide)
  · exact refines_pure _
  · intro comma behind _
    apply refines_bind (refines_check _)
    intro closed later _ _
    apply refines_ite
    · intro _
      exact refines_pure _
    · intro _
      apply refines_bind (smaller.pattern depth later)
      intro first between _ _
      exact refines_bind (smaller.morePatterns depth between) fun _ _ _ _ => refines_pure _

theorem expression_step (smaller : ReadersRefine all limit fuel) (depth : Nat) (feed : Feed) :
    Refines all (callRoom limit depth) feed (Buffered.expression limit (fuel + 1) depth)
      (Parse.expression limit (fuel + 1) depth) := by
  rw [Buffered.expression, Parse.expression]
  apply refines_calling
  apply refines_bind refines_current
  intro token behind _ _
  apply refines_after_enter
  intro within
  have deeper := call_room_enter within
  exact refines_mono (smaller.rebinding (depth + 1) behind) (by
    unfold callRoom at deeper ⊢; omega)

theorem rebinding_step (smaller : ReadersRefine all limit fuel) (depth : Nat) (feed : Feed) :
    Refines all (callRoom limit depth + 15) feed (Buffered.rebinding limit (fuel + 1) depth)
      (Parse.rebinding limit (fuel + 1) depth) := by
  rw [Buffered.rebinding, Parse.rebinding]
  apply refines_calling
  apply refines_bind (smaller.conditional depth feed)
  intro target between _ _
  apply refines_after_accept_open (by decide)
  · exact refines_pure _
  · intro walrus behind _
    cases target with
    | identifier span name =>
        exact refines_bind (refines_mono (smaller.expression depth behind) (by omega))
          fun _ _ _ _ => refines_pure _
    | _ => exact refines_fail _

theorem conditional_step (smaller : ReadersRefine all limit fuel) (depth : Nat) (feed : Feed) :
    Refines all (callRoom limit depth + 14) feed (Buffered.conditional limit (fuel + 1) depth)
      (Parse.conditional limit (fuel + 1) depth) := by
  rw [Buffered.conditional, Parse.conditional]
  apply refines_calling
  apply refines_bind (smaller.binary depth 0 feed)
  intro condition between _ _
  apply refines_after_accept_open (by decide)
  · exact refines_pure _
  · intro question behind _
    apply refines_bind (refines_mono (smaller.expression depth behind) (by omega))
    intro whenTrue later _ _
    apply refines_after_consume (by decide)
    intro colon last _
    exact refines_bind (refines_mono (smaller.expression depth last) (by omega))
      fun _ _ _ _ => refines_pure _

theorem binary_step (smaller : ReadersRefine all limit fuel) (depth least : Nat) (feed : Feed) :
    Refines all (callRoom limit depth + 6 + (7 - least)) feed
      (Buffered.binary limit (fuel + 1) depth least)
      (Parse.binary limit (fuel + 1) depth least) := by
  rw [Buffered.binary, Parse.binary]
  refine refines_call (callRoom limit depth + 5 + (7 - least)) (by omega) ?_
  apply refines_bind (refines_mono (smaller.unary depth feed) (by omega))
  intro left between _ _
  exact smaller.binaryRest depth least left between

theorem binary_rest_step (smaller : ReadersRefine all limit fuel) (depth least : Nat)
    (left : Expression) (feed : Feed) :
    Refines all (callRoom limit depth + 5 + (7 - least)) feed
      (Buffered.binaryRest limit (fuel + 1) depth least left)
      (Parse.binaryRest limit (fuel + 1) depth least left) := by
  rw [Buffered.binaryRest, Parse.binaryRest]
  apply refines_bind refines_current
  intro token behind _ _
  cases found : Parse.binary? token with
  | none => exact refines_pure _
  | some pair =>
      obtain ⟨operator, strength⟩ := pair
      have bounds := BinaryOperator.precedence_bounds (binary_token_ties found).1
      apply refines_bind refines_block_closed
      intro closed later _ _
      apply refines_ite
      · intro _
        exact refines_pure _
      · intro goesOn
        have strong : least ≤ strength := by
          by_contra weak
          exact goesOn (by simp [Nat.lt_of_not_le weak])
        apply refines_bind refines_advance
        intro _ inside _ _
        apply refines_bind
          (refines_mono (smaller.binary depth (strength + 1) inside) (by omega))
        intro right last _ _
        exact smaller.binaryRest depth least _ last

theorem unary_step (smaller : ReadersRefine all limit fuel) (depth : Nat) (feed : Feed) :
    Refines all (callRoom limit depth + 5) feed (Buffered.unary limit (fuel + 1) depth)
      (Parse.unary limit (fuel + 1) depth) := by
  rw [Buffered.unary, Parse.unary]
  apply refines_calling
  apply refines_bind refines_current
  intro token behind _ _
  cases UnaryOperator.ofTokenClass? token.kind with
  | none => exact smaller.power depth behind
  | some operator =>
      apply refines_bind refines_advance
      intro _ inside _ _
      apply refines_after_enter
      intro within
      have deeper := call_room_enter within
      exact refines_bind (refines_mono (smaller.unary (depth + 1) inside) (by omega))
        fun _ _ _ _ => refines_pure _

theorem power_step (smaller : ReadersRefine all limit fuel) (depth : Nat) (feed : Feed) :
    Refines all (callRoom limit depth + 4) feed (Buffered.power limit (fuel + 1) depth)
      (Parse.power limit (fuel + 1) depth) := by
  rw [Buffered.power, Parse.power]
  apply refines_calling
  apply refines_bind (smaller.postfixed depth feed)
  intro base between _ _
  apply refines_after_accept_open (by decide)
  · exact refines_pure _
  · intro star behind _
    apply refines_after_enter
    intro within
    have deeper := call_room_enter within
    exact refines_bind (refines_mono (smaller.unary (depth + 1) behind) (by omega))
      fun _ _ _ _ => refines_pure _

theorem postfixed_step (smaller : ReadersRefine all limit fuel) (depth : Nat) (feed : Feed) :
    Refines all (callRoom limit depth + 3) feed (Buffered.postfixed limit (fuel + 1) depth)
      (Parse.postfixed limit (fuel + 1) depth) := by
  rw [Buffered.postfixed, Parse.postfixed]
  apply refines_calling
  apply refines_bind (smaller.primary depth feed)
  intro subject between _ _
  exact smaller.postfixRest depth subject between

/-- The range of a call ends with the token taken last, the parenthesis behind its arguments. -/
theorem call_refines (smaller : ReadersRefine all limit fuel) (depth : Nat) (subject : Expression)
    (token : Token) (feed : Feed) :
    Refines all (callRoom limit depth + 2) feed
      (Buffered.calling do
        let arguments ← Buffered.callArguments limit fuel depth
        return Expression.call (subject.span.join (← Buffered.taken).span) subject arguments)
      (do
        let arguments ← Parse.callArguments limit fuel depth
        let listSpan ← Parse.spanFrom token
        return Expression.call (subject.span.join listSpan) subject arguments) := by
  apply refines_calling
  apply refines_proper
  intro proper
  apply refines_bind (smaller.callArguments depth feed)
  intro arguments behind run _
  obtain ⟨_, _, derives⟩ := (readers_sound limit fuel).callArguments depth proper _ _ run
  obtain ⟨last, isLast⟩ := Option.isSome_iff_exists.1 (derives.previous_some.2 rfl)
  have same : (Parse.spanFrom token >>= fun listSpan =>
      pure (Expression.call (subject.span.join listSpan) subject arguments)).run behind =
      ((pure last : Parse Token) >>= fun last =>
        pure (Expression.call (subject.span.join last.span) subject arguments)).run behind := by
    rw [Parse.run_bind_ok (Parse.run_span_from token), isLast]
    rfl
  exact refines_congr same
    (refines_bind (refines_taken isLast) fun _ _ _ _ => refines_pure _)

theorem postfix_rest_step (smaller : ReadersRefine all limit fuel) (depth : Nat)
    (subject : Expression) (feed : Feed) :
    Refines all (callRoom limit depth + 2) feed
      (Buffered.postfixRest limit (fuel + 1) depth subject)
      (Parse.postfixRest limit (fuel + 1) depth subject) := by
  rw [Buffered.postfixRest, Parse.postfixRest]
  apply refines_bind refines_block_closed
  intro closed behind _ _
  apply refines_ite
  · intro _
    exact refines_pure _
  · intro _
    apply refines_bind refines_current
    intro token later _ _
    apply refines_ite
    · intro _
      have whole := refines_bind (smaller.call_refines depth subject token later)
        fun tree after _ _ => smaller.postfixRest depth tree after
      simpa only [bind_assoc, pure_bind] using whole
    · intro _
      apply refines_ite
      · intro _
        apply refines_bind refines_advance
        intro _ inside _ _
        apply refines_after_consume (by decide)
        intro place last _
        cases place.index? with
        | none => exact refines_unexpected _
        | some index => exact smaller.postfixRest depth _ last
      · intro _
        exact refines_pure _

theorem call_arguments_step (smaller : ReadersRefine all limit fuel) (depth : Nat) (feed : Feed) :
    Refines all (callRoom limit depth + 1) feed (Buffered.callArguments limit (fuel + 1) depth)
      (Parse.callArguments limit (fuel + 1) depth) := by
  rw [Buffered.callArguments, Parse.callArguments]
  apply refines_calling
  apply refines_after_consume (by decide)
  intro opens inside _
  apply refines_bind (refines_check _)
  intro empty between _ _
  apply refines_ite
  · intro _
    exact refines_bind (refines_pure _) fun trees _ _ _ => refines_closing trees
  · intro _
    apply refines_bind (smaller.expression depth between)
    intro first later _ _
    apply refines_bind (smaller.moreExpressions depth later)
    intro others last _ _
    exact refines_bind (refines_pure _) fun trees _ _ _ => refines_closing trees

theorem more_expressions_step (smaller : ReadersRefine all limit fuel) (depth : Nat)
    (feed : Feed) :
    Refines all (callRoom limit depth) feed (Buffered.moreExpressions limit (fuel + 1) depth)
      (Parse.moreExpressions limit (fuel + 1) depth) := by
  rw [Buffered.moreExpressions, Parse.moreExpressions]
  apply refines_after_accept (by decide)
  · exact refines_pure _
  · intro comma behind _
    apply refines_bind (refines_check _)
    intro closed later _ _
    apply refines_ite
    · intro _
      exact refines_pure _
    · intro _
      apply refines_bind (smaller.expression depth later)
      intro first between _ _
      exact refines_bind (smaller.moreExpressions depth between) fun _ _ _ _ => refines_pure _

theorem primary_step (smaller : ReadersRefine all limit fuel) (depth : Nat) (feed : Feed) :
    Refines all (callRoom limit depth + 2) feed (Buffered.primary limit (fuel + 1) depth)
      (Parse.primary limit (fuel + 1) depth) := by
  rw [Buffered.primary, Parse.primary]
  apply refines_calling
  apply refines_bind refines_current
  intro token behind _ _
  cases token.literal? with
  | some value => exact refines_bind refines_advance fun _ _ _ _ => refines_pure _
  | none =>
      cases token.name? with
      | some name => exact refines_bind refines_advance fun _ _ _ _ => refines_pure _
      | none =>
          apply refines_ite
          · intro _
            exact smaller.group depth behind
          · intro _
            apply refines_ite
            · intro _
              exact smaller.functionLiteral depth behind
            · intro _
              exact refines_unexpected _

theorem group_step (smaller : ReadersRefine all limit fuel) (depth : Nat) (feed : Feed) :
    Refines all (callRoom limit depth + 1) feed (Buffered.group limit (fuel + 1) depth)
      (Parse.group limit (fuel + 1) depth) := by
  rw [Buffered.group, Parse.group]
  apply refines_calling
  apply refines_bind refines_advance
  intro start inside _ _
  apply refines_after_accept (by decide)
  · apply refines_bind (smaller.expression depth inside)
    intro first between _ _
    apply refines_after_accept (by decide)
    · apply refines_bind (smaller.moreExpressions depth between)
      intro others later _ _
      exact refines_after_consume (by decide) fun _ _ begun => refines_spanned start _ begun
    · exact fun _ _ _ => refines_pure _
  · exact fun _ _ begun => refines_spanned start _ begun

theorem function_literal_step (smaller : ReadersRefine all limit fuel) (depth : Nat)
    (feed : Feed) :
    Refines all (callRoom limit depth + 1) feed
      (Buffered.functionLiteral limit (fuel + 1) depth)
      (Parse.functionLiteral limit (fuel + 1) depth) := by
  rw [Buffered.functionLiteral, Parse.functionLiteral]
  apply refines_calling
  apply refines_bind refines_advance
  intro start inside _ _
  apply refines_bind (refines_check _)
  intro named between _ _
  apply refines_ite
  · intro _
    exact refines_unexpected _
  · intro _
    apply refines_bind (parameters_refines fuel)
    intro names listed _ _
    apply refines_after_consume (by decide)
    intro colon later begun
    apply refines_bind (refines_check _)
    intro indented last _ keeps
    apply refines_ite
    · intro _
      apply refines_bind (smaller.block depth (keeps begun))
      exact fun _ _ _ keepsBody => refines_spanned start _ (keepsBody (keeps begun))
    · intro _
      apply refines_bind (smaller.expression depth last)
      intro value behind _ keepsValue
      apply refines_bind (refines_pure _)
      exact fun _ _ _ same => refines_spanned start _ (same (keepsValue (keeps begun)))

theorem block_step (smaller : ReadersRefine all limit fuel) (depth : Nat) {feed : Feed}
    (begun : feed.Begun) :
    Refines all (callRoom limit depth) feed (Buffered.block limit (fuel + 1) depth)
      (Parse.block limit (fuel + 1) depth) := by
  rw [Buffered.block, Parse.block]
  apply refines_calling
  apply refines_bind refines_current
  intro start behind _ keeps
  apply refines_after_enter
  intro within
  have deeper := call_room_enter within
  apply refines_after_accept (by decide)
  · apply refines_bind (refines_mono (smaller.statement (depth + 1) behind) (by
      unfold callRoom at deeper ⊢; omega))
    intro first after _ keepsFirst
    apply refines_bind (refines_pure _)
    exact fun _ _ _ same => refines_spanned start _ (same (keepsFirst (keeps begun)))
  · intro newline inside _
    apply refines_bind refines_skip_newlines
    intro _ between _ _
    apply refines_after_consume (by decide)
    intro indent later _
    apply refines_bind (refines_mono (smaller.blockStatements (depth + 1) later) (by
      unfold callRoom at deeper ⊢; omega))
    intro statements last _ _
    apply refines_after_consume (by decide)
    intro dedent after begun
    apply refines_bind (refines_pure _)
    exact fun _ _ _ same => refines_spanned start _ (same begun)

theorem block_statements_step (smaller : ReadersRefine all limit fuel) (depth : Nat)
    (feed : Feed) :
    Refines all (callRoom limit depth + 2) feed
      (Buffered.blockStatements limit (fuel + 1) depth)
      (Parse.blockStatements limit (fuel + 1) depth) := by
  rw [Buffered.blockStatements, Parse.blockStatements]
  apply refines_bind refines_current
  intro token behind _ _
  apply refines_ite
  · intro _
    exact refines_pure _
  · intro _
    apply refines_bind (smaller.statement depth behind)
    intro first between _ _
    apply refines_bind refines_skip_newlines
    intro _ later _ _
    exact refines_bind (smaller.blockStatements depth later) fun _ _ _ _ => refines_pure _

theorem statement_step (smaller : ReadersRefine all limit fuel) (depth : Nat) (feed : Feed) :
    Refines all (callRoom limit depth + 2) feed (Buffered.statement limit (fuel + 1) depth)
      (Parse.statement limit (fuel + 1) depth) := by
  rw [Buffered.statement, Parse.statement]
  apply refines_calling
  apply refines_bind refines_skip_newlines
  intro _ front _ _
  apply refines_bind refines_current
  intro token behind _ _
  cases token.kind with
  | letWord => exact smaller.declaration depth behind
  | whileWord => exact smaller.conditioned depth _ behind
  | ifWord => exact smaller.conditioned depth _ behind
  | fnWord =>
      apply refines_bind refines_second
      intro following later _ _
      apply refines_ite
      · intro _
        exact smaller.definition depth later
      · intro _
        exact smaller.simpleStatement depth token later
  | _ => exact smaller.simpleStatement depth token behind

theorem simple_statement_step (smaller : ReadersRefine all limit fuel) (depth : Nat)
    (start : Token) (feed : Feed) :
    Refines all (callRoom limit depth + 1) feed
      (Buffered.simpleStatement limit (fuel + 1) depth start)
      (Parse.simpleStatement limit (fuel + 1) depth start) := by
  rw [Buffered.simpleStatement, Parse.simpleStatement]
  apply refines_proper
  intro proper
  apply refines_bind (refines_mono (smaller.expression depth feed) (by omega))
  intro subject between run _
  have brackets := ((readers_bracket limit fuel).expression depth proper _ _ run).2
  apply refines_after_accept_open (by decide)
  · apply refines_after_accept_open (by decide)
    · exact refines_bind (refines_pure _) fun _ _ _ _ => refines_ended _
    · intro mark behind begun
      exact refines_bind (refines_span_from start begun) fun _ _ _ _ => refines_ended _
  · intro sign behind _
    apply refines_bind (refines_mono (brackets.convertible behind) (by unfold callRoom; omega))
    intro target later _ _
    apply refines_bind (refines_mono (smaller.expression depth later) (by omega))
    intro value last _ _
    exact refines_ended _

theorem declaration_step (smaller : ReadersRefine all limit fuel) (depth : Nat) (feed : Feed) :
    Refines all (callRoom limit depth + 1) feed (Buffered.declaration limit (fuel + 1) depth)
      (Parse.declaration limit (fuel + 1) depth) := by
  rw [Buffered.declaration, Parse.declaration]
  apply refines_calling
  apply refines_bind refines_advance
  intro start inside _ _
  apply refines_bind (smaller.pattern depth inside)
  intro target between _ _
  apply refines_after_consume (by decide)
  intro sign later begun
  apply refines_bind (smaller.expression depth later)
  intro value last _ keeps
  apply refines_bind (refines_span_from start (keeps begun))
  intro span after _ _
  exact refines_ended _

theorem conditioned_step (smaller : ReadersRefine all limit fuel) (depth : Nat)
    (make : Span → Expression → Block → Statement) (feed : Feed) :
    Refines all (callRoom limit depth + 1) feed
      (Buffered.conditioned limit (fuel + 1) depth make)
      (Parse.conditioned limit (fuel + 1) depth make) := by
  rw [Buffered.conditioned, Parse.conditioned]
  apply refines_calling
  apply refines_bind refines_advance
  intro start inside _ _
  apply refines_bind (smaller.expression depth inside)
  intro condition between _ _
  apply refines_after_consume (by decide)
  intro colon later begun
  apply refines_bind (smaller.block depth begun)
  exact fun _ _ _ keeps => refines_spanned start _ (keeps begun)

theorem definition_step (smaller : ReadersRefine all limit fuel) (depth : Nat) (feed : Feed) :
    Refines all (callRoom limit depth + 1) feed (Buffered.definition limit (fuel + 1) depth)
      (Parse.definition limit (fuel + 1) depth) := by
  rw [Buffered.definition, Parse.definition]
  apply refines_calling
  apply refines_bind refines_advance
  intro start inside _ _
  apply refines_after_consume (by decide)
  intro named listed _
  cases named.name? with
  | none => exact refines_unexpected _
  | some name =>
      apply refines_bind (parameters_refines fuel)
      intro names between _ _
      apply refines_after_consume (by decide)
      intro colon later begun
      apply refines_bind (smaller.block depth begun)
      exact fun _ _ _ keeps => refines_spanned start _ (keeps begun)

end ReadersRefine

/-- Reading from a buffer refines reading from a feed, and the level of nesting bounds its calls. -/
theorem readers_refine (all : List Token) (limit fuel : Nat) : ReadersRefine all limit fuel := by
  induction fuel with
  | zero =>
      constructor <;> intros
      case expression => rw [Buffered.expression, Parse.expression]; exact refines_out_of_fuel
      case rebinding => rw [Buffered.rebinding, Parse.rebinding]; exact refines_out_of_fuel
      case conditional => rw [Buffered.conditional, Parse.conditional]; exact refines_out_of_fuel
      case binary => rw [Buffered.binary, Parse.binary]; exact refines_out_of_fuel
      case binaryRest => rw [Buffered.binaryRest, Parse.binaryRest]; exact refines_out_of_fuel
      case unary => rw [Buffered.unary, Parse.unary]; exact refines_out_of_fuel
      case power => rw [Buffered.power, Parse.power]; exact refines_out_of_fuel
      case postfixed => rw [Buffered.postfixed, Parse.postfixed]; exact refines_out_of_fuel
      case postfixRest => rw [Buffered.postfixRest, Parse.postfixRest]; exact refines_out_of_fuel
      case callArguments =>
          rw [Buffered.callArguments, Parse.callArguments]
          exact refines_out_of_fuel
      case moreExpressions =>
          rw [Buffered.moreExpressions, Parse.moreExpressions]
          exact refines_out_of_fuel
      case primary => rw [Buffered.primary, Parse.primary]; exact refines_out_of_fuel
      case group => rw [Buffered.group, Parse.group]; exact refines_out_of_fuel
      case functionLiteral =>
          rw [Buffered.functionLiteral, Parse.functionLiteral]
          exact refines_out_of_fuel
      case block => rw [Buffered.block, Parse.block]; exact refines_out_of_fuel
      case blockStatements =>
          rw [Buffered.blockStatements, Parse.blockStatements]
          exact refines_out_of_fuel
      case statement => rw [Buffered.statement, Parse.statement]; exact refines_out_of_fuel
      case simpleStatement =>
          rw [Buffered.simpleStatement, Parse.simpleStatement]
          exact refines_out_of_fuel
      case declaration => rw [Buffered.declaration, Parse.declaration]; exact refines_out_of_fuel
      case conditioned => rw [Buffered.conditioned, Parse.conditioned]; exact refines_out_of_fuel
      case definition => rw [Buffered.definition, Parse.definition]; exact refines_out_of_fuel
      case pattern => rw [Buffered.pattern, Parse.pattern]; exact refines_out_of_fuel
      case tuplePattern => rw [Buffered.tuplePattern, Parse.tuplePattern]; exact refines_out_of_fuel
      case morePatterns => rw [Buffered.morePatterns, Parse.morePatterns]; exact refines_out_of_fuel
  | succ fuel smaller =>
      exact ⟨smaller.expression_step, smaller.rebinding_step, smaller.conditional_step,
        smaller.binary_step, smaller.binary_rest_step, smaller.unary_step, smaller.power_step,
        smaller.postfixed_step, smaller.postfix_rest_step, smaller.call_arguments_step,
        smaller.more_expressions_step, smaller.primary_step, smaller.group_step,
        smaller.function_literal_step, fun depth _ => smaller.block_step depth,
        smaller.block_statements_step, smaller.statement_step, smaller.simple_statement_step,
        smaller.declaration_step, smaller.conditioned_step, smaller.definition_step,
        smaller.pattern_step, smaller.tuple_pattern_step, smaller.more_patterns_step⟩

section Programs

variable {all : List Token} {limit : Nat}

theorem program_statements_refines (fuel : Nat) (feed : Feed) :
    Refines all (callRoom limit 0 + 2) feed (Buffered.programStatements limit fuel)
      (Parse.programStatements limit fuel) := by
  induction fuel generalizing feed with
  | zero => exact refines_out_of_fuel
  | succ fuel induction =>
      rw [Buffered.programStatements, Parse.programStatements]
      apply refines_bind refines_current
      intro token behind _ _
      apply refines_ite
      · intro _
        exact refines_pure _
      · intro _
        apply refines_bind ((readers_refine all limit fuel).statement 0 behind)
        intro first between _ _
        apply refines_bind refines_skip_newlines
        intro _ later _ _
        exact refines_bind (induction later) fun _ _ _ _ => refines_pure _

/-- Where nothing was taken, the range of a program ends with its first token. -/
theorem refines_at_span_first {room : Nat} {feed : Feed} {buffer : Buffer} {start : Token}
    (matched : Matches all feed buffer) (first : (closedBy buffer.file all)[0]? = some start)
    (present : 0 < buffer.tokens.length) :
    RefinesAt all room feed buffer (Buffered.spanFrom start) (Parse.spanFrom start) := by
  rcases matched.last_taken with ⟨isNone, place⟩ | ⟨token, _, isLast, _, _⟩
  · have stands : buffer.tokens[buffer.position - 1]? = some start := by
      rw [place, matched.stored.get present, first]
    rw [RefinesAt, Buffered.run_span_from start stands, Parse.run_span_from, isNone]
    exact ⟨.none room buffer, .value matched id⟩
  · have begun : feed.Begun := by
      rw [Feed.Begun, isLast]
      rfl
    exact refines_span_from start begun buffer matched

/-- A program is read through a buffer as it is read from a feed. -/
theorem program_refines (tokens : List Token) (file : Option String) (limit fuel : Nat) :
    RefinesAt tokens (callRoom limit 0 + 3) (.ofTokens tokens none file) (.ofTokens tokens file)
      (Buffered.program limit fuel) (Parse.program limit fuel) := by
  rw [Buffered.program, Parse.program]
  apply refines_at_calling
  have matched : Matches tokens (.ofTokens tokens none file)
      (Buffer.ofTokens tokens file).entered := { Matches.start tokens file with }
  apply refines_at_after_current matched
  intro start isCurrent
  obtain ⟨filled, served, _⟩ := matched.fill (Buffer.ofTokens tokens file).entered.position
  have present := filled.in_range served (Nat.le_refl _)
  obtain ⟨found, isFound, first⟩ := filled.current
  cases isFound.symm.trans isCurrent
  apply refines_at_bind (refines_skip_newlines _ filled)
  intro _ front later _ _ matched grown
  apply refines_at_bind (program_statements_refines fuel front _ matched)
  intro statements last after _ _ matched further
  have stays := grown.trans further
  apply refines_at_bind (refines_at_span_first matched (by rw [stays.file]; exact first)
    (Nat.lt_of_lt_of_le present stays.grows))
  exact fun span behind buffer _ _ matched _ => refines_pure _ buffer matched

end Programs

/-- What comes to light is the same, and no index was out of range. -/
theorem ComesTo.outcome_eq {all : List Token} {feed : Feed} {α : Type}
    {outcome : Except Halt (α × Feed)} {found : Except Buffer.Fault α × Buffer}
    (comes : ComesTo all feed outcome found) :
    found.1 = (outcome.map (·.1)).mapError .halt := by
  cases comes with
  | value => rfl
  | halt => rfl

/-- A statement takes tokens from the front. -/
theorem statement_takes {limit fuel depth : Nat} {feed after : Feed} {tree : Statement}
    (proper : feed.Proper) (run : (Parse.statement limit fuel depth).run feed = .ok (tree, after)) :
    ∃ taken, taken ≠ [] ∧ feed.rest = taken ++ after.rest := by
  obtain ⟨_, taken, derives⟩ := (readers_sound limit fuel).statement depth proper _ _ run
  exact ⟨taken, derives.nonempty rfl, derives.rest_eq⟩

/-- Whatever the tokens are, reading them gives a program or fails with an error of the grammar.
Through a buffer the same is read, so that no index is out of range, and the limit on nesting alone
bounds the calls that are active at once. Every statement takes a token. -/
theorem Program.of_tokens_bounded (tokens : List Token) (file : Option String) (limits : Limits) :
    ReadsOrRefuses (Program.ofTokens tokens file limits) ∧
      (Program.ofBuffer tokens file limits).1 =
        (Program.ofTokens tokens file limits).mapError .halt ∧
      (Program.ofBuffer tokens file limits).2.peak ≤ 16 * (limits.nesting + 1) ∧
      ∀ (limit fuel depth : Nat) (feed after : Feed) (tree : Statement), feed.Proper →
        (Parse.statement limit fuel depth).run feed = .ok (tree, after) →
        ∃ taken, taken ≠ [] ∧ feed.rest = taken ++ after.rest := by
  obtain ⟨stays, comes⟩ := program_refines tokens file limits.nesting (Parse.fuelFor tokens.length)
  refine ⟨Program.of_tokens_reads_or_refuses tokens file limits, ?_, ?_, ?_⟩
  · exact comes.outcome_eq
  · have peak := stays.peak
    unfold callRoom at peak
    have bound : max 0 (0 + (16 * (limits.nesting - 0) + 1 + 3)) ≤ 16 * (limits.nesting + 1) := by
      omega
    exact peak.trans bound
  · exact fun _ _ _ _ _ _ proper run => statement_takes proper run

/-- Behind `a` comes the end of a block that never began, and tokens follow the end of input. -/
theorem stray_tokens_bounded :
    let mark (kind : TokenClass) : Token := ⟨kind, .nothing, "", ⟨none, .start, .start⟩⟩
    let name (text : String) : Token := { mark .identifier with payload := .text text }
    let tokens := [name "a", mark .dedent, mark .endOfInput, name "b"]
    let feed := Feed.ofTokens tokens none none
    (Program.ofBuffer tokens none { nesting := 1 }).2.peak ≤ 16 * (1 + 1) ∧
      feed.Proper ∧
      (Parse.statement 1 100 0).run feed =
        .ok (.evaluate ⟨none, .start, .start⟩ (.identifier ⟨none, .start, .start⟩ "a") false,
          ⟨some (name "a"), [mark .dedent, mark .endOfInput, name "b"], feed.ending⟩) ∧
      ∃ taken, taken ≠ [] ∧ tokens = taken ++ [mark .dedent, mark .endOfInput, name "b"] := by
  intro mark name tokens feed
  have proper : feed.Proper := by
    rintro token ⟨⟩
    rfl
  have read : (Parse.statement 1 100 0).run feed =
      .ok (.evaluate ⟨none, .start, .start⟩ (.identifier ⟨none, .start, .start⟩ "a") false,
        ⟨some (name "a"), [mark .dedent, mark .endOfInput, name "b"], feed.ending⟩) := by
    with_unfolding_all rfl
  obtain ⟨_, _, peak, takes⟩ := Program.of_tokens_bounded tokens none { nesting := 1 }
  exact ⟨peak, proper, read, takes 1 100 0 feed _ _ proper read⟩

end LayoutScript
