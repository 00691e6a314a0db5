import LayoutScript.Proofs.Tree.Spelling

/-!
What readers of expressions give from tokens. Every reader is followed along the tokens of what
it reads; a reader that continues with what it has read so far hands over to the part of itself
that looks for more operators. Reading ends at a token that continues no expression, or behind an
indented body.
-/

namespace LayoutScript

open Parse

namespace Feed

/-- The feed with tokens put in front of it. -/
def before (feed : Feed) (tokens : List Token) : Feed := { feed with rest := tokens ++ feed.rest }

/-- The feed once these tokens in front of it were taken. -/
def past (feed : Feed) (tokens : List Token) : Feed :=
  { feed with previous := tokens.getLast?.or feed.previous }

theorem past_append (feed : Feed) (first second : List Token) :
    feed.past (first ++ second) = (feed.past first).past second := by
  simp [past, List.getLast?_append, Option.or_assoc]

theorem current_before {feed : Feed} {tokens : List Token} {token : Token}
    (first : tokens.head? = some token) (rest : List Token) :
    (feed.before (tokens ++ rest)).current = .ok token := by
  obtain ⟨later, rfl⟩ := List.head?_eq_some_iff.1 first
  rfl

/-- No indented body has just ended behind tokens of which none is a dedent. -/
theorem past_not_closed {feed : Feed} {tokens rest : List Token} (nonempty : 0 < tokens.length)
    (level : ∀ token ∈ tokens, token.kind ≠ .dedent) :
    ((feed.past tokens).before rest).blockClosed = false := by
  have present := List.ne_nil_of_length_pos nonempty
  have last := List.getLast?_eq_some_getLast present
  have kind := level _ (List.getLast_mem present)
  simp [blockClosed, past, before, last, kind]

end Feed

namespace Parse

variable {α β : Type} {feed : Feed} {token : Token} {rest : List Token} {kind : TokenClass}

theorem run_bind_ok {reader : Parse α} {next : α → Parse β} {after : Feed} {value : α}
    (run : reader.run feed = .ok (value, after)) :
    (reader >>= next).run feed = (next value).run after := by
  rw [StateT.run_bind, run]
  rfl

theorem run_bind_error {reader : Parse α} {next : α → Parse β} {halt : Halt}
    (run : reader.run feed = .error halt) : (reader >>= next).run feed = .error halt := by
  rw [StateT.run_bind, run]
  rfl

theorem run_current (isCurrent : feed.current = .ok token) :
    current.run feed = .ok (token, feed) := by
  change (ofExcept feed.current).run feed = _
  rw [isCurrent]
  rfl

theorem run_first : current.run (feed.before (token :: rest)) =
    .ok (token, feed.before (token :: rest)) :=
  run_current rfl

theorem run_advance (notEnd : token.kind ≠ .endOfInput) :
    advance.run (feed.before (token :: rest)) = .ok (token, (feed.past [token]).before rest) := by
  change Except.ok (token, (feed.before (token :: rest)).advance) = _
  simp only [Feed.advance, Feed.before, List.cons_append, if_neg notEnd]
  rfl

theorem run_check (isCurrent : feed.current = .ok token) (kind : TokenClass) :
    (check kind).run feed = .ok (token.kind == kind, feed) := by
  unfold check
  rw [run_bind_ok (run_current isCurrent)]
  rfl

theorem run_accept (isKind : token.kind = kind) (notEnd : kind ≠ .endOfInput) :
    (accept kind).run (feed.before (token :: rest)) =
      .ok (some token, (feed.past [token]).before rest) := by
  have taken : token.kind ≠ .endOfInput := by rwa [isKind]
  unfold accept
  rw [run_bind_ok run_first, if_pos isKind, run_bind_ok (run_advance taken)]
  rfl

theorem run_accept_none (isCurrent : feed.current = .ok token) (other : token.kind ≠ kind) :
    (accept kind).run feed = .ok (none, feed) := by
  unfold accept
  rw [run_bind_ok (run_current isCurrent), if_neg other]
  rfl

theorem run_block_closed : blockClosed.run feed = .ok (feed.blockClosed, feed) := rfl

theorem run_accept_open (isOpen : (feed.before (token :: rest)).blockClosed = false)
    (isKind : token.kind = kind) (notEnd : kind ≠ .endOfInput) :
    (acceptOpen kind).run (feed.before (token :: rest)) =
      .ok (some token, (feed.past [token]).before rest) := by
  unfold acceptOpen
  rw [run_bind_ok run_block_closed, isOpen]
  exact run_accept isKind notEnd

theorem run_accept_open_none (isCurrent : feed.current = .ok token)
    (other : feed.blockClosed = true ∨ token.kind ≠ kind) :
    (acceptOpen kind).run feed = .ok (none, feed) := by
  unfold acceptOpen
  rw [run_bind_ok run_block_closed]
  cases closed : feed.blockClosed with
  | true => rfl
  | false =>
      rw [closed] at other
      exact run_accept_none isCurrent (by simpa using other)

theorem run_consume {expected : Expectation} (isKind : token.kind = kind)
    (notEnd : kind ≠ .endOfInput) :
    (consume kind expected).run (feed.before (token :: rest)) =
      .ok (token, (feed.past [token]).before rest) := by
  have taken : token.kind ≠ .endOfInput := by rwa [isKind]
  unfold consume
  rw [run_bind_ok run_first, if_pos isKind]
  exact run_advance taken

theorem run_enter {limit depth : Nat} (within : depth + 1 ≤ limit) :
    (enter limit depth token).run feed = .ok ((), feed) := by
  unfold enter
  rw [if_neg (by omega)]
  rfl

theorem run_span_from (start : Token) :
    (spanFrom start).run feed = .ok (start.span.join (feed.previous.getD start).span, feed) := rfl

end Parse

/-- The rank of the operators that a token of a class continues an expression with. -/
def TokenClass.ties : TokenClass → Option Nat
  | .walrus => some 0
  | .question => some 1
  | .doubleStar => some 9
  | .openParen | .dot => some 10
  | kind => do
      let operator ← BinaryOperator.ofTokenClass? kind
      return (← operator.precedence?) + 1

/-- Nothing of some rank or above continues an expression here. -/
def Feed.Stops (rank : Nat) (feed : Feed) : Prop :=
  ∃ token, feed.current = .ok token ∧
    (feed.blockClosed = true ∨ ∀ tie, token.kind.ties = some tie → tie < rank)

theorem Feed.Stops.mono {feed : Feed} {rank other : Nat} (stops : feed.Stops rank)
    (ordered : rank ≤ other) : feed.Stops other := by
  obtain ⟨token, isCurrent, behind⟩ := stops
  refine ⟨token, isCurrent, behind.imp_right fun lower tie tied => ?_⟩
  exact Nat.lt_of_lt_of_le (lower tie tied) ordered

/-- No operator is of the rank between powers and binary operators. -/
theorem Feed.Stops.below_unary {feed : Feed} (stops : feed.Stops 9) : feed.Stops 8 := by
  obtain ⟨token, isCurrent, behind⟩ := stops
  refine ⟨token, isCurrent, behind.imp_right fun lower tie tied => ?_⟩
  have low := lower tie tied
  have apart : tie ≠ 8 := by
    rintro rfl
    revert tied
    cases token.kind <;> decide
  omega

theorem Feed.stops_of_untied {feed : Feed} {token : Token} {rank : Nat}
    (isCurrent : feed.current = .ok token) (untied : token.kind.ties = none) : feed.Stops rank := by
  refine ⟨token, isCurrent, .inr fun tie tied => ?_⟩
  rw [untied] at tied
  cases tied

theorem Feed.stops_of_tied {feed : Feed} {token : Token} {rank tie : Nat}
    (isCurrent : feed.current = .ok token) (tied : token.kind.ties = some tie)
    (lower : tie < rank) : feed.Stops rank := by
  refine ⟨token, isCurrent, .inr fun other same => ?_⟩
  rw [tied] at same
  cases same
  exact lower

section Stopping

variable {feed : Feed} {rank limit fuel depth : Nat}

theorem accept_open_stops {kind : TokenClass} {tie : Nat} (stops : feed.Stops rank)
    (tied : kind.ties = some tie) (ordered : rank ≤ tie) :
    (acceptOpen kind).run feed = .ok (none, feed) := by
  obtain ⟨token, isCurrent, behind⟩ := stops
  apply run_accept_open_none isCurrent
  refine behind.imp_right fun lower same => ?_
  have low := lower tie (by rw [same, tied])
  omega

theorem binary_token_ties {token : Token} {operator : BinaryOperator} {strength : Nat}
    (spelled : binary? token = some (operator, strength)) :
    operator.precedence? = some strength ∧ token.kind = operator.tokenClass ∧
      token.kind.ties = some (strength + 1) := by
  obtain ⟨found, ofKind, rest⟩ := Option.bind_eq_some_iff.1 spelled
  obtain ⟨height, binds, same⟩ := Option.bind_eq_some_iff.1 rest
  cases same
  have kind := (BinaryOperator.ofTokenClass?_eq_some_iff _ _).1 ofKind
  refine ⟨binds, kind, ?_⟩
  rw [kind]
  cases operator <;> simp_all [BinaryOperator.precedence?, BinaryOperator.tokenClass,
    TokenClass.ties, BinaryOperator.ofTokenClass?]

theorem binary_rest_stops {least : Nat} (left : Expression) (stops : feed.Stops rank)
    (ordered : rank ≤ max least 1 + 1) :
    (binaryRest limit (fuel + 1) depth least left).run feed = .ok (left, feed) := by
  obtain ⟨token, isCurrent, behind⟩ := stops
  rw [binaryRest, run_bind_ok (run_current isCurrent)]
  cases spelled : binary? token with
  | none => rfl
  | some found =>
      obtain ⟨operator, strength⟩ := found
      obtain ⟨binds, _, tied⟩ := binary_token_ties spelled
      have bounds := BinaryOperator.precedence_bounds binds
      dsimp only
      rw [run_bind_ok run_block_closed]
      rcases behind with closed | lower
      · rw [closed, if_pos (by simp)]
        rfl
      · have low := lower _ tied
        have weak : strength < least := by omega
        rw [if_pos (by simp [weak])]
        rfl

theorem postfix_rest_stops (subject : Expression) (stops : feed.Stops 10) :
    (postfixRest limit (fuel + 1) depth subject).run feed = .ok (subject, feed) := by
  obtain ⟨token, isCurrent, behind⟩ := stops
  rw [postfixRest, run_bind_ok run_block_closed]
  rcases behind with closed | lower
  · rw [closed]
    rfl
  · cases feed.blockClosed with
    | true => rfl
    | false =>
        have notOpen : token.kind ≠ .openParen := by
          intro same
          exact Nat.lt_irrefl _ (lower 10 (by rw [same]; rfl))
        have notDot : token.kind ≠ .dot := by
          intro same
          exact Nat.lt_irrefl _ (lower 10 (by rw [same]; rfl))
        rw [if_neg (by simp), run_bind_ok (run_current isCurrent), if_neg notOpen, if_neg notDot]
        rfl

end Stopping

/-- A reader gives a value of some kind and takes tokens in front of a feed. -/
def Gives {α : Type} (reader : Parse α) (feed : Feed) (tokens rest : List Token)
    (meets : α → Prop) : Prop :=
  ∃ found, reader.run (feed.before (tokens ++ rest)) =
    .ok (found, (feed.past tokens).before rest) ∧ meets found

/-- Two expressions that differ at most in their places. -/
def Expression.Like (tree found : Expression) : Prop := found.unplaced = tree.unplaced

theorem Expression.Like.eq {tree found : Expression} (like : tree.Like found) :
    found.unplaced = tree.unplaced := like

/-- A reader gives a tree from its tokens if nothing behind them continues it. There is fuel for
the tokens, up to some slack, and there are enough levels left for the nesting. -/
def ReadsTree (limit : Nat) (tree : Expression) (tokens : List Token) (nesting : Nat)
    (reader : Nat → Nat → Parse Expression) (slack stop : Nat) : Prop :=
  ∀ (fuel depth : Nat) (feed : Feed) (rest : List Token), 24 * tokens.length ≤ fuel + slack →
    depth + nesting ≤ limit → ((feed.past tokens).before rest).Stops stop →
    Gives (reader fuel depth) feed tokens rest tree.Like

/-- A reader takes the tokens of a tree and goes on as another reader that has the tree. -/
def ReadsOn (limit : Nat) (tree : Expression) (tokens : List Token) (nesting : Nat)
    (reader : Nat → Nat → Parse Expression)
    (onward : Nat → Nat → Expression → Parse Expression) (slack stop : Nat) : Prop :=
  ∀ (fuel depth : Nat) (feed : Feed) (rest : List Token), 24 * tokens.length ≤ fuel + slack →
    depth + nesting ≤ limit → ((feed.past tokens).before rest).Stops stop →
    ∃ found less, (reader fuel depth).run (feed.before (tokens ++ rest)) =
        (onward less depth found).run ((feed.past tokens).before rest) ∧
      tree.Like found ∧ fuel ≤ less + tokens.length

section Reading

variable {limit nesting : Nat} {tree : Expression} {tokens : List Token}

theorem ReadsTree.mono {reader : Nat → Nat → Parse Expression} {slack stop other : Nat}
    (reads : ReadsTree limit tree tokens nesting reader slack stop) (ordered : other ≤ stop) :
    ReadsTree limit tree tokens nesting reader slack other :=
  fun fuel depth feed rest enough within stops =>
    reads fuel depth feed rest enough within (stops.mono ordered)

theorem ReadsOn.mono {reader : Nat → Nat → Parse Expression}
    {onward : Nat → Nat → Expression → Parse Expression} {slack stop other : Nat}
    (reads : ReadsOn limit tree tokens nesting reader onward slack stop) (ordered : other ≤ stop) :
    ReadsOn limit tree tokens nesting reader onward slack other :=
  fun fuel depth feed rest enough within stops =>
    reads fuel depth feed rest enough within (stops.mono ordered)

/-- Fuel for tokens is not used up at once. -/
theorem fuel_succ {fuel slack length : Nat} (nonempty : 0 < length) (small : slack ≤ 8)
    (enough : 24 * length ≤ fuel + slack) : ∃ less, fuel = less + 1 := by
  refine ⟨fuel - 1, ?_⟩
  omega

section Descent

variable {stop : Nat} (nonempty : 0 < tokens.length)

include nonempty

theorem reads_on_postfixed (reads : ReadsTree limit tree tokens nesting (primary limit) 7 stop) :
    ReadsOn limit tree tokens nesting (postfixed limit) (postfixRest limit) 6 stop := by
  intro fuel depth feed rest enough within stops
  obtain ⟨less, rfl⟩ := fuel_succ nonempty (by omega) enough
  obtain ⟨found, run, like⟩ := reads less depth feed rest (by omega) within stops
  refine ⟨found, less, ?_, like, by omega⟩
  rw [postfixed, run_bind_ok run]

theorem reads_postfixed
    (reads : ReadsOn limit tree tokens nesting (postfixed limit) (postfixRest limit) 6 stop) :
    ReadsTree limit tree tokens nesting (postfixed limit) 6 (min stop 10) := by
  intro fuel depth feed rest enough within stops
  obtain ⟨found, less, run, like, spent⟩ := reads fuel depth feed rest enough within
    (stops.mono (by omega))
  obtain ⟨last, rfl⟩ : ∃ last, less = last + 1 := ⟨less - 1, by omega⟩
  refine ⟨found, ?_, like⟩
  rw [run, postfix_rest_stops found (stops.mono (by omega))]

theorem reads_power (reads : ReadsTree limit tree tokens nesting (postfixed limit) 6 stop) :
    ReadsTree limit tree tokens nesting (power limit) 5 (min stop 9) := by
  intro fuel depth feed rest enough within stops
  obtain ⟨less, rfl⟩ := fuel_succ nonempty (by omega) enough
  obtain ⟨found, run, like⟩ := reads less depth feed rest (by omega) within (stops.mono (by omega))
  refine ⟨found, ?_, like⟩
  rw [power, run_bind_ok run, run_bind_ok (accept_open_stops stops rfl (by omega))]
  rfl

theorem reads_unary (reads : ReadsTree limit tree tokens nesting (power limit) 5 stop)
    (first : ∀ token ∈ tokens.head?, UnaryOperator.ofTokenClass? token.kind = none) :
    ReadsTree limit tree tokens nesting (unary limit) 4 stop := by
  intro fuel depth feed rest enough within stops
  obtain ⟨less, rfl⟩ := fuel_succ nonempty (by omega) enough
  obtain ⟨found, run, like⟩ := reads less depth feed rest (by omega) within stops
  obtain ⟨token, others, rfl⟩ := List.exists_cons_of_length_pos nonempty
  have plain := first token (by simp)
  refine ⟨found, ?_, like⟩
  rw [List.cons_append, unary, run_bind_ok run_first]
  simp only [plain]
  exact run

theorem reads_on_binary (reads : ReadsTree limit tree tokens nesting (unary limit) 4 stop)
    (least : Nat) :
    ReadsOn limit tree tokens nesting (binary limit · · least) (binaryRest limit · · least) 3
      stop := by
  intro fuel depth feed rest enough within stops
  obtain ⟨less, rfl⟩ := fuel_succ nonempty (by omega) enough
  obtain ⟨found, run, like⟩ := reads less depth feed rest (by omega) within stops
  refine ⟨found, less, ?_, like, by omega⟩
  dsimp only
  rw [binary, run_bind_ok run]

theorem reads_binary {least : Nat}
    (reads : ReadsOn limit tree tokens nesting (binary limit · · least)
      (binaryRest limit · · least) 3 stop) :
    ReadsTree limit tree tokens nesting (binary limit · · least) 3
      (min stop (max least 1 + 1)) := by
  intro fuel depth feed rest enough within stops
  obtain ⟨found, less, run, like, spent⟩ := reads fuel depth feed rest enough within
    (stops.mono (by omega))
  obtain ⟨last, rfl⟩ : ∃ last, less = last + 1 := ⟨less - 1, by omega⟩
  refine ⟨found, ?_, like⟩
  rw [run]
  exact binary_rest_stops found stops (by omega)

theorem reads_conditional
    (reads : ReadsTree limit tree tokens nesting (binary limit · · 0) 3 stop) :
    ReadsTree limit tree tokens nesting (conditional limit) 2 (min stop 1) := by
  intro fuel depth feed rest enough within stops
  obtain ⟨less, rfl⟩ := fuel_succ nonempty (by omega) enough
  obtain ⟨found, run, like⟩ := reads less depth feed rest (by omega) within (stops.mono (by omega))
  refine ⟨found, ?_, like⟩
  rw [conditional, run_bind_ok run, run_bind_ok (accept_open_stops stops rfl (by omega))]
  rfl

theorem reads_rebinding (reads : ReadsTree limit tree tokens nesting (conditional limit) 2 stop) :
    ReadsTree limit tree tokens nesting (rebinding limit) 1 0 := by
  intro fuel depth feed rest enough within stops
  obtain ⟨less, rfl⟩ := fuel_succ nonempty (by omega) enough
  obtain ⟨found, run, like⟩ := reads less depth feed rest (by omega) within (stops.mono (by omega))
  refine ⟨found, ?_, like⟩
  rw [rebinding, run_bind_ok run, run_bind_ok (accept_open_stops stops rfl (by omega))]
  rfl

theorem reads_expression (reads : ReadsTree limit tree tokens nesting (rebinding limit) 1 stop) :
    ReadsTree limit tree tokens (nesting + 1) (expression limit) 0 stop := by
  intro fuel depth feed rest enough within stops
  obtain ⟨less, rfl⟩ := fuel_succ nonempty (by omega) enough
  obtain ⟨found, run, like⟩ := reads less (depth + 1) feed rest (by omega) (by omega) stops
  obtain ⟨token, others, rfl⟩ := List.exists_cons_of_length_pos nonempty
  refine ⟨found, ?_, like⟩
  rw [List.cons_append, expression, run_bind_ok run_first, run_bind_ok (run_enter (by omega))]
  exact run

end Descent

/-- What can be read as a part of a rank. -/
structure ReadsAt (limit rank : Nat) (tree : Expression) (tokens : List Token) (nesting : Nat) :
    Prop where
  rebinding : ReadsTree limit tree tokens nesting (rebinding limit) 1 0
  binary : 2 ≤ rank → ∀ least < rank,
    ReadsOn limit tree tokens nesting (binary limit · · least) (binaryRest limit · · least) 3
      (min (rank + 1) 8)
  unary : 8 ≤ rank → ReadsTree limit tree tokens nesting (unary limit) 4 8
  power : 9 ≤ rank → ReadsTree limit tree tokens nesting (power limit) 5 9
  postfixed : 10 ≤ rank →
    ReadsOn limit tree tokens nesting (postfixed limit) (postfixRest limit) 6 11

theorem ReadsAt.loosen {rank least : Nat} (reads : ReadsAt limit rank tree tokens nesting)
    (ordered : least ≤ rank) : ReadsAt limit least tree tokens nesting where
  rebinding := reads.rebinding
  binary := fun high bound low =>
    (reads.binary (by omega) bound (by omega)).mono (by omega)
  unary := fun high => reads.unary (by omega)
  power := fun high => reads.power (by omega)
  postfixed := fun high => reads.postfixed (by omega)

section Ranks

variable (nonempty : 0 < tokens.length)

theorem reads_at_rebinding {rank : Nat} (low : rank ≤ 1)
    (reads : ReadsTree limit tree tokens nesting (rebinding limit) 1 0) :
    ReadsAt limit rank tree tokens nesting where
  rebinding := reads
  binary := fun high => by omega
  unary := fun high => by omega
  power := fun high => by omega
  postfixed := fun high => by omega

include nonempty

theorem reads_at_binary {rank : Nat} (low : 2 ≤ rank) (high : rank ≤ 8)
    (reads : ∀ least < rank, ReadsOn limit tree tokens nesting (binary limit · · least)
      (binaryRest limit · · least) 3 (min (rank + 1) 8))
    (unary : 8 ≤ rank → ReadsTree limit tree tokens nesting (unary limit) 4 8) :
    ReadsAt limit rank tree tokens nesting := by
  have loosest := reads_binary nonempty (reads 0 (by omega))
  exact {
    rebinding := reads_rebinding nonempty (reads_conditional nonempty loosest)
    binary := fun _ => reads
    unary := unary
    power := fun _ => by omega
    postfixed := fun _ => by omega }

theorem reads_at_unary (reads : ReadsTree limit tree tokens nesting (unary limit) 4 8) :
    ReadsAt limit 8 tree tokens nesting :=
  reads_at_binary nonempty (by omega) (by omega)
    (fun least _ => reads_on_binary nonempty reads least) fun _ => reads

theorem reads_at_power (reads : ReadsTree limit tree tokens nesting (power limit) 5 9)
    (first : ∀ token ∈ tokens.head?, UnaryOperator.ofTokenClass? token.kind = none) :
    ReadsAt limit 9 tree tokens nesting := by
  have unary := (reads_unary nonempty reads first).mono (show 8 ≤ 9 by omega)
  have lower := reads_at_unary nonempty unary
  exact {
    rebinding := lower.rebinding
    binary := fun _ least _ => reads_on_binary nonempty unary least
    unary := fun _ => unary
    power := fun _ => reads
    postfixed := fun _ => by omega }

theorem reads_at_postfixed
    (reads : ReadsOn limit tree tokens nesting (postfixed limit) (postfixRest limit) 6 11)
    (first : ∀ token ∈ tokens.head?, UnaryOperator.ofTokenClass? token.kind = none) :
    ReadsAt limit 10 tree tokens nesting := by
  have power := reads_power nonempty (reads_postfixed nonempty reads)
  have lower := reads_at_power nonempty power first
  exact {
    rebinding := lower.rebinding
    binary := fun _ least _ => reads_on_binary nonempty (lower.unary (by omega)) least
    unary := fun _ => lower.unary (by omega)
    power := fun _ => power
    postfixed := fun _ => reads }

end Ranks

/-- In front of further expressions, or of the parenthesis that closes them, an expression
ends. -/
theorem stops_before_more {feed : Feed} {stop : Token} {moreTokens rest : List Token}
    (separated : ∀ token ∈ moreTokens.head?, token.kind = .comma)
    (isClose : stop.kind = .closeParen) :
    (feed.before (moreTokens ++ stop :: rest)).Stops 0 := by
  cases moreTokens with
  | nil => exact Feed.stops_of_untied rfl (by rw [isClose]; rfl)
  | cons next later =>
      have isComma : next.kind = .comma := separated next (by simp)
      exact Feed.stops_of_untied rfl (by rw [isComma]; rfl)

theorem run_check_false {feed : Feed} {kind : TokenClass} {rest : List Token}
    (nonempty : 0 < tokens.length) (first : ∀ token ∈ tokens.head?, token.kind ≠ kind) :
    (check kind).run (feed.before (tokens ++ rest)) =
      .ok (false, feed.before (tokens ++ rest)) := by
  obtain ⟨token, later, rfl⟩ := List.exists_cons_of_length_pos nonempty
  have other := first token (by simp)
  rw [List.cons_append, run_check rfl, beq_false_of_ne other]

/-- What further expressions behind commas are read as, in front of a closing parenthesis. -/
def ReadsMore (limit : Nat) (trees : List Expression) (tokens : List Token) (nesting : Nat) :
    Prop :=
  ∀ (fuel depth : Nat) (feed : Feed) (stop : Token) (rest : List Token),
    24 * tokens.length + 1 ≤ fuel → depth + nesting ≤ limit → stop.kind = .closeParen →
    Gives (moreExpressions limit fuel depth) feed tokens (stop :: rest) fun found =>
      Expression.unplacedAll found = Expression.unplacedAll trees

/-- What the arguments of a call are read as, parentheses included. -/
def ReadsArguments (limit : Nat) (trees : List Expression) (tokens : List Token) (nesting : Nat) :
    Prop :=
  ∀ (fuel depth : Nat) (feed : Feed) (rest : List Token), 24 * tokens.length ≤ fuel + 23 →
    depth + nesting ≤ limit →
    Gives (callArguments limit fuel depth) feed tokens rest fun found =>
      Expression.unplacedAll found = Expression.unplacedAll trees

section Primary

variable {span : Span} {start stop : Token} {trees : List Expression} {moreTokens : List Token}
  {moreNesting : Nat}

theorem reads_literal {token : Token} {value : Literal} (signed : token.sign = .literal value) :
    ReadsTree limit (.literal span value) [token] 0 (primary limit) 7 11 := by
  intro fuel depth feed rest enough _ _
  obtain ⟨less, rfl⟩ := fuel_succ (by simp) (by omega) enough
  have denotes := Token.literal_of_sign signed
  have notEnd : token.kind ≠ .endOfInput := by
    rw [← Token.sign_kind, signed]
    cases value <;> simp [Sign.kind, Literal.tokenClass]
  refine ⟨.literal token.span value, ?_, rfl⟩
  rw [List.singleton_append, primary, run_bind_ok run_first]
  simp only [denotes]
  rw [run_bind_ok (run_advance notEnd)]
  rfl

theorem reads_identifier {token : Token} {name : String} (signed : token.sign = .name name) :
    ReadsTree limit (.identifier span name) [token] 0 (primary limit) 7 11 := by
  intro fuel depth feed rest enough _ _
  obtain ⟨less, rfl⟩ := fuel_succ (by simp) (by omega) enough
  obtain ⟨other, named⟩ := Token.name_of_sign signed
  have notEnd : token.kind ≠ .endOfInput := by simp [Token.name_some named]
  refine ⟨.identifier token.span name, ?_, rfl⟩
  rw [List.singleton_append, primary, run_bind_ok run_first]
  simp only [other, named]
  rw [run_bind_ok (run_advance notEnd)]
  rfl

theorem run_primary_group {fuel depth : Nat} {feed : Feed} {rest : List Token}
    (opens : start.sign = .mark .openParen) :
    (primary limit (fuel + 1) depth).run (feed.before (start :: rest)) =
      (group limit fuel depth).run (feed.before (start :: rest)) := by
  obtain ⟨noLiteral, noName, isOpen⟩ := Token.mark_of_sign opens
  rw [primary, run_bind_ok run_first]
  simp only [noLiteral, noName, if_pos isOpen]

theorem reads_empty_tuple (opens : start.sign = .mark .openParen)
    (closes : stop.sign = .mark .closeParen) :
    ReadsTree limit (.tuple span []) [start, stop] 0 (primary limit) 7 11 := by
  intro fuel depth feed rest enough _ _
  simp only [List.length_cons, List.length_nil] at enough
  obtain ⟨less, rfl⟩ : ∃ less, fuel = less + 2 := ⟨fuel - 2, by omega⟩
  have isOpen := (Token.mark_of_sign opens).2.2
  have isClose := (Token.mark_of_sign closes).2.2
  refine ⟨.tuple (start.span.join stop.span) [], ?_, rfl⟩
  simp only [List.cons_append, List.nil_append]
  rw [run_primary_group opens, group, run_bind_ok (run_advance (by simp [isOpen])),
    run_bind_ok (run_accept isClose (by decide)), if_pos (by simp),
    run_bind_ok (run_span_from start)]
  rfl

/-- Behind an opening parenthesis the first expression is read. -/
theorem run_group {fuel depth : Nat} {feed : Feed} {rest : List Token} {found : Expression}
    (opens : start.sign = .mark .openParen) (nonempty : 0 < tokens.length)
    (first : ∀ token ∈ tokens.head?, token.kind ≠ .closeParen)
    (run : (expression limit fuel depth).run ((feed.past [start]).before (tokens ++ rest)) =
      .ok (found, ((feed.past [start]).past tokens).before rest)) :
    (primary limit (fuel + 2) depth).run (feed.before (start :: (tokens ++ rest))) =
      (do if (← accept .closeParen).isSome then
            return found
          else
            let others ← moreExpressions limit fuel depth
            let _ ← consume .closeParen .commaOrCloseParen
            return .tuple (← spanFrom start) (found :: others) : Parse Expression).run
        (((feed.past [start]).past tokens).before rest) := by
  have isOpen := (Token.mark_of_sign opens).2.2
  obtain ⟨token, others, rfl⟩ := List.exists_cons_of_length_pos nonempty
  have notClose : token.kind ≠ .closeParen := first token (by simp)
  rw [run_primary_group opens, group, run_bind_ok (run_advance (by simp [isOpen])),
    run_bind_ok (run_accept_none rfl notClose), if_neg (by simp), run_bind_ok run]

theorem reads_grouped (opens : start.sign = .mark .openParen)
    (closes : stop.sign = .mark .closeParen) (nonempty : 0 < tokens.length)
    (first : ∀ token ∈ tokens.head?, token.kind ≠ .closeParen)
    (reads : ReadsTree limit tree tokens nesting (expression limit) 0 0) :
    ReadsTree limit tree ([start] ++ tokens ++ [stop]) nesting (primary limit) 7 11 := by
  intro fuel depth feed rest enough within _
  simp only [List.length_append, List.length_cons, List.length_nil] at enough
  obtain ⟨less, rfl⟩ : ∃ less, fuel = less + 2 := ⟨fuel - 2, by omega⟩
  have isClose := (Token.mark_of_sign closes).2.2
  have stops : (((feed.past [start]).past tokens).before (stop :: rest)).Stops 0 :=
    Feed.stops_of_untied rfl (by rw [isClose]; rfl)
  obtain ⟨found, run, like⟩ := reads less depth (feed.past [start]) (stop :: rest) (by omega)
    within stops
  refine ⟨found, ?_, like⟩
  rw [Feed.past_append, Feed.past_append]
  simp only [List.cons_append, List.nil_append, List.append_assoc]
  rw [run_group opens nonempty first run, run_bind_ok (run_accept isClose (by decide)),
    if_pos (by simp)]
  rfl

theorem reads_tuple {comma : Token} (opens : start.sign = .mark .openParen)
    (closes : stop.sign = .mark .closeParen) (nonempty : 0 < tokens.length)
    (first : ∀ token ∈ tokens.head?, token.kind ≠ .closeParen)
    (separated : moreTokens.head? = some comma) (isComma : comma.kind = .comma)
    (reads : ReadsTree limit tree tokens nesting (expression limit) 0 0)
    (readsMore : ReadsMore limit trees moreTokens moreNesting) :
    ReadsTree limit (.tuple span (tree :: trees)) ([start] ++ tokens ++ moreTokens ++ [stop])
      (max nesting moreNesting) (primary limit) 7 11 := by
  intro fuel depth feed rest enough within _
  simp only [List.length_append, List.length_cons, List.length_nil] at enough
  obtain ⟨less, rfl⟩ : ∃ less, fuel = less + 2 := ⟨fuel - 2, by omega⟩
  have isClose := (Token.mark_of_sign closes).2.2
  have isCurrent : (((feed.past [start]).past tokens).before
      (moreTokens ++ stop :: rest)).current = .ok comma := Feed.current_before separated _
  obtain ⟨found, run, like⟩ := reads less depth (feed.past [start]) (moreTokens ++ stop :: rest)
    (by omega) (by omega) (Feed.stops_of_untied isCurrent (by rw [isComma]; rfl))
  obtain ⟨others, runMore, same⟩ := readsMore less depth ((feed.past [start]).past tokens) stop rest
    (by omega) (by omega) isClose
  refine ⟨.tuple (start.span.join stop.span) (found :: others), ?_, ?_⟩
  · rw [Feed.past_append, Feed.past_append, Feed.past_append]
    simp only [List.cons_append, List.nil_append, List.append_assoc]
    rw [run_group opens nonempty first run,
      run_bind_ok (run_accept_none isCurrent (by simp [isComma])), if_neg (by simp),
      run_bind_ok runMore, run_bind_ok (run_consume isClose (by decide)),
      run_bind_ok (run_span_from start)]
    rfl
  · simp only [Expression.Like, Expression.unplaced, Expression.unplacedAll, like.eq, same]

theorem reads_no_more : ReadsMore limit [] [] 0 := by
  intro fuel depth feed stop rest enough _ isClose
  obtain ⟨less, rfl⟩ : ∃ less, fuel = less + 1 := ⟨fuel - 1, by omega⟩
  refine ⟨[], ?_, rfl⟩
  rw [moreExpressions, List.nil_append, run_bind_ok (run_accept_none rfl (by simp [isClose]))]
  rfl

theorem reads_last_comma {comma : Token} (signed : comma.sign = .mark .comma) :
    ReadsMore limit [] [comma] 0 := by
  intro fuel depth feed stop rest enough _ isClose
  obtain ⟨less, rfl⟩ : ∃ less, fuel = less + 1 := ⟨fuel - 1, by omega⟩
  have isComma := (Token.mark_of_sign signed).2.2
  refine ⟨[], ?_, rfl⟩
  rw [moreExpressions, List.singleton_append, run_bind_ok (run_accept isComma (by decide)),
    if_neg (by simp), run_bind_ok (run_check rfl _), if_pos (by simp [isClose])]
  rfl

theorem reads_one_more {comma : Token} (signed : comma.sign = .mark .comma)
    (nonempty : 0 < tokens.length) (first : ∀ token ∈ tokens.head?, token.kind ≠ .closeParen)
    (separated : ∀ token ∈ moreTokens.head?, token.kind = .comma)
    (reads : ReadsTree limit tree tokens nesting (expression limit) 0 0)
    (readsMore : ReadsMore limit trees moreTokens moreNesting) :
    ReadsMore limit (tree :: trees) ([comma] ++ tokens ++ moreTokens)
      (max nesting moreNesting) := by
  intro fuel depth feed stop rest enough within isClose
  simp only [List.length_append, List.length_cons, List.length_nil] at enough
  obtain ⟨less, rfl⟩ : ∃ less, fuel = less + 1 := ⟨fuel - 1, by omega⟩
  have isComma := (Token.mark_of_sign signed).2.2
  obtain ⟨found, run, like⟩ := reads less depth (feed.past [comma]) (moreTokens ++ stop :: rest)
    (by omega) (by omega) (stops_before_more separated isClose)
  obtain ⟨others, runMore, same⟩ := readsMore less depth ((feed.past [comma]).past tokens) stop rest
    (by omega) (by omega) isClose
  refine ⟨found :: others, ?_, ?_⟩
  · rw [Feed.past_append, Feed.past_append]
    simp only [List.cons_append, List.nil_append, List.append_assoc]
    rw [moreExpressions, run_bind_ok (run_accept isComma (by decide)), if_neg (by simp),
      run_bind_ok (run_check_false nonempty first), if_neg (by simp), run_bind_ok run,
      run_bind_ok runMore]
    rfl
  · simp only [Expression.unplacedAll, like.eq, same]

end Primary

section Operators

variable {span : Span} {start stop sign : Token} {trees : List Expression}
  {left right : Expression} {leftTokens rightTokens moreTokens : List Token}
  {leftNesting rightNesting moreNesting : Nat}

theorem reads_no_arguments (opens : start.sign = .mark .openParen)
    (closes : stop.sign = .mark .closeParen) : ReadsArguments limit [] [start, stop] 0 := by
  intro fuel depth feed rest enough _
  simp only [List.length_cons, List.length_nil] at enough
  obtain ⟨less, rfl⟩ : ∃ less, fuel = less + 1 := ⟨fuel - 1, by omega⟩
  have isOpen := (Token.mark_of_sign opens).2.2
  have isClose := (Token.mark_of_sign closes).2.2
  refine ⟨[], ?_, rfl⟩
  simp only [List.cons_append, List.nil_append]
  rw [callArguments, run_bind_ok (run_consume isOpen (by decide)), run_bind_ok (run_check rfl _),
    if_pos (by simp [isClose]), pure_bind, run_bind_ok (run_consume isClose (by decide))]
  rfl

theorem reads_arguments (opens : start.sign = .mark .openParen)
    (closes : stop.sign = .mark .closeParen) (nonempty : 0 < tokens.length)
    (first : ∀ token ∈ tokens.head?, token.kind ≠ .closeParen)
    (separated : ∀ token ∈ moreTokens.head?, token.kind = .comma)
    (reads : ReadsTree limit tree tokens nesting (expression limit) 0 0)
    (readsMore : ReadsMore limit trees moreTokens moreNesting) :
    ReadsArguments limit (tree :: trees) ([start] ++ tokens ++ moreTokens ++ [stop])
      (max nesting moreNesting) := by
  intro fuel depth feed rest enough within
  simp only [List.length_append, List.length_cons, List.length_nil] at enough
  obtain ⟨less, rfl⟩ : ∃ less, fuel = less + 1 := ⟨fuel - 1, by omega⟩
  have isOpen := (Token.mark_of_sign opens).2.2
  have isClose := (Token.mark_of_sign closes).2.2
  obtain ⟨found, run, like⟩ := reads less depth (feed.past [start]) (moreTokens ++ stop :: rest)
    (by omega) (by omega) (stops_before_more separated isClose)
  obtain ⟨others, runMore, same⟩ := readsMore less depth ((feed.past [start]).past tokens) stop rest
    (by omega) (by omega) isClose
  refine ⟨found :: others, ?_, ?_⟩
  · simp only [Feed.past_append]
    simp only [List.cons_append, List.nil_append, List.append_assoc]
    rw [callArguments, run_bind_ok (run_consume isOpen (by decide)),
      run_bind_ok (run_check_false nonempty first), if_neg (by simp), run_bind_ok run,
      run_bind_ok runMore, pure_bind, run_bind_ok (run_consume isClose (by decide))]
    rfl
  · simp only [Expression.unplacedAll, like.eq, same]

/-- Arguments behind an expression call it. -/
theorem reads_on_call {arguments : List Token} (nonempty : 0 < leftTokens.length)
    (level : ∀ token ∈ leftTokens, token.kind ≠ .dedent)
    (reads : ReadsOn limit left leftTokens leftNesting (postfixed limit) (postfixRest limit) 6 11)
    (opens : start.sign = .mark .openParen)
    (list : ReadsArguments limit trees (start :: arguments) nesting) :
    ReadsOn limit (.call span left trees) (leftTokens ++ start :: arguments)
      (max leftNesting nesting) (postfixed limit) (postfixRest limit) 6 11 := by
  intro fuel depth feed rest enough within stops
  simp only [List.length_append, List.length_cons] at enough
  have isOpen := (Token.mark_of_sign opens).2.2
  have tied : (((feed.past leftTokens)).before (start :: (arguments ++ rest))).Stops 11 :=
    Feed.stops_of_tied rfl (by rw [isOpen]; rfl) (by omega)
  obtain ⟨found, less, run, like, spent⟩ := reads fuel depth feed (start :: arguments ++ rest)
    (by omega) (by omega) tied
  obtain ⟨last, rfl⟩ : ∃ last, less = last + 1 := ⟨less - 1, by omega⟩
  obtain ⟨values, runValues, same⟩ := list last depth (feed.past leftTokens) rest
    (by simp only [List.length_cons]; omega) (by omega)
  have isCurrent : ((feed.past leftTokens).before (start :: arguments ++ rest)).current =
      .ok start := rfl
  refine ⟨.call (found.span.join (start.span.join
    ((((feed.past leftTokens).past (start :: arguments)).previous.getD start).span))) found values,
    last, ?_, ?_, ?_⟩
  · rw [Feed.past_append, List.append_assoc, run, postfixRest, run_bind_ok run_block_closed,
      Feed.past_not_closed nonempty level, if_neg (by simp), run_bind_ok (run_current isCurrent),
      if_pos isOpen, run_bind_ok runValues, run_bind_ok (run_span_from start)]
    rfl
  · simp only [Expression.Like, Expression.unplaced, like.eq, same]
  · simp only [List.length_append, List.length_cons]
    omega

theorem reads_on_member {dot place : Token} {index : Nat} (nonempty : 0 < leftTokens.length)
    (level : ∀ token ∈ leftTokens, token.kind ≠ .dedent)
    (reads : ReadsOn limit left leftTokens leftNesting (postfixed limit) (postfixRest limit) 6 11)
    (dots : dot.sign = .mark .dot) (signed : place.sign = .literal (.int index)) :
    ReadsOn limit (.member span left index) (leftTokens ++ [dot, place]) leftNesting
      (postfixed limit) (postfixRest limit) 6 11 := by
  intro fuel depth feed rest enough within stops
  simp only [List.length_append, List.length_cons] at enough
  have isDot := (Token.mark_of_sign dots).2.2
  obtain ⟨isIndex, denotes⟩ := Token.index_of_sign signed
  have tied : ((feed.past leftTokens).before (dot :: place :: rest)).Stops 11 :=
    Feed.stops_of_tied rfl (by rw [isDot]; rfl) (by omega)
  obtain ⟨found, less, run, like, spent⟩ := reads fuel depth feed (dot :: place :: rest)
    (by omega) (by omega) tied
  obtain ⟨last, rfl⟩ : ∃ last, less = last + 1 := ⟨less - 1, by omega⟩
  refine ⟨.member (found.span.join place.span) found index, last, ?_, ?_, ?_⟩
  · rw [Feed.past_append]
    simp only [List.append_assoc, List.cons_append, List.nil_append]
    rw [run, postfixRest, run_bind_ok run_block_closed, Feed.past_not_closed nonempty level,
      if_neg (by simp), run_bind_ok run_first, if_neg (by simp [isDot]), if_pos isDot,
      run_bind_ok (run_advance (by simp [isDot])), run_bind_ok (run_consume isIndex (by decide))]
    simp only [denotes]
    rfl
  · simp only [Expression.Like, Expression.unplaced, like.eq]
  · simp only [List.length_append, List.length_cons]
    omega

theorem reads_power_operator (nonempty : 0 < leftTokens.length)
    (level : ∀ token ∈ leftTokens, token.kind ≠ .dedent)
    (base : ReadsOn limit left leftTokens leftNesting (postfixed limit) (postfixRest limit) 6 11)
    (signed : sign.sign = .mark .doubleStar)
    (exponent : ReadsTree limit right rightTokens rightNesting (unary limit) 4 8) :
    ReadsTree limit (.binary span left .power right) (leftTokens ++ [sign] ++ rightTokens)
      (max leftNesting (rightNesting + 1)) (power limit) 5 9 := by
  intro fuel depth feed rest enough within stops
  simp only [List.length_append, List.length_cons, List.length_nil] at enough
  rw [Feed.past_append, Feed.past_append] at stops
  have isSign := (Token.mark_of_sign signed).2.2
  obtain ⟨less, rfl⟩ : ∃ less, fuel = less + 1 := ⟨fuel - 1, by omega⟩
  have tied : ((feed.past leftTokens).before (sign :: (rightTokens ++ rest))).Stops 10 :=
    Feed.stops_of_tied rfl (by rw [isSign]; rfl) (by omega)
  obtain ⟨found, run, like⟩ := reads_postfixed nonempty base less depth feed
    (sign :: (rightTokens ++ rest)) (by omega) (by omega) tied
  obtain ⟨raised, runRight, likeRight⟩ := exponent less (depth + 1)
    ((feed.past leftTokens).past [sign]) rest (by omega) (by omega) stops.below_unary
  refine ⟨.binary (found.span.join raised.span) found .power raised, ?_, ?_⟩
  · rw [Feed.past_append, Feed.past_append]
    simp only [List.append_assoc, List.cons_append, List.nil_append]
    rw [power, run_bind_ok run, run_bind_ok (run_accept_open
      (Feed.past_not_closed nonempty level) isSign (by decide))]
    dsimp only
    rw [run_bind_ok (run_enter (by omega)), run_bind_ok runRight]
    rfl
  · simp only [Expression.Like, Expression.unplaced, like.eq, likeRight.eq]

theorem reads_unary_operator {operator : UnaryOperator}
    (signed : sign.sign = .mark operator.tokenClass)
    (operand : ReadsTree limit right rightTokens rightNesting (unary limit) 4 8) :
    ReadsTree limit (.unary span operator right) ([sign] ++ rightTokens) (rightNesting + 1)
      (unary limit) 4 8 := by
  intro fuel depth feed rest enough within stops
  simp only [List.length_append, List.length_cons, List.length_nil] at enough
  rw [Feed.past_append] at stops
  have isSign := (Token.mark_of_sign signed).2.2
  have spelled := (UnaryOperator.ofTokenClass?_eq_some_iff _ _).2 isSign
  have notEnd : sign.kind ≠ .endOfInput := by
    rw [isSign]
    cases operator <;> decide
  obtain ⟨less, rfl⟩ : ∃ less, fuel = less + 1 := ⟨fuel - 1, by omega⟩
  obtain ⟨found, run, like⟩ := operand less (depth + 1) (feed.past [sign]) rest (by omega)
    (by omega) stops
  refine ⟨.unary (sign.span.join found.span) operator found, ?_, ?_⟩
  · rw [Feed.past_append]
    simp only [List.cons_append, List.nil_append]
    rw [unary, run_bind_ok run_first]
    simp only [spelled]
    rw [run_bind_ok (run_advance notEnd), run_bind_ok (run_enter (by omega)), run_bind_ok run]
    rfl
  · simp only [Expression.Like, Expression.unplaced, like.eq]

theorem binary_of_sign {operator : BinaryOperator} {strength : Nat}
    (binds : operator.precedence? = some strength)
    (signed : sign.sign = .mark operator.tokenClass) :
    binary? sign = some (operator, strength) := by
  have isSign := (Token.mark_of_sign signed).2.2
  have spelled := (BinaryOperator.ofTokenClass?_eq_some_iff _ _).2 isSign
  simp [binary?, spelled, binds]

/-- An operator behind what was read so far, and its right operand, are taken in one round. -/
theorem reads_on_binary_operator {operator : BinaryOperator} {strength least : Nat}
    (nonempty : 0 < leftTokens.length) (rightNonempty : 0 < rightTokens.length)
    (level : ∀ token ∈ leftTokens, token.kind ≠ .dedent)
    (binds : operator.precedence? = some strength) (low : least ≤ strength)
    (first : ReadsOn limit left leftTokens leftNesting (binary limit · · least)
      (binaryRest limit · · least) 3 (min (strength + 2) 8))
    (signed : sign.sign = .mark operator.tokenClass)
    (second : ReadsOn limit right rightTokens rightNesting (binary limit · · (strength + 1))
      (binaryRest limit · · (strength + 1)) 3 (min (strength + 3) 8)) :
    ReadsOn limit (.binary span left operator right) (leftTokens ++ [sign] ++ rightTokens)
      (max leftNesting rightNesting) (binary limit · · least) (binaryRest limit · · least) 3
      (min (strength + 2) 8) := by
  intro fuel depth feed rest enough within stops
  simp only [List.length_append, List.length_cons, List.length_nil] at enough
  rw [Feed.past_append, Feed.past_append] at stops
  have spelled := binary_of_sign binds signed
  obtain ⟨_, isSign, ties⟩ := binary_token_ties spelled
  have bounds := BinaryOperator.precedence_bounds binds
  have notEnd : sign.kind ≠ .endOfInput := by
    rw [isSign]
    cases operator <;> decide
  have tied : ((feed.past leftTokens).before (sign :: (rightTokens ++ rest))).Stops
      (min (strength + 2) 8) := Feed.stops_of_tied rfl ties (by omega)
  obtain ⟨found, less, run, like, spent⟩ := first fuel depth feed (sign :: (rightTokens ++ rest))
    (by omega) (by omega) tied
  obtain ⟨last, rfl⟩ : ∃ last, less = last + 1 := ⟨less - 1, by omega⟩
  obtain ⟨other, runRight, likeRight⟩ := reads_binary rightNonempty second last depth
    ((feed.past leftTokens).past [sign]) rest (by omega) (by omega) (stops.mono (by omega))
  refine ⟨.binary (found.span.join other.span) found operator other, last, ?_, ?_, ?_⟩
  · rw [Feed.past_append, Feed.past_append]
    simp only [List.append_assoc, List.cons_append, List.nil_append]
    dsimp only at run
    rw [run, binaryRest, run_bind_ok run_first]
    simp only [spelled]
    rw [run_bind_ok run_block_closed, Feed.past_not_closed nonempty level,
      if_neg (by simp; omega), run_bind_ok (run_advance notEnd), run_bind_ok runRight]
  · simp only [Expression.Like, Expression.unplaced, like.eq, likeRight.eq]
  · simp only [List.length_append, List.length_cons, List.length_nil]
    omega

theorem reads_conditional_operator {question colon : Token} {condition : Expression}
    (nonempty : 0 < tokens.length) (level : ∀ token ∈ tokens, token.kind ≠ .dedent)
    (first : ReadsTree limit condition tokens nesting (binary limit · · 0) 3 2)
    (asks : question.sign = .mark .question)
    (second : ReadsTree limit left leftTokens leftNesting (expression limit) 0 0)
    (parts : colon.sign = .mark .colon)
    (third : ReadsTree limit right rightTokens rightNesting (expression limit) 0 0) :
    ReadsTree limit (.conditional span condition left right)
      (tokens ++ [question] ++ leftTokens ++ [colon] ++ rightTokens)
      (max nesting (max leftNesting rightNesting)) (conditional limit) 2 0 := by
  intro fuel depth feed rest enough within stops
  simp only [List.length_append, List.length_cons, List.length_nil] at enough
  simp only [Feed.past_append] at stops
  have isQuestion := (Token.mark_of_sign asks).2.2
  have isColon := (Token.mark_of_sign parts).2.2
  obtain ⟨less, rfl⟩ : ∃ less, fuel = less + 1 := ⟨fuel - 1, by omega⟩
  have tied : ((feed.past tokens).before
      (question :: (leftTokens ++ colon :: (rightTokens ++ rest)))).Stops 2 :=
    Feed.stops_of_tied rfl (by rw [isQuestion]; rfl) (by omega)
  obtain ⟨found, run, like⟩ := first less depth feed
    (question :: (leftTokens ++ colon :: (rightTokens ++ rest))) (by omega) (by omega) tied
  have untied : (((feed.past tokens).past [question]).past leftTokens |>.before
      (colon :: (rightTokens ++ rest))).Stops 0 :=
    Feed.stops_of_untied rfl (by rw [isColon]; rfl)
  obtain ⟨whenTrue, runTrue, likeTrue⟩ := second less depth ((feed.past tokens).past [question])
    (colon :: (rightTokens ++ rest)) (by omega) (by omega) untied
  obtain ⟨whenFalse, runFalse, likeFalse⟩ := third less depth
    ((((feed.past tokens).past [question]).past leftTokens).past [colon]) rest (by omega)
    (by omega) stops
  refine ⟨.conditional (found.span.join whenFalse.span) found whenTrue whenFalse, ?_, ?_⟩
  · simp only [Feed.past_append]
    simp only [List.append_assoc, List.cons_append, List.nil_append]
    rw [conditional, run_bind_ok run, run_bind_ok (run_accept_open
      (Feed.past_not_closed nonempty level) isQuestion (by decide)), if_neg (by simp),
      run_bind_ok runTrue, run_bind_ok (run_consume isColon (by decide)), run_bind_ok runFalse]
    rfl
  · simp only [Expression.Like, Expression.unplaced, like.eq, likeTrue.eq, likeFalse.eq]

theorem Expression.identifier_of_like {span : Span} {name : String} {found : Expression}
    (like : (Expression.identifier span name).Like found) :
    ∃ place, found = .identifier place name := by
  cases found <;> simp_all [Expression.Like, Expression.unplaced]

theorem reads_rebind {token : Token} {name : String} (signed : token.sign = .name name)
    (target : ReadsTree limit (.identifier span name) [token] 0 (conditional limit) 2 1)
    (assigns : sign.sign = .mark .walrus)
    (second : ReadsTree limit right rightTokens rightNesting (expression limit) 0 0) :
    ReadsTree limit (.rebind span name right) ([token] ++ [sign] ++ rightTokens) rightNesting
      (rebinding limit) 1 0 := by
  intro fuel depth feed rest enough within stops
  simp only [List.length_append, List.length_cons, List.length_nil] at enough
  simp only [Feed.past_append] at stops
  have isSign := (Token.mark_of_sign assigns).2.2
  have level : ∀ other ∈ [token], other.kind ≠ .dedent := by
    simp [Token.name_some (Token.name_of_sign signed).2]
  obtain ⟨less, rfl⟩ : ∃ less, fuel = less + 1 := ⟨fuel - 1, by omega⟩
  have tied : ((feed.past [token]).before (sign :: (rightTokens ++ rest))).Stops 1 :=
    Feed.stops_of_tied rfl (by rw [isSign]; rfl) (by omega)
  obtain ⟨found, run, like⟩ := target less depth feed (sign :: (rightTokens ++ rest))
    (by simp; omega) (by omega) tied
  obtain ⟨place, rfl⟩ := Expression.identifier_of_like like
  rw [List.singleton_append] at run
  obtain ⟨value, runValue, likeValue⟩ := second less depth ((feed.past [token]).past [sign]) rest
    (by omega) (by omega) stops
  refine ⟨.rebind (place.join value.span) name value, ?_, ?_⟩
  · simp only [Feed.past_append]
    simp only [List.cons_append, List.nil_append]
    rw [rebinding, run_bind_ok run, run_bind_ok (run_accept_open
      (Feed.past_not_closed (by simp) level) isSign (by decide)), if_neg (by simp)]
    dsimp only
    rw [run_bind_ok runValue]
    rfl
  · simp only [Expression.Like, Expression.unplaced, likeValue.eq]

end Operators

section Functions

variable {span : Span} {start stop colon : Token} {names : List String}
  {listTokens : List Token}

theorem parameter_names_first {name : String}
    (spelled : tokens.map Token.sign = ((name :: names).map Sign.name).intersperse (.mark .comma)) :
    ∃ token others, tokens = token :: others ∧ token.kind = .identifier := by
  have front : ∃ signs, ((name :: names).map Sign.name).intersperse (.mark .comma) =
      .name name :: signs := by
    cases names <;> exact ⟨_, rfl⟩
  obtain ⟨signs, split⟩ := front
  obtain ⟨token, others, rfl, signed, _⟩ := List.map_eq_cons_iff.1 (spelled.trans split)
  exact ⟨token, others, rfl, Token.name_some (Token.name_of_sign signed).2⟩

/-- Names behind those that were read before, up to a closing parenthesis. -/
theorem run_parameter_names {fuel : Nat} {feed : Feed} {seen : List String} {rest : List Token}
    (spelled : tokens.map Token.sign = (names.map Sign.name).intersperse (.mark .comma))
    (nonempty : names ≠ []) (distinct : (seen ++ names).Nodup) (isClose : stop.kind = .closeParen)
    (enough : names.length ≤ fuel) :
    (parameterNames fuel seen).run (feed.before (tokens ++ stop :: rest)) =
      .ok (seen ++ names, (feed.past tokens).before (stop :: rest)) := by
  induction names generalizing fuel feed seen tokens with
  | nil => exact absurd rfl nonempty
  | cons name names induction =>
      obtain ⟨less, rfl⟩ : ∃ less, fuel = less + 1 := ⟨fuel - 1, by simp at enough; omega⟩
      have fresh : seen.contains name = false := by
        have apart := (List.nodup_append.1 distinct).2.2
        simpa using fun member => apart name member name (by simp) rfl
      cases names with
      | nil =>
          obtain ⟨token, others, rfl, signed, spelled⟩ := List.map_eq_cons_iff.1 spelled
          cases List.map_eq_nil_iff.1 spelled
          have named := (Token.name_of_sign signed).2
          rw [List.singleton_append, parameterNames,
            run_bind_ok (run_consume (Token.name_some named) (by decide))]
          simp only [named, fresh]
          rw [if_neg (by simp), run_bind_ok (run_accept_none rfl (by simp [isClose])),
            if_pos (by simp)]
          rfl
      | cons second names =>
          obtain ⟨token, others, rfl, signed, spelled⟩ := List.map_eq_cons_iff.1 spelled
          obtain ⟨comma, later, rfl, parts, spelled⟩ := List.map_eq_cons_iff.1 spelled
          have named := (Token.name_of_sign signed).2
          have isComma := (Token.mark_of_sign parts).2.2
          have fewer : (second :: names).length ≤ less := by
            simp only [List.length_cons] at enough ⊢
            omega
          have apart : (seen ++ [name] ++ second :: names).Nodup := by simpa using distinct
          have onward := @induction later less ((feed.past [token]).past [comma]) (seen ++ [name])
            spelled (by simp) apart fewer
          obtain ⟨following, others, rfl, isName⟩ := parameter_names_first spelled
          have past : feed.past (token :: comma :: following :: others) =
              ((feed.past [token]).past [comma]).past (following :: others) := by
            rw [← Feed.past_append, ← Feed.past_append]
            rfl
          rw [past]
          simp only [List.cons_append] at onward ⊢
          rw [parameterNames, run_bind_ok (run_consume (Token.name_some named) (by decide))]
          simp only [named, fresh]
          rw [if_neg (by simp), run_bind_ok (run_accept isComma (by decide)), if_neg (by simp),
            run_bind_ok (run_check rfl _), if_neg (by simp [isName]), onward]
          simp

theorem run_parameters {fuel : Nat} {feed : Feed} {rest : List Token}
    (spelled : tokens.map Token.sign = parameterSigns names) (distinct : names.Nodup)
    (enough : tokens.length ≤ fuel) :
    (parameters fuel).run (feed.before (tokens ++ rest)) =
      .ok (names, (feed.past tokens).before rest) := by
  obtain ⟨front, back, rfl, frontSpelled, backSpelled⟩ := List.map_eq_append_iff.1 spelled
  obtain ⟨start, inner, rfl, opens, innerSpelled⟩ := List.map_eq_cons_iff.1 frontSpelled
  obtain ⟨stop, rfl, closes⟩ := List.map_eq_singleton_iff.1 backSpelled
  have isOpen := (Token.mark_of_sign opens).2.2
  have isClose := (Token.mark_of_sign closes).2.2
  have past : feed.past (start :: inner ++ [stop]) =
      ((feed.past [start]).past inner).past [stop] := by
    rw [← Feed.past_append, ← Feed.past_append]
    rfl
  rw [past]
  simp only [List.cons_append, List.append_assoc, List.nil_append]
  rw [parameters, run_bind_ok (run_consume isOpen (by decide))]
  cases names with
  | nil =>
      cases List.map_eq_nil_iff.1 innerSpelled
      rw [List.nil_append, run_bind_ok (run_check rfl _), if_pos (by simp [isClose]), pure_bind,
        run_bind_ok (run_consume isClose (by decide))]
      rfl
  | cons name names =>
      have counted := congrArg List.length innerSpelled
      simp only [List.length_map, List.length_intersperse, List.length_cons] at counted
      have fewer : (name :: names).length ≤ fuel := by
        simp only [List.length_append, List.length_cons] at enough ⊢
        omega
      have read : (parameterNames fuel []).run
          ((feed.past [start]).before (inner ++ stop :: rest)) =
            .ok (name :: names, ((feed.past [start]).past inner).before (stop :: rest)) :=
        run_parameter_names innerSpelled (by simp) (by simpa using distinct) isClose fewer
      obtain ⟨token, others, rfl, isName⟩ := parameter_names_first innerSpelled
      simp only [List.cons_append] at read ⊢
      rw [run_bind_ok (run_check rfl _), if_neg (by simp [isName]), run_bind_ok read,
        run_bind_ok (run_consume isClose (by decide))]
      rfl

/-- The parameters of a function are read, and its body follows. -/
theorem run_function_literal {fuel depth : Nat} {feed : Feed} {rest : List Token}
    (signed : start.sign = .mark .fnWord)
    (spelled : tokens.map Token.sign = parameterSigns names) (distinct : names.Nodup)
    (parts : colon.sign = .mark .colon) (enough : tokens.length ≤ fuel) :
    (primary limit (fuel + 2) depth).run (feed.before (start :: (tokens ++ colon :: rest))) =
      (do if ← check .newline then
            let body ← block limit fuel depth
            return .function (← spanFrom start) names body
          else
            let value ← expression limit fuel depth
            return .function (← spanFrom start) names (.valued value.span [] value) :
          Parse Expression).run
        ((((feed.past [start]).past tokens).past [colon]).before rest) := by
  obtain ⟨noLiteral, noName, isFunction⟩ := Token.mark_of_sign signed
  have isColon := (Token.mark_of_sign parts).2.2
  have read : (parameters fuel).run ((feed.past [start]).before (tokens ++ colon :: rest)) =
      .ok (names, ((feed.past [start]).past tokens).before (colon :: rest)) :=
    run_parameters spelled distinct enough
  have notName : (check .identifier).run ((feed.past [start]).before (tokens ++ colon :: rest)) =
      .ok (false, (feed.past [start]).before (tokens ++ colon :: rest)) := by
    obtain ⟨front, others, rfl, opens, _⟩ := List.map_eq_cons_iff.1 spelled
    have isOpen := (Token.mark_of_sign opens).2.2
    rw [List.cons_append, run_check rfl, isOpen]
    rfl
  rw [primary, run_bind_ok run_first]
  simp only [noLiteral, noName]
  rw [if_neg (by simp [isFunction]), if_pos isFunction, functionLiteral,
    run_bind_ok (run_advance (by simp [isFunction])), run_bind_ok notName, if_neg (by simp),
    run_bind_ok read, run_bind_ok (run_consume isColon (by decide))]
  simp only [pure_bind]

theorem reads_function {bodySpan : Span} {value : Expression} (signed : start.sign = .mark .fnWord)
    (spelled : listTokens.map Token.sign = parameterSigns names) (distinct : names.Nodup)
    (parts : colon.sign = .mark .colon) (nonempty : 0 < tokens.length)
    (first : ∀ token ∈ tokens.head?, token.kind ≠ .newline)
    (reads : ReadsTree limit value tokens nesting (expression limit) 0 0) :
    ReadsTree limit (.function span names (.valued bodySpan [] value))
      ([start] ++ listTokens ++ [colon] ++ tokens) nesting (primary limit) 7 0 := by
  intro fuel depth feed rest enough within stops
  simp only [List.length_append, List.length_cons, List.length_nil] at enough
  simp only [Feed.past_append] at stops
  obtain ⟨less, rfl⟩ : ∃ less, fuel = less + 2 := ⟨fuel - 2, by omega⟩
  obtain ⟨found, run, like⟩ := reads less depth
    (((feed.past [start]).past listTokens).past [colon]) rest (by omega) within stops
  refine ⟨.function (start.span.join (((((feed.past [start]).past listTokens).past [colon]).past
    tokens).previous.getD start).span) names (.valued found.span [] found), ?_, ?_⟩
  · simp only [Feed.past_append]
    simp only [List.append_assoc, List.cons_append, List.nil_append]
    rw [run_function_literal signed spelled distinct parts (by omega),
      run_bind_ok (run_check_false nonempty first), if_neg (by simp), run_bind_ok run,
      run_bind_ok (run_span_from start)]
    rfl
  · simp only [Expression.Like, Expression.unplaced, Block.unplaced, Statement.unplacedAll, like.eq]

/-- What stands alone and starts with no operator needs only nothing behind it. -/
theorem reads_rebinding_of_primary {stop : Nat} (nonempty : 0 < tokens.length)
    (first : ∀ token ∈ tokens.head?, UnaryOperator.ofTokenClass? token.kind = none)
    (reads : ReadsTree limit tree tokens nesting (primary limit) 7 stop) :
    ReadsTree limit tree tokens nesting (rebinding limit) 1 0 := by
  have powers := reads_power nonempty (reads_postfixed nonempty (reads_on_postfixed nonempty reads))
  have operators := reads_on_binary nonempty (reads_unary nonempty powers first) 0
  exact reads_rebinding nonempty (reads_conditional nonempty (reads_binary nonempty operators))

end Functions

end Reading

end LayoutScript
