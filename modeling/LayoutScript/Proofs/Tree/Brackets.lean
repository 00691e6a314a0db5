import LayoutScript.Proofs.Tree.Parallel

/-!
The brackets of expressions. What is read as an expression is a name, a tuple, a group in
parentheses, or none of these. Every pair of parentheses in between is one level of nesting, and
at every level there is room for one more, which bounds how far tuples are nested in tuples.
-/

namespace LayoutScript

open Parse

/-- Neither a name nor a tuple. -/
def Expression.isSolid : Expression → Bool
  | .identifier _ _ | .tuple _ _ => false
  | _ => true

/-- How an expression, or the rest of a tuple, is made of names, groups and tuples, down to parts
that are none of these. The number is the level of nesting that it is read at. -/
inductive Brackets (limit : Nat) : Nat → Feed → Phrase → Feed → Prop where
  | solid {depth : Nat} {feed after : Feed} {tree : Expression} (within : depth < limit)
      (isSolid : tree.isSolid = true) : Brackets limit depth feed (.expression tree) after
  | name {depth : Nat} {feed after : Feed} {token : Token} {name : String} (within : depth < limit)
      (takes : Takes feed token after) (named : token.name? = some name) :
      Brackets limit depth feed (.expression (.identifier token.span name)) after
  | empty {depth : Nat} {feed inside after : Feed} {start stop : Token} (within : depth < limit)
      (opens : Takes feed start inside) (isOpen : start.kind = .openParen)
      (closes : Takes inside stop after) (isClose : stop.kind = .closeParen) :
      Brackets limit depth feed (.expression (.tuple (start.span.join stop.span) [])) after
  | grouped {depth : Nat} {feed inside behind after : Feed} {start stop : Token}
      {tree : Expression} (within : depth < limit)
      (opens : Takes feed start inside) (isOpen : start.kind = .openParen)
      (inner : Brackets limit (depth + 1) inside (.expression tree) behind)
      (closes : Takes behind stop after) (isClose : stop.kind = .closeParen) :
      Brackets limit depth feed (.expression tree) after
  | tuple {depth : Nat} {feed inside between behind after : Feed} {start stop : Token}
      {tree : Expression} {trees : List Expression} (within : depth < limit)
      (opens : Takes feed start inside) (isOpen : start.kind = .openParen)
      (inner : Brackets limit (depth + 1) inside (.expression tree) between)
      (goesOn : ∀ token, between.current = .ok token → token.kind ≠ .closeParen)
      (others : Brackets limit (depth + 1) between (.more trees) behind)
      (closes : Takes behind stop after) (isClose : stop.kind = .closeParen) :
      Brackets limit depth feed (.expression (.tuple (start.span.join stop.span) (tree :: trees)))
        after
  | noMore {depth : Nat} {feed : Feed} : Brackets limit depth feed (.more []) feed
  | lastComma {depth : Nat} {feed after : Feed} {comma : Token} (takes : Takes feed comma after)
      (isComma : comma.kind = .comma) : Brackets limit depth feed (.more []) after
  | oneMore {depth : Nat} {feed behind between after : Feed} {comma : Token} {tree : Expression}
      {trees : List Expression} (takes : Takes feed comma behind) (isComma : comma.kind = .comma)
      (inner : Brackets limit depth behind (.expression tree) between)
      (others : Brackets limit depth between (.more trees) after) :
      Brackets limit depth feed (.more (tree :: trees)) after

theorem Takes.span_since {feed after : Feed} {token : Token} (takes : Takes feed token after)
    (start : Token) : after.spanSince start = start.span.join token.span := by
  cases takes
  rfl

/-- What is not accepted is of another class. -/
theorem leads_accept_else {feed : Feed} (proper : feed.Proper) {kind : TokenClass}
    (notEnd : kind ≠ .endOfInput) :
    Leads feed (accept kind) fun found after =>
      (found = none ∧ after = feed ∧ ∀ token, feed.current = .ok token → token.kind ≠ kind) ∨
        ∃ token, found = some token ∧ Takes feed token after ∧ token.kind = kind := by
  apply leads_bind (leads_current proper)
  intro token _ proper outcome
  rcases outcome with ⟨rfl, isCurrent⟩
  apply leads_ite
  · intro isKind
    apply leads_bind (leads_advance proper isCurrent (ne_end_of_eq isKind notEnd))
    intro taken after proper outcome
    rcases outcome with ⟨rfl, takes⟩
    exact leads_pure proper (.inr ⟨taken, rfl, takes, isKind⟩)
  · intro isOther
    refine leads_pure proper (.inl ⟨rfl, rfl, fun other same => ?_⟩)
    cases same.symm.trans isCurrent
    exact isOther

/-- A level of nesting is entered only if there is one left. -/
theorem leads_enter_within {feed : Feed} (proper : feed.Proper) (limit depth : Nat)
    (token : Token) :
    Leads feed (enter limit depth token) fun _ after => after = feed ∧ depth < limit := by
  apply leads_ite
  · intro _
    exact leads_fail
  · intro within
    exact leads_pure proper ⟨rfl, by omega⟩

/-- What a reader gives at a feed is bracketed from an origin on. -/
def Bracketed (limit depth : Nat) (origin feed : Feed) (reader : Parse Expression) : Prop :=
  Leads feed reader fun tree after => Brackets limit depth origin (.expression tree) after

/-- All readers of expressions at one amount of fuel, one level inside what they are part of. -/
structure ReadersBracket (limit fuel : Nat) : Prop where
  expression (depth : Nat) {feed : Feed} (proper : feed.Proper) :
    Bracketed limit depth feed feed (expression limit fuel depth)
  rebinding {depth : Nat} (within : depth < limit) {feed : Feed} (proper : feed.Proper) :
    Bracketed limit depth feed feed (rebinding limit fuel (depth + 1))
  conditional {depth : Nat} (within : depth < limit) {feed : Feed} (proper : feed.Proper) :
    Bracketed limit depth feed feed (conditional limit fuel (depth + 1))
  binary {depth : Nat} (within : depth < limit) (least : Nat) {feed : Feed} (proper : feed.Proper) :
    Bracketed limit depth feed feed (binary limit fuel (depth + 1) least)
  binaryRest {depth : Nat} (within : depth < limit) (least : Nat) {origin feed : Feed}
    {left : Expression} (proper : feed.Proper)
    (read : Brackets limit depth origin (.expression left) feed) :
    Bracketed limit depth origin feed (binaryRest limit fuel (depth + 1) least left)
  unary {depth : Nat} (within : depth < limit) {feed : Feed} (proper : feed.Proper) :
    Bracketed limit depth feed feed (unary limit fuel (depth + 1))
  power {depth : Nat} (within : depth < limit) {feed : Feed} (proper : feed.Proper) :
    Bracketed limit depth feed feed (power limit fuel (depth + 1))
  postfixed {depth : Nat} (within : depth < limit) {feed : Feed} (proper : feed.Proper) :
    Bracketed limit depth feed feed (postfixed limit fuel (depth + 1))
  postfixRest {depth : Nat} (within : depth < limit) {origin feed : Feed} {subject : Expression}
    (proper : feed.Proper) (read : Brackets limit depth origin (.expression subject) feed) :
    Bracketed limit depth origin feed (postfixRest limit fuel (depth + 1) subject)
  moreExpressions (depth : Nat) {feed : Feed} (proper : feed.Proper) :
    Leads feed (moreExpressions limit fuel depth) fun trees after =>
      Brackets limit depth feed (.more trees) after
  primary {depth : Nat} (within : depth < limit) {feed : Feed} (proper : feed.Proper) :
    Bracketed limit depth feed feed (primary limit fuel (depth + 1))
  group {depth : Nat} (within : depth < limit) {feed : Feed} {start : Token} (proper : feed.Proper)
    (isCurrent : feed.current = .ok start) (isOpen : start.kind = .openParen) :
    Bracketed limit depth feed feed (group limit fuel (depth + 1))

/-- A function is neither a name nor a tuple. -/
theorem function_literal_solid (limit fuel depth : Nat) {feed : Feed} {start : Token}
    (proper : feed.Proper) (isCurrent : feed.current = .ok start)
    (isFunction : start.kind = .fnWord) :
    Leads feed (functionLiteral limit fuel depth) fun tree _ => tree.isSolid = true := by
  cases fuel with
  | zero =>
      rw [functionLiteral]
      exact leads_out_of_fuel
  | succ fuel =>
      have sound := readers_sound limit fuel
      rw [functionLiteral]
      apply leads_bind (leads_advance proper isCurrent (ne_end_of_eq isFunction (by decide)))
      intro start _ proper _
      apply leads_bind (leads_check proper _)
      intro named _ proper _
      apply leads_ite
      · intro _
        exact leads_unexpected proper
      · intro _
        apply leads_bind (parameters_sound fuel proper)
        intro names _ proper _
        apply leads_bind (leads_consume proper (by decide))
        intro colon _ proper _
        apply leads_bind (leads_check proper _)
        intro indented _ proper _
        apply leads_ite
        · intro _
          apply leads_bind (sound.block depth proper)
          intro body _ proper _
          refine leads_mono (leads_spanned proper _ _) fun tree _ outcome => ?_
          rw [outcome.2]
          rfl
        · intro _
          apply leads_bind (sound.expression depth proper)
          intro value _ proper _
          apply leads_pure_bind
          refine leads_mono (leads_spanned proper _ _) fun tree _ outcome => ?_
          rw [outcome.2]
          rfl

namespace ReadersBracket

variable {limit fuel depth : Nat} {feed : Feed}

theorem expression_step (smaller : ReadersBracket limit fuel) (depth : Nat)
    (proper : feed.Proper) :
    Bracketed limit depth feed feed (Parse.expression limit (fuel + 1) depth) := by
  rw [Parse.expression]
  apply leads_bind (leads_current proper)
  intro token _ proper outcome
  rcases outcome with ⟨rfl, _⟩
  apply leads_bind (leads_enter_within proper limit depth token)
  intro _ _ proper outcome
  rcases outcome with ⟨rfl, within⟩
  exact smaller.rebinding within proper

theorem rebinding_step (smaller : ReadersBracket limit fuel) (within : depth < limit)
    (proper : feed.Proper) :
    Bracketed limit depth feed feed (Parse.rebinding limit (fuel + 1) (depth + 1)) := by
  rw [Parse.rebinding]
  apply leads_bind (smaller.conditional within proper)
  intro target between proper read
  apply leads_bind (leads_accept_open proper (by decide))
  intro found behind proper outcome
  rcases outcome with ⟨rfl, rfl⟩ | ⟨walrus, rfl, _⟩
  · exact leads_pure proper read
  · cases target with
    | identifier span name =>
        apply leads_bind ((readers_sound limit fuel).expression (depth + 1) proper)
        intro value after proper _
        exact leads_pure proper (.solid within rfl)
    | _ => exact leads_fail

theorem conditional_step (smaller : ReadersBracket limit fuel) (within : depth < limit)
    (proper : feed.Proper) :
    Bracketed limit depth feed feed (Parse.conditional limit (fuel + 1) (depth + 1)) := by
  have sound := readers_sound limit fuel
  rw [Parse.conditional]
  apply leads_bind (smaller.binary within 0 proper)
  intro condition between proper read
  apply leads_bind (leads_accept_open proper (by decide))
  intro found inside proper outcome
  rcases outcome with ⟨rfl, rfl⟩ | ⟨question, rfl, _⟩
  · exact leads_pure proper read
  · apply leads_bind (sound.expression (depth + 1) proper)
    intro whenTrue behind proper _
    apply leads_bind (leads_consume proper (by decide))
    intro colon later proper _
    apply leads_bind (sound.expression (depth + 1) proper)
    intro whenFalse after proper _
    exact leads_pure proper (.solid within rfl)

theorem binary_step (smaller : ReadersBracket limit fuel) (within : depth < limit) (least : Nat)
    (proper : feed.Proper) :
    Bracketed limit depth feed feed (Parse.binary limit (fuel + 1) (depth + 1) least) := by
  rw [Parse.binary]
  apply leads_bind (smaller.unary within proper)
  intro left between proper read
  exact smaller.binaryRest within least proper read

theorem binary_rest_step (smaller : ReadersBracket limit fuel) (within : depth < limit)
    (least : Nat) {origin : Feed} {left : Expression} (proper : feed.Proper)
    (read : Brackets limit depth origin (.expression left) feed) :
    Bracketed limit depth origin feed
      (Parse.binaryRest limit (fuel + 1) (depth + 1) least left) := by
  rw [Parse.binaryRest]
  apply leads_bind (leads_current proper)
  intro token _ proper outcome
  rcases outcome with ⟨rfl, isCurrent⟩
  cases found : binary? token with
  | none => exact leads_pure proper read
  | some pair =>
      obtain ⟨operator, strength⟩ := pair
      apply leads_bind (leads_block_closed proper)
      intro closed _ proper outcome
      rcases outcome with rfl
      apply leads_ite
      · intro _
        exact leads_pure proper read
      · intro _
        have notEnd : token.kind ≠ .endOfInput := by
          rw [ReadersSound.binary_spells found]
          cases operator <;> decide
        apply leads_bind (leads_advance proper isCurrent notEnd)
        intro _ behind proper _
        apply leads_bind ((readers_sound limit fuel).binary (depth + 1) (strength + 1) proper)
        intro right after proper _
        exact smaller.binaryRest within least proper (.solid within rfl)

theorem unary_step (smaller : ReadersBracket limit fuel) (within : depth < limit)
    (proper : feed.Proper) :
    Bracketed limit depth feed feed (Parse.unary limit (fuel + 1) (depth + 1)) := by
  rw [Parse.unary]
  apply leads_bind (leads_current proper)
  intro token _ proper outcome
  rcases outcome with ⟨rfl, isCurrent⟩
  cases found : UnaryOperator.ofTokenClass? token.kind with
  | none => exact smaller.power within proper
  | some operator =>
      have notEnd : token.kind ≠ .endOfInput := by
        rw [(UnaryOperator.ofTokenClass?_eq_some_iff _ _).1 found]
        cases operator <;> decide
      apply leads_bind (leads_advance proper isCurrent notEnd)
      intro _ behind proper _
      apply leads_bind (leads_enter proper limit (depth + 1) token)
      intro _ _ proper _
      apply leads_bind ((readers_sound limit fuel).unary (depth + 2) proper)
      intro tree after proper _
      exact leads_pure proper (.solid within rfl)

theorem power_step (smaller : ReadersBracket limit fuel) (within : depth < limit)
    (proper : feed.Proper) :
    Bracketed limit depth feed feed (Parse.power limit (fuel + 1) (depth + 1)) := by
  rw [Parse.power]
  apply leads_bind (smaller.postfixed within proper)
  intro base between proper read
  apply leads_bind (leads_accept_open proper (by decide))
  intro found behind proper outcome
  rcases outcome with ⟨rfl, rfl⟩ | ⟨star, rfl, _⟩
  · exact leads_pure proper read
  · apply leads_bind (leads_enter proper limit (depth + 1) star)
    intro _ _ proper _
    apply leads_bind ((readers_sound limit fuel).unary (depth + 2) proper)
    intro exponent after proper _
    exact leads_pure proper (.solid within rfl)

theorem postfixed_step (smaller : ReadersBracket limit fuel) (within : depth < limit)
    (proper : feed.Proper) :
    Bracketed limit depth feed feed (Parse.postfixed limit (fuel + 1) (depth + 1)) := by
  rw [Parse.postfixed]
  apply leads_bind (smaller.primary within proper)
  intro subject between proper read
  exact smaller.postfixRest within proper read

theorem postfix_rest_step (smaller : ReadersBracket limit fuel) (within : depth < limit)
    {origin : Feed} {subject : Expression} (proper : feed.Proper)
    (read : Brackets limit depth origin (.expression subject) feed) :
    Bracketed limit depth origin feed
      (Parse.postfixRest limit (fuel + 1) (depth + 1) subject) := by
  rw [Parse.postfixRest]
  apply leads_bind (leads_block_closed proper)
  intro closed _ proper outcome
  rcases outcome with rfl
  apply leads_ite
  · intro _
    exact leads_pure proper read
  · intro _
    apply leads_bind (leads_current proper)
    intro token _ proper outcome
    rcases outcome with ⟨rfl, isCurrent⟩
    apply leads_ite
    · intro _
      apply leads_bind ((readers_sound limit fuel).callArguments (depth + 1) proper)
      intro trees between proper _
      apply leads_bind (leads_span_from proper token)
      intro span _ proper _
      exact smaller.postfixRest within proper (.solid within rfl)
    · intro _
      apply leads_ite
      · intro isDot
        apply leads_bind (leads_advance proper isCurrent (ne_end_of_eq isDot (by decide)))
        intro _ behind proper _
        apply leads_bind (leads_consume proper (by decide))
        intro place after proper _
        cases place.index? with
        | none => exact leads_unexpected proper
        | some index => exact smaller.postfixRest within proper (.solid within rfl)
      · intro _
        exact leads_pure proper read

theorem more_expressions_step (smaller : ReadersBracket limit fuel) (depth : Nat)
    (proper : feed.Proper) :
    Leads feed (Parse.moreExpressions limit (fuel + 1) depth) fun trees after =>
      Brackets limit depth feed (.more trees) after := by
  rw [Parse.moreExpressions]
  apply leads_bind (leads_accept proper (by decide))
  intro found behind proper outcome
  rcases outcome with ⟨rfl, rfl⟩ | ⟨comma, rfl, takes, isComma⟩
  · exact leads_pure proper .noMore
  · apply leads_bind (leads_check proper _)
    intro closed _ proper outcome
    rcases outcome with rfl
    apply leads_ite
    · intro _
      exact leads_pure proper (.lastComma takes isComma)
    · intro _
      apply leads_bind (smaller.expression depth proper)
      intro tree between proper inner
      apply leads_bind (smaller.moreExpressions depth proper)
      intro trees after proper others
      exact leads_pure proper (.oneMore takes isComma inner others)

theorem primary_step (smaller : ReadersBracket limit fuel) (within : depth < limit)
    (proper : feed.Proper) :
    Bracketed limit depth feed feed (Parse.primary limit (fuel + 1) (depth + 1)) := by
  rw [Parse.primary]
  apply leads_bind (leads_current proper)
  intro token _ proper outcome
  rcases outcome with ⟨rfl, isCurrent⟩
  cases denotes : token.literal? with
  | some value =>
      apply leads_bind (leads_advance proper isCurrent (literal_not_end denotes))
      intro _ after proper _
      exact leads_pure proper (.solid within rfl)
  | none =>
      cases named : token.name? with
      | some name =>
          apply leads_bind (leads_advance proper isCurrent (name_not_end named))
          intro _ after proper outcome
          exact leads_pure proper (.name within outcome.2 named)
      | none =>
          apply leads_ite
          · intro isOpen
            exact smaller.group within proper isCurrent isOpen
          · intro _
            apply leads_ite
            · intro isFunction
              refine leads_mono (function_literal_solid limit fuel (depth + 1) proper isCurrent
                isFunction) fun _ _ isSolid => .solid within isSolid
            · intro _
              exact leads_unexpected proper

theorem group_step (smaller : ReadersBracket limit fuel) (within : depth < limit) {start : Token}
    (proper : feed.Proper) (isCurrent : feed.current = .ok start)
    (isOpen : start.kind = .openParen) :
    Bracketed limit depth feed feed (Parse.group limit (fuel + 1) (depth + 1)) := by
  rw [Parse.group]
  apply leads_bind (leads_advance proper isCurrent (ne_end_of_eq isOpen (by decide)))
  intro _ inside proper outcome
  rcases outcome with ⟨rfl, opens⟩
  apply leads_bind (leads_accept proper (by decide))
  intro closed behind proper outcome
  rcases outcome with ⟨rfl, rfl⟩ | ⟨stop, rfl, closes, isClose⟩
  · apply leads_bind (smaller.expression (depth + 1) proper)
    intro tree between proper inner
    apply leads_bind (leads_accept_else proper (by decide))
    intro grouped later proper outcome
    rcases outcome with ⟨rfl, rfl, goesOn⟩ | ⟨stop, rfl, closes, isClose⟩
    · apply leads_bind (smaller.moreExpressions (depth + 1) proper)
      intro trees behind proper others
      apply leads_bind (leads_consume proper (by decide))
      intro stop after proper outcome
      rcases outcome with ⟨closes, isClose⟩
      refine leads_mono (leads_spanned proper _ _) ?_
      intro result _ outcome
      rcases outcome with ⟨rfl, rfl⟩
      rw [closes.span_since]
      exact .tuple within opens isOpen inner goesOn others closes isClose
    · exact leads_pure proper (.grouped within opens isOpen inner closes isClose)
  · refine leads_mono (leads_spanned proper _ _) ?_
    intro result _ outcome
    rcases outcome with ⟨rfl, rfl⟩
    rw [closes.span_since]
    exact .empty within opens isOpen closes isClose

end ReadersBracket

/-- Every expression that is read is bracketed. -/
theorem readers_bracket (limit fuel : Nat) : ReadersBracket limit fuel := by
  induction fuel with
  | zero =>
      constructor <;> intros
      case expression => rw [expression]; exact leads_out_of_fuel
      case rebinding => rw [rebinding]; exact leads_out_of_fuel
      case conditional => rw [conditional]; exact leads_out_of_fuel
      case binary => rw [binary]; exact leads_out_of_fuel
      case binaryRest => rw [binaryRest]; exact leads_out_of_fuel
      case unary => rw [unary]; exact leads_out_of_fuel
      case power => rw [power]; exact leads_out_of_fuel
      case postfixed => rw [postfixed]; exact leads_out_of_fuel
      case postfixRest => rw [postfixRest]; exact leads_out_of_fuel
      case moreExpressions => rw [moreExpressions]; exact leads_out_of_fuel
      case primary => rw [primary]; exact leads_out_of_fuel
      case group => rw [group]; exact leads_out_of_fuel
  | succ fuel smaller =>
      constructor
      · exact fun depth _ => smaller.expression_step depth
      · exact fun within _ => smaller.rebinding_step within
      · exact fun within _ => smaller.conditional_step within
      · exact fun within least _ => smaller.binary_step within least
      · exact fun within least _ _ _ => smaller.binary_rest_step within least
      · exact fun within _ => smaller.unary_step within
      · exact fun within _ => smaller.power_step within
      · exact fun within _ => smaller.postfixed_step within
      · exact fun within _ _ _ => smaller.postfix_rest_step within
      · exact fun depth _ => smaller.more_expressions_step depth
      · exact fun within _ => smaller.primary_step within
      · exact fun within _ _ => smaller.group_step within

end LayoutScript
