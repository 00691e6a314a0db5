import LayoutScript.Proofs.Tree.Bodies
import LayoutScript.Proofs.Tree.Spelling

/-!
The yield of a tree: the signs of its parts from left to right, without the tokens that only
group parts or lay out lines. A tree that was read yields exactly the signs of the tokens in
front of the end of input, so reading drops and invents nothing.
-/

namespace LayoutScript

/-- The classes of tokens that group or separate and are no part of a tree. -/
def TokenClass.isGrouping : TokenClass → Bool
  | .openParen | .closeParen | .comma | .newline | .indent | .dedent => true
  | _ => false

/-- The signs of tokens that are parts of a tree. -/
def spoken (tokens : List Token) : List Sign :=
  (tokens.filter fun token => !token.kind.isGrouping).map Token.sign

mutual

def Pattern.yield : Pattern → List Sign
  | .identifier _ name => [.name name]
  | .tuple _ elements => Pattern.yieldAll elements

def Pattern.yieldAll : List Pattern → List Sign
  | [] => []
  | tree :: trees => tree.yield ++ Pattern.yieldAll trees

end

mutual

def Expression.yield : Expression → List Sign
  | .literal _ value => [.literal value]
  | .identifier _ name => [.name name]
  | .tuple _ elements => Expression.yieldAll elements
  | .binary _ left operator right => left.yield ++ .mark operator.tokenClass :: right.yield
  | .unary _ operator operand => .mark operator.tokenClass :: operand.yield
  | .call _ callee arguments => callee.yield ++ Expression.yieldAll arguments
  | .member _ target index => target.yield ++ [.mark .dot, .literal (.int index)]
  | .conditional _ condition whenTrue whenFalse =>
      condition.yield ++ .mark .question :: whenTrue.yield ++ .mark .colon :: whenFalse.yield
  | .rebind _ name value => .name name :: .mark .walrus :: value.yield
  | .function _ parameters body =>
      .mark .fnWord :: parameters.map Sign.name ++ .mark .colon :: body.yield

def Expression.yieldAll : List Expression → List Sign
  | [] => []
  | tree :: trees => tree.yield ++ Expression.yieldAll trees

def Statement.yield : Statement → List Sign
  | .declare _ pattern value =>
      .mark .letWord :: pattern.yield ++ .mark .assign :: value.yield
  | .assign _ target value => target.yield ++ .mark .assign :: value.yield
  | .evaluate _ expression false => expression.yield
  | .evaluate _ expression true => expression.yield ++ [.mark .semicolon]
  | .whileLoop _ condition body =>
      .mark .whileWord :: condition.yield ++ .mark .colon :: body.yield
  | .ifBlock _ condition body => .mark .ifWord :: condition.yield ++ .mark .colon :: body.yield
  | .define _ name parameters body =>
      .mark .fnWord :: .name name :: parameters.map Sign.name ++ .mark .colon :: body.yield

def Statement.yieldAll : List Statement → List Sign
  | [] => []
  | tree :: trees => tree.yield ++ Statement.yieldAll trees

def Block.yield : Block → List Sign
  | .valued _ statements value => Statement.yieldAll statements ++ value.yield
  | .silent _ statements => Statement.yieldAll statements

end

def Program.yield (program : Program) : List Sign := Statement.yieldAll program.statements

def Phrase.yield : Phrase → List Sign
  | .expression tree => tree.yield
  | .arguments trees | .more trees => Expression.yieldAll trees
  | .target tree => tree.yield
  | .moreTargets trees => Pattern.yieldAll trees
  | .parameters given | .names given => given.map Sign.name
  | .body tree => tree.yield
  | .statements trees => Statement.yieldAll trees
  | .statement tree => tree.yield

section Spoken

variable {token : Token} {tokens : List Token}

@[simp]
theorem spoken_nil : spoken [] = [] := rfl

@[simp]
theorem spoken_append (first second : List Token) :
    spoken (first ++ second) = spoken first ++ spoken second := by
  simp [spoken]

theorem spoken_hidden {kind : TokenClass} (isKind : token.kind = kind)
    (grouping : kind.isGrouping = true) (tokens : List Token) :
    spoken (token :: tokens) = spoken tokens := by
  simp [spoken, isKind, grouping]

theorem spoken_of_sign {sign : Sign} (signed : token.sign = sign)
    (speaks : sign.kind.isGrouping = false) (tokens : List Token) :
    spoken (token :: tokens) = sign :: spoken tokens := by
  rw [← signed, Token.sign_kind] at speaks
  simp [spoken, speaks, signed]

theorem Token.sign_of_literal {value : Literal} (denotes : token.literal? = some value) :
    token.sign = .literal value := by
  simp [sign, denotes]

theorem Token.sign_of_name {name : String} (named : token.name? = some name) :
    token.sign = .name name := by
  have literal : token.literal? = none := by
    have kind := name_some named
    unfold literal?
    rw [kind, if_neg]
    cases token.payload <;> simp [Literal.tokenClass]
  simp [sign, literal, named]

theorem Token.sign_of_index {index : Nat} (denotes : token.index? = some index) :
    token.sign = .literal (.int index) := by
  apply sign_of_literal
  unfold index? at denotes
  split at denotes
  · rename_i kind payload
    cases denotes
    rw [literal?, payload, kind]
    rfl
  · cases denotes

/-- The classes whose tokens say nothing beyond their class. -/
def TokenClass.isPlain : TokenClass → Bool
  | .intLiteral | .floatLiteral | .stringLiteral | .boolLiteral | .noneLiteral | .identifier => false
  | _ => true

theorem Token.sign_of_plain (plain : token.kind.isPlain = true) :
    token.sign = .mark token.kind := by
  have literal : token.literal? = none := by
    unfold literal?
    rw [if_neg]
    intro same
    rw [← same] at plain
    cases payload : token.payload <;> rw [payload] at plain <;> cases plain
  have name : token.name? = none := by
    cases named : token.name? with
    | none => rfl
    | some name =>
        rw [name_some named] at plain
        cases plain
  simp [sign, literal, name]

theorem spoken_plain {kind : TokenClass} (isKind : token.kind = kind) (plain : kind.isPlain = true)
    (speaks : kind.isGrouping = false) (tokens : List Token) :
    spoken (token :: tokens) = .mark kind :: spoken tokens := by
  subst isKind
  exact spoken_of_sign (Token.sign_of_plain plain) speaks tokens

theorem spoken_literal {value : Literal} (denotes : token.literal? = some value)
    (tokens : List Token) : spoken (token :: tokens) = .literal value :: spoken tokens := by
  apply spoken_of_sign (Token.sign_of_literal denotes)
  cases value <;> rfl

theorem spoken_name {name : String} (named : token.name? = some name) (tokens : List Token) :
    spoken (token :: tokens) = .name name :: spoken tokens :=
  spoken_of_sign (Token.sign_of_name named) rfl tokens

theorem spoken_index {index : Nat} (denotes : token.index? = some index) (tokens : List Token) :
    spoken (token :: tokens) = .literal (.int index) :: spoken tokens :=
  spoken_of_sign (Token.sign_of_index denotes) rfl tokens

theorem spoken_unary {operator : UnaryOperator} (spells : token.kind = operator.tokenClass)
    (tokens : List Token) :
    spoken (token :: tokens) = .mark operator.tokenClass :: spoken tokens := by
  apply spoken_plain spells <;> cases operator <;> rfl

theorem spoken_binary {operator : BinaryOperator} (spells : token.kind = operator.tokenClass)
    (tokens : List Token) :
    spoken (token :: tokens) = .mark operator.tokenClass :: spoken tokens := by
  apply spoken_plain spells <;> cases operator <;> rfl

theorem spoken_newlines (newlines : ∀ token ∈ tokens, token.kind = .newline) :
    spoken tokens = [] := by
  rw [spoken, List.map_eq_nil_iff, List.filter_eq_nil_iff]
  intro token member
  rw [newlines token member]
  decide

theorem Skips.spoken {feed after : Feed} (skips : Skips feed tokens after) :
    LayoutScript.spoken tokens = [] :=
  spoken_newlines skips.newlines

theorem Ends.spoken {feed after : Feed} (ends : Ends feed tokens after) :
    LayoutScript.spoken tokens = [] :=
  spoken_newlines ends.newlines

end Spoken

theorem Statement.yield_all_append (first second : List Statement) :
    Statement.yieldAll (first ++ second) =
      Statement.yieldAll first ++ Statement.yieldAll second := by
  induction first with
  | nil => rfl
  | cons tree trees induction => simp [Statement.yieldAll, induction]

/-- A body yields what its statements yield, also when the last one became its value. -/
theorem Block.yield_of_statements (span : Span) (statements : List Statement) :
    (Block.ofStatements span statements).yield = Statement.yieldAll statements := by
  unfold Block.ofStatements
  split
  · rename_i place tree last
    obtain ⟨front, rfl⟩ := List.getLast?_eq_some_iff.mp last
    rw [List.dropLast_concat, Block.yield, Statement.yield_all_append]
    simp [Statement.yieldAll, Statement.yield]
  · rfl

mutual

/-- Taken as a target, an expression yields the same. -/
theorem Expression.yield_to_pattern : ∀ {tree : Expression} {pattern : Pattern},
    tree.toPattern = .ok pattern → pattern.yield = tree.yield
  | .identifier _ _, _, fits => by
      cases fits
      rfl
  | .tuple _ elements, _, fits => by
      rw [Expression.toPattern] at fits
      cases inner : Expression.toPatterns elements with
      | error error =>
          rw [inner] at fits
          cases fits
      | ok patterns =>
          rw [inner] at fits
          cases fits
          rw [Pattern.yield, Expression.yield]
          exact Expression.yield_to_patterns inner
  | .literal _ _, _, fits | .binary _ _ _ _, _, fits | .unary _ _ _, _, fits
  | .call _ _ _, _, fits | .member _ _ _, _, fits | .conditional _ _ _ _, _, fits
  | .rebind _ _ _, _, fits | .function _ _ _, _, fits => by
      cases fits

theorem Expression.yield_to_patterns : ∀ {trees : List Expression} {patterns : List Pattern},
    Expression.toPatterns trees = .ok patterns →
      Pattern.yieldAll patterns = Expression.yieldAll trees
  | [], _, fits => by
      cases fits
      rfl
  | tree :: trees, _, fits => by
      rw [Expression.toPatterns] at fits
      cases first : tree.toPattern with
      | error error =>
          rw [first] at fits
          cases fits
      | ok pattern =>
          cases others : Expression.toPatterns trees with
          | error error =>
              rw [first, others] at fits
              cases fits
          | ok patterns =>
              rw [first, others] at fits
              cases fits
              rw [Pattern.yieldAll, Expression.yieldAll, Expression.yield_to_pattern first,
                Expression.yield_to_patterns others]

end

/-- A phrase yields the signs of the tokens that it is derived from. -/
theorem Derives.yield {feed after : Feed} {phrase : Phrase} {tokens : List Token}
    (derives : Derives feed phrase tokens after) : phrase.yield = spoken tokens := by
  induction derives with
  | literal _ denotes => exact (spoken_literal denotes []).symm
  | identifier _ named => exact (spoken_name named []).symm
  | emptyTuple _ isOpen _ isClose =>
      rw [spoken_hidden isOpen rfl, spoken_hidden isClose rfl]
      rfl
  | grouped _ isOpen _ _ isClose inner =>
      rw [List.cons_append, spoken_hidden isOpen rfl, spoken_append, spoken_hidden isClose rfl,
        inner, spoken_nil, List.append_nil]
  | tuple _ isOpen _ _ _ isClose inner others =>
      simp [Phrase.yield, Expression.yield, Expression.yieldAll, spoken_hidden isOpen rfl,
        spoken_hidden isClose rfl, ← inner, ← others]
  | unary _ spells _ operand =>
      rw [spoken_unary spells, ← operand]
      rfl
  | binary _ _ spells _ first second =>
      rw [spoken_append, spoken_binary spells, ← first, ← second]
      rfl
  | call _ _ _ subject list =>
      rw [spoken_append, ← subject, ← list]
      rfl
  | member _ _ isDot _ denotes subject =>
      rw [spoken_append, spoken_plain isDot rfl rfl, spoken_index denotes, ← subject]
      rfl
  | conditional _ _ isQuestion _ _ isColon _ first second third =>
      simp [Phrase.yield, Expression.yield, spoken_plain isQuestion rfl rfl,
        spoken_plain isColon rfl rfl, ← first, ← second, ← third]
  | rebind _ _ isWalrus _ target second =>
      rw [spoken_append, spoken_plain isWalrus rfl rfl, ← target, ← second]
      rfl
  | inlineFunction _ isFunction _ _ isColon _ list inner =>
      simp [Phrase.yield, Expression.yield, Block.yield, Statement.yieldAll,
        spoken_plain isFunction rfl rfl, spoken_plain isColon rfl rfl, ← list, ← inner]
  | blockFunction _ isFunction _ _ isColon _ list inner =>
      simp [Phrase.yield, Expression.yield, spoken_plain isFunction rfl rfl,
        spoken_plain isColon rfl rfl, ← list, ← inner]
  | noArguments _ isOpen _ isClose | noParameters _ isOpen _ isClose
  | emptyTarget _ isOpen _ isClose =>
      rw [spoken_hidden isOpen rfl, spoken_hidden isClose rfl]
      rfl
  | someArguments _ isOpen _ _ _ isClose inner others =>
      simp [Phrase.yield, Expression.yieldAll, spoken_hidden isOpen rfl,
        spoken_hidden isClose rfl, ← inner, ← others]
  | noMore | noMoreTargets | noStatements => rfl
  | lastComma _ isComma | lastTargetComma _ isComma =>
      rw [spoken_hidden isComma rfl]
      rfl
  | oneMore _ isComma _ _ inner others =>
      rw [List.cons_append, spoken_hidden isComma rfl, spoken_append, ← inner, ← others]
      rfl
  | nameTarget _ named => exact (spoken_name named []).symm
  | groupedTarget _ isOpen _ _ isClose inner =>
      rw [List.cons_append, spoken_hidden isOpen rfl, spoken_append, spoken_hidden isClose rfl,
        inner, spoken_nil, List.append_nil]
  | tupleTarget _ isOpen _ _ _ isClose inner others =>
      simp [Phrase.yield, Pattern.yield, Pattern.yieldAll, spoken_hidden isOpen rfl,
        spoken_hidden isClose rfl, ← inner, ← others]
  | oneMoreTarget _ isComma _ _ inner others =>
      rw [List.cons_append, spoken_hidden isComma rfl, spoken_append, ← inner, ← others]
      rfl
  | someParameters _ isOpen _ _ _ isClose inner =>
      simp [Phrase.yield, spoken_hidden isOpen rfl, spoken_hidden isClose rfl, ← inner]
  | lastName _ named => exact (spoken_name named []).symm
  | lastNameComma _ named _ isComma =>
      rw [spoken_name named, spoken_hidden isComma rfl]
      rfl
  | nextName _ named _ isComma _ others =>
      rw [spoken_name named, spoken_hidden isComma rfl, ← others]
      rfl
  | indentedBody _ isNewline skips _ isIndent _ _ isDedent inner =>
      simp [Phrase.yield, Block.yield_of_statements, spoken_hidden isNewline rfl,
        spoken_hidden isIndent rfl, spoken_hidden isDedent rfl, skips.spoken, ← inner]
  | inlineBody _ _ inner =>
      rw [← inner, Phrase.yield, Block.yield_of_statements]
      simp [Phrase.yield, Statement.yieldAll]
  | oneStatement _ skips _ first others =>
      rw [spoken_append, spoken_append, skips.spoken, List.append_nil, ← first, ← others]
      rfl
  | declare skips _ isLet _ _ isSign _ ends target inner =>
      simp [Phrase.yield, Statement.yield, spoken_plain isLet rfl rfl,
        spoken_plain isSign rfl rfl, skips.spoken, ends.spoken, ← target, ← inner]
  | assign skips _ fits _ isSign _ ends target inner =>
      simp [Phrase.yield, Statement.yield, Expression.yield_to_pattern fits,
        spoken_plain isSign rfl rfl, skips.spoken, ends.spoken, ← target, ← inner]
  | openExpression skips _ ends inner =>
      simp [Phrase.yield, Statement.yield, skips.spoken, ends.spoken, ← inner]
  | closedExpression skips _ _ _ isMark ends inner =>
      simp [Phrase.yield, Statement.yield, spoken_plain isMark rfl rfl, skips.spoken, ends.spoken,
        ← inner]
  | whileLoop skips _ isWhile _ _ isColon _ first inner =>
      simp [Phrase.yield, Statement.yield, spoken_plain isWhile rfl rfl,
        spoken_plain isColon rfl rfl, skips.spoken, ← first, ← inner]
  | ifBlock skips _ isIf _ _ isColon _ first inner =>
      simp [Phrase.yield, Statement.yield, spoken_plain isIf rfl rfl,
        spoken_plain isColon rfl rfl, skips.spoken, ← first, ← inner]
  | define skips _ isFunction _ denotes _ _ isColon _ list inner =>
      simp [Phrase.yield, Statement.yield, spoken_plain isFunction rfl rfl, spoken_name denotes,
        spoken_plain isColon rfl rfl, skips.spoken, ← list, ← inner]

theorem Takes.not_end {feed after : Feed} {token : Token} (takes : Takes feed token after) :
    token.kind ≠ .endOfInput := by
  cases takes
  assumption

/-- No derivation takes the end of input. -/
theorem Derives.not_end {feed after : Feed} {phrase : Phrase} {tokens : List Token}
    (derives : Derives feed phrase tokens after) : ∀ token ∈ tokens, token.kind ≠ .endOfInput := by
  have newline {token : Token} (isNewline : token.kind = .newline) : token.kind ≠ .endOfInput := by
    rw [isNewline]
    decide
  have skipped {feed after : Feed} {tokens : List Token} (skips : Skips feed tokens after) :
      ∀ token ∈ tokens, token.kind ≠ .endOfInput :=
    fun token member => newline (skips.newlines token member)
  have ended {feed after : Feed} {tokens : List Token} (ends : Ends feed tokens after) :
      ∀ token ∈ tokens, token.kind ≠ .endOfInput :=
    fun token member => newline (ends.newlines token member)
  induction derives <;> grind -linarith [Takes.not_end]

/-- The tokens in front of the first end of input. -/
def beforeEnd (tokens : List Token) : List Token :=
  tokens.takeWhile fun token => token.kind != .endOfInput

theorem before_end_append {tokens rest : List Token}
    (proper : ∀ token ∈ tokens, token.kind ≠ .endOfInput)
    (ends : ∀ token ∈ rest.head?, token.kind = .endOfInput) : beforeEnd (tokens ++ rest) = tokens := by
  have passes : ∀ token ∈ tokens, (token.kind != .endOfInput) = true := by
    intro token member
    simpa using proper token member
  rw [beforeEnd, List.takeWhile_append_of_pos passes]
  cases rest with
  | nil => simp
  | cons first others => simp [ends first (by simp)]

/-- A program that is read yields the signs of all tokens in front of the first end of input, save
for parentheses, commas and layout. -/
theorem Program.of_tokens_yield {tokens : List Token} {file : Option String} {limits : Limits}
    {program : Program} (read : Program.ofTokens tokens file limits = .ok program) :
    program.yield = ((beforeEnd tokens).filter fun token => !token.kind.isGrouping).map
      Token.sign := by
  obtain ⟨front, after, newlines, statements, skips, derives, _, last, isCurrent, isEnd⟩ :=
    Program.of_feed_derives (Feed.of_tokens_proper tokens none file) read
  have parts : tokens = newlines ++ statements ++ after.rest := by
    have behind := skips.rest_eq
    rw [derives.rest_eq, ← List.append_assoc] at behind
    exact behind
  have proper : ∀ token ∈ newlines ++ statements, token.kind ≠ .endOfInput := by
    intro token member
    rcases List.mem_append.mp member with inside | inside
    · rw [skips.newlines token inside]
      decide
    · exact derives.not_end token inside
  have ends : ∀ token ∈ after.rest.head?, token.kind = .endOfInput := by
    intro token first
    obtain ⟨others, rest⟩ := List.head?_eq_some_iff.mp first
    rw [Feed.current, rest] at isCurrent
    cases isCurrent
    exact isEnd
  change program.yield = spoken (beforeEnd tokens)
  rw [parts, before_end_append proper ends, spoken_append, skips.spoken, List.nil_append,
    ← derives.yield]
  rfl

/-- Two lines with an assignment of tuples and a closed function, and further tokens behind the
end of input. -/
def swapTokens : List Token :=
  (tokenize "((a), b) = (b, (a),)\nfn(x): -x.0;" none).tokens ++ (tokenize "c" none).tokens

theorem swap_tokens_yield :
    ∃ program, Program.ofTokens swapTokens none {} = .ok program ∧
      program.yield = [.name "a", .name "b", .mark .assign, .name "b", .name "a", .mark .fnWord,
        .name "x", .mark .colon, .mark .minus, .name "x", .mark .dot, .literal (.int 0),
        .mark .semicolon] := by
  cases read : Program.ofTokens swapTokens none {} with
  | error halt =>
      have accepted : (Program.ofTokens swapTokens none {}).toBool = true := by decide +kernel
      rw [read] at accepted
      cases accepted
  | ok program => exact ⟨program, rfl, (Program.of_tokens_yield read).trans (by decide +kernel)⟩

end LayoutScript
