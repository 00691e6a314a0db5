import LayoutScript.Tree.Parser

/-!
The grammar as a relation. A derivation says how a tree is read from a feed: which tokens
it is made of, and where the feed stands behind them. Strengths of operators and limits on
nesting are left out; a derivation is what every successful reading has in common.
-/

namespace LayoutScript

/-- The token in front of a feed is taken. The end of input is never taken. -/
inductive Takes : Feed → Token → Feed → Prop where
  | front {previous : Option Token} {token : Token} {rest : List Token}
      {ending : Except ScriptError Token} (proper : token.kind ≠ .endOfInput) :
      Takes ⟨previous, token :: rest, ending⟩ token ⟨some token, rest, ending⟩

/-- Any number of newlines are taken. -/
inductive Skips : Feed → List Token → Feed → Prop where
  | none {feed : Feed} : Skips feed [] feed
  | one {feed behind after : Feed} {token : Token} {tokens : List Token}
      (takes : Takes feed token behind) (isNewline : token.kind = .newline)
      (others : Skips behind tokens after) : Skips feed (token :: tokens) after

/-- A statement ends, with or without a newline of its own. -/
inductive Ends : Feed → List Token → Feed → Prop where
  | here {feed : Feed} : Ends feed [] feed
  | line {feed after : Feed} {token : Token} (takes : Takes feed token after)
      (isNewline : token.kind = .newline) : Ends feed [token] after

/-- The range from a token to the one taken last. -/
def Feed.spanSince (feed : Feed) (start : Token) : Span :=
  start.span.join (feed.previous.getD start).span

/-- What can be read from a feed. -/
inductive Phrase where
  | expression (tree : Expression)
  | arguments (trees : List Expression)
  | more (trees : List Expression)
  | target (tree : Pattern)
  | moreTargets (trees : List Pattern)
  | parameters (names : List String)
  | names (names : List String)
  | body (tree : Block)
  | statements (trees : List Statement)
  | statement (tree : Statement)

/-- A phrase is read from a feed. The list has the tokens that it takes. -/
inductive Derives : Feed → Phrase → List Token → Feed → Prop where
  | literal {feed after : Feed} {token : Token} {value : Literal}
      (takes : Takes feed token after) (denotes : token.literal? = some value) :
      Derives feed (.expression (.literal token.span value)) [token] after
  | identifier {feed after : Feed} {token : Token} {name : String}
      (takes : Takes feed token after) (named : token.name? = some name) :
      Derives feed (.expression (.identifier token.span name)) [token] after
  | emptyTuple {feed inside after : Feed} {start stop : Token}
      (opens : Takes feed start inside) (isOpen : start.kind = .openParen)
      (closes : Takes inside stop after) (isClose : stop.kind = .closeParen) :
      Derives feed (.expression (.tuple (after.spanSince start) [])) [start, stop] after
  | grouped {feed inside behind after : Feed} {start stop : Token} {tokens : List Token}
      {tree : Expression} (opens : Takes feed start inside) (isOpen : start.kind = .openParen)
      (inner : Derives inside (.expression tree) tokens behind)
      (closes : Takes behind stop after) (isClose : stop.kind = .closeParen) :
      Derives feed (.expression tree) (start :: tokens ++ [stop]) after
  | tuple {feed inside between behind after : Feed} {start stop : Token}
      {tokens moreTokens : List Token} {tree : Expression} {trees : List Expression}
      (opens : Takes feed start inside) (isOpen : start.kind = .openParen)
      (inner : Derives inside (.expression tree) tokens between)
      (others : Derives between (.more trees) moreTokens behind)
      (closes : Takes behind stop after) (isClose : stop.kind = .closeParen) :
      Derives feed (.expression (.tuple (after.spanSince start) (tree :: trees)))
        (start :: tokens ++ moreTokens ++ [stop]) after
  | unary {feed behind after : Feed} {token : Token} {tokens : List Token}
      {operator : UnaryOperator} {tree : Expression} (takes : Takes feed token behind)
      (spells : token.kind = operator.tokenClass)
      (operand : Derives behind (.expression tree) tokens after) :
      Derives feed (.expression (.unary (token.span.join tree.span) operator tree))
        (token :: tokens) after
  | binary {feed between behind after : Feed} {token : Token} {leftTokens rightTokens : List Token}
      {operator : BinaryOperator} {left right : Expression}
      (first : Derives feed (.expression left) leftTokens between)
      (takes : Takes between token behind) (spells : token.kind = operator.tokenClass)
      (second : Derives behind (.expression right) rightTokens after) :
      Derives feed (.expression (.binary (left.span.join right.span) left operator right))
        (leftTokens ++ token :: rightTokens) after
  | call {feed between after : Feed} {start : Token} {tokens listTokens : List Token}
      {tree : Expression} {trees : List Expression}
      (subject : Derives feed (.expression tree) tokens between)
      (first : between.current = .ok start)
      (list : Derives between (.arguments trees) listTokens after) :
      Derives feed (.expression (.call (tree.span.join (after.spanSince start)) tree trees))
        (tokens ++ listTokens) after
  | member {feed between behind after : Feed} {dot place : Token} {tokens : List Token}
      {tree : Expression} {index : Nat} (subject : Derives feed (.expression tree) tokens between)
      (takes : Takes between dot behind) (isDot : dot.kind = .dot)
      (takesIndex : Takes behind place after) (denotes : place.index? = some index) :
      Derives feed (.expression (.member (tree.span.join place.span) tree index))
        (tokens ++ [dot, place]) after
  | conditional {feed between inside behind later after : Feed} {question colon : Token}
      {tokens trueTokens falseTokens : List Token} {condition whenTrue whenFalse : Expression}
      (first : Derives feed (.expression condition) tokens between)
      (asks : Takes between question inside) (isQuestion : question.kind = .question)
      (second : Derives inside (.expression whenTrue) trueTokens behind)
      (parts : Takes behind colon later) (isColon : colon.kind = .colon)
      (third : Derives later (.expression whenFalse) falseTokens after) :
      Derives feed (.expression
        (.conditional (condition.span.join whenFalse.span) condition whenTrue whenFalse))
        (tokens ++ question :: trueTokens ++ colon :: falseTokens) after
  | rebind {feed between behind after : Feed} {walrus : Token} {tokens valueTokens : List Token}
      {span : Span} {name : String} {value : Expression}
      (target : Derives feed (.expression (.identifier span name)) tokens between)
      (takes : Takes between walrus behind) (isWalrus : walrus.kind = .walrus)
      (second : Derives behind (.expression value) valueTokens after) :
      Derives feed (.expression (.rebind (span.join value.span) name value))
        (tokens ++ walrus :: valueTokens) after
  | inlineFunction {feed behind between later after : Feed} {start colon : Token}
      {tokens valueTokens : List Token} {names : List String} {value : Expression}
      (takes : Takes feed start behind) (isFunction : start.kind = .fnWord)
      (list : Derives behind (.parameters names) tokens between)
      (parts : Takes between colon later) (isColon : colon.kind = .colon)
      (inner : Derives later (.expression value) valueTokens after) :
      Derives feed (.expression (.function (after.spanSince start) names
        (.valued value.span [] value))) (start :: tokens ++ colon :: valueTokens) after
  | blockFunction {feed behind between later after : Feed} {start colon : Token}
      {tokens bodyTokens : List Token} {names : List String} {block : Block}
      (takes : Takes feed start behind) (isFunction : start.kind = .fnWord)
      (list : Derives behind (.parameters names) tokens between)
      (parts : Takes between colon later) (isColon : colon.kind = .colon)
      (inner : Derives later (.body block) bodyTokens after) :
      Derives feed (.expression (.function (after.spanSince start) names block))
        (start :: tokens ++ colon :: bodyTokens) after
  | noArguments {feed inside after : Feed} {start stop : Token}
      (opens : Takes feed start inside) (isOpen : start.kind = .openParen)
      (closes : Takes inside stop after) (isClose : stop.kind = .closeParen) :
      Derives feed (.arguments []) [start, stop] after
  | someArguments {feed inside between behind after : Feed} {start stop : Token}
      {tokens moreTokens : List Token} {tree : Expression} {trees : List Expression}
      (opens : Takes feed start inside) (isOpen : start.kind = .openParen)
      (inner : Derives inside (.expression tree) tokens between)
      (others : Derives between (.more trees) moreTokens behind)
      (closes : Takes behind stop after) (isClose : stop.kind = .closeParen) :
      Derives feed (.arguments (tree :: trees)) (start :: tokens ++ moreTokens ++ [stop]) after
  | noMore {feed : Feed} : Derives feed (.more []) [] feed
  | lastComma {feed after : Feed} {comma : Token} (takes : Takes feed comma after)
      (isComma : comma.kind = .comma) : Derives feed (.more []) [comma] after
  | oneMore {feed behind between after : Feed} {comma : Token} {tokens moreTokens : List Token}
      {tree : Expression} {trees : List Expression} (takes : Takes feed comma behind)
      (isComma : comma.kind = .comma)
      (inner : Derives behind (.expression tree) tokens between)
      (others : Derives between (.more trees) moreTokens after) :
      Derives feed (.more (tree :: trees)) (comma :: tokens ++ moreTokens) after
  | nameTarget {feed after : Feed} {token : Token} {name : String}
      (takes : Takes feed token after) (named : token.name? = some name) :
      Derives feed (.target (.identifier token.span name)) [token] after
  | emptyTarget {feed inside after : Feed} {start stop : Token}
      (opens : Takes feed start inside) (isOpen : start.kind = .openParen)
      (closes : Takes inside stop after) (isClose : stop.kind = .closeParen) :
      Derives feed (.target (.tuple (after.spanSince start) [])) [start, stop] after
  | groupedTarget {feed inside behind after : Feed} {start stop : Token} {tokens : List Token}
      {tree : Pattern} (opens : Takes feed start inside) (isOpen : start.kind = .openParen)
      (inner : Derives inside (.target tree) tokens behind)
      (closes : Takes behind stop after) (isClose : stop.kind = .closeParen) :
      Derives feed (.target tree) (start :: tokens ++ [stop]) after
  | tupleTarget {feed inside between behind after : Feed} {start stop : Token}
      {tokens moreTokens : List Token} {tree : Pattern} {trees : List Pattern}
      (opens : Takes feed start inside) (isOpen : start.kind = .openParen)
      (inner : Derives inside (.target tree) tokens between)
      (others : Derives between (.moreTargets trees) moreTokens behind)
      (closes : Takes behind stop after) (isClose : stop.kind = .closeParen) :
      Derives feed (.target (.tuple (after.spanSince start) (tree :: trees)))
        (start :: tokens ++ moreTokens ++ [stop]) after
  | noMoreTargets {feed : Feed} : Derives feed (.moreTargets []) [] feed
  | lastTargetComma {feed after : Feed} {comma : Token} (takes : Takes feed comma after)
      (isComma : comma.kind = .comma) : Derives feed (.moreTargets []) [comma] after
  | oneMoreTarget {feed behind between after : Feed} {comma : Token}
      {tokens moreTokens : List Token} {tree : Pattern} {trees : List Pattern}
      (takes : Takes feed comma behind) (isComma : comma.kind = .comma)
      (inner : Derives behind (.target tree) tokens between)
      (others : Derives between (.moreTargets trees) moreTokens after) :
      Derives feed (.moreTargets (tree :: trees)) (comma :: tokens ++ moreTokens) after
  | noParameters {feed inside after : Feed} {start stop : Token}
      (opens : Takes feed start inside) (isOpen : start.kind = .openParen)
      (closes : Takes inside stop after) (isClose : stop.kind = .closeParen) :
      Derives feed (.parameters []) [start, stop] after
  | someParameters {feed inside behind after : Feed} {start stop : Token} {tokens : List Token}
      {names : List String} (opens : Takes feed start inside) (isOpen : start.kind = .openParen)
      (inner : Derives inside (.names names) tokens behind) (distinct : names.Nodup)
      (closes : Takes behind stop after) (isClose : stop.kind = .closeParen) :
      Derives feed (.parameters names) (start :: tokens ++ [stop]) after
  | lastName {feed after : Feed} {token : Token} {name : String} (takes : Takes feed token after)
      (named : token.name? = some name) : Derives feed (.names [name]) [token] after
  | lastNameComma {feed behind after : Feed} {token comma : Token} {name : String}
      (takes : Takes feed token behind) (named : token.name? = some name)
      (parts : Takes behind comma after) (isComma : comma.kind = .comma) :
      Derives feed (.names [name]) [token, comma] after
  | nextName {feed behind between after : Feed} {token comma : Token} {tokens : List Token}
      {name : String} {names : List String} (takes : Takes feed token behind)
      (named : token.name? = some name) (parts : Takes behind comma between)
      (isComma : comma.kind = .comma) (others : Derives between (.names names) tokens after) :
      Derives feed (.names (name :: names)) (token :: comma :: tokens) after
  | indentedBody {feed line behind inside between after : Feed} {start mark stop : Token}
      {newlines tokens : List Token} {trees : List Statement}
      (takes : Takes feed start line) (isNewline : start.kind = .newline)
      (skips : Skips line newlines behind)
      (opens : Takes behind mark inside) (isIndent : mark.kind = .indent)
      (inner : Derives inside (.statements trees) tokens between)
      (closes : Takes between stop after) (isDedent : stop.kind = .dedent) :
      Derives feed (.body (.ofStatements (after.spanSince start) trees))
        (start :: newlines ++ mark :: tokens ++ [stop]) after
  | inlineBody {feed after : Feed} {start : Token} {tokens : List Token} {tree : Statement}
      (first : feed.current = .ok start) (inner : Derives feed (.statement tree) tokens after) :
      Derives feed (.body (.ofStatements (after.spanSince start) [tree])) tokens after
  | noStatements {feed : Feed} : Derives feed (.statements []) [] feed
  | oneStatement {feed between behind after : Feed} {tokens newlines moreTokens : List Token}
      {tree : Statement} {trees : List Statement}
      (first : Derives feed (.statement tree) tokens between)
      (skips : Skips between newlines behind)
      (others : Derives behind (.statements trees) moreTokens after) :
      Derives feed (.statements (tree :: trees)) (tokens ++ newlines ++ moreTokens) after
  | declare {feed front behind between later last after : Feed} {start sign : Token}
      {newlines tokens valueTokens ending : List Token} {pattern : Pattern} {value : Expression}
      (skips : Skips feed newlines front)
      (takes : Takes front start behind) (isLet : start.kind = .letWord)
      (target : Derives behind (.target pattern) tokens between)
      (parts : Takes between sign later) (isSign : sign.kind = .assign)
      (inner : Derives later (.expression value) valueTokens last) (ends : Ends last ending after) :
      Derives feed (.statement (.declare (last.spanSince start) pattern value))
        (newlines ++ start :: tokens ++ sign :: valueTokens ++ ending) after
  | assign {feed front between later last after : Feed} {sign : Token}
      {newlines tokens valueTokens ending : List Token} {subject value : Expression}
      {pattern : Pattern} (skips : Skips feed newlines front)
      (target : Derives front (.expression subject) tokens between)
      (fits : subject.toPattern = .ok pattern)
      (parts : Takes between sign later) (isSign : sign.kind = .assign)
      (inner : Derives later (.expression value) valueTokens last) (ends : Ends last ending after) :
      Derives feed (.statement (.assign (subject.span.join value.span) pattern value))
        (newlines ++ tokens ++ sign :: valueTokens ++ ending) after
  | openExpression {feed front last after : Feed} {newlines tokens ending : List Token}
      {tree : Expression} (skips : Skips feed newlines front)
      (inner : Derives front (.expression tree) tokens last) (ends : Ends last ending after) :
      Derives feed (.statement (.evaluate tree.span tree false))
        (newlines ++ tokens ++ ending) after
  | closedExpression {feed front between last after : Feed} {start mark : Token}
      {newlines tokens ending : List Token} {tree : Expression} (skips : Skips feed newlines front)
      (first : front.current = .ok start)
      (inner : Derives front (.expression tree) tokens between)
      (takes : Takes between mark last) (isMark : mark.kind = .semicolon)
      (ends : Ends last ending after) :
      Derives feed (.statement (.evaluate (last.spanSince start) tree true))
        (newlines ++ tokens ++ mark :: ending) after
  | whileLoop {feed front behind between later after : Feed} {start colon : Token}
      {newlines tokens bodyTokens : List Token} {condition : Expression} {block : Block}
      (skips : Skips feed newlines front)
      (takes : Takes front start behind) (isWhile : start.kind = .whileWord)
      (first : Derives behind (.expression condition) tokens between)
      (parts : Takes between colon later) (isColon : colon.kind = .colon)
      (inner : Derives later (.body block) bodyTokens after) :
      Derives feed (.statement (.whileLoop (after.spanSince start) condition block))
        (newlines ++ start :: tokens ++ colon :: bodyTokens) after
  | ifBlock {feed front behind between later after : Feed} {start colon : Token}
      {newlines tokens bodyTokens : List Token} {condition : Expression} {block : Block}
      (skips : Skips feed newlines front)
      (takes : Takes front start behind) (isIf : start.kind = .ifWord)
      (first : Derives behind (.expression condition) tokens between)
      (parts : Takes between colon later) (isColon : colon.kind = .colon)
      (inner : Derives later (.body block) bodyTokens after) :
      Derives feed (.statement (.ifBlock (after.spanSince start) condition block))
        (newlines ++ start :: tokens ++ colon :: bodyTokens) after
  | define {feed front behind listed between later after : Feed} {start named colon : Token}
      {newlines tokens bodyTokens : List Token} {name : String} {names : List String}
      {block : Block} (skips : Skips feed newlines front)
      (takes : Takes front start behind) (isFunction : start.kind = .fnWord)
      (takesName : Takes behind named listed) (denotes : named.name? = some name)
      (list : Derives listed (.parameters names) tokens between)
      (parts : Takes between colon later) (isColon : colon.kind = .colon)
      (inner : Derives later (.body block) bodyTokens after) :
      Derives feed (.statement (.define (after.spanSince start) name names block))
        (newlines ++ start :: named :: tokens ++ colon :: bodyTokens) after

@[grind →]
theorem Takes.rest_eq {feed after : Feed} {token : Token} (takes : Takes feed token after) :
    feed.rest = token :: after.rest := by
  cases takes
  rfl

@[grind →]
theorem Skips.rest_eq {feed after : Feed} {tokens : List Token} (skips : Skips feed tokens after) :
    feed.rest = tokens ++ after.rest := by
  induction skips with
  | none => rfl
  | one takes _ _ induction => rw [takes.rest_eq, induction, List.cons_append]

@[grind →]
theorem Ends.rest_eq {feed after : Feed} {tokens : List Token} (ends : Ends feed tokens after) :
    feed.rest = tokens ++ after.rest := by
  cases ends with
  | here => rfl
  | line takes _ => exact takes.rest_eq

/-- A derivation takes its tokens from the front of the feed. -/
theorem Derives.rest_eq {feed after : Feed} {phrase : Phrase} {tokens : List Token}
    (derives : Derives feed phrase tokens after) : feed.rest = tokens ++ after.rest := by
  -- Nothing here is arithmetic, and the search for its instances would take most of the time.
  induction derives <;> grind -linarith

/-- Lists may have no tokens of their own; every other phrase has some. -/
def Phrase.isList : Phrase → Bool
  | .more _ | .moreTargets _ | .statements _ => true
  | _ => false

theorem Derives.nonempty {feed after : Feed} {phrase : Phrase} {tokens : List Token}
    (derives : Derives feed phrase tokens after) (single : phrase.isList = false) :
    tokens ≠ [] := by
  induction derives <;> simp_all [Phrase.isList]

end LayoutScript
