import LayoutScript.Proofs.Token.Margin
import LayoutScript.Proofs.Tree.Nodes
import LayoutScript.Proofs.Tree.Soundness

/-!
Empty bodies in trees that were read from source text. A body is empty when a dedent comes
right behind its indent, and then nothing but the ends of blocks follows: the last token of
the source that is spelled by characters is the colon in front of the body.
-/

namespace LayoutScript

/-- A body with neither a statement nor a value. -/
def Node.isHollow : Node → Bool
  | .block tree => tree.isEmpty
  | _ => false

theorem program_solid_iff (program : Program) :
    program.Every Node.Solid ↔ program.nodes.any Node.isHollow = false := by
  rw [List.any_eq_false]
  apply forall₂_congr
  intro node _
  cases node <;> simp [Node.Solid, Node.isHollow]

/-- All nodes of a phrase. -/
def Phrase.nodes : Phrase → List Node
  | .expression tree => tree.nodes
  | .arguments trees | .more trees => Expression.nodesAll trees
  | .target tree => tree.nodes
  | .moreTargets trees => Pattern.nodesAll trees
  | .parameters _ | .names _ => []
  | .body tree => tree.nodes
  | .statements trees => Statement.nodesAll trees
  | .statement tree => tree.nodes

mutual

theorem Pattern.nodes_not_hollow (tree : Pattern) : tree.nodes.any Node.isHollow = false := by
  cases tree with
  | identifier => rfl
  | tuple span elements => exact Pattern.nodes_all_not_hollow elements

theorem Pattern.nodes_all_not_hollow (trees : List Pattern) :
    (Pattern.nodesAll trees).any Node.isHollow = false := by
  cases trees with
  | nil => rfl
  | cons first others =>
      rw [Pattern.nodesAll, List.any_append, Pattern.nodes_not_hollow first,
        Pattern.nodes_all_not_hollow others]
      rfl

end

theorem Statement.nodes_all_append (first second : List Statement) :
    Statement.nodesAll (first ++ second) =
      Statement.nodesAll first ++ Statement.nodesAll second := by
  induction first with
  | nil => rfl
  | cons tree trees induction => simp [induction]

/-- Some body in a phrase is empty. -/
def Phrase.isHollow (phrase : Phrase) : Bool := phrase.nodes.any Node.isHollow

namespace Phrase

variable {span : Span} {name : String} {names : List String} {tree left right : Expression}
  {trees : List Expression} {pattern : Pattern} {body : Block} {first : Statement}
  {statements : List Statement}

theorem hollow_literal {value : Literal} : (expression (.literal span value)).isHollow = false :=
  rfl

theorem hollow_identifier : (expression (.identifier span name)).isHollow = false := rfl

theorem hollow_target : (target pattern).isHollow = false := Pattern.nodes_not_hollow pattern

theorem hollow_more_targets {patterns : List Pattern} : (moreTargets patterns).isHollow = false :=
  Pattern.nodes_all_not_hollow patterns

theorem hollow_tuple : (expression (.tuple span trees)).isHollow = (more trees).isHollow := rfl

theorem hollow_unary {operator : UnaryOperator} :
    (expression (.unary span operator tree)).isHollow = (expression tree).isHollow := rfl

theorem hollow_binary {operator : BinaryOperator} :
    (expression (.binary span left operator right)).isHollow =
      ((expression left).isHollow || (expression right).isHollow) :=
  List.any_append

theorem hollow_call :
    (expression (.call span tree trees)).isHollow =
      ((expression tree).isHollow || (arguments trees).isHollow) :=
  List.any_append

theorem hollow_member {index : Nat} :
    (expression (.member span tree index)).isHollow = (expression tree).isHollow := rfl

theorem hollow_conditional :
    (expression (.conditional span tree left right)).isHollow =
      ((expression tree).isHollow || (expression left).isHollow ||
        (expression right).isHollow) := by
  simp [isHollow, nodes, Node.isHollow, Bool.or_assoc]

theorem hollow_rebind :
    (expression (.rebind span name tree)).isHollow = (expression tree).isHollow := rfl

theorem hollow_function :
    (expression (.function span names body)).isHollow = (Phrase.body body).isHollow := rfl

theorem hollow_valued :
    (Phrase.body (.valued span [] tree)).isHollow = (expression tree).isHollow := rfl

theorem hollow_arguments :
    (arguments (tree :: trees)).isHollow =
      ((expression tree).isHollow || (more trees).isHollow) :=
  List.any_append

theorem hollow_more :
    (more (tree :: trees)).isHollow = ((expression tree).isHollow || (more trees).isHollow) :=
  List.any_append

theorem hollow_statements :
    (Phrase.statements (first :: statements)).isHollow =
      ((statement first).isHollow || (Phrase.statements statements).isHollow) :=
  List.any_append

theorem hollow_declare :
    (statement (.declare span pattern tree)).isHollow = (expression tree).isHollow := by
  simp [isHollow, nodes, Node.isHollow, Pattern.nodes_not_hollow]

theorem hollow_assign :
    (statement (.assign span pattern tree)).isHollow = (expression tree).isHollow := by
  simp [isHollow, nodes, Node.isHollow, Pattern.nodes_not_hollow]

theorem hollow_evaluate {closed : Bool} :
    (statement (.evaluate span tree closed)).isHollow = (expression tree).isHollow := rfl

theorem hollow_while :
    (statement (.whileLoop span tree body)).isHollow =
      ((expression tree).isHollow || (Phrase.body body).isHollow) :=
  List.any_append

theorem hollow_if :
    (statement (.ifBlock span tree body)).isHollow =
      ((expression tree).isHollow || (Phrase.body body).isHollow) :=
  List.any_append

theorem hollow_define :
    (statement (.define span name names body)).isHollow = (Phrase.body body).isHollow := rfl

/-- A body is hollow by itself or in one of its statements. A last open expression is the same
tree as a statement and as a value. -/
theorem hollow_body :
    (Phrase.body (.ofStatements span statements)).isHollow =
      (statements.isEmpty || (Phrase.statements statements).isHollow) := by
  unfold Block.ofStatements
  split
  · rename_i place tree last
    obtain ⟨front, rfl⟩ := List.getLast?_eq_some_iff.mp last
    simp [isHollow, nodes, Statement.nodes_all_append, Node.isHollow, Block.isEmpty]
  · simp [isHollow, nodes, Node.isHollow, Block.isEmpty]

theorem hollow_line :
    (Phrase.body (.ofStatements span [first])).isHollow = (statement first).isHollow := by
  rw [hollow_body, hollow_statements]
  simp [isHollow, nodes]

end Phrase

/-- The class of the last token that is spelled by characters. -/
def lastVisible (tokens : List Token) : Option TokenClass :=
  ((tokens.map Token.kind).filter TokenClass.isVisible).getLast?

theorem last_visible_append (first second : List Token) :
    lastVisible (first ++ second) = (lastVisible second).or (lastVisible first) := by
  rw [lastVisible, List.map_append, List.filter_append, List.getLast?_append]
  rfl

theorem last_visible_none {tokens : List Token}
    (layout : ∀ token ∈ tokens, token.kind.isVisible = false) : lastVisible tokens = none := by
  rw [lastVisible, List.getLast?_eq_none_iff, List.filter_eq_nil_iff]
  intro kind member
  obtain ⟨token, inside, rfl⟩ := List.mem_map.mp member
  rw [layout token inside]
  exact Bool.false_ne_true

theorem Skips.newlines {feed after : Feed} {tokens : List Token} (skips : Skips feed tokens after) :
    ∀ token ∈ tokens, token.kind = .newline := by
  induction skips with
  | none => simp
  | one _ isNewline _ induction => exact List.forall_mem_cons.mpr ⟨isNewline, induction⟩

theorem Ends.newlines {feed after : Feed} {tokens : List Token} (ends : Ends feed tokens after) :
    ∀ token ∈ tokens, token.kind = .newline := by
  cases ends with
  | here => simp
  | line _ isNewline => simp [isNewline]

theorem last_visible_dedent {token : Token} (isDedent : token.kind = .dedent) :
    lastVisible [token] = none := by
  apply last_visible_none
  intro other member
  rw [List.mem_singleton.mp member, isDedent]
  rfl

theorem last_visible_newlines {tokens : List Token}
    (newlines : ∀ token ∈ tokens, token.kind = .newline) : lastVisible tokens = none := by
  apply last_visible_none
  intro token member
  rw [newlines token member]
  rfl

theorem Skips.last_visible {feed after : Feed} {tokens : List Token}
    (skips : Skips feed tokens after) : lastVisible tokens = .none :=
  last_visible_newlines skips.newlines

theorem Ends.last_visible {feed after : Feed} {tokens : List Token}
    (ends : Ends feed tokens after) : lastVisible tokens = none :=
  last_visible_newlines ends.newlines

/-- Some token is spelled by characters, and the last such one is no colon. -/
def Inked (tokens : List Token) : Prop :=
  ∃ kind, lastVisible tokens = some kind ∧ kind ≠ .colon

namespace Inked

variable {tokens : List Token} {token : Token}

theorem behind (inked : Inked tokens) (before : List Token) : Inked (before ++ tokens) := by
  obtain ⟨kind, last, notColon⟩ := inked
  refine ⟨kind, ?_, notColon⟩
  rw [last_visible_append, last, Option.some_or]

theorem before_hidden {hidden : List Token} (inked : Inked tokens)
    (none : lastVisible hidden = none) : Inked (tokens ++ hidden) := by
  obtain ⟨kind, last, notColon⟩ := inked
  refine ⟨kind, ?_, notColon⟩
  rw [last_visible_append, none, last, Option.none_or]

theorem last (visible : token.kind.isVisible = true) (notColon : token.kind ≠ .colon)
    (before : List Token) : Inked (before ++ [token]) := by
  refine behind ⟨token.kind, ?_, notColon⟩ before
  simp [lastVisible, visible]

theorem last_of_kind {kind : TokenClass} (isKind : token.kind = kind)
    (visible : kind.isVisible = true) (notColon : kind ≠ .colon) (before : List Token) :
    Inked (before ++ [token]) := by
  rw [← isKind] at visible notColon
  exact last visible notColon before

theorem literal {value : Literal} (denotes : token.literal? = some value) : Inked [token] := by
  have isKind : token.payload.tokenClass = token.kind := by
    unfold Token.literal? at denotes
    split at denotes
    · assumption
    · cases denotes
  refine last_of_kind isKind.symm ?_ ?_ []
  · cases token.payload <;> rfl
  · cases token.payload <;> simp [Literal.tokenClass]

theorem name {text : String} (named : token.name? = some text) : Inked [token] := by
  have isName : token.kind = .identifier := by
    unfold Token.name? at named
    split at named
    · assumption
    · cases named
  exact last_of_kind isName rfl (by decide) []

theorem index {place : Nat} (denotes : token.index? = some place) (before : List Token) :
    Inked (before ++ [token]) := by
  have isIndex : token.kind = .intLiteral := by
    unfold Token.index? at denotes
    split at denotes
    · assumption
    · cases denotes
  exact last_of_kind isIndex rfl (by decide) before

theorem close (isClose : token.kind = .closeParen) (before : List Token) :
    Inked (before ++ [token]) :=
  last_of_kind isClose rfl (by decide) before

end Inked

/-- Where the tokens of a phrase end in a token that is spelled by characters. Lists inside
parentheses are left out, as the parenthesis behind them counts. -/
def Phrase.Inked (tokens : List Token) : Phrase → Prop
  | .expression _ | .arguments _ | .body _ | .statement _ => LayoutScript.Inked tokens
  | .statements trees => trees = [] ∧ tokens = [] ∨ LayoutScript.Inked tokens
  | .more _ | .target _ | .moreTargets _ | .parameters _ | .names _ => True

/-- Where no body is empty, phrases end in tokens that are spelled by characters and are no
colons: a colon never ends a phrase, and what follows it does not end in one. -/
theorem Derives.inked {feed after : Feed} {phrase : Phrase} {tokens : List Token}
    (derives : Derives feed phrase tokens after) (solid : phrase.isHollow = false) :
    phrase.Inked tokens := by
  induction derives with
  | literal _ denotes => exact .literal denotes
  | identifier _ named => exact .name named
  | @emptyTuple _ _ _ start _ _ _ _ isClose => exact .close isClose [start]
  | grouped _ _ _ _ isClose => exact .close isClose _
  | tuple _ _ _ _ _ isClose => exact .close isClose _
  | unary _ _ _ operand =>
      rw [Phrase.hollow_unary] at solid
      exact (operand solid).behind [_]
  | binary _ _ _ _ _ second =>
      rw [Phrase.hollow_binary, Bool.or_eq_false_iff] at solid
      exact ((second solid.2).behind [_]).behind _
  | call _ _ _ _ list =>
      rw [Phrase.hollow_call, Bool.or_eq_false_iff] at solid
      exact (list solid.2).behind _
  | @member _ _ _ _ dot _ tokens _ _ _ _ _ _ denotes =>
      rw [List.append_cons]
      exact .index denotes _
  | conditional _ _ _ _ _ _ _ _ _ third =>
      rw [Phrase.hollow_conditional, Bool.or_eq_false_iff] at solid
      exact ((third solid.2).behind [_]).behind _
  | rebind _ _ _ _ _ second =>
      rw [Phrase.hollow_rebind] at solid
      exact ((second solid).behind [_]).behind _
  | inlineFunction _ _ _ _ _ _ _ inner =>
      rw [Phrase.hollow_function, Phrase.hollow_valued] at solid
      exact ((inner solid).behind [_]).behind _
  | blockFunction _ _ _ _ _ _ _ inner =>
      rw [Phrase.hollow_function] at solid
      exact ((inner solid).behind [_]).behind _
  | @noArguments _ _ _ start _ _ _ _ isClose => exact .close isClose [start]
  | someArguments _ _ _ _ _ isClose => exact .close isClose _
  | noMore => trivial
  | lastComma => trivial
  | oneMore => trivial
  | nameTarget => trivial
  | emptyTarget => trivial
  | groupedTarget => trivial
  | tupleTarget => trivial
  | noMoreTargets => trivial
  | lastTargetComma => trivial
  | oneMoreTarget => trivial
  | noParameters => trivial
  | someParameters => trivial
  | lastName => trivial
  | lastNameComma => trivial
  | nextName => trivial
  | indentedBody _ _ _ _ _ _ _ isDedent inner =>
      rw [Phrase.hollow_body, Bool.or_eq_false_iff, List.isEmpty_eq_false_iff] at solid
      obtain ⟨none, _⟩ | inked := inner solid.2
      · exact absurd none solid.1
      · exact (((inked.behind [_]).behind _)).before_hidden (last_visible_dedent isDedent)
  | inlineBody _ _ inner =>
      rw [Phrase.hollow_line] at solid
      exact inner solid
  | noStatements => exact .inl ⟨rfl, rfl⟩
  | oneStatement _ skips _ first others =>
      rw [Phrase.hollow_statements, Bool.or_eq_false_iff] at solid
      obtain ⟨_, rfl⟩ | inked := others solid.2
      · rw [List.append_nil]
        exact .inr ((first solid.1).before_hidden skips.last_visible)
      · exact .inr (inked.behind _)
  | declare _ _ _ _ _ _ _ ends _ inner =>
      rw [Phrase.hollow_declare] at solid
      exact (((inner solid).behind [_]).behind _).before_hidden ends.last_visible
  | assign _ _ _ _ _ _ ends _ inner =>
      rw [Phrase.hollow_assign] at solid
      exact (((inner solid).behind [_]).behind _).before_hidden ends.last_visible
  | openExpression _ _ ends inner =>
      rw [Phrase.hollow_evaluate] at solid
      exact ((inner solid).behind _).before_hidden ends.last_visible
  | closedExpression _ _ _ _ isMark ends =>
      rw [List.append_cons]
      exact (Inked.last_of_kind isMark rfl (by decide) _).before_hidden ends.last_visible
  | whileLoop _ _ _ _ _ _ _ _ inner =>
      rw [Phrase.hollow_while, Bool.or_eq_false_iff] at solid
      exact ((inner solid.2).behind [_]).behind _
  | ifBlock _ _ _ _ _ _ _ _ inner =>
      rw [Phrase.hollow_if, Bool.or_eq_false_iff] at solid
      exact ((inner solid.2).behind [_]).behind _
  | define _ _ _ _ _ _ _ _ _ _ inner =>
      rw [Phrase.hollow_define] at solid
      exact ((inner solid).behind [_]).behind _

/-- Newlines, an indent and its dedent: the tokens of an empty body. -/
def Vacant (tokens : List Token) : Prop :=
  ∃ newlines mark stop, tokens = newlines ++ [mark, stop] ∧
    (∀ token ∈ newlines, token.kind = .newline) ∧ mark.kind = .indent ∧ stop.kind = .dedent

/-- A colon with the tokens of an empty body behind it. -/
def Gap (tokens : List Token) : Prop :=
  ∃ colon vacant, colon :: vacant <:+: tokens ∧ colon.kind = .colon ∧ Vacant vacant

theorem Gap.behind {tokens : List Token} (gap : Gap tokens) (before : List Token) :
    Gap (before ++ tokens) := by
  obtain ⟨colon, vacant, found, rest⟩ := gap
  exact ⟨colon, vacant, found.trans List.infix_append_right, rest⟩

theorem Gap.before {tokens : List Token} (gap : Gap tokens) (behind : List Token) :
    Gap (tokens ++ behind) := by
  obtain ⟨colon, vacant, found, rest⟩ := gap
  exact ⟨colon, vacant, found.trans List.infix_append_left, rest⟩

/-- Where the tokens of a phrase show that a body is empty. The colon of a body stands in
front of it. -/
def Phrase.Gap (tokens : List Token) : Phrase → Prop
  | .body _ => Vacant tokens ∨ LayoutScript.Gap tokens
  | _ => LayoutScript.Gap tokens

theorem gap_of_body {colon : Token} {tokens : List Token} {block : Block}
    (isColon : colon.kind = .colon) (inner : (Phrase.body block).Gap tokens) (before : List Token) :
    Gap (before ++ colon :: tokens) := by
  obtain vacant | gap := inner
  · exact ⟨colon, tokens, List.infix_append_right, isColon, vacant⟩
  · exact (gap.behind [colon]).behind before

/-- An empty body shows in the tokens of every phrase that it is part of. -/
theorem Derives.gap {feed after : Feed} {phrase : Phrase} {tokens : List Token}
    (derives : Derives feed phrase tokens after) (hollow : phrase.isHollow = true) :
    phrase.Gap tokens := by
  induction derives with
  | literal =>
      rw [Phrase.hollow_literal] at hollow
      cases hollow
  | identifier =>
      rw [Phrase.hollow_identifier] at hollow
      cases hollow
  | emptyTuple =>
      rw [Phrase.hollow_tuple] at hollow
      cases hollow
  | grouped _ _ _ _ _ inner => exact ((inner hollow).behind [_]).before _
  | tuple _ _ _ _ _ _ inner others =>
      rw [Phrase.hollow_tuple, Phrase.hollow_more, Bool.or_eq_true] at hollow
      obtain hollow | hollow := hollow
      · exact (((inner hollow).behind [_]).before _).before _
      · exact ((others hollow).behind _).before _
  | unary _ _ _ operand =>
      rw [Phrase.hollow_unary] at hollow
      exact (operand hollow).behind [_]
  | binary _ _ _ _ first second =>
      rw [Phrase.hollow_binary, Bool.or_eq_true] at hollow
      obtain hollow | hollow := hollow
      · exact (first hollow).before _
      · exact ((second hollow).behind [_]).behind _
  | call _ _ _ subject list =>
      rw [Phrase.hollow_call, Bool.or_eq_true] at hollow
      obtain hollow | hollow := hollow
      · exact (subject hollow).before _
      · exact (list hollow).behind _
  | member _ _ _ _ _ subject =>
      rw [Phrase.hollow_member] at hollow
      exact (subject hollow).before _
  | conditional _ _ _ _ _ _ _ first second third =>
      rw [Phrase.hollow_conditional, Bool.or_eq_true, Bool.or_eq_true] at hollow
      obtain (hollow | hollow) | hollow := hollow
      · exact ((first hollow).before _).before _
      · exact (((second hollow).behind [_]).behind _).before _
      · exact ((third hollow).behind [_]).behind _
  | rebind _ _ _ _ _ second =>
      rw [Phrase.hollow_rebind] at hollow
      exact ((second hollow).behind [_]).behind _
  | inlineFunction _ _ _ _ _ _ _ inner =>
      rw [Phrase.hollow_function, Phrase.hollow_valued] at hollow
      exact ((inner hollow).behind [_]).behind _
  | blockFunction _ _ _ _ isColon _ _ inner =>
      rw [Phrase.hollow_function] at hollow
      exact gap_of_body isColon (inner hollow) _
  | noArguments => cases hollow
  | someArguments _ _ _ _ _ _ inner others =>
      rw [Phrase.hollow_arguments, Bool.or_eq_true] at hollow
      obtain hollow | hollow := hollow
      · exact (((inner hollow).behind [_]).before _).before _
      · exact ((others hollow).behind _).before _
  | noMore => cases hollow
  | lastComma => cases hollow
  | oneMore _ _ _ _ inner others =>
      rw [Phrase.hollow_more, Bool.or_eq_true] at hollow
      obtain hollow | hollow := hollow
      · exact ((inner hollow).behind [_]).before _
      · exact (others hollow).behind _
  | nameTarget | emptyTarget | groupedTarget | tupleTarget =>
      rw [Phrase.hollow_target] at hollow
      cases hollow
  | noMoreTargets | lastTargetComma | oneMoreTarget =>
      rw [Phrase.hollow_more_targets] at hollow
      cases hollow
  | noParameters | someParameters | lastName | lastNameComma | nextName => cases hollow
  | @indentedBody _ _ _ _ _ _ start mark stop newlines _ _ _ isNewline skips _ isIndent inside _
      isDedent inner =>
      rw [Phrase.hollow_body, Bool.or_eq_true, List.isEmpty_iff] at hollow
      obtain rfl | hollow := hollow
      · cases inside
        exact .inl ⟨start :: newlines, mark, stop, by simp,
          List.forall_mem_cons.mpr ⟨isNewline, skips.newlines⟩, isIndent, isDedent⟩
      · exact .inr ((((inner hollow).behind [_]).behind _).before _)
  | inlineBody _ _ inner =>
      rw [Phrase.hollow_line] at hollow
      exact .inr (inner hollow)
  | noStatements => cases hollow
  | oneStatement _ _ _ first others =>
      rw [Phrase.hollow_statements, Bool.or_eq_true] at hollow
      obtain hollow | hollow := hollow
      · exact ((first hollow).before _).before _
      · exact (others hollow).behind _
  | declare _ _ _ _ _ _ _ _ _ inner =>
      rw [Phrase.hollow_declare] at hollow
      exact (((inner hollow).behind [_]).behind _).before _
  | assign _ _ _ _ _ _ _ _ inner =>
      rw [Phrase.hollow_assign] at hollow
      exact (((inner hollow).behind [_]).behind _).before _
  | openExpression _ _ _ inner =>
      rw [Phrase.hollow_evaluate] at hollow
      exact ((inner hollow).behind _).before _
  | closedExpression _ _ _ _ _ _ inner =>
      rw [Phrase.hollow_evaluate] at hollow
      exact ((inner hollow).behind _).before _
  | whileLoop _ _ _ _ _ isColon _ first inner =>
      rw [Phrase.hollow_while, Bool.or_eq_true] at hollow
      obtain hollow | hollow := hollow
      · exact (((first hollow).behind [_]).behind _).before _
      · exact gap_of_body isColon (inner hollow) _
  | ifBlock _ _ _ _ _ isColon _ first inner =>
      rw [Phrase.hollow_if, Bool.or_eq_true] at hollow
      obtain hollow | hollow := hollow
      · exact (((first hollow).behind [_]).behind _).before _
      · exact gap_of_body isColon (inner hollow) _
  | define _ _ _ _ _ _ _ isColon _ _ inner =>
      rw [Phrase.hollow_define] at hollow
      exact gap_of_body isColon (inner hollow) _

theorem Feed.of_tokens_proper (tokens : List Token) (failure : Option ScriptError)
    (file : Option String) : (Feed.ofTokens tokens failure file).Proper := by
  intro token ending
  cases failure with
  | some error => cases ending
  | none =>
      cases ending
      rfl

/-- A program that is read from source text is derived from all of its tokens, save for
newlines in front and the end of input. -/
theorem Program.of_source_derives {source : String} {file : Option String} {limits : Limits}
    {program : Program} (read : Program.ofSource source file limits = .ok program) :
    ∃ front after newlines tokens ending,
      (tokenize source file).tokens = newlines ++ tokens ++ ending ∧
      (∀ token ∈ newlines, token.kind = .newline) ∧
      (∀ token ∈ ending, token.kind = .endOfInput) ∧
      Derives front (.statements program.statements) tokens after := by
  unfold Program.ofSource at read
  extract_lets reading at read
  split at read
  · rename_i accepted
    cases read
    obtain ⟨front, after, newlines, tokens, skips, derives, _, token, isCurrent, isEnd⟩ :=
      Program.of_feed_derives (Feed.of_tokens_proper _ _ _) accepted
    have parts : reading.tokens = newlines ++ tokens ++ after.rest := by
      have behind := skips.rest_eq
      rw [derives.rest_eq, ← List.append_assoc] at behind
      exact behind
    refine ⟨front, after, newlines, tokens, after.rest, parts, skips.newlines, ?_, derives⟩
    cases rest : after.rest with
    | nil => simp
    | cons first others =>
        rw [Feed.current, rest] at isCurrent
        cases isCurrent
        rw [rest] at parts
        cases tokenize_end_last parts isEnd
        simp [isEnd]
  · cases read
  · cases read

theorem last_visible_of_parts {newlines tokens ending : List Token}
    (newline : ∀ token ∈ newlines, token.kind = .newline)
    (isEnd : ∀ token ∈ ending, token.kind = .endOfInput) :
    lastVisible (newlines ++ tokens ++ ending) = lastVisible tokens := by
  have hidden : lastVisible ending = none := by
    apply last_visible_none
    intro token member
    rw [isEnd token member]
    rfl
  rw [last_visible_append, last_visible_append, last_visible_newlines newline, hidden,
    Option.none_or, Option.or_none]

/-- With nothing but ends of blocks behind it, the colon of an empty body is the last token
that is spelled by characters. -/
theorem Gap.last_visible {source : String} {file : Option String}
    (gap : Gap (tokenize source file).tokens) :
    lastVisible (tokenize source file).tokens = some .colon ∧
      Lexer.isTorn (Text.lastLine (Text.dropReturns source.toList)) = true := by
  obtain ⟨colon, _, ⟨before, behind, found⟩, isColon, newlines, mark, stop, rfl, newline, isIndent,
    isDedent⟩ := gap
  have parts : (tokenize source file).tokens =
      before ++ colon :: newlines ++ mark :: stop :: behind := by
    rw [← found]
    simp
  obtain ⟨torn, closing⟩ := tokenize_dedent_behind_indent parts isIndent isDedent
  refine ⟨?_, torn⟩
  have hidden : lastVisible (newlines ++ mark :: stop :: behind) = none := by
    apply last_visible_none
    intro token member
    simp only [List.mem_append, List.mem_cons] at member
    obtain inside | rfl | rfl | inside := member
    · rw [newline token inside]
      rfl
    · rw [isIndent]
      rfl
    · rw [isDedent]
      rfl
    · exact (closing token inside).hidden
  have spelled : lastVisible [colon] = some .colon := by
    simp [lastVisible, isColon, TokenClass.isVisible, TokenClass.isLayout]
  rw [parts, List.append_assoc, List.cons_append, List.append_cons, last_visible_append, hidden,
    last_visible_append, spelled, Option.none_or, Option.some_or]

/-- A source that is accepted has an empty body exactly when its last token that is spelled by
characters is a colon and its last line is torn. -/
theorem Program.of_source_solid_iff {source : String} {file : Option String} {limits : Limits}
    {program : Program} (read : Program.ofSource source file limits = .ok program) :
    program.Every Node.Solid ↔
      ¬(lastVisible (tokenize source file).tokens = some .colon ∧
        Lexer.isTorn (Text.lastLine (Text.dropReturns source.toList)) = true) := by
  obtain ⟨front, after, newlines, tokens, ending, parts, newline, isEnd, derives⟩ :=
    Program.of_source_derives read
  rw [program_solid_iff]
  constructor
  · rintro solid ⟨colon, _⟩
    rw [parts, last_visible_of_parts newline isEnd] at colon
    obtain ⟨_, rfl⟩ | ⟨kind, last, notColon⟩ := derives.inked solid
    · cases colon
    · rw [colon] at last
      exact notColon (Option.some.inj last).symm
  · intro regular
    rw [Bool.eq_false_iff]
    intro hollow
    have gap : Gap (tokenize source file).tokens := by
      rw [parts]
      exact ((derives.gap hollow).behind _).before _
    exact regular gap.last_visible

/-- A loop whose body is a torn line is accepted, and its body is empty. -/
theorem torn_loop_not_solid :
    ∃ program, Program.ofSource "while true:\n \r " none {} = .ok program ∧
      ¬program.Every Node.Solid := by
  cases read : Program.ofSource "while true:\n \r " none {} with
  | error halt =>
      have accepted : (Program.ofSource "while true:\n \r " none {}).toBool = true := by
        decide +kernel
      rw [read] at accepted
      cases accepted
  | ok program =>
      refine ⟨program, rfl, fun solid => ?_⟩
      exact (Program.of_source_solid_iff read).mp solid (by decide +kernel)

end LayoutScript
