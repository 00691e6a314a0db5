import LayoutScript.Proofs.Token.Origin
import LayoutScript.Proofs.Tree.Bodies

/-!
Where trees come from. Every node of a tree starts where one of its tokens starts, and every
literal is what one of its tokens carries. Hence the nodes of a program that was read from
source text start at positions of that text.
-/

namespace LayoutScript

/-- A range starts where one of the tokens does. -/
def Span.StartsAmong (tokens : List Token) (span : Span) : Prop :=
  ∃ token ∈ tokens, token.span.file = span.file ∧ token.span.start = span.start

/-- A node starts where one of the tokens does, and a literal is carried by one of them. -/
structure Node.From (tokens : List Token) (node : Node) : Prop where
  start : node.span.StartsAmong tokens
  literal : ∀ span value, node = .expression (.literal span value) →
    ∃ token ∈ tokens, token.payload = value

theorem Span.StartsAmong.mono {span : Span} {tokens others : List Token}
    (starts : span.StartsAmong tokens) (within : ∀ token ∈ tokens, token ∈ others) :
    span.StartsAmong others := by
  obtain ⟨token, member, same⟩ := starts
  exact ⟨token, within token member, same⟩

/-- A range from the start of another one starts where that does. -/
theorem Span.StartsAmong.join {span : Span} {tokens : List Token}
    (starts : span.StartsAmong tokens) (last : Span) : (span.join last).StartsAmong tokens := starts

theorem Feed.span_since_starts {tokens : List Token} {start : Token} (member : start ∈ tokens)
    (feed : Feed) : (feed.spanSince start).StartsAmong tokens :=
  ⟨start, member, rfl, rfl⟩

/-- All nodes come from the tokens. -/
def AllFrom (tokens : List Token) (nodes : List Node) : Prop := ∀ node ∈ nodes, node.From tokens

section AllFrom

variable {tokens others : List Token} {nodes more : List Node}

theorem AllFrom.mono (all : AllFrom tokens nodes) (within : ∀ token ∈ tokens, token ∈ others) :
    AllFrom others nodes := by
  intro node member
  obtain ⟨start, literal⟩ := all node member
  refine ⟨start.mono within, fun span value same => ?_⟩
  obtain ⟨token, inside, carries⟩ := literal span value same
  exact ⟨token, within token inside, carries⟩

theorem AllFrom.append (first : AllFrom tokens nodes) (second : AllFrom tokens more) :
    AllFrom tokens (nodes ++ more) := List.forall_mem_append.2 ⟨first, second⟩

theorem AllFrom.nil : AllFrom tokens [] := List.forall_mem_nil _

/-- A node that is no literal in front of its parts. -/
theorem AllFrom.cons {node : Node} (start : node.span.StartsAmong tokens)
    (plain : ∀ span value, node ≠ .expression (.literal span value))
    (parts : AllFrom tokens nodes) :
    AllFrom tokens (node :: nodes) := by
  apply List.forall_mem_cons.2 ⟨⟨start, ?_⟩, parts⟩
  intro span value same
  exact absurd same (plain span value)

theorem AllFrom.expression {tree : Expression} (all : AllFrom tokens tree.nodes) :
    tree.span.StartsAmong tokens := (Expression.Every.self all).start

end AllFrom

/-- The nodes of a body are the body itself and nodes of its statements. -/
theorem Block.of_statements_nodes {span : Span} {statements : List Statement} {tokens : List Token}
    (start : span.StartsAmong tokens) (all : AllFrom tokens (Statement.nodesAll statements)) :
    AllFrom tokens (Block.ofStatements span statements).nodes := by
  unfold Block.ofStatements
  split
  · rename_i place tree last
    obtain ⟨front, rfl⟩ := List.getLast?_eq_some_iff.mp last
    rw [Statement.nodes_all_append] at all
    obtain ⟨frontAll, lastAll⟩ := List.forall_mem_append.1 all
    rw [List.dropLast_concat, Block.nodes]
    refine .cons start (by simp) (.append frontAll fun node member => lastAll node ?_)
    simp [member]
  · exact .cons start (by simp) all

mutual

/-- The nodes of a target start where those of the expression that it was start. -/
theorem Expression.to_pattern_nodes {tokens : List Token} (tree : Expression) {pattern : Pattern}
    (fits : tree.toPattern = .ok pattern) (all : AllFrom tokens tree.nodes) :
    AllFrom tokens pattern.nodes := by
  cases tree with
  | identifier span name =>
      cases fits
      exact .cons all.expression (by simp) .nil
  | tuple span elements =>
      cases found : Expression.toPatterns elements with
      | error error =>
          rw [Expression.toPattern, found] at fits
          cases fits
      | ok patterns =>
          rw [Expression.toPattern, found] at fits
          cases fits
          refine .cons all.expression (by simp) (Expression.to_patterns_nodes elements found ?_)
          exact fun node member => all node (List.mem_cons_of_mem _ member)
  | _ => cases fits

theorem Expression.to_patterns_nodes {tokens : List Token} (trees : List Expression)
    {patterns : List Pattern} (fits : Expression.toPatterns trees = .ok patterns)
    (all : AllFrom tokens (Expression.nodesAll trees)) :
    AllFrom tokens (Pattern.nodesAll patterns) := by
  cases trees with
  | nil =>
      cases fits
      exact .nil
  | cons tree trees =>
      obtain ⟨treeAll, treesAll⟩ := List.forall_mem_append.1 all
      cases first : tree.toPattern with
      | error error =>
          rw [Expression.toPatterns, first] at fits
          cases fits
      | ok pattern =>
          cases others : Expression.toPatterns trees with
          | error error =>
              rw [Expression.toPatterns, first, others] at fits
              cases fits
          | ok morePatterns =>
              rw [Expression.toPatterns, first, others] at fits
              cases fits
              exact .append (Expression.to_pattern_nodes tree first treeAll)
                (Expression.to_patterns_nodes trees others treesAll)

end

/-- The first token of what is derived stands in front of the feed. -/
theorem Derives.first_mem {feed after : Feed} {phrase : Phrase} {tokens : List Token}
    {token : Token} (derives : Derives feed phrase tokens after) (single : phrase.isList = false)
    (first : feed.current = .ok token) : token ∈ tokens := by
  have front := derives.rest_eq
  cases tokens with
  | nil => exact absurd rfl (derives.nonempty single)
  | cons head others =>
      rw [Feed.current, front] at first
      cases first
      exact List.mem_cons_self

/-- All nodes of a phrase come from the tokens that it takes. -/
theorem Derives.all_from {feed after : Feed} {phrase : Phrase} {tokens : List Token}
    (derives : Derives feed phrase tokens after) : AllFrom tokens phrase.nodes := by
  induction derives with
  | @literal _ _ token value _ denotes =>
      refine List.forall_mem_singleton.2 ⟨⟨token, by simp, rfl, rfl⟩, fun span other same => ?_⟩
      cases same
      unfold Token.literal? at denotes
      split at denotes
      · exact ⟨token, by simp, Option.some.inj denotes⟩
      · cases denotes
  | @identifier _ _ token => exact .cons ⟨token, by simp, rfl, rfl⟩ (by simp) .nil
  | emptyTuple => exact .cons (Feed.span_since_starts (by simp) _) (by simp) .nil
  | grouped _ _ _ _ _ inner => exact inner.mono (by grind)
  | tuple _ _ _ _ _ _ inner others =>
      exact .cons (Feed.span_since_starts (by simp) _) (by simp)
        (.append (inner.mono (by grind)) (others.mono (by grind)))
  | @unary _ _ _ token _ _ _ _ _ _ operand =>
      exact .cons ⟨token, by simp, rfl, rfl⟩ (by simp) (operand.mono (by grind))
  | binary _ _ _ _ first second =>
      exact .cons ((first.mono (by grind)).expression.join _) (by simp)
        (.append (first.mono (by grind)) (second.mono (by grind)))
  | call _ _ _ subject list =>
      exact .cons ((subject.mono (by grind)).expression.join _) (by simp)
        (.append (subject.mono (by grind)) (list.mono (by grind)))
  | member _ _ _ _ _ subject =>
      exact .cons ((subject.mono (by grind)).expression.join _) (by simp) (subject.mono (by grind))
  | conditional _ _ _ _ _ _ _ first second third =>
      exact .cons ((first.mono (by grind)).expression.join _) (by simp)
        (.append (.append (first.mono (by grind)) (second.mono (by grind))) (third.mono (by grind)))
  | rebind _ _ _ _ target second =>
      exact .cons ((target.mono (by grind)).expression.join _) (by simp) (second.mono (by grind))
  | inlineFunction _ _ _ _ _ _ _ inner =>
      exact .cons (Feed.span_since_starts (by simp) _) (by simp)
        (.cons (inner.mono (by grind)).expression (by simp) (inner.mono (by grind)))
  | blockFunction _ _ _ _ _ _ _ inner =>
      exact .cons (Feed.span_since_starts (by simp) _) (by simp) (inner.mono (by grind))
  | someArguments _ _ _ _ _ _ inner others | oneMore _ _ _ _ inner others =>
      exact .append (inner.mono (by grind)) (others.mono (by grind))
  | @nameTarget _ _ token => exact .cons ⟨token, by simp, rfl, rfl⟩ (by simp) .nil
  | emptyTarget => exact .cons (Feed.span_since_starts (by simp) _) (by simp) .nil
  | groupedTarget _ _ _ _ _ inner => exact inner.mono (by grind)
  | tupleTarget _ _ _ _ _ _ inner others =>
      exact .cons (Feed.span_since_starts (by simp) _) (by simp)
        (.append (inner.mono (by grind)) (others.mono (by grind)))
  | oneMoreTarget _ _ _ _ inner others =>
      exact .append (inner.mono (by grind)) (others.mono (by grind))
  | noArguments | noMore | lastComma | noMoreTargets | lastTargetComma | noParameters
  | someParameters | lastName | lastNameComma | nextName | noStatements => exact .nil
  | indentedBody _ _ _ _ _ _ _ _ inner =>
      exact Block.of_statements_nodes (Feed.span_since_starts (by simp) _) (inner.mono (by grind))
  | inlineBody first derives inner =>
      apply Block.of_statements_nodes (Feed.span_since_starts (derives.first_mem rfl first) _)
      exact .append inner .nil
  | oneStatement _ _ _ first others =>
      exact .append (first.mono (by grind)) (others.mono (by grind))
  | declare _ _ _ _ _ _ _ _ target inner =>
      exact .cons (Feed.span_since_starts (by simp) _) (by simp)
        (.append (target.mono (by grind)) (inner.mono (by grind)))
  | assign _ _ fits _ _ _ _ target inner =>
      exact .cons ((target.mono (by grind)).expression.join _) (by simp)
        (.append ((Expression.to_pattern_nodes _ fits target).mono (by grind))
          (inner.mono (by grind)))
  | openExpression _ _ _ inner =>
      exact .cons (inner.mono (by grind)).expression (by simp) (inner.mono (by grind))
  | closedExpression _ first derives _ _ _ inner =>
      have front := derives.first_mem rfl first
      exact .cons (Feed.span_since_starts (by simp [front]) _) (by simp) (inner.mono (by grind))
  | whileLoop _ _ _ _ _ _ _ first inner | ifBlock _ _ _ _ _ _ _ first inner =>
      exact .cons (Feed.span_since_starts (by simp) _) (by simp)
        (.append (first.mono (by grind)) (inner.mono (by grind)))
  | define _ _ _ _ _ _ _ _ _ _ inner =>
      exact .cons (Feed.span_since_starts (by simp) _) (by simp) (inner.mono (by grind))

/-- All nodes of a program that is read from source text come from the tokens of that text. -/
theorem Program.of_source_all_from {source : String} {file : Option String} {limits : Limits}
    {program : Program} (read : Program.ofSource source file limits = .ok program) :
    AllFrom (tokenize source file).tokens program.nodes := by
  obtain ⟨_, _, newlines, tokens, ending, parts, _, _, derives⟩ := Program.of_source_derives read
  rw [parts]
  exact derives.all_from.mono (by grind)

end LayoutScript
