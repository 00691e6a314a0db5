import LayoutScript.Proofs.Tree.Spelling

/-!
How statements are laid out in lines. A simple statement ends its line; a body stands indented
below its header, or, if it is a single statement, on the same line. A function whose body is
indented ends the line that it stands in, so it can only be the last part of a simple statement.
The plain layout of statements indents all bodies.
-/

namespace LayoutScript

mutual

/-- A target as it is spelled: like the expression that takes it apart. -/
def Pattern.asExpression : Pattern → Expression
  | .identifier span name => .identifier span name
  | .tuple span elements => .tuple span (Pattern.asExpressions elements)

def Pattern.asExpressions : List Pattern → List Expression
  | [] => []
  | tree :: trees => tree.asExpression :: Pattern.asExpressions trees

end

/-- An expression whose value is the value of the body that it ends. -/
def Statement.isOpen : Statement → Bool
  | .evaluate _ _ closed => !closed
  | _ => false

/-- The statements that a body is read from. -/
def Block.lines : Block → List Statement
  | .valued _ statements value => statements ++ [.evaluate default value false]
  | .silent _ statements => statements

/-- A body without a value does not end with an open expression. -/
def Block.isRegular : Block → Bool
  | .valued _ _ _ => true
  | .silent _ statements => !statements.getLast?.any Statement.isOpen

/-- A part of a layout: an expression up to the end of its line, a statement, statements below
each other, a body on lines of its own, or a body behind a header. -/
inductive Shape where
  | tail (tree : Expression)
  | statement (tree : Statement)
  | lines (trees : List Statement)
  | indented (tree : Block)
  | body (tree : Block)

/-- The grammar of layouts, with the number of levels by which a layout is nested. -/
inductive Laid : Shape → List Sign → Nat → Prop where
  | line {tree : Expression} {signs : List Sign} {nesting : Nat}
      (written : Written (.whole tree) signs nesting) :
      Laid (.tail tree) (signs ++ [.mark .newline]) nesting
  | function {span : Span} {names : List String} {body : Block} {signs : List Sign}
      {nesting : Nat} (distinct : names.Nodup) (inner : Laid (.indented body) signs nesting) :
      Laid (.tail (.function span names body))
        (.mark .fnWord :: parameterSigns names ++ .mark .colon :: signs) (nesting + 1)
  | declare {span : Span} {pattern : Pattern} {value : Expression}
      {targetSigns signs : List Sign} {targetNesting nesting : Nat}
      (target : Written (.whole pattern.asExpression) targetSigns targetNesting)
      (inner : Laid (.tail value) signs nesting) :
      Laid (.statement (.declare span pattern value))
        (.mark .letWord :: targetSigns ++ .mark .assign :: signs) (max targetNesting nesting)
  | assign {span : Span} {pattern : Pattern} {value : Expression}
      {targetSigns signs : List Sign} {targetNesting nesting : Nat}
      (target : Written (.whole pattern.asExpression) targetSigns targetNesting)
      (inner : Laid (.tail value) signs nesting) :
      Laid (.statement (.assign span pattern value))
        (targetSigns ++ .mark .assign :: signs) (max targetNesting nesting)
  | openExpression {span : Span} {tree : Expression} {signs : List Sign} {nesting : Nat}
      (inner : Laid (.tail tree) signs nesting) :
      Laid (.statement (.evaluate span tree false)) signs nesting
  | closedExpression {span : Span} {tree : Expression} {signs : List Sign} {nesting : Nat}
      (written : Written (.whole tree) signs nesting) :
      Laid (.statement (.evaluate span tree true))
        (signs ++ [.mark .semicolon, .mark .newline]) nesting
  | whileLoop {span : Span} {condition : Expression} {body : Block}
      {headSigns signs : List Sign} {headNesting nesting : Nat}
      (head : Written (.whole condition) headSigns headNesting)
      (inner : Laid (.body body) signs nesting) :
      Laid (.statement (.whileLoop span condition body))
        (.mark .whileWord :: headSigns ++ .mark .colon :: signs) (max headNesting nesting)
  | ifBlock {span : Span} {condition : Expression} {body : Block}
      {headSigns signs : List Sign} {headNesting nesting : Nat}
      (head : Written (.whole condition) headSigns headNesting)
      (inner : Laid (.body body) signs nesting) :
      Laid (.statement (.ifBlock span condition body))
        (.mark .ifWord :: headSigns ++ .mark .colon :: signs) (max headNesting nesting)
  | define {span : Span} {name : String} {names : List String} {body : Block}
      {signs : List Sign} {nesting : Nat} (distinct : names.Nodup)
      (inner : Laid (.body body) signs nesting) :
      Laid (.statement (.define span name names body))
        (.mark .fnWord :: .name name :: parameterSigns names ++ .mark .colon :: signs) nesting
  | noLines : Laid (.lines []) [] 0
  | oneLine {tree : Statement} {trees : List Statement} {signs moreSigns : List Sign}
      {nesting moreNesting : Nat} (inner : Laid (.statement tree) signs nesting)
      (others : Laid (.lines trees) moreSigns moreNesting) :
      Laid (.lines (tree :: trees)) (signs ++ moreSigns) (max nesting moreNesting)
  | indented {body : Block} {signs : List Sign} {nesting : Nat} (regular : body.isRegular = true)
      (inner : Laid (.lines body.lines) signs nesting) :
      Laid (.indented body)
        (.mark .newline :: .mark .indent :: signs ++ [.mark .dedent]) (nesting + 1)
  | ownLines {body : Block} {signs : List Sign} {nesting : Nat}
      (inner : Laid (.indented body) signs nesting) : Laid (.body body) signs nesting
  | sameLine {body : Block} {tree : Statement} {signs : List Sign} {nesting : Nat}
      (regular : body.isRegular = true) (single : body.lines = [tree])
      (inner : Laid (.statement tree) signs nesting) : Laid (.body body) signs (nesting + 1)

/-- The classes of tokens that a statement starts with. -/
def TokenClass.startsLine : TokenClass → Bool
  | .letWord | .whileWord | .ifWord => true
  | kind => kind.starts

theorem TokenClass.starts_line_of_starts {kind : TokenClass} (starts : kind.starts = true) :
    kind.startsLine = true := by
  cases kind <;> first | rfl | cases starts

/-- How a statement begins. -/
def BeginsLine (signs : List Sign) : Prop :=
  ∃ first others, signs = first :: others ∧ first.kind.startsLine = true

theorem Begins.begins_line {rank : Nat} {signs : List Sign} (begins : Begins rank signs) :
    BeginsLine signs := by
  obtain ⟨first, others, split, starts, _⟩ := begins
  exact ⟨first, others, split, TokenClass.starts_line_of_starts starts⟩

theorem Laid.tail_begins {tree : Expression} {signs : List Sign} {nesting : Nat}
    (laid : Laid (.tail tree) signs nesting) : Begins 0 signs := by
  cases laid with
  | line written => exact written.begins.append _
  | function => exact ⟨_, _, rfl, rfl, fun _ => rfl, fun _ => rfl⟩

theorem Laid.statement_begins {tree : Statement} {signs : List Sign} {nesting : Nat}
    (laid : Laid (.statement tree) signs nesting) : BeginsLine signs := by
  cases laid with
  | declare | whileLoop | ifBlock | define => exact ⟨_, _, rfl, rfl⟩
  | assign target => exact (target.begins.append _).begins_line
  | openExpression inner => exact inner.tail_begins.begins_line
  | closedExpression written => exact (written.begins.append _).begins_line

theorem BeginsLine.append {signs : List Sign} (begins : BeginsLine signs) (more : List Sign) :
    BeginsLine (signs ++ more) := by
  obtain ⟨first, others, rfl, starts⟩ := begins
  exact ⟨first, others ++ more, rfl, starts⟩

theorem Laid.lines_begin {trees : List Statement} {signs : List Sign} {nesting : Nat}
    (laid : Laid (.lines trees) signs nesting) : signs = [] ∨ BeginsLine signs := by
  cases laid with
  | noLines => exact .inl rfl
  | oneLine inner => exact .inr (inner.statement_begins.append _)

/-- An indented body starts below its header and ends with its last line. -/
theorem Laid.indented_signs {body : Block} {signs : List Sign} {nesting : Nat}
    (laid : Laid (.indented body) signs nesting) :
    ∃ inner, signs = .mark .newline :: .mark .indent :: inner ++ [.mark .dedent] := by
  cases laid
  exact ⟨_, rfl⟩

section Plain

mutual

/-- Trees that can be laid out. Functions whose bodies are no mere expressions end lines. -/
def Expression.isTail : Expression → Bool
  | .function span parameters body =>
      (Expression.function span parameters body).isInline ||
        decide parameters.Nodup && body.isLaidOut
  | tree => tree.isInline

def Statement.isLaidOut : Statement → Bool
  | .declare _ _ value | .assign _ _ value | .evaluate _ value false => value.isTail
  | .evaluate _ expression true => expression.isInline
  | .whileLoop _ condition body | .ifBlock _ condition body =>
      condition.isInline && body.isLaidOut
  | .define _ _ parameters body => decide parameters.Nodup && body.isLaidOut

def Statement.areLaidOut : List Statement → Bool
  | [] => true
  | tree :: trees => tree.isLaidOut && Statement.areLaidOut trees

def Block.isLaidOut : Block → Bool
  | .valued _ statements value => Statement.areLaidOut statements && value.isTail
  | .silent _ statements =>
      Statement.areLaidOut statements && !statements.getLast?.any Statement.isOpen

end

mutual

/-- The plain layout of an expression that ends its line. -/
def Expression.tailSigns : Expression → List Sign
  | .function span parameters body =>
      if (Expression.function span parameters body).isInline then
        (Expression.function span parameters body).signs ++ [.mark .newline]
      else .mark .fnWord :: parameterSigns parameters ++ .mark .colon :: body.signs
  | tree => tree.signs ++ [.mark .newline]

def Statement.signs : Statement → List Sign
  | .declare _ pattern value =>
      .mark .letWord :: pattern.asExpression.signs ++ .mark .assign :: value.tailSigns
  | .assign _ target value => target.asExpression.signs ++ .mark .assign :: value.tailSigns
  | .evaluate _ expression false => expression.tailSigns
  | .evaluate _ expression true => expression.signs ++ [.mark .semicolon, .mark .newline]
  | .whileLoop _ condition body =>
      .mark .whileWord :: condition.signs ++ .mark .colon :: body.signs
  | .ifBlock _ condition body => .mark .ifWord :: condition.signs ++ .mark .colon :: body.signs
  | .define _ name parameters body =>
      .mark .fnWord :: .name name :: parameterSigns parameters ++ .mark .colon :: body.signs

def Statement.signsAll : List Statement → List Sign
  | [] => []
  | tree :: trees => tree.signs ++ Statement.signsAll trees

def Block.signs : Block → List Sign
  | .valued _ statements value =>
      .mark .newline :: .mark .indent :: (Statement.signsAll statements ++ value.tailSigns) ++
        [.mark .dedent]
  | .silent _ statements =>
      .mark .newline :: .mark .indent :: Statement.signsAll statements ++ [.mark .dedent]

end

mutual

/-- The levels by which the plain layout of an expression that ends its line is nested. -/
def Expression.tailNesting : Expression → Nat
  | .function span parameters body =>
      if (Expression.function span parameters body).isInline then
        (Expression.function span parameters body).nesting + 1
      else body.nesting + 1
  | tree => tree.nesting + 1

def Statement.nesting : Statement → Nat
  | .declare _ pattern value | .assign _ pattern value =>
      max (pattern.asExpression.nesting + 1) value.tailNesting
  | .evaluate _ expression false => expression.tailNesting
  | .evaluate _ expression true => expression.nesting + 1
  | .whileLoop _ condition body | .ifBlock _ condition body =>
      max (condition.nesting + 1) body.nesting
  | .define _ _ _ body => body.nesting

def Statement.nestingAll : List Statement → Nat
  | [] => 0
  | tree :: trees => max tree.nesting (Statement.nestingAll trees)

def Block.nesting : Block → Nat
  | .valued _ statements value => max (Statement.nestingAll statements) value.tailNesting + 1
  | .silent _ statements => Statement.nestingAll statements + 1

end

end Plain

mutual

theorem Pattern.as_expression_inline : ∀ tree : Pattern, tree.asExpression.isInline = true
  | .identifier _ _ => rfl
  | .tuple _ elements => by
      simpa [asExpression, Expression.isInline] using Pattern.as_expressions_inline elements

theorem Pattern.as_expressions_inline : ∀ trees : List Pattern,
    Expression.areInline (Pattern.asExpressions trees) = true
  | [] => rfl
  | tree :: trees => by
      simp [asExpressions, Expression.areInline, tree.as_expression_inline,
        as_expressions_inline trees]

end

theorem Expression.plain_written {tree : Expression} (inline : tree.isInline = true) :
    Written (.whole tree) tree.signs (tree.nesting + 1) :=
  (tree.signs_written inline).to_whole

theorem Pattern.plain_written (tree : Pattern) :
    Written (.whole tree.asExpression) tree.asExpression.signs (tree.asExpression.nesting + 1) :=
  Expression.plain_written tree.as_expression_inline

/-- A further statement can be put below others. -/
theorem Laid.append {trees : List Statement} {tree : Statement} {signs moreSigns : List Sign}
    {nesting moreNesting : Nat} (lines : Laid (.lines trees) signs nesting)
    (last : Laid (.statement tree) moreSigns moreNesting) :
    Laid (.lines (trees ++ [tree])) (signs ++ moreSigns) (max nesting moreNesting) := by
  induction trees generalizing signs nesting with
  | nil =>
      cases lines
      simpa using Laid.oneLine last .noLines
  | cons first trees induction =>
      cases lines with
      | oneLine inner others =>
          rw [List.append_assoc, Nat.max_assoc]
          exact .oneLine inner (induction others)

mutual

theorem Expression.tail_laid : ∀ tree : Expression, tree.isTail = true →
    Laid (.tail tree) tree.tailSigns tree.tailNesting
  | .function span parameters body, laidOut => by
      rw [Expression.tailSigns, Expression.tailNesting]
      by_cases inline : (Expression.function span parameters body).isInline = true
      · rw [if_pos inline, if_pos inline]
        exact .line (Expression.plain_written inline)
      · rw [if_neg inline, if_neg inline]
        simp only [Expression.isTail, inline, Bool.false_or, Bool.and_eq_true,
          decide_eq_true_eq] at laidOut
        exact .function laidOut.1 (body.laid laidOut.2)
  | .literal _ _, laidOut => .line (Expression.plain_written laidOut)
  | .identifier _ _, laidOut => .line (Expression.plain_written laidOut)
  | .tuple _ _, laidOut => .line (Expression.plain_written laidOut)
  | .binary _ _ _ _, laidOut => .line (Expression.plain_written laidOut)
  | .unary _ _ _, laidOut => .line (Expression.plain_written laidOut)
  | .call _ _ _, laidOut => .line (Expression.plain_written laidOut)
  | .member _ _ _, laidOut => .line (Expression.plain_written laidOut)
  | .conditional _ _ _ _, laidOut => .line (Expression.plain_written laidOut)
  | .rebind _ _ _, laidOut => .line (Expression.plain_written laidOut)

/-- The plain layout of a statement follows the grammar. -/
theorem Statement.laid : ∀ tree : Statement, tree.isLaidOut = true →
    Laid (.statement tree) tree.signs tree.nesting
  | .declare _ pattern value, laidOut => .declare pattern.plain_written (value.tail_laid laidOut)
  | .assign _ target value, laidOut => .assign target.plain_written (value.tail_laid laidOut)
  | .evaluate _ expression false, laidOut => .openExpression (expression.tail_laid laidOut)
  | .evaluate _ expression true, laidOut =>
      .closedExpression (Expression.plain_written laidOut)
  | .whileLoop _ condition body, laidOut => by
      simp only [Statement.isLaidOut, Bool.and_eq_true] at laidOut
      exact .whileLoop (Expression.plain_written laidOut.1) (.ownLines (body.laid laidOut.2))
  | .ifBlock _ condition body, laidOut => by
      simp only [Statement.isLaidOut, Bool.and_eq_true] at laidOut
      exact .ifBlock (Expression.plain_written laidOut.1) (.ownLines (body.laid laidOut.2))
  | .define _ _ parameters body, laidOut => by
      simp only [Statement.isLaidOut, Bool.and_eq_true, decide_eq_true_eq] at laidOut
      exact .define laidOut.1 (.ownLines (body.laid laidOut.2))

theorem Statement.all_laid : ∀ trees : List Statement, Statement.areLaidOut trees = true →
    Laid (.lines trees) (Statement.signsAll trees) (Statement.nestingAll trees)
  | [], _ => .noLines
  | tree :: trees, laidOut => by
      simp only [Statement.areLaidOut, Bool.and_eq_true] at laidOut
      exact .oneLine (tree.laid laidOut.1) (Statement.all_laid trees laidOut.2)

theorem Block.laid : ∀ tree : Block, tree.isLaidOut = true →
    Laid (.indented tree) tree.signs tree.nesting
  | .valued _ statements value, laidOut => by
      simp only [Block.isLaidOut, Bool.and_eq_true] at laidOut
      have lines := Statement.all_laid statements laidOut.1
      exact .indented rfl (lines.append (.openExpression (value.tail_laid laidOut.2)))
  | .silent _ statements, laidOut => by
      simp only [Block.isLaidOut, Bool.and_eq_true] at laidOut
      exact .indented laidOut.2 (Statement.all_laid statements laidOut.1)

end

end LayoutScript
