import LayoutScript.Tree.Basic

/-!
All nodes of a tree in one list, and properties that every node of a tree has.
A property of trees is stated on single nodes; what it says of the parts of a tree
then follows from the shape of the tree alone.
-/

namespace LayoutScript

/-- A part of a tree. -/
inductive Node where
  | expression (tree : Expression)
  | pattern (tree : Pattern)
  | statement (tree : Statement)
  | block (tree : Block)

/-- The range that a node was read from. -/
def Node.span : Node → Span
  | .expression tree => tree.span
  | .pattern tree => tree.span
  | .statement tree => tree.span
  | .block tree => tree.span

mutual

@[simp]
def Pattern.nodes (tree : Pattern) : List Node :=
  .pattern tree :: match tree with
    | .identifier _ _ => []
    | .tuple _ elements => Pattern.nodesAll elements

@[simp]
def Pattern.nodesAll : List Pattern → List Node
  | [] => []
  | pattern :: patterns => pattern.nodes ++ Pattern.nodesAll patterns

end

mutual

/-- A tree comes before its parts, and the parts come in the order of the source. -/
@[simp]
def Expression.nodes (tree : Expression) : List Node :=
  .expression tree :: match tree with
    | .literal _ _ | .identifier _ _ => []
    | .tuple _ elements => Expression.nodesAll elements
    | .binary _ left _ right => left.nodes ++ right.nodes
    | .unary _ _ operand => operand.nodes
    | .call _ callee arguments => callee.nodes ++ Expression.nodesAll arguments
    | .member _ target _ => target.nodes
    | .conditional _ condition whenTrue whenFalse =>
        condition.nodes ++ whenTrue.nodes ++ whenFalse.nodes
    | .rebind _ _ value => value.nodes
    | .function _ _ body => body.nodes

@[simp]
def Expression.nodesAll : List Expression → List Node
  | [] => []
  | expression :: expressions => expression.nodes ++ Expression.nodesAll expressions

@[simp]
def Statement.nodes (tree : Statement) : List Node :=
  .statement tree :: match tree with
    | .declare _ pattern value => pattern.nodes ++ value.nodes
    | .assign _ target value => target.nodes ++ value.nodes
    | .evaluate _ expression _ => expression.nodes
    | .whileLoop _ condition body => condition.nodes ++ body.nodes
    | .ifBlock _ condition body => condition.nodes ++ body.nodes
    | .define _ _ _ body => body.nodes

@[simp]
def Statement.nodesAll : List Statement → List Node
  | [] => []
  | statement :: statements => statement.nodes ++ Statement.nodesAll statements

@[simp]
def Block.nodes (tree : Block) : List Node :=
  .block tree :: match tree with
    | .valued _ statements value => Statement.nodesAll statements ++ value.nodes
    | .silent _ statements => Statement.nodesAll statements

end

def Program.nodes (program : Program) : List Node := Statement.nodesAll program.statements

/-- A body with neither a statement nor a value. -/
def Block.isEmpty : Block → Bool
  | .valued _ _ _ => false
  | .silent _ statements => statements.isEmpty

/-- A body has a statement or a value. -/
def Node.Solid : Node → Prop
  | .block tree => tree.isEmpty = false
  | _ => True

def Expression.Every (property : Node → Prop) (tree : Expression) : Prop :=
  ∀ node ∈ tree.nodes, property node

def Statement.Every (property : Node → Prop) (tree : Statement) : Prop :=
  ∀ node ∈ tree.nodes, property node

def Block.Every (property : Node → Prop) (tree : Block) : Prop :=
  ∀ node ∈ tree.nodes, property node

def Program.Every (property : Node → Prop) (program : Program) : Prop :=
  ∀ node ∈ program.nodes, property node

theorem expression_nodes_all_mem {node : Node} {expressions : List Expression} :
    node ∈ Expression.nodesAll expressions ↔ ∃ tree ∈ expressions, node ∈ tree.nodes := by
  induction expressions with
  | nil => simp
  | cons first rest induction => simp [induction]

theorem statement_nodes_all_mem {node : Node} {statements : List Statement} :
    node ∈ Statement.nodesAll statements ↔ ∃ tree ∈ statements, node ∈ tree.nodes := by
  induction statements with
  | nil => simp
  | cons first rest induction => simp [induction]

namespace Expression.Every

variable {property : Node → Prop} {span : Span}

theorem self {tree : Expression} (every : tree.Every property) : property (.expression tree) :=
  every _ (by rw [Expression.nodes.eq_def]; exact List.mem_cons_self)

theorem tuple {elements : List Expression} (every : (Expression.tuple span elements).Every property) :
    ∀ element ∈ elements, element.Every property := by
  intro element member node inside
  apply every
  simp only [Expression.nodes, List.mem_cons, expression_nodes_all_mem]
  exact .inr ⟨element, member, inside⟩

theorem binary {left right : Expression} {operator : BinaryOperator}
    (every : (Expression.binary span left operator right).Every property) :
    left.Every property ∧ right.Every property := by
  constructor <;> intro node inside <;> apply every <;> simp [inside]

theorem unary {operator : UnaryOperator} {operand : Expression}
    (every : (Expression.unary span operator operand).Every property) : operand.Every property := by
  intro node inside
  apply every
  simp [inside]

theorem call {callee : Expression} {arguments : List Expression}
    (every : (Expression.call span callee arguments).Every property) :
    callee.Every property ∧ ∀ argument ∈ arguments, argument.Every property := by
  constructor
  · intro node inside
    apply every
    simp [inside]
  · intro argument member node inside
    apply every
    simp only [Expression.nodes, List.mem_cons, List.mem_append, expression_nodes_all_mem]
    exact .inr (.inr ⟨argument, member, inside⟩)

theorem member {target : Expression} {index : Nat}
    (every : (Expression.member span target index).Every property) : target.Every property := by
  intro node inside
  apply every
  simp [inside]

theorem conditional {condition whenTrue whenFalse : Expression}
    (every : (Expression.conditional span condition whenTrue whenFalse).Every property) :
    condition.Every property ∧ whenTrue.Every property ∧ whenFalse.Every property := by
  refine ⟨?_, ?_, ?_⟩ <;> intro node inside <;> apply every <;> simp [inside]

theorem rebind {name : String} {value : Expression}
    (every : (Expression.rebind span name value).Every property) : value.Every property := by
  intro node inside
  apply every
  simp [inside]

theorem function {parameters : List String} {body : Block}
    (every : (Expression.function span parameters body).Every property) : body.Every property := by
  intro node inside
  apply every
  simp [inside]

end Expression.Every

namespace Statement.Every

variable {property : Node → Prop} {span : Span}

theorem self {tree : Statement} (every : tree.Every property) : property (.statement tree) :=
  every _ (by rw [Statement.nodes.eq_def]; exact List.mem_cons_self)

theorem declare {pattern : Pattern} {value : Expression}
    (every : (Statement.declare span pattern value).Every property) : value.Every property := by
  intro node inside
  apply every
  simp [inside]

theorem assign {target : Pattern} {value : Expression}
    (every : (Statement.assign span target value).Every property) : value.Every property := by
  intro node inside
  apply every
  simp [inside]

theorem evaluate {expression : Expression} {closed : Bool}
    (every : (Statement.evaluate span expression closed).Every property) :
    expression.Every property := by
  intro node inside
  apply every
  simp [inside]

theorem whileLoop {condition : Expression} {body : Block}
    (every : (Statement.whileLoop span condition body).Every property) :
    condition.Every property ∧ body.Every property := by
  constructor <;> intro node inside <;> apply every <;> simp [inside]

theorem ifBlock {condition : Expression} {body : Block}
    (every : (Statement.ifBlock span condition body).Every property) :
    condition.Every property ∧ body.Every property := by
  constructor <;> intro node inside <;> apply every <;> simp [inside]

theorem define {name : String} {parameters : List String} {body : Block}
    (every : (Statement.define span name parameters body).Every property) :
    body.Every property := by
  intro node inside
  apply every
  simp [inside]

end Statement.Every

namespace Block.Every

variable {property : Node → Prop} {span : Span}

theorem self {tree : Block} (every : tree.Every property) : property (.block tree) :=
  every _ (by rw [Block.nodes.eq_def]; exact List.mem_cons_self)

theorem valued {statements : List Statement} {value : Expression}
    (every : (Block.valued span statements value).Every property) :
    (∀ statement ∈ statements, statement.Every property) ∧ value.Every property := by
  constructor
  · intro statement member node inside
    apply every
    simp only [Block.nodes, List.mem_cons, List.mem_append, statement_nodes_all_mem]
    exact .inr (.inl ⟨statement, member, inside⟩)
  · intro node inside
    apply every
    simp [inside]

theorem silent {statements : List Statement}
    (every : (Block.silent span statements).Every property) :
    ∀ statement ∈ statements, statement.Every property := by
  intro statement member node inside
  apply every
  simp only [Block.nodes, List.mem_cons, statement_nodes_all_mem]
  exact .inr ⟨statement, member, inside⟩

end Block.Every

theorem Program.Every.statements {property : Node → Prop} {program : Program}
    (every : program.Every property) : ∀ statement ∈ program.statements, statement.Every property := by
  intro statement member node inside
  apply every
  rw [Program.nodes, statement_nodes_all_mem]
  exact ⟨statement, member, inside⟩

end LayoutScript
