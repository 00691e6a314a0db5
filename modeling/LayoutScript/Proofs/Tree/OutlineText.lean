import LayoutScript.Proofs.Number.Conversion
import LayoutScript.Proofs.Number.FloatText
import LayoutScript.Proofs.Tree.Origin
import LayoutScript.Proofs.Tree.Rendering
import LayoutScript.Proofs.Tree.Spelling

/-!
The outline of a tree determines the tree, up to ranges, if its floats are rounded numbers. The
kind of a node tells which tree it belongs to, and the fields tell the parts. The floats of a tree
that was read from source text are rounded, so the text of its outline determines the tree.
-/

namespace LayoutScript

open Outline

/-- A literal that is a float is a rounded number. -/
def Literal.Rounded (value : Literal) : Prop :=
  ∀ number, value = .float number → number.Representable

/-- A node that is a literal has a rounded one. -/
def Node.Rounded (node : Node) : Prop :=
  ∀ span value, node = .expression (.literal span value) → value.Rounded

theorem Literal.rounded_bool (holds : Bool) : (Literal.bool holds).Rounded :=
  fun _ carried => (nomatch carried)

theorem TokenClass.of_name_name (kind : TokenClass) : ofName? kind.name = some kind := by
  cases kind <;> decide

theorem TokenClass.name_injective : Function.Injective name := injective_of_read_back of_name_name

theorem Numeral.decimal_nat_injective : Function.Injective fun number : Nat => decimal number := by
  intro number other same
  rw [← parse_decimal number, ← parse_decimal other]
  exact congrArg (fun text => parse text.toList) same

theorem BinaryOperator.token_class_injective : Function.Injective tokenClass :=
  injective_of_read_back fun operator => (ofTokenClass?_eq_some_iff _ operator).2 rfl

theorem UnaryOperator.token_class_injective : Function.Injective tokenClass :=
  injective_of_read_back fun operator => (ofTokenClass?_eq_some_iff _ operator).2 rfl

/-- A literal is known from its class and its listing. -/
theorem Literal.listed_injective {value other : Literal} (rounded : value.Rounded)
    (otherRounded : other.Rounded) (kinds : value.tokenClass = other.tokenClass)
    (same : value.listed = other.listed) : value = other := by
  cases value with
  | nothing =>
      cases other with
      | nothing => rfl
      | _ => cases kinds
  | bool holds =>
      cases other with
      | bool otherHolds => cases holds <;> cases otherHolds <;> simp_all [listed]
      | _ => cases kinds
  | int number =>
      cases other with
      | int otherNumber => rw [Numeral.decimal_nat_injective same]
      | _ => cases kinds
  | float number =>
      cases other with
      | float otherNumber =>
          rw [(rounded number rfl).text_injective (otherRounded otherNumber rfl) same]
      | _ => cases kinds
  | text text =>
      cases other with
      | text otherText => rw [Text.listed_injective same]
      | _ => cases kinds

/-- A text behind the colon of a leaf. -/
structure IsLeaf (text : String) : Prop where
  noBracket : text ≠ "["
  single : Single text

theorem TokenClass.name_is_leaf (kind : TokenClass) : IsLeaf kind.name := by
  constructor <;> cases kind <;> simp [name, Single]

theorem Text.listed_is_leaf (text : String) : IsLeaf (listed text) := by
  obtain ⟨⟨quote, rest, spelled, isQuote⟩, single⟩ := listed_quoted text
  refine ⟨fun bracket => ?_, single⟩
  rw [bracket] at spelled
  rcases isQuote with rfl | rfl <;> simp at spelled

theorem is_leaf_of_characters {text : String} (Accepted : Char → Prop)
    (accepted : ∀ char ∈ text.toList, Accepted char) (bracket : ¬ Accepted '[')
    (feed : ¬ Accepted '\n') : IsLeaf text := by
  constructor
  · rintro rfl
    exact bracket (accepted '[' (by simp))
  · exact fun member => feed (accepted '\n' member)

theorem Numeral.decimal_is_leaf (number : Nat) : IsLeaf (decimal number) := by
  apply is_leaf_of_characters (fun char => Text.isDigit char = true) _ (by decide) (by decide)
  rw [show (decimal number).toList = _ from decimal_of_nat number]
  exact digits_digits number

theorem Binary64.Representable.text_is_leaf {number : Binary64}
    (representable : number.Representable) : IsLeaf number.text :=
  is_leaf_of_characters IsNumeralChar representable.text_characters
    (by simp [IsNumeralChar, Text.isDigit]) (by simp [IsNumeralChar, Text.isDigit])

theorem Literal.listed_is_leaf {value : Literal} (rounded : value.Rounded) :
    IsLeaf value.listed := by
  cases value with
  | nothing => constructor <;> simp [listed, Single]
  | bool holds => cases holds <;> constructor <;> simp [listed, Single]
  | int number => exact Numeral.decimal_is_leaf number
  | float number => exact (rounded number rfl).text_is_leaf
  | text text => exact Text.listed_is_leaf text

theorem none_is_leaf : IsLeaf "None" := by constructor <;> simp [Single]

/-- The labels of all fields but the parameters. -/
def labels : List String :=
  ["name", "elements", "value", "literal_type", "left", "operator", "right", "operand", "callee",
    "arguments", "object", "index", "condition", "true_branch", "false_branch", "body", "pattern",
    "initializer", "target", "expression", "closed", "function", "statements", "final_expression"]

theorem is_label_of_mem {label : String} (known : label ∈ labels) :
    IsLabel label ∧ label ≠ "parameters" := by
  revert label
  simp [labels, isLabel_iff, Unindented, Single]

section Fields

variable {label text : String} {outline : Outline} {outlines : List Outline}

theorem legible_leaf (known : label ∈ labels) (leaf : IsLeaf text) :
    LegibleField (.leaf label text) :=
  ⟨(is_label_of_mem known).1, leaf.noBracket, leaf.single⟩

theorem legible_child (known : label ∈ labels) (legible : outline.Legible) :
    LegibleField (.child label outline) :=
  ⟨(is_label_of_mem known).1, legible⟩

theorem legible_children (known : label ∈ labels) (legible : LegibleNodes outlines) :
    LegibleField (.children label outlines) :=
  ⟨(is_label_of_mem known).1, (is_label_of_mem known).2, legible⟩

end Fields

mutual

theorem Pattern.outline_legible (tree : Pattern) : tree.outline.Legible := by
  cases tree with
  | identifier span name =>
      exact ⟨legible_leaf (by decide) (Text.listed_is_leaf name), trivial⟩
  | tuple span elements =>
      exact ⟨legible_children (by decide) (Pattern.outlines_legible elements), trivial⟩
termination_by structural tree

theorem Pattern.outlines_legible (trees : List Pattern) :
    LegibleNodes (Pattern.outlines trees) := by
  cases trees with
  | nil => exact trivial
  | cons tree trees => exact ⟨tree.outline_legible, Pattern.outlines_legible trees⟩
termination_by structural trees

end

mutual

theorem Expression.outline_legible (tree : Expression) (rounded : tree.Every Node.Rounded) :
    tree.outline.Legible := by
  cases tree with
  | literal span value =>
      exact ⟨legible_leaf (by decide) (Literal.listed_is_leaf (rounded.self span value rfl)),
        legible_leaf (by decide) value.tokenClass.name_is_leaf, trivial⟩
  | identifier span name =>
      exact ⟨legible_leaf (by decide) (Text.listed_is_leaf name), trivial⟩
  | tuple span elements =>
      exact ⟨legible_children (by decide) (Expression.outlines_legible elements rounded.tuple),
        trivial⟩
  | binary span left operator right =>
      exact ⟨legible_child (by decide) (left.outline_legible rounded.binary.1),
        legible_leaf (by decide) operator.tokenClass.name_is_leaf,
        legible_child (by decide) (right.outline_legible rounded.binary.2), trivial⟩
  | unary span operator operand =>
      exact ⟨legible_leaf (by decide) operator.tokenClass.name_is_leaf,
        legible_child (by decide) (operand.outline_legible rounded.unary), trivial⟩
  | call span callee arguments =>
      exact ⟨legible_child (by decide) (callee.outline_legible rounded.call.1),
        legible_children (by decide) (Expression.outlines_legible arguments rounded.call.2), trivial⟩
  | member span target index =>
      exact ⟨legible_child (by decide) (target.outline_legible rounded.member),
        legible_leaf (by decide) (Numeral.decimal_is_leaf index), trivial⟩
  | conditional span condition whenTrue whenFalse =>
      exact ⟨legible_child (by decide) (condition.outline_legible rounded.conditional.1),
        legible_child (by decide) (whenTrue.outline_legible rounded.conditional.2.1),
        legible_child (by decide) (whenFalse.outline_legible rounded.conditional.2.2), trivial⟩
  | rebind span name value =>
      exact ⟨legible_leaf (by decide) (Text.listed_is_leaf name),
        legible_child (by decide) (value.outline_legible rounded.rebind), trivial⟩
  | function span parameters body =>
      exact ⟨rfl, legible_child (by decide) (body.outline_legible rounded.function),
        legible_leaf (by decide) none_is_leaf, trivial⟩
termination_by structural tree

theorem Expression.outlines_legible (trees : List Expression)
    (rounded : ∀ tree ∈ trees, tree.Every Node.Rounded) :
    LegibleNodes (Expression.outlines trees) := by
  cases trees with
  | nil => exact trivial
  | cons tree trees =>
      obtain ⟨first, others⟩ := List.forall_mem_cons.1 rounded
      exact ⟨tree.outline_legible first, Expression.outlines_legible trees others⟩
termination_by structural trees

theorem Statement.outline_legible (tree : Statement) (rounded : tree.Every Node.Rounded) :
    tree.outline.Legible := by
  cases tree with
  | declare span pattern value =>
      exact ⟨legible_child (by decide) pattern.outline_legible,
        legible_child (by decide) (value.outline_legible rounded.declare), trivial⟩
  | assign span target value =>
      exact ⟨legible_child (by decide) target.outline_legible,
        legible_child (by decide) (value.outline_legible rounded.assign), trivial⟩
  | evaluate span expression closed =>
      exact ⟨legible_child (by decide) (expression.outline_legible rounded.evaluate),
        legible_leaf (by decide) (Literal.listed_is_leaf (Literal.rounded_bool closed)), trivial⟩
  | whileLoop span condition body =>
      exact ⟨legible_child (by decide) (condition.outline_legible rounded.whileLoop.1),
        legible_child (by decide) (body.outline_legible rounded.whileLoop.2), trivial⟩
  | ifBlock span condition body =>
      exact ⟨legible_child (by decide) (condition.outline_legible rounded.ifBlock.1),
        legible_child (by decide) (body.outline_legible rounded.ifBlock.2), trivial⟩
  | define span name parameters body =>
      have named : LegibleField (.leaf "name" (Text.listed name)) :=
        legible_leaf (by decide) (Text.listed_is_leaf name)
      exact ⟨named, legible_child (by decide)
        ⟨rfl, legible_child (by decide) (body.outline_legible rounded.define), named, trivial⟩,
        trivial⟩
termination_by structural tree

theorem Statement.outlines_legible (trees : List Statement)
    (rounded : ∀ tree ∈ trees, tree.Every Node.Rounded) :
    LegibleNodes (Statement.outlines trees) := by
  cases trees with
  | nil => exact trivial
  | cons tree trees =>
      obtain ⟨first, others⟩ := List.forall_mem_cons.1 rounded
      exact ⟨tree.outline_legible first, Statement.outlines_legible trees others⟩
termination_by structural trees

theorem Block.outline_legible (tree : Block) (rounded : tree.Every Node.Rounded) :
    tree.outline.Legible := by
  cases tree with
  | valued span statements value =>
      exact ⟨legible_children (by decide)
          (Statement.outlines_legible statements rounded.valued.1),
        legible_child (by decide) (value.outline_legible rounded.valued.2), trivial⟩
  | silent span statements =>
      exact ⟨legible_children (by decide) (Statement.outlines_legible statements rounded.silent),
        legible_leaf (by decide) none_is_leaf, trivial⟩
termination_by structural tree

end

mutual

theorem Pattern.outline_injective (tree other : Pattern)
    (same : tree.outline.unplaced = other.outline.unplaced) : tree.unplaced = other.unplaced := by
  cases tree with
  | identifier span name =>
      cases other with
      | identifier otherSpan otherName =>
          have names : Text.listed name = Text.listed otherName := by
            simpa [Pattern.outline] using same
          rw [Pattern.unplaced, Pattern.unplaced, Text.listed_injective names]
      | tuple => cases same
  | tuple span elements =>
      cases other with
      | tuple otherSpan others =>
          have parts : unplacedNodes (Pattern.outlines elements) =
              unplacedNodes (Pattern.outlines others) := by
            simpa [Pattern.outline] using same
          rw [Pattern.unplaced, Pattern.unplaced, Pattern.outlines_injective elements others parts]
      | identifier => cases same
termination_by structural tree

theorem Pattern.outlines_injective (trees others : List Pattern)
    (same : unplacedNodes (Pattern.outlines trees) = unplacedNodes (Pattern.outlines others)) :
    Pattern.unplacedAll trees = Pattern.unplacedAll others := by
  cases trees with
  | nil =>
      cases others with
      | nil => rfl
      | cons => cases same
  | cons tree trees =>
      cases others with
      | nil => cases same
      | cons other others =>
          obtain ⟨first, behind⟩ := List.cons.inj same
          rw [Pattern.unplacedAll, Pattern.unplacedAll, tree.outline_injective other first,
            Pattern.outlines_injective trees others behind]
termination_by structural trees

end

mutual

theorem Expression.outline_injective (tree other : Expression) (rounded : tree.Every Node.Rounded)
    (otherRounded : other.Every Node.Rounded)
    (same : tree.outline.unplaced = other.outline.unplaced) : tree.unplaced = other.unplaced := by
  cases tree with
  | literal span value =>
      cases other with
      | literal otherSpan otherValue =>
          obtain ⟨values, kinds⟩ : value.listed = otherValue.listed ∧
              value.tokenClass.name = otherValue.tokenClass.name := by
            simpa [Expression.outline] using same
          rw [Expression.unplaced, Expression.unplaced,
            Literal.listed_injective (rounded.self span value rfl)
              (otherRounded.self otherSpan otherValue rfl) (TokenClass.name_injective kinds) values]
      | _ => cases same
  | identifier span name =>
      cases other with
      | identifier otherSpan otherName =>
          have names : Text.listed name = Text.listed otherName := by
            simpa [Expression.outline] using same
          rw [Expression.unplaced, Expression.unplaced, Text.listed_injective names]
      | _ => cases same
  | tuple span elements =>
      cases other with
      | tuple otherSpan others =>
          have parts : unplacedNodes (Expression.outlines elements) =
              unplacedNodes (Expression.outlines others) := by
            simpa [Expression.outline] using same
          rw [Expression.unplaced, Expression.unplaced,
            Expression.outlines_injective elements others rounded.tuple otherRounded.tuple parts]
      | _ => cases same
  | binary span left operator right =>
      cases other with
      | binary otherSpan otherLeft otherOperator otherRight =>
          obtain ⟨lefts, operators, rights⟩ :
              left.outline.unplaced = otherLeft.outline.unplaced ∧
              operator.tokenClass.name = otherOperator.tokenClass.name ∧
              right.outline.unplaced = otherRight.outline.unplaced := by
            simpa [Expression.outline] using same
          rw [Expression.unplaced, Expression.unplaced,
            left.outline_injective otherLeft rounded.binary.1 otherRounded.binary.1 lefts,
            BinaryOperator.token_class_injective (TokenClass.name_injective operators),
            right.outline_injective otherRight rounded.binary.2 otherRounded.binary.2 rights]
      | _ => cases same
  | unary span operator operand =>
      cases other with
      | unary otherSpan otherOperator otherOperand =>
          obtain ⟨operators, operands⟩ :
              operator.tokenClass.name = otherOperator.tokenClass.name ∧
              operand.outline.unplaced = otherOperand.outline.unplaced := by
            simpa [Expression.outline] using same
          rw [Expression.unplaced, Expression.unplaced,
            UnaryOperator.token_class_injective (TokenClass.name_injective operators),
            operand.outline_injective otherOperand rounded.unary otherRounded.unary operands]
      | _ => cases same
  | call span callee arguments =>
      cases other with
      | call otherSpan otherCallee others =>
          obtain ⟨callees, parts⟩ : callee.outline.unplaced = otherCallee.outline.unplaced ∧
              unplacedNodes (Expression.outlines arguments) =
                unplacedNodes (Expression.outlines others) := by
            simpa [Expression.outline] using same
          rw [Expression.unplaced, Expression.unplaced,
            callee.outline_injective otherCallee rounded.call.1 otherRounded.call.1 callees,
            Expression.outlines_injective arguments others rounded.call.2 otherRounded.call.2 parts]
      | _ => cases same
  | member span target index =>
      cases other with
      | member otherSpan otherTarget otherIndex =>
          obtain ⟨targets, indices⟩ : target.outline.unplaced = otherTarget.outline.unplaced ∧
              Numeral.decimal index = Numeral.decimal otherIndex := by
            simpa [Expression.outline] using same
          rw [Expression.unplaced, Expression.unplaced,
            target.outline_injective otherTarget rounded.member otherRounded.member targets,
            Numeral.decimal_nat_injective indices]
      | _ => cases same
  | conditional span condition whenTrue whenFalse =>
      cases other with
      | conditional otherSpan otherCondition otherTrue otherFalse =>
          obtain ⟨conditions, trues, falses⟩ :
              condition.outline.unplaced = otherCondition.outline.unplaced ∧
              whenTrue.outline.unplaced = otherTrue.outline.unplaced ∧
              whenFalse.outline.unplaced = otherFalse.outline.unplaced := by
            simpa [Expression.outline] using same
          obtain ⟨conditionRounded, trueRounded, falseRounded⟩ := rounded.conditional
          obtain ⟨otherConditionRounded, otherTrueRounded, otherFalseRounded⟩ :=
            otherRounded.conditional
          rw [Expression.unplaced, Expression.unplaced,
            condition.outline_injective otherCondition conditionRounded otherConditionRounded
              conditions,
            whenTrue.outline_injective otherTrue trueRounded otherTrueRounded trues,
            whenFalse.outline_injective otherFalse falseRounded otherFalseRounded falses]
      | _ => cases same
  | rebind span name value =>
      cases other with
      | rebind otherSpan otherName otherValue =>
          obtain ⟨names, values⟩ : Text.listed name = Text.listed otherName ∧
              value.outline.unplaced = otherValue.outline.unplaced := by
            simpa [Expression.outline] using same
          rw [Expression.unplaced, Expression.unplaced, Text.listed_injective names,
            value.outline_injective otherValue rounded.rebind otherRounded.rebind values]
      | _ => cases same
  | function span parameters body =>
      cases other with
      | function otherSpan otherParameters otherBody =>
          obtain ⟨names, bodies⟩ : parameters = otherParameters ∧
              body.outline.unplaced = otherBody.outline.unplaced := by
            simpa [Expression.outline] using same
          rw [Expression.unplaced, Expression.unplaced, names,
            body.outline_injective otherBody rounded.function otherRounded.function bodies]
      | _ => cases same
termination_by structural tree

theorem Expression.outlines_injective (trees others : List Expression)
    (rounded : ∀ tree ∈ trees, tree.Every Node.Rounded)
    (otherRounded : ∀ tree ∈ others, tree.Every Node.Rounded)
    (same : unplacedNodes (Expression.outlines trees) =
      unplacedNodes (Expression.outlines others)) :
    Expression.unplacedAll trees = Expression.unplacedAll others := by
  cases trees with
  | nil =>
      cases others with
      | nil => rfl
      | cons => cases same
  | cons tree trees =>
      cases others with
      | nil => cases same
      | cons other others =>
          obtain ⟨first, behind⟩ := List.cons.inj same
          obtain ⟨treeRounded, treesRounded⟩ := List.forall_mem_cons.1 rounded
          obtain ⟨otherTreeRounded, othersRounded⟩ := List.forall_mem_cons.1 otherRounded
          rw [Expression.unplacedAll, Expression.unplacedAll,
            tree.outline_injective other treeRounded otherTreeRounded first,
            Expression.outlines_injective trees others treesRounded othersRounded behind]
termination_by structural trees

theorem Statement.outline_injective (tree other : Statement) (rounded : tree.Every Node.Rounded)
    (otherRounded : other.Every Node.Rounded)
    (same : tree.outline.unplaced = other.outline.unplaced) : tree.unplaced = other.unplaced := by
  cases tree with
  | declare span pattern value =>
      cases other with
      | declare otherSpan otherPattern otherValue =>
          obtain ⟨patterns, values⟩ : pattern.outline.unplaced = otherPattern.outline.unplaced ∧
              value.outline.unplaced = otherValue.outline.unplaced := by
            simpa [Statement.outline] using same
          rw [Statement.unplaced, Statement.unplaced, pattern.outline_injective otherPattern patterns,
            value.outline_injective otherValue rounded.declare otherRounded.declare values]
      | _ => cases same
  | assign span target value =>
      cases other with
      | assign otherSpan otherTarget otherValue =>
          obtain ⟨targets, values⟩ : target.outline.unplaced = otherTarget.outline.unplaced ∧
              value.outline.unplaced = otherValue.outline.unplaced := by
            simpa [Statement.outline] using same
          rw [Statement.unplaced, Statement.unplaced, target.outline_injective otherTarget targets,
            value.outline_injective otherValue rounded.assign otherRounded.assign values]
      | _ => cases same
  | evaluate span expression closed =>
      cases other with
      | evaluate otherSpan otherExpression otherClosed =>
          obtain ⟨expressions, closings⟩ :
              expression.outline.unplaced = otherExpression.outline.unplaced ∧
              (Literal.bool closed).listed = (Literal.bool otherClosed).listed := by
            simpa [Statement.outline] using same
          have closedSame := Literal.listed_injective (Literal.rounded_bool closed)
            (Literal.rounded_bool otherClosed) rfl closings
          rw [Statement.unplaced, Statement.unplaced, Literal.bool.inj closedSame,
            expression.outline_injective otherExpression rounded.evaluate otherRounded.evaluate
              expressions]
      | _ => cases same
  | whileLoop span condition body =>
      cases other with
      | whileLoop otherSpan otherCondition otherBody =>
          obtain ⟨conditions, bodies⟩ :
              condition.outline.unplaced = otherCondition.outline.unplaced ∧
              body.outline.unplaced = otherBody.outline.unplaced := by
            simpa [Statement.outline] using same
          obtain ⟨conditionRounded, bodyRounded⟩ := rounded.whileLoop
          obtain ⟨otherConditionRounded, otherBodyRounded⟩ := otherRounded.whileLoop
          rw [Statement.unplaced, Statement.unplaced,
            condition.outline_injective otherCondition conditionRounded otherConditionRounded
              conditions,
            body.outline_injective otherBody bodyRounded otherBodyRounded bodies]
      | _ => cases same
  | ifBlock span condition body =>
      cases other with
      | ifBlock otherSpan otherCondition otherBody =>
          obtain ⟨conditions, bodies⟩ :
              condition.outline.unplaced = otherCondition.outline.unplaced ∧
              body.outline.unplaced = otherBody.outline.unplaced := by
            simpa [Statement.outline] using same
          obtain ⟨conditionRounded, bodyRounded⟩ := rounded.ifBlock
          obtain ⟨otherConditionRounded, otherBodyRounded⟩ := otherRounded.ifBlock
          rw [Statement.unplaced, Statement.unplaced,
            condition.outline_injective otherCondition conditionRounded otherConditionRounded
              conditions,
            body.outline_injective otherBody bodyRounded otherBodyRounded bodies]
      | _ => cases same
  | define span name parameters body =>
      cases other with
      | define otherSpan otherName otherParameters otherBody =>
          obtain ⟨names, parametersSame, bodies, -⟩ : Text.listed name = Text.listed otherName ∧
              parameters = otherParameters ∧ body.outline.unplaced = otherBody.outline.unplaced ∧
              Text.listed name = Text.listed otherName := by
            simpa [Statement.outline] using same
          rw [Statement.unplaced, Statement.unplaced, Text.listed_injective names, parametersSame,
            body.outline_injective otherBody rounded.define otherRounded.define bodies]
      | _ => cases same
termination_by structural tree

theorem Statement.outlines_injective (trees others : List Statement)
    (rounded : ∀ tree ∈ trees, tree.Every Node.Rounded)
    (otherRounded : ∀ tree ∈ others, tree.Every Node.Rounded)
    (same : unplacedNodes (Statement.outlines trees) = unplacedNodes (Statement.outlines others)) :
    Statement.unplacedAll trees = Statement.unplacedAll others := by
  cases trees with
  | nil =>
      cases others with
      | nil => rfl
      | cons => cases same
  | cons tree trees =>
      cases others with
      | nil => cases same
      | cons other others =>
          obtain ⟨first, behind⟩ := List.cons.inj same
          obtain ⟨treeRounded, treesRounded⟩ := List.forall_mem_cons.1 rounded
          obtain ⟨otherTreeRounded, othersRounded⟩ := List.forall_mem_cons.1 otherRounded
          rw [Statement.unplacedAll, Statement.unplacedAll,
            tree.outline_injective other treeRounded otherTreeRounded first,
            Statement.outlines_injective trees others treesRounded othersRounded behind]
termination_by structural trees

theorem Block.outline_injective (tree other : Block) (rounded : tree.Every Node.Rounded)
    (otherRounded : other.Every Node.Rounded)
    (same : tree.outline.unplaced = other.outline.unplaced) : tree.unplaced = other.unplaced := by
  cases tree with
  | valued span statements value =>
      cases other with
      | valued otherSpan others otherValue =>
          obtain ⟨parts, values⟩ : unplacedNodes (Statement.outlines statements) =
                unplacedNodes (Statement.outlines others) ∧
              value.outline.unplaced = otherValue.outline.unplaced := by
            simpa [Block.outline] using same
          rw [Block.unplaced, Block.unplaced,
            Statement.outlines_injective statements others rounded.valued.1 otherRounded.valued.1
              parts,
            value.outline_injective otherValue rounded.valued.2 otherRounded.valued.2 values]
      | silent => simp [Block.outline] at same
  | silent span statements =>
      cases other with
      | silent otherSpan others =>
          have parts : unplacedNodes (Statement.outlines statements) =
              unplacedNodes (Statement.outlines others) := by
            simpa [Block.outline] using same
          rw [Block.unplaced, Block.unplaced,
            Statement.outlines_injective statements others rounded.silent otherRounded.silent parts]
      | valued => simp [Block.outline] at same
termination_by structural tree

end

mutual

/-- The places of a tree are the ranges of its outline. -/
theorem Pattern.outline_unplaced (tree : Pattern) :
    tree.unplaced.outline.unplaced = tree.outline.unplaced := by
  cases tree with
  | identifier span name => rfl
  | tuple span elements =>
      simp [Pattern.outline, Pattern.unplaced, Pattern.outlines_unplaced elements]
termination_by structural tree

theorem Pattern.outlines_unplaced (trees : List Pattern) :
    unplacedNodes (Pattern.outlines (Pattern.unplacedAll trees)) =
      unplacedNodes (Pattern.outlines trees) := by
  cases trees with
  | nil => rfl
  | cons tree trees =>
      simp [Pattern.outlines, Pattern.unplacedAll, tree.outline_unplaced,
        Pattern.outlines_unplaced trees]
termination_by structural trees

end

mutual

theorem Expression.outline_unplaced (tree : Expression) :
    tree.unplaced.outline.unplaced = tree.outline.unplaced := by
  cases tree with
  | literal span value => rfl
  | identifier span name => rfl
  | tuple span elements =>
      simp [Expression.outline, Expression.unplaced, Expression.outlines_unplaced elements]
  | binary span left operator right =>
      simp [Expression.outline, Expression.unplaced, left.outline_unplaced, right.outline_unplaced]
  | unary span operator operand =>
      simp [Expression.outline, Expression.unplaced, operand.outline_unplaced]
  | call span callee arguments =>
      simp [Expression.outline, Expression.unplaced, callee.outline_unplaced,
        Expression.outlines_unplaced arguments]
  | member span target index =>
      simp [Expression.outline, Expression.unplaced, target.outline_unplaced]
  | conditional span condition whenTrue whenFalse =>
      simp [Expression.outline, Expression.unplaced, condition.outline_unplaced,
        whenTrue.outline_unplaced, whenFalse.outline_unplaced]
  | rebind span name value =>
      simp [Expression.outline, Expression.unplaced, value.outline_unplaced]
  | function span parameters body =>
      simp [Expression.outline, Expression.unplaced, body.outline_unplaced]
termination_by structural tree

theorem Expression.outlines_unplaced (trees : List Expression) :
    unplacedNodes (Expression.outlines (Expression.unplacedAll trees)) =
      unplacedNodes (Expression.outlines trees) := by
  cases trees with
  | nil => rfl
  | cons tree trees =>
      simp [Expression.outlines, Expression.unplacedAll, tree.outline_unplaced,
        Expression.outlines_unplaced trees]
termination_by structural trees

theorem Statement.outline_unplaced (tree : Statement) :
    tree.unplaced.outline.unplaced = tree.outline.unplaced := by
  cases tree with
  | declare span pattern value =>
      simp [Statement.outline, Statement.unplaced, pattern.outline_unplaced, value.outline_unplaced]
  | assign span target value =>
      simp [Statement.outline, Statement.unplaced, target.outline_unplaced, value.outline_unplaced]
  | evaluate span expression closed =>
      simp [Statement.outline, Statement.unplaced, expression.outline_unplaced]
  | whileLoop span condition body =>
      simp [Statement.outline, Statement.unplaced, condition.outline_unplaced, body.outline_unplaced]
  | ifBlock span condition body =>
      simp [Statement.outline, Statement.unplaced, condition.outline_unplaced, body.outline_unplaced]
  | define span name parameters body =>
      simp [Statement.outline, Statement.unplaced, body.outline_unplaced]
termination_by structural tree

theorem Statement.outlines_unplaced (trees : List Statement) :
    unplacedNodes (Statement.outlines (Statement.unplacedAll trees)) =
      unplacedNodes (Statement.outlines trees) := by
  cases trees with
  | nil => rfl
  | cons tree trees =>
      simp [Statement.outlines, Statement.unplacedAll, tree.outline_unplaced,
        Statement.outlines_unplaced trees]
termination_by structural trees

theorem Block.outline_unplaced (tree : Block) :
    tree.unplaced.outline.unplaced = tree.outline.unplaced := by
  cases tree with
  | valued span statements value =>
      simp [Block.outline, Block.unplaced, Statement.outlines_unplaced statements,
        value.outline_unplaced]
  | silent span statements =>
      simp [Block.outline, Block.unplaced, Statement.outlines_unplaced statements]
termination_by structural tree

end

theorem Program.of_source_rounded {source : String} {file : Option String} {limits : Limits}
    {program : Program} (read : Program.ofSource source file limits = .ok program) :
    program.Every Node.Rounded := by
  intro node member span value isLiteral number isFloat
  obtain ⟨_, tokens, _⟩ := tokenize_origin source file
  obtain ⟨_, literal⟩ := Program.of_source_all_from read node member
  obtain ⟨token, inside, carries⟩ := literal span value isLiteral
  exact (tokens token inside).rounded number (carries.trans isFloat)

theorem Program.outline_legible {program : Program} (rounded : program.Every Node.Rounded) :
    program.outline.Legible :=
  ⟨legible_children (by decide) (Statement.outlines_legible _ rounded.statements), trivial⟩

/-- Two programs that were read from source texts have the same outline text exactly if they are
equal up to their places. -/
theorem Program.outline_text_eq_iff {source otherSource : String} {file otherFile : Option String}
    {limits otherLimits : Limits} {program other : Program}
    (read : Program.ofSource source file limits = .ok program)
    (otherRead : Program.ofSource otherSource otherFile otherLimits = .ok other) :
    program.outline.text = other.outline.text ↔
      Statement.unplacedAll program.statements = Statement.unplacedAll other.statements := by
  have rounded := Program.of_source_rounded read
  have otherRounded := Program.of_source_rounded otherRead
  constructor
  · intro same
    have outlines := Outline.text_injective (Program.outline_legible rounded)
      (Program.outline_legible otherRounded) same
    have parts : unplacedNodes (Statement.outlines program.statements) =
        unplacedNodes (Statement.outlines other.statements) := by
      simpa [Program.outline] using outlines
    exact Statement.outlines_injective _ _ rounded.statements otherRounded.statements parts
  · intro same
    rw [← Outline.text_unplaced program.outline, ← Outline.text_unplaced other.outline]
    congr 1
    rw [Program.outline, Program.outline]
    simp only [unplaced, unplacedFields, unplacedField]
    rw [← Statement.outlines_unplaced, same, Statement.outlines_unplaced]

/-- Blanks, lines, grouping and trailing zeros are not shown. -/
theorem Program.outline_text_of_layouts :
    ∃ program other,
      Program.ofSource "fn(b): b + 2.50" none {} = .ok program ∧
      Program.ofSource "fn (b):\n  (b + 2.5)\n" none {} = .ok other ∧
      program.outline.text = other.outline.text ∧
      Statement.unplacedAll program.statements = Statement.unplacedAll other.statements := by
  have accepts {source : String} (accepted : (Program.ofSource source none {}).toBool = true) :
      ∃ program, Program.ofSource source none {} = .ok program := by
    cases read : Program.ofSource source none {} with
    | error halt =>
        rw [read] at accepted
        cases accepted
    | ok program => exact ⟨program, rfl⟩
  obtain ⟨program, read⟩ := @accepts "fn(b): b + 2.50" (by decide +kernel)
  obtain ⟨other, otherRead⟩ := @accepts "fn (b):\n  (b + 2.5)\n" (by decide +kernel)
  have texts : (Program.ofSource "fn(b): b + 2.50" none {}).toOption.map (·.outline.text) =
      (Program.ofSource "fn (b):\n  (b + 2.5)\n" none {}).toOption.map (·.outline.text) := by
    decide +kernel
  rw [read, otherRead] at texts
  have same : program.outline.text = other.outline.text := Option.some.inj texts
  exact ⟨program, other, read, otherRead, same,
    (Program.outline_text_eq_iff read otherRead).1 same⟩

end LayoutScript
