import LayoutScript.Number.Conversion
import LayoutScript.Text.Quoted
import LayoutScript.Tree.Basic

/-!
Outlines show a tree as indented text, one field to a line. The outline keeps the
kind, the range and the labelled fields of each node; its text leaves out the
ranges only.
-/

namespace LayoutScript

mutual

inductive Outline where
  | node (kind : NodeKind) (span : Span) (fields : List OutlineField)

inductive OutlineField where
  | leaf (label text : String)
  | child (label : String) (node : Outline)
  | children (label : String) (nodes : List Outline)
  | names (label : String) (items : List String)

end

namespace Outline

/-- A line at a depth; each level is two blanks wide. -/
def line (depth : Nat) (text : String) : String :=
  String.ofList (List.replicate (2 * depth) ' ') ++ text

mutual

/-- The lines of a node. A field stands one level below its node and a node two
levels below the node it belongs to. -/
def render (depth : Nat) : Outline → List String
  | .node kind _ fields => line depth kind.name :: renderFields (depth + 1) fields

def renderFields (depth : Nat) : List OutlineField → List String
  | [] => []
  | field :: fields => renderField depth field ++ renderFields depth fields

def renderField (depth : Nat) : OutlineField → List String
  | .leaf label text => [line depth (label ++ ": " ++ text)]
  | .child label outline => line depth (label ++ ":") :: render (depth + 1) outline
  | .children label outlines =>
      line depth (label ++ ": [") :: renderNodes (depth + 1) outlines ++ [line depth "]"]
  | .names label items =>
      line depth (label ++ ": [") :: items.map (fun item => line (depth + 1) (Text.listed item)) ++
        [line depth "]"]

def renderNodes (depth : Nat) : List Outline → List String
  | [] => []
  | outline :: outlines => render depth outline ++ renderNodes depth outlines

end

def text (outline : Outline) : String := "\n".intercalate (outline.render 0)

mutual

/-- All nodes with their ranges, each before the nodes below it. -/
def spans : Outline → List (NodeKind × Span)
  | .node kind span fields => (kind, span) :: spansOfFields fields

def spansOfFields : List OutlineField → List (NodeKind × Span)
  | [] => []
  | field :: fields => spansOfField field ++ spansOfFields fields

def spansOfField : OutlineField → List (NodeKind × Span)
  | .leaf _ _ => []
  | .child _ outline => spans outline
  | .children _ outlines => spansOfNodes outlines
  | .names _ _ => []

def spansOfNodes : List Outline → List (NodeKind × Span)
  | [] => []
  | outline :: outlines => spans outline ++ spansOfNodes outlines

end

end Outline

/-- Truth values and the missing value as listings show them. -/
def Literal.listed : Literal → String
  | .nothing => "None"
  | .bool true => "True"
  | .bool false => "False"
  | .int value => Numeral.decimal value
  | .float value => value.text
  | .text value => Text.listed value

mutual

def Pattern.outline : Pattern → Outline
  | .identifier span name => .node .namePattern span [.leaf "name" (Text.listed name)]
  | .tuple span elements =>
      .node .tuplePattern span [.children "elements" (Pattern.outlines elements)]

def Pattern.outlines : List Pattern → List Outline
  | [] => []
  | pattern :: patterns => pattern.outline :: Pattern.outlines patterns

end

mutual

def Expression.outline : Expression → Outline
  | .literal span value =>
      .node .literal span
        [.leaf "value" value.listed, .leaf "literal_type" value.tokenClass.name]
  | .identifier span name => .node .identifier span [.leaf "name" (Text.listed name)]
  | .tuple span elements =>
      .node .tuple span [.children "elements" (Expression.outlines elements)]
  | .binary span left operator right =>
      .node .binary span
        [.child "left" left.outline, .leaf "operator" operator.tokenClass.name,
         .child "right" right.outline]
  | .unary span operator operand =>
      .node .unary span
        [.leaf "operator" operator.tokenClass.name, .child "operand" operand.outline]
  | .call span callee arguments =>
      .node .call span
        [.child "callee" callee.outline, .children "arguments" (Expression.outlines arguments)]
  | .member span target index =>
      .node .member span
        [.child "object" target.outline, .leaf "index" (Numeral.decimal index)]
  | .conditional span condition whenTrue whenFalse =>
      .node .conditional span
        [.child "condition" condition.outline, .child "true_branch" whenTrue.outline,
         .child "false_branch" whenFalse.outline]
  | .rebind span name value =>
      .node .rebind span [.leaf "name" (Text.listed name), .child "value" value.outline]
  | .function span parameters body =>
      .node .function span
        [.names "parameters" parameters, .child "body" body.outline, .leaf "name" "None"]

def Expression.outlines : List Expression → List Outline
  | [] => []
  | expression :: expressions => expression.outline :: Expression.outlines expressions

def Statement.outline : Statement → Outline
  | .declare span pattern value =>
      .node .declare span
        [.child "pattern" pattern.outline, .child "initializer" value.outline]
  | .assign span target value =>
      .node .assign span [.child "target" target.outline, .child "value" value.outline]
  | .evaluate span expression closed =>
      .node .evaluate span
        [.child "expression" expression.outline,
         .leaf "closed" (Literal.bool closed).listed]
  | .whileLoop span condition body =>
      .node .whileLoop span
        [.child "condition" condition.outline, .child "body" body.outline]
  | .ifBlock span condition body =>
      .node .ifBlock span
        [.child "condition" condition.outline, .child "body" body.outline]
  | .define span name parameters body =>
      .node .define span
        [.leaf "name" (Text.listed name),
         .child "function"
           (.node .function span
             [.names "parameters" parameters, .child "body" body.outline,
              .leaf "name" (Text.listed name)])]

def Statement.outlines : List Statement → List Outline
  | [] => []
  | statement :: statements => statement.outline :: Statement.outlines statements

def Block.outline : Block → Outline
  | .valued span statements value =>
      .node .block span
        [.children "statements" (Statement.outlines statements),
         .child "final_expression" value.outline]
  | .silent span statements =>
      .node .block span
        [.children "statements" (Statement.outlines statements),
         .leaf "final_expression" "None"]

end

def Program.outline (program : Program) : Outline :=
  .node .program program.span [.children "statements" (Statement.outlines program.statements)]

end LayoutScript
