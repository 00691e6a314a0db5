import LayoutScript.Tree.Parser

/-!
How expressions are spelled. The grammar of expressions is a relation between trees and the
signs that tokens carry, by the ranks of the operators: a part of an expression stands bare
where its rank suffices, and anything may stand in parentheses. The plain spelling of a tree has
parentheses only where ranks require them.
-/

namespace LayoutScript

/-- What a token says, wherever it stands. -/
inductive Sign where
  | literal (value : Literal)
  | name (text : String)
  | mark (kind : TokenClass)
deriving Repr, DecidableEq

def Sign.kind : Sign → TokenClass
  | .literal value => value.tokenClass
  | .name _ => .identifier
  | .mark kind => kind

namespace Token

def sign (token : Token) : Sign :=
  match token.literal?, token.name? with
  | some value, _ => .literal value
  | none, some name => .name name
  | none, none => .mark token.kind

theorem name_some {token : Token} {name : String} (named : token.name? = some name) :
    token.kind = .identifier := by
  unfold name? at named
  split at named
  · assumption
  · cases named

theorem sign_kind (token : Token) : token.sign.kind = token.kind := by
  unfold sign
  split
  · rename_i value _ denotes
    unfold literal? at denotes
    split at denotes
    · cases denotes
      assumption
    · cases denotes
  · rename_i name _ named
    exact (name_some named).symm
  · rfl

theorem kind_of_same_sign {token token' : Token} (same : token'.sign = token.sign) :
    token'.kind = token.kind := by
  rw [← sign_kind, ← sign_kind, same]

theorem literal_of_sign {token : Token} {value : Literal} (signed : token.sign = .literal value) :
    token.literal? = some value := by
  unfold sign at signed
  split at signed
  · cases signed
    assumption
  · cases signed
  · cases signed

theorem name_of_sign {token : Token} {name : String} (signed : token.sign = .name name) :
    token.literal? = none ∧ token.name? = some name := by
  unfold sign at signed
  split at signed
  · cases signed
  · cases signed
    constructor <;> assumption
  · cases signed

theorem mark_of_sign {token : Token} {kind : TokenClass} (signed : token.sign = .mark kind) :
    token.literal? = none ∧ token.name? = none ∧ token.kind = kind := by
  unfold sign at signed
  split at signed
  · cases signed
  · cases signed
  · cases signed
    refine ⟨?_, ?_, rfl⟩ <;> assumption

theorem index_of_sign {token : Token} {index : Nat} (signed : token.sign = .literal (.int index)) :
    token.kind = .intLiteral ∧ token.index? = some index := by
  have kind : token.kind = .intLiteral := by
    rw [← sign_kind, signed]
    rfl
  have denotes := literal_of_sign signed
  unfold literal? at denotes
  split at denotes
  · have payload : token.payload = .int index := by simpa using denotes
    exact ⟨kind, by simp [index?, kind, payload]⟩
  · cases denotes

end Token

section Unplaced

mutual

/-- A tree without its places in the source. -/
def Pattern.unplaced : Pattern → Pattern
  | .identifier _ name => .identifier default name
  | .tuple _ elements => .tuple default (Pattern.unplacedAll elements)

def Pattern.unplacedAll : List Pattern → List Pattern
  | [] => []
  | tree :: trees => tree.unplaced :: Pattern.unplacedAll trees

end

mutual

def Expression.unplaced : Expression → Expression
  | .literal _ value => .literal default value
  | .identifier _ name => .identifier default name
  | .tuple _ elements => .tuple default (Expression.unplacedAll elements)
  | .binary _ left operator right => .binary default left.unplaced operator right.unplaced
  | .unary _ operator operand => .unary default operator operand.unplaced
  | .call _ callee arguments => .call default callee.unplaced (Expression.unplacedAll arguments)
  | .member _ target index => .member default target.unplaced index
  | .conditional _ condition whenTrue whenFalse =>
      .conditional default condition.unplaced whenTrue.unplaced whenFalse.unplaced
  | .rebind _ name value => .rebind default name value.unplaced
  | .function _ parameters body => .function default parameters body.unplaced

def Expression.unplacedAll : List Expression → List Expression
  | [] => []
  | tree :: trees => tree.unplaced :: Expression.unplacedAll trees

def Statement.unplaced : Statement → Statement
  | .declare _ pattern value => .declare default pattern.unplaced value.unplaced
  | .assign _ target value => .assign default target.unplaced value.unplaced
  | .evaluate _ expression closed => .evaluate default expression.unplaced closed
  | .whileLoop _ condition body => .whileLoop default condition.unplaced body.unplaced
  | .ifBlock _ condition body => .ifBlock default condition.unplaced body.unplaced
  | .define _ name parameters body => .define default name parameters body.unplaced

def Statement.unplacedAll : List Statement → List Statement
  | [] => []
  | tree :: trees => tree.unplaced :: Statement.unplacedAll trees

def Block.unplaced : Block → Block
  | .valued _ statements value => .valued default (Statement.unplacedAll statements) value.unplaced
  | .silent _ statements => .silent default (Statement.unplacedAll statements)

end

end Unplaced

/-- A list of parameters. -/
def parameterSigns (names : List String) : List Sign :=
  .mark .openParen :: (names.map Sign.name).intersperse (.mark .comma) ++ [.mark .closeParen]

/-- A form of expression: a part that stands bare behind operators of lower rank, a whole
expression, or further ones behind commas. -/
inductive Form where
  | part (rank : Nat) (tree : Expression)
  | whole (tree : Expression)
  | more (trees : List Expression)

/-- The grammar of expressions, with the number of levels by which a spelling is nested. Ranks
grow from rebindings and functions over conditionals, binary operators by their precedence,
unary operators and powers to calls, members and what needs no operator. -/
inductive Written : Form → List Sign → Nat → Prop where
  | literal {span : Span} {value : Literal} :
      Written (.part 10 (.literal span value)) [.literal value] 0
  | identifier {span : Span} {name : String} :
      Written (.part 10 (.identifier span name)) [.name name] 0
  | grouped {tree : Expression} {signs : List Sign} {nesting : Nat}
      (inner : Written (.whole tree) signs nesting) :
      Written (.part 10 tree) (.mark .openParen :: signs ++ [.mark .closeParen]) nesting
  | emptyTuple {span : Span} :
      Written (.part 10 (.tuple span [])) [.mark .openParen, .mark .closeParen] 0
  | tuple {span : Span} {tree : Expression} {trees : List Expression}
      {signs moreSigns : List Sign} {nesting moreNesting : Nat}
      (inner : Written (.whole tree) signs nesting)
      (others : Written (.more trees) moreSigns moreNesting) (comma : moreSigns ≠ []) :
      Written (.part 10 (.tuple span (tree :: trees)))
        (.mark .openParen :: signs ++ moreSigns ++ [.mark .closeParen]) (max nesting moreNesting)
  | emptyCall {span : Span} {subject : Expression} {signs : List Sign} {nesting : Nat}
      (first : Written (.part 10 subject) signs nesting) :
      Written (.part 10 (.call span subject []))
        (signs ++ [.mark .openParen, .mark .closeParen]) nesting
  | call {span : Span} {subject tree : Expression} {trees : List Expression}
      {subjectSigns signs moreSigns : List Sign} {subjectNesting nesting moreNesting : Nat}
      (first : Written (.part 10 subject) subjectSigns subjectNesting)
      (inner : Written (.whole tree) signs nesting)
      (others : Written (.more trees) moreSigns moreNesting) :
      Written (.part 10 (.call span subject (tree :: trees)))
        (subjectSigns ++ .mark .openParen :: signs ++ moreSigns ++ [.mark .closeParen])
        (max subjectNesting (max nesting moreNesting))
  | member {span : Span} {subject : Expression} {index : Nat} {signs : List Sign} {nesting : Nat}
      (first : Written (.part 10 subject) signs nesting) :
      Written (.part 10 (.member span subject index))
        (signs ++ [.mark .dot, .literal (.int index)]) nesting
  | power {span : Span} {base exponent : Expression} {baseSigns signs : List Sign}
      {baseNesting nesting : Nat} (first : Written (.part 10 base) baseSigns baseNesting)
      (second : Written (.part 8 exponent) signs nesting) :
      Written (.part 9 (.binary span base .power exponent))
        (baseSigns ++ .mark .doubleStar :: signs) (max baseNesting (nesting + 1))
  | unary {span : Span} {operator : UnaryOperator} {tree : Expression} {signs : List Sign}
      {nesting : Nat} (operand : Written (.part 8 tree) signs nesting) :
      Written (.part 8 (.unary span operator tree)) (.mark operator.tokenClass :: signs)
        (nesting + 1)
  | binary {span : Span} {left right : Expression} {operator : BinaryOperator} {strength : Nat}
      {leftSigns rightSigns : List Sign} {leftNesting rightNesting : Nat}
      (binds : operator.precedence? = some strength)
      (first : Written (.part (strength + 1) left) leftSigns leftNesting)
      (second : Written (.part (strength + 2) right) rightSigns rightNesting) :
      Written (.part (strength + 1) (.binary span left operator right))
        (leftSigns ++ .mark operator.tokenClass :: rightSigns) (max leftNesting rightNesting)
  | conditional {span : Span} {condition whenTrue whenFalse : Expression}
      {signs trueSigns falseSigns : List Sign} {nesting trueNesting falseNesting : Nat}
      (first : Written (.part 2 condition) signs nesting)
      (second : Written (.whole whenTrue) trueSigns trueNesting)
      (third : Written (.whole whenFalse) falseSigns falseNesting) :
      Written (.part 1 (.conditional span condition whenTrue whenFalse))
        (signs ++ .mark .question :: trueSigns ++ .mark .colon :: falseSigns)
        (max nesting (max trueNesting falseNesting))
  | rebind {span : Span} {name : String} {value : Expression} {signs : List Sign} {nesting : Nat}
      (second : Written (.whole value) signs nesting) :
      Written (.part 0 (.rebind span name value)) (.name name :: .mark .walrus :: signs) nesting
  | function {span bodySpan : Span} {names : List String} {value : Expression} {signs : List Sign}
      {nesting : Nat} (distinct : names.Nodup) (inner : Written (.whole value) signs nesting) :
      Written (.part 0 (.function span names (.valued bodySpan [] value)))
        (.mark .fnWord :: parameterSigns names ++ .mark .colon :: signs) nesting
  | loosen {least rank : Nat} {tree : Expression} {signs : List Sign} {nesting : Nat}
      (tight : Written (.part rank tree) signs nesting) (ordered : least ≤ rank) :
      Written (.part least tree) signs nesting
  | whole {tree : Expression} {signs : List Sign} {nesting : Nat}
      (loose : Written (.part 0 tree) signs nesting) : Written (.whole tree) signs (nesting + 1)
  | noMore : Written (.more []) [] 0
  | lastComma : Written (.more []) [.mark .comma] 0
  | oneMore {tree : Expression} {trees : List Expression} {signs moreSigns : List Sign}
      {nesting moreNesting : Nat} (inner : Written (.whole tree) signs nesting)
      (others : Written (.more trees) moreSigns moreNesting) :
      Written (.more (tree :: trees)) (.mark .comma :: signs ++ moreSigns)
        (max nesting moreNesting)

/-- The classes of tokens that an expression starts with. -/
def TokenClass.starts : TokenClass → Bool
  | .intLiteral | .floatLiteral | .stringLiteral | .boolLiteral | .noneLiteral | .identifier
  | .openParen | .fnWord | .plus | .minus | .notWord => true
  | _ => false

/-- How a part of some rank begins: never with a unary operator if operands of powers have that
rank, and with the word for functions only if that opens a list of parameters. -/
def Begins (rank : Nat) (signs : List Sign) : Prop :=
  ∃ first others, signs = first :: others ∧ first.kind.starts = true ∧
    (9 ≤ rank → UnaryOperator.ofTokenClass? first.kind = none) ∧
    (first.kind = .fnWord → others.head? = some (.mark .openParen))

section Begins

variable {rank least : Nat} {signs : List Sign}

theorem Begins.append (begins : Begins rank signs) (more : List Sign) :
    Begins rank (signs ++ more) := by
  obtain ⟨first, others, rfl, starts, plain, opens⟩ := begins
  refine ⟨first, others ++ more, rfl, starts, plain, fun isFunction => ?_⟩
  simp [opens isFunction]

theorem Begins.loosen (begins : Begins rank signs) (ordered : least ≤ rank) :
    Begins least signs := by
  obtain ⟨first, others, rfl, starts, plain, opens⟩ := begins
  exact ⟨first, others, rfl, starts, fun high => plain (by omega), opens⟩

theorem begins_with {first : Sign} {others : List Sign} (starts : first.kind.starts = true)
    (plain : 9 ≤ rank → UnaryOperator.ofTokenClass? first.kind = none)
    (other : first.kind ≠ .fnWord) : Begins rank (first :: others) :=
  ⟨first, others, rfl, starts, plain, fun isFunction => absurd isFunction other⟩

end Begins

/-- How the signs of a form begin. -/
def Form.Begins (signs : List Sign) : Form → Prop
  | .part rank _ => LayoutScript.Begins rank signs
  | .whole _ => LayoutScript.Begins 0 signs
  | .more _ => ∀ first ∈ signs.head?, first = .mark .comma

theorem Written.begins {form : Form} {signs : List Sign} {nesting : Nat}
    (written : Written form signs nesting) : form.Begins signs := by
  induction written with
  | @literal span value =>
      apply begins_with
      · cases value <;> rfl
      · intro _
        cases value <;> rfl
      · cases value <;> simp [Sign.kind, Literal.tokenClass]
  | identifier => exact begins_with rfl (fun _ => rfl) (by simp [Sign.kind])
  | grouped | emptyTuple | tuple => exact begins_with rfl (fun _ => rfl) (by simp [Sign.kind])
  | emptyCall _ begins => exact begins.append _
  | call _ _ _ begins => exact ((begins.append _).append _).append _
  | member _ begins => exact begins.append _
  | power _ _ begins => exact (begins.append _).loosen (by omega)
  | @unary span operator =>
      apply begins_with
      · cases operator <;> rfl
      · intro high
        omega
      · cases operator <;> simp [Sign.kind, UnaryOperator.tokenClass]
  | binary _ _ _ begins => exact begins.append _
  | conditional _ _ _ begins => exact ((begins.append _).append _).loosen (by omega)
  | rebind => exact begins_with rfl (fun _ => rfl) (by simp [Sign.kind])
  | function => exact ⟨_, _, rfl, rfl, fun _ => rfl, fun _ => rfl⟩
  | loosen _ ordered begins => exact begins.loosen ordered
  | whole _ begins => exact begins
  | noMore | lastComma | oneMore => simp [Form.Begins]

theorem mem_intersperse {α : Type} {item separator : α} {items : List α}
    (member : item ∈ items.intersperse separator) : item = separator ∨ item ∈ items := by
  induction items with
  | nil => cases member
  | cons first items induction =>
      cases items with
      | nil => exact .inr member
      | cons second items =>
          rcases List.mem_cons.1 member with rfl | member
          · exact .inr List.mem_cons_self
          · rcases List.mem_cons.1 member with rfl | member
            · exact .inl rfl
            · exact (induction member).imp_right (List.mem_cons_of_mem _)

theorem parameter_signs_level (names : List String) :
    ∀ sign ∈ parameterSigns names, sign.kind.isLayout = false := by
  intro sign member
  simp only [parameterSigns, List.cons_append, List.mem_cons, List.mem_append, List.not_mem_nil,
    or_false] at member
  rcases member with rfl | member | rfl
  · rfl
  · rcases mem_intersperse member with rfl | named
    · rfl
    · obtain ⟨name, _, rfl⟩ := List.mem_map.1 named
      rfl
  · rfl

/-- No sign of an expression gives structure to lines. -/
theorem Written.level {form : Form} {signs : List Sign} {nesting : Nat}
    (written : Written form signs nesting) : ∀ sign ∈ signs, sign.kind.isLayout = false := by
  have unaries (operator : UnaryOperator) : operator.tokenClass.isLayout = false := by
    cases operator <;> rfl
  have binaries (operator : BinaryOperator) : operator.tokenClass.isLayout = false := by
    cases operator <;> rfl
  have literals (value : Literal) : value.tokenClass.isLayout = false := by
    cases value <;> rfl
  have lists := parameter_signs_level
  induction written <;> grind -linarith [Sign.kind, TokenClass.isLayout]

/-- How tightly the parts of an expression are held together. -/
def Expression.rank : Expression → Nat
  | .rebind _ _ _ | .function _ _ _ => 0
  | .conditional _ _ _ _ => 1
  | .binary _ _ operator _ =>
      match operator.precedence? with
      | some strength => strength + 1
      | none => 9
  | .unary _ _ _ => 8
  | .literal _ _ | .identifier _ _ | .tuple _ _ | .call _ _ _ | .member _ _ _ => 10

/-- Signs of a rank, in parentheses where a higher rank is required. -/
def enclosed (least rank : Nat) (signs : List Sign) : List Sign :=
  if rank < least then .mark .openParen :: signs ++ [.mark .closeParen] else signs

/-- The nesting of signs that are enclosed if a higher rank is required. -/
def enclosedNesting (least rank nesting : Nat) : Nat :=
  if rank < least then nesting + 1 else nesting

mutual

/-- Only functions with distinct parameters and an expression as their body. -/
def Expression.isInline : Expression → Bool
  | .literal _ _ | .identifier _ _ => true
  | .tuple _ elements => Expression.areInline elements
  | .binary _ left _ right => left.isInline && right.isInline
  | .unary _ _ operand => operand.isInline
  | .call _ callee arguments => callee.isInline && Expression.areInline arguments
  | .member _ target _ => target.isInline
  | .conditional _ condition whenTrue whenFalse =>
      condition.isInline && whenTrue.isInline && whenFalse.isInline
  | .rebind _ _ value => value.isInline
  | .function _ parameters (.valued _ [] value) => decide parameters.Nodup && value.isInline
  | .function _ _ _ => false

def Expression.areInline : List Expression → Bool
  | [] => true
  | tree :: trees => tree.isInline && Expression.areInline trees

end

mutual

/-- The plain spelling of an expression. -/
def Expression.signs : Expression → List Sign
  | .literal _ value => [.literal value]
  | .identifier _ name => [.name name]
  | .tuple _ [] => [.mark .openParen, .mark .closeParen]
  | .tuple _ [tree] => .mark .openParen :: tree.signs ++ [.mark .comma, .mark .closeParen]
  | .tuple _ (tree :: trees) =>
      .mark .openParen :: tree.signs ++ Expression.moreSigns trees ++ [.mark .closeParen]
  | .binary _ left operator right =>
      match operator.precedence? with
      | some strength =>
          enclosed (strength + 1) left.rank left.signs ++ .mark operator.tokenClass ::
            enclosed (strength + 2) right.rank right.signs
      | none =>
          enclosed 10 left.rank left.signs ++ .mark .doubleStar ::
            enclosed 8 right.rank right.signs
  | .unary _ operator operand =>
      .mark operator.tokenClass :: enclosed 8 operand.rank operand.signs
  | .call _ callee [] =>
      enclosed 10 callee.rank callee.signs ++ [.mark .openParen, .mark .closeParen]
  | .call _ callee (tree :: trees) =>
      enclosed 10 callee.rank callee.signs ++ .mark .openParen :: tree.signs ++
        Expression.moreSigns trees ++ [.mark .closeParen]
  | .member _ target index =>
      enclosed 10 target.rank target.signs ++ [.mark .dot, .literal (.int index)]
  | .conditional _ condition whenTrue whenFalse =>
      enclosed 2 condition.rank condition.signs ++ .mark .question :: whenTrue.signs ++
        .mark .colon :: enclosed 1 whenFalse.rank whenFalse.signs
  | .rebind _ name value => .name name :: .mark .walrus :: value.signs
  | .function _ parameters (.valued _ [] value) =>
      .mark .fnWord :: parameterSigns parameters ++ .mark .colon :: value.signs
  | .function _ _ _ => []

def Expression.moreSigns : List Expression → List Sign
  | [] => []
  | tree :: trees => .mark .comma :: tree.signs ++ Expression.moreSigns trees

end

mutual

/-- The levels by which the plain spelling of an expression is nested. -/
def Expression.nesting : Expression → Nat
  | .literal _ _ | .identifier _ _ => 0
  | .tuple _ elements => Expression.moreNesting elements
  | .binary _ left operator right =>
      match operator.precedence? with
      | some strength =>
          max (enclosedNesting (strength + 1) left.rank left.nesting)
            (enclosedNesting (strength + 2) right.rank right.nesting)
      | none =>
          max (enclosedNesting 10 left.rank left.nesting)
            (enclosedNesting 8 right.rank right.nesting + 1)
  | .unary _ _ operand => enclosedNesting 8 operand.rank operand.nesting + 1
  | .call _ callee arguments =>
      max (enclosedNesting 10 callee.rank callee.nesting) (Expression.moreNesting arguments)
  | .member _ target _ => enclosedNesting 10 target.rank target.nesting
  | .conditional _ condition whenTrue whenFalse =>
      max (enclosedNesting 2 condition.rank condition.nesting)
        (max (whenTrue.nesting + 1) (enclosedNesting 1 whenFalse.rank whenFalse.nesting + 1))
  | .rebind _ _ value => value.nesting + 1
  | .function _ _ (.valued _ [] value) => value.nesting + 1
  | .function _ _ _ => 0

def Expression.moreNesting : List Expression → Nat
  | [] => 0
  | tree :: trees => max (tree.nesting + 1) (Expression.moreNesting trees)

end

theorem BinaryOperator.precedence_bounds {operator : BinaryOperator} {strength : Nat}
    (binds : operator.precedence? = some strength) : 1 ≤ strength ∧ strength ≤ 6 := by
  cases operator <;> simp [precedence?] at binds <;> omega

theorem BinaryOperator.precedence_none {operator : BinaryOperator}
    (unranked : operator.precedence? = none) : operator = .power := by
  cases operator with
  | power => rfl
  | _ => simp [precedence?] at unranked

theorem Written.to_whole {rank : Nat} {tree : Expression} {signs : List Sign} {nesting : Nat}
    (written : Written (.part rank tree) signs nesting) :
    Written (.whole tree) signs (nesting + 1) :=
  .whole (.loosen written (Nat.zero_le _))

/-- Parentheses make any expression fit where a rank is required. -/
theorem Written.enclosed {tree : Expression} {signs : List Sign} {nesting : Nat}
    (written : Written (.part tree.rank tree) signs nesting) (least : Nat) (bounded : least ≤ 10) :
    Written (.part least tree) (enclosed least tree.rank signs)
      (enclosedNesting least tree.rank nesting) := by
  unfold LayoutScript.enclosed enclosedNesting
  by_cases loose : tree.rank < least
  · rw [if_pos loose, if_pos loose]
    exact .loosen (.grouped written.to_whole) bounded
  · rw [if_neg loose, if_neg loose]
    exact .loosen written (by omega)

mutual

/-- The plain spelling of an expression follows the grammar. -/
theorem Expression.signs_written : ∀ tree : Expression, tree.isInline = true →
    Written (.part tree.rank tree) tree.signs tree.nesting
  | .literal _ _, _ => .literal
  | .identifier _ _, _ => .identifier
  | .tuple _ [], _ => .emptyTuple
  | .tuple _ [tree], inline => by
      simp only [isInline, areInline, Bool.and_eq_true] at inline
      have first := (tree.signs_written inline.1).to_whole
      simpa [signs, nesting, moreNesting, rank] using Written.tuple first .lastComma (by simp)
  | .tuple _ (tree :: second :: trees), inline => by
      simp only [isInline, areInline, Bool.and_eq_true] at inline
      have first := (tree.signs_written inline.1).to_whole
      have others := Expression.more_signs_written (second :: trees) (by
        simpa [areInline] using inline.2)
      simpa [signs, nesting, moreNesting, moreSigns, rank] using
        Written.tuple first others (by simp [moreSigns])
  | .binary _ left operator right, inline => by
      simp only [isInline, Bool.and_eq_true] at inline
      have first := left.signs_written inline.1
      have second := right.signs_written inline.2
      cases binds : operator.precedence? with
      | some strength =>
          have bounds := BinaryOperator.precedence_bounds binds
          have tight := first.enclosed (strength + 1) (by omega)
          have tighter := second.enclosed (strength + 2) (by omega)
          simpa [signs, nesting, rank, binds] using Written.binary binds tight tighter
      | none =>
          cases BinaryOperator.precedence_none binds
          have base := first.enclosed 10 (Nat.le_refl 10)
          have exponent := second.enclosed 8 (by omega)
          simpa [signs, nesting, rank, binds] using Written.power base exponent
  | .unary _ operator operand, inline => by
      have inner := operand.signs_written (by simpa [isInline] using inline)
      exact .unary (inner.enclosed 8 (by omega))
  | .call _ callee [], inline => by
      simp only [isInline, Bool.and_eq_true] at inline
      have first := callee.signs_written inline.1
      simpa [signs, nesting, moreNesting, rank] using
        Written.emptyCall (first.enclosed 10 (Nat.le_refl 10))
  | .call _ callee (tree :: trees), inline => by
      simp only [isInline, areInline, Bool.and_eq_true] at inline
      have first := callee.signs_written inline.1
      have inner := (tree.signs_written inline.2.1).to_whole
      have others := Expression.more_signs_written trees inline.2.2
      simpa [signs, nesting, moreNesting, rank] using
        Written.call (first.enclosed 10 (Nat.le_refl 10)) inner others
  | .member _ target _, inline => by
      have first := target.signs_written (by simpa [isInline] using inline)
      exact .member (first.enclosed 10 (Nat.le_refl 10))
  | .conditional _ condition whenTrue whenFalse, inline => by
      simp only [isInline, Bool.and_eq_true] at inline
      have first := condition.signs_written inline.1.1
      have second := (whenTrue.signs_written inline.1.2).to_whole
      have third := ((whenFalse.signs_written inline.2).enclosed 1 (by omega)).to_whole
      simpa [signs, nesting, rank] using
        Written.conditional (first.enclosed 2 (by omega)) second third
  | .rebind _ _ value, inline => by
      have inner := value.signs_written (by simpa [isInline] using inline)
      exact .rebind inner.to_whole
  | .function _ parameters (.valued _ [] value), inline => by
      simp only [isInline, Bool.and_eq_true, decide_eq_true_eq] at inline
      exact .function inline.1 (value.signs_written inline.2).to_whole
  | .function _ _ (.valued _ (_ :: _) _), inline => by simp [isInline] at inline
  | .function _ _ (.silent _ _), inline => by simp [isInline] at inline

theorem Expression.more_signs_written : ∀ trees : List Expression,
    Expression.areInline trees = true →
      Written (.more trees) (Expression.moreSigns trees) (Expression.moreNesting trees)
  | [], _ => .noMore
  | tree :: trees, inline => by
      simp only [areInline, Bool.and_eq_true] at inline
      exact .oneMore (tree.signs_written inline.1).to_whole (more_signs_written trees inline.2)

end

end LayoutScript
