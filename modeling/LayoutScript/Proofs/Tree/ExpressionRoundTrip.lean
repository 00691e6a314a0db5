import LayoutScript.Proofs.Limits
import LayoutScript.Proofs.Tree.Reading

/-!
Expressions are read back from their spellings: whatever follows the grammar of expressions is
read as the tree it spells, and reading stops at the token behind it.
-/

namespace LayoutScript

open Parse

section Spelled

variable {tokens : List Token} {signs : List Sign} {rank : Nat}

theorem spelled_nonempty (spelled : tokens.map Token.sign = signs) (begins : Begins rank signs) :
    0 < tokens.length := by
  obtain ⟨first, others, rfl, _⟩ := begins
  obtain ⟨token, rest, rfl, _⟩ := List.map_eq_cons_iff.1 spelled
  simp

theorem spelled_starts (spelled : tokens.map Token.sign = signs) (begins : Begins rank signs)
    {kind : TokenClass} (other : kind.starts = false) :
    ∀ token ∈ tokens.head?, token.kind ≠ kind := by
  obtain ⟨first, others, rfl, starts, _⟩ := begins
  obtain ⟨token, rest, rfl, signed, _⟩ := List.map_eq_cons_iff.1 spelled
  intro found member same
  cases member
  rw [← signed, Token.sign_kind, same, other] at starts
  cases starts

theorem spelled_plain (spelled : tokens.map Token.sign = signs) (begins : Begins rank signs)
    (high : 9 ≤ rank) :
    ∀ token ∈ tokens.head?, UnaryOperator.ofTokenClass? token.kind = none := by
  obtain ⟨first, others, rfl, _, plain, _⟩ := begins
  obtain ⟨token, rest, rfl, signed, _⟩ := List.map_eq_cons_iff.1 spelled
  intro found member
  cases member
  rw [← Token.sign_kind, signed]
  exact plain high

theorem spelled_level {form : Form} {nesting : Nat} (spelled : tokens.map Token.sign = signs)
    (written : Written form signs nesting) : ∀ token ∈ tokens, token.kind ≠ .dedent := by
  intro token member same
  have level := written.level token.sign (spelled ▸ List.mem_map_of_mem member)
  rw [Token.sign_kind, same] at level
  cases level

theorem spelled_comma {trees : List Expression} (spelled : tokens.map Token.sign = signs)
    (begins : (Form.more trees).Begins signs) : ∀ token ∈ tokens.head?, token.kind = .comma := by
  intro token member
  cases tokens with
  | nil => cases member
  | cons front rest =>
      cases member
      subst spelled
      exact (Token.mark_of_sign (begins token.sign rfl)).2.2

end Spelled

/-- What tokens of a form are read as. -/
def Form.Reads (limit : Nat) (tokens : List Token) (nesting : Nat) : Form → Prop
  | .part rank tree => ReadsAt limit rank tree tokens nesting
  | .whole tree => ReadsTree limit tree tokens nesting (expression limit) 0 0
  | .more trees => ReadsMore limit trees tokens nesting

/-- All tokens with some signs are read as a form. -/
def Form.ReadsAs (limit : Nat) (signs : List Sign) (nesting : Nat) (form : Form) : Prop :=
  ∀ ⦃tokens : List Token⦄, tokens.map Token.sign = signs → form.Reads limit tokens nesting

section Forms

variable {limit nesting leftNesting rightNesting moreNesting : Nat} {span : Span}
  {tree left right : Expression} {trees : List Expression}
  {signs leftSigns rightSigns moreSigns : List Sign}

theorem reads_as_postfixed (written : Written (.part 10 tree) signs nesting)
    (reads : ∀ ⦃tokens⦄, tokens.map Token.sign = signs →
      ReadsOn limit tree tokens nesting (postfixed limit) (postfixRest limit) 6 11) :
    (Form.part 10 tree).ReadsAs limit signs nesting := by
  intro tokens spelled
  have nonempty := spelled_nonempty spelled written.begins
  have plain := spelled_plain spelled written.begins (Nat.le_succ 9)
  exact reads_at_postfixed nonempty (reads spelled) plain

theorem reads_as_primary (written : Written (.part 10 tree) signs nesting)
    (reads : ∀ ⦃tokens⦄, tokens.map Token.sign = signs →
      ReadsTree limit tree tokens nesting (primary limit) 7 11) :
    (Form.part 10 tree).ReadsAs limit signs nesting := by
  apply reads_as_postfixed written
  intro tokens spelled
  exact reads_on_postfixed (spelled_nonempty spelled written.begins) (reads spelled)

theorem reads_as_literal {value : Literal} :
    (Form.part 10 (.literal span value)).ReadsAs limit [.literal value] 0 := by
  apply reads_as_primary .literal
  intro tokens spelled
  obtain ⟨token, rfl, signed⟩ := List.map_eq_singleton_iff.1 spelled
  exact reads_literal signed

theorem reads_as_identifier {name : String} :
    (Form.part 10 (.identifier span name)).ReadsAs limit [.name name] 0 := by
  apply reads_as_primary .identifier
  intro tokens spelled
  obtain ⟨token, rfl, signed⟩ := List.map_eq_singleton_iff.1 spelled
  exact reads_identifier signed

theorem reads_as_grouped (inner : Written (.whole tree) signs nesting)
    (reads : (Form.whole tree).ReadsAs limit signs nesting) :
    (Form.part 10 tree).ReadsAs limit (.mark .openParen :: signs ++ [.mark .closeParen])
      nesting := by
  apply reads_as_primary (.grouped inner)
  intro tokens spelled
  obtain ⟨front, back, rfl, frontSpelled, backSpelled⟩ := List.map_eq_append_iff.1 spelled
  obtain ⟨start, inside, rfl, opens, innerSpelled⟩ := List.map_eq_cons_iff.1 frontSpelled
  obtain ⟨stop, rfl, closes⟩ := List.map_eq_singleton_iff.1 backSpelled
  exact reads_grouped opens closes (spelled_nonempty innerSpelled inner.begins)
    (spelled_starts innerSpelled inner.begins rfl) (reads innerSpelled)

theorem reads_as_empty_tuple :
    (Form.part 10 (.tuple span [])).ReadsAs limit [.mark .openParen, .mark .closeParen] 0 := by
  apply reads_as_primary .emptyTuple
  intro tokens spelled
  obtain ⟨start, rest, rfl, opens, restSpelled⟩ := List.map_eq_cons_iff.1 spelled
  obtain ⟨stop, rfl, closes⟩ := List.map_eq_singleton_iff.1 restSpelled
  exact reads_empty_tuple opens closes

theorem reads_as_tuple (inner : Written (.whole tree) signs nesting)
    (others : Written (.more trees) moreSigns moreNesting) (comma : moreSigns ≠ [])
    (reads : (Form.whole tree).ReadsAs limit signs nesting)
    (readsMore : (Form.more trees).ReadsAs limit moreSigns moreNesting) :
    (Form.part 10 (.tuple span (tree :: trees))).ReadsAs limit
      (.mark .openParen :: signs ++ moreSigns ++ [.mark .closeParen])
      (max nesting moreNesting) := by
  apply reads_as_primary (.tuple inner others comma)
  intro tokens spelled
  obtain ⟨front, back, rfl, frontSpelled, backSpelled⟩ := List.map_eq_append_iff.1 spelled
  obtain ⟨opened, more, rfl, openedSpelled, moreSpelled⟩ := List.map_eq_append_iff.1 frontSpelled
  obtain ⟨start, inside, rfl, opens, innerSpelled⟩ := List.map_eq_cons_iff.1 openedSpelled
  obtain ⟨stop, rfl, closes⟩ := List.map_eq_singleton_iff.1 backSpelled
  have separated := spelled_comma moreSpelled others.begins
  cases more with
  | nil => exact absurd moreSpelled.symm comma
  | cons sign later =>
      exact reads_tuple opens closes (spelled_nonempty innerSpelled inner.begins)
        (spelled_starts innerSpelled inner.begins rfl) rfl (separated sign rfl)
        (reads innerSpelled) (readsMore moreSpelled)

theorem reads_as_empty_call (first : Written (.part 10 left) leftSigns leftNesting)
    (subject : (Form.part 10 left).ReadsAs limit leftSigns leftNesting) :
    (Form.part 10 (.call span left [])).ReadsAs limit
      (leftSigns ++ [.mark .openParen, .mark .closeParen]) leftNesting := by
  apply reads_as_postfixed (.emptyCall first)
  intro tokens spelled
  obtain ⟨before, list, rfl, beforeSpelled, listSpelled⟩ := List.map_eq_append_iff.1 spelled
  obtain ⟨start, rest, rfl, opens, restSpelled⟩ := List.map_eq_cons_iff.1 listSpelled
  obtain ⟨stop, rfl, closes⟩ := List.map_eq_singleton_iff.1 restSpelled
  rw [← Nat.max_zero leftNesting]
  exact reads_on_call (spelled_nonempty beforeSpelled first.begins)
    (spelled_level beforeSpelled first) ((subject beforeSpelled).postfixed (Nat.le_refl 10)) opens
    (reads_no_arguments opens closes)

theorem reads_as_call (first : Written (.part 10 left) leftSigns leftNesting)
    (inner : Written (.whole tree) signs nesting)
    (others : Written (.more trees) moreSigns moreNesting)
    (subject : (Form.part 10 left).ReadsAs limit leftSigns leftNesting)
    (reads : (Form.whole tree).ReadsAs limit signs nesting)
    (readsMore : (Form.more trees).ReadsAs limit moreSigns moreNesting) :
    (Form.part 10 (.call span left (tree :: trees))).ReadsAs limit
      (leftSigns ++ .mark .openParen :: signs ++ moreSigns ++ [.mark .closeParen])
      (max leftNesting (max nesting moreNesting)) := by
  apply reads_as_postfixed (.call first inner others)
  intro tokens spelled
  obtain ⟨front, back, rfl, frontSpelled, backSpelled⟩ := List.map_eq_append_iff.1 spelled
  obtain ⟨opened, more, rfl, openedSpelled, moreSpelled⟩ := List.map_eq_append_iff.1 frontSpelled
  obtain ⟨before, list, rfl, beforeSpelled, listSpelled⟩ := List.map_eq_append_iff.1 openedSpelled
  obtain ⟨start, inside, rfl, opens, innerSpelled⟩ := List.map_eq_cons_iff.1 listSpelled
  obtain ⟨stop, rfl, closes⟩ := List.map_eq_singleton_iff.1 backSpelled
  have arguments := reads_arguments opens closes (spelled_nonempty innerSpelled inner.begins)
    (spelled_starts innerSpelled inner.begins rfl) (spelled_comma moreSpelled others.begins)
    (reads innerSpelled) (readsMore moreSpelled)
  rw [List.append_assoc, List.append_assoc, List.cons_append]
  rw [List.append_assoc, List.append_assoc, List.cons_append] at arguments
  exact reads_on_call (spelled_nonempty beforeSpelled first.begins)
    (spelled_level beforeSpelled first) ((subject beforeSpelled).postfixed (Nat.le_refl 10)) opens
    arguments

theorem reads_as_member {index : Nat} (first : Written (.part 10 left) leftSigns leftNesting)
    (subject : (Form.part 10 left).ReadsAs limit leftSigns leftNesting) :
    (Form.part 10 (.member span left index)).ReadsAs limit
      (leftSigns ++ [.mark .dot, .literal (.int index)]) leftNesting := by
  apply reads_as_postfixed (.member first)
  intro tokens spelled
  obtain ⟨before, rest, rfl, beforeSpelled, restSpelled⟩ := List.map_eq_append_iff.1 spelled
  obtain ⟨dot, last, rfl, dots, lastSpelled⟩ := List.map_eq_cons_iff.1 restSpelled
  obtain ⟨place, rfl, signed⟩ := List.map_eq_singleton_iff.1 lastSpelled
  exact reads_on_member (spelled_nonempty beforeSpelled first.begins)
    (spelled_level beforeSpelled first) ((subject beforeSpelled).postfixed (Nat.le_refl 10)) dots
    signed

theorem reads_as_power (first : Written (.part 10 left) leftSigns leftNesting)
    (second : Written (.part 8 right) rightSigns rightNesting)
    (base : (Form.part 10 left).ReadsAs limit leftSigns leftNesting)
    (exponent : (Form.part 8 right).ReadsAs limit rightSigns rightNesting) :
    (Form.part 9 (.binary span left .power right)).ReadsAs limit
      (leftSigns ++ .mark .doubleStar :: rightSigns) (max leftNesting (rightNesting + 1)) := by
  intro tokens spelled
  have written : Written (.part 9 (.binary span left .power right)) _ _ := .power first second
  have begins := written.begins
  have nonempty := spelled_nonempty spelled begins
  have plain := spelled_plain spelled begins (Nat.le_refl 9)
  obtain ⟨before, rest, rfl, beforeSpelled, restSpelled⟩ := List.map_eq_append_iff.1 spelled
  obtain ⟨sign, behind, rfl, signed, behindSpelled⟩ := List.map_eq_cons_iff.1 restSpelled
  apply reads_at_power nonempty _ plain
  rw [List.append_cons]
  exact reads_power_operator (spelled_nonempty beforeSpelled first.begins)
    (spelled_level beforeSpelled first) ((base beforeSpelled).postfixed (Nat.le_refl 10)) signed
    ((exponent behindSpelled).unary (Nat.le_refl 8))

theorem reads_as_unary {operator : UnaryOperator}
    (reads : (Form.part 8 right).ReadsAs limit rightSigns rightNesting) :
    (Form.part 8 (.unary span operator right)).ReadsAs limit
      (.mark operator.tokenClass :: rightSigns) (rightNesting + 1) := by
  intro tokens spelled
  obtain ⟨sign, rest, rfl, signed, restSpelled⟩ := List.map_eq_cons_iff.1 spelled
  exact reads_at_unary (by simp)
    (reads_unary_operator signed ((reads restSpelled).unary (Nat.le_refl 8)))

theorem reads_as_binary {operator : BinaryOperator} {strength : Nat}
    (binds : operator.precedence? = some strength)
    (first : Written (.part (strength + 1) left) leftSigns leftNesting)
    (second : Written (.part (strength + 2) right) rightSigns rightNesting)
    (leftReads : (Form.part (strength + 1) left).ReadsAs limit leftSigns leftNesting)
    (rightReads : (Form.part (strength + 2) right).ReadsAs limit rightSigns rightNesting) :
    (Form.part (strength + 1) (.binary span left operator right)).ReadsAs limit
      (leftSigns ++ .mark operator.tokenClass :: rightSigns) (max leftNesting rightNesting) := by
  intro tokens spelled
  have bounds := BinaryOperator.precedence_bounds binds
  obtain ⟨before, rest, rfl, beforeSpelled, restSpelled⟩ := List.map_eq_append_iff.1 spelled
  obtain ⟨sign, behind, rfl, signed, behindSpelled⟩ := List.map_eq_cons_iff.1 restSpelled
  have nonempty : 0 < (before ++ sign :: behind).length :=
    List.length_pos_iff.2 (by simp)
  apply reads_at_binary nonempty (by omega) (by omega)
  · intro least low
    rw [List.append_cons]
    exact reads_on_binary_operator (spelled_nonempty beforeSpelled first.begins)
      (spelled_nonempty behindSpelled second.begins) (spelled_level beforeSpelled first) binds
      (by omega) ((leftReads beforeSpelled).binary (by omega) least low) signed
      ((rightReads behindSpelled).binary (by omega) _ (by omega))
  · intro high
    omega

theorem reads_as_conditional {condition : Expression}
    (first : Written (.part 2 condition) signs nesting)
    (reads : (Form.part 2 condition).ReadsAs limit signs nesting)
    (leftReads : (Form.whole left).ReadsAs limit leftSigns leftNesting)
    (rightReads : (Form.whole right).ReadsAs limit rightSigns rightNesting) :
    (Form.part 1 (.conditional span condition left right)).ReadsAs limit
      (signs ++ .mark .question :: leftSigns ++ .mark .colon :: rightSigns)
      (max nesting (max leftNesting rightNesting)) := by
  intro tokens spelled
  obtain ⟨front, back, rfl, frontSpelled, backSpelled⟩ := List.map_eq_append_iff.1 spelled
  obtain ⟨before, asked, rfl, beforeSpelled, askedSpelled⟩ := List.map_eq_append_iff.1 frontSpelled
  obtain ⟨question, between, rfl, asks, betweenSpelled⟩ := List.map_eq_cons_iff.1 askedSpelled
  obtain ⟨colon, behind, rfl, parts, behindSpelled⟩ := List.map_eq_cons_iff.1 backSpelled
  have nonempty := spelled_nonempty beforeSpelled first.begins
  have tested := reads_binary nonempty
    ((reads beforeSpelled).binary (Nat.le_refl 2) 0 (by omega))
  have read : ReadsTree limit (.conditional span condition left right)
      (before ++ question :: between ++ colon :: behind)
      (max nesting (max leftNesting rightNesting)) (conditional limit) 2 0 := by
    rw [List.append_cons, List.append_cons before]
    exact reads_conditional_operator nonempty (spelled_level beforeSpelled first) tested asks
      (leftReads betweenSpelled) parts (rightReads behindSpelled)
  have present : 0 < (before ++ question :: between ++ colon :: behind).length :=
    List.length_pos_iff.2 (by simp)
  exact reads_at_rebinding (Nat.le_refl 1) (reads_rebinding present read)

theorem reads_as_rebind {name : String}
    (reads : (Form.whole right).ReadsAs limit rightSigns rightNesting) :
    (Form.part 0 (.rebind span name right)).ReadsAs limit
      (.name name :: .mark .walrus :: rightSigns) rightNesting := by
  intro tokens spelled
  obtain ⟨token, rest, rfl, signed, restSpelled⟩ := List.map_eq_cons_iff.1 spelled
  obtain ⟨sign, behind, rfl, assigns, behindSpelled⟩ := List.map_eq_cons_iff.1 restSpelled
  have name : ReadsAt limit 10 (.identifier span name) [token] 0 :=
    reads_as_identifier (by simp [signed])
  have target := reads_conditional (by simp) (reads_binary (by simp)
    (name.binary (by omega) 0 (by omega)))
  apply reads_at_rebinding (Nat.zero_le 1)
  exact reads_rebind signed target assigns (reads behindSpelled)

theorem reads_as_function {bodySpan : Span} {names : List String} (distinct : names.Nodup)
    (inner : Written (.whole right) rightSigns rightNesting)
    (reads : (Form.whole right).ReadsAs limit rightSigns rightNesting) :
    (Form.part 0 (.function span names (.valued bodySpan [] right))).ReadsAs limit
      (.mark .fnWord :: parameterSigns names ++ .mark .colon :: rightSigns) rightNesting := by
  intro tokens spelled
  obtain ⟨front, back, rfl, frontSpelled, backSpelled⟩ := List.map_eq_append_iff.1 spelled
  obtain ⟨start, list, rfl, signed, listSpelled⟩ := List.map_eq_cons_iff.1 frontSpelled
  obtain ⟨colon, behind, rfl, parts, behindSpelled⟩ := List.map_eq_cons_iff.1 backSpelled
  have plain : ∀ token ∈ (start :: list ++ colon :: behind).head?,
      UnaryOperator.ofTokenClass? token.kind = none := by
    intro token member
    cases member
    rw [(Token.mark_of_sign signed).2.2]
    rfl
  apply reads_at_rebinding (Nat.zero_le 1)
  apply reads_rebinding_of_primary (by simp) plain
  rw [List.append_cons]
  exact reads_function signed listSpelled distinct parts
    (spelled_nonempty behindSpelled inner.begins) (spelled_starts behindSpelled inner.begins rfl)
    (reads behindSpelled)

theorem reads_as_more (inner : Written (.whole tree) signs nesting)
    (others : Written (.more trees) moreSigns moreNesting)
    (reads : (Form.whole tree).ReadsAs limit signs nesting)
    (readsMore : (Form.more trees).ReadsAs limit moreSigns moreNesting) :
    (Form.more (tree :: trees)).ReadsAs limit (.mark .comma :: signs ++ moreSigns)
      (max nesting moreNesting) := by
  intro tokens spelled
  obtain ⟨front, more, rfl, frontSpelled, moreSpelled⟩ := List.map_eq_append_iff.1 spelled
  obtain ⟨comma, inside, rfl, signed, innerSpelled⟩ := List.map_eq_cons_iff.1 frontSpelled
  exact reads_one_more signed (spelled_nonempty innerSpelled inner.begins)
    (spelled_starts innerSpelled inner.begins rfl) (spelled_comma moreSpelled others.begins)
    (reads innerSpelled) (readsMore moreSpelled)

end Forms

/-- What the grammar allows is read. -/
theorem Written.reads_as {form : Form} {signs : List Sign} {nesting : Nat}
    (written : Written form signs nesting) (limit : Nat) : form.ReadsAs limit signs nesting := by
  induction written with
  | literal => exact reads_as_literal
  | identifier => exact reads_as_identifier
  | grouped inner reads => exact reads_as_grouped inner reads
  | emptyTuple => exact reads_as_empty_tuple
  | tuple inner others comma reads readsMore =>
      exact reads_as_tuple inner others comma reads readsMore
  | emptyCall first subject => exact reads_as_empty_call first subject
  | call first inner others subject reads readsMore =>
      exact reads_as_call first inner others subject reads readsMore
  | member first subject => exact reads_as_member first subject
  | power first second base exponent => exact reads_as_power first second base exponent
  | unary operand reads => exact reads_as_unary reads
  | binary binds first second left right => exact reads_as_binary binds first second left right
  | conditional first second third condition left right =>
      exact reads_as_conditional first condition left right
  | rebind second reads => exact reads_as_rebind reads
  | function distinct inner reads => exact reads_as_function distinct inner reads
  | loosen tight ordered reads => exact fun tokens spelled => (reads spelled).loosen ordered
  | whole loose reads =>
      exact fun tokens spelled =>
        reads_expression (spelled_nonempty spelled loose.begins) (reads spelled).rebinding
  | noMore =>
      intro tokens spelled
      cases List.map_eq_nil_iff.1 spelled
      exact reads_no_more
  | lastComma =>
      intro tokens spelled
      obtain ⟨comma, rfl, signed⟩ := List.map_eq_singleton_iff.1 spelled
      exact reads_last_comma signed
  | oneMore inner others reads readsMore => exact reads_as_more inner others reads readsMore

/-- Behind these tokens no expression goes on. -/
def TokenClass.endsExpression : TokenClass → Bool
  | .newline | .endOfInput | .closeParen | .comma => true
  | _ => false

/-- All tokens with some signs are read as a tree, spans aside, in front of everything that ends
an expression, and reading stops right there. A limit on nesting refuses nothing that is within
it; what is beyond it is read as that tree or refused. -/
def Expression.ReadBack (tree : Expression) (signs : List Sign) (nesting : Nat) : Prop :=
  ∀ (tokens rest : List Token) (previous : Option Token) (ending : Except ScriptError Token)
    (next : Token) (limit depth fuel : Nat), tokens.map Token.sign = signs →
    (⟨previous, rest, ending⟩ : Feed).current = .ok next → next.kind.endsExpression = true →
    fuelFor tokens.length ≤ fuel →
    (∃ found, (expression limit fuel depth).run ⟨previous, tokens ++ rest, ending⟩ =
        .ok (found, ⟨tokens.getLast?.or previous, rest, ending⟩) ∧
      found.unplaced = tree.unplaced) ∨
    limit < depth + nesting ∧ ∃ error, error.cause.isLimit = true ∧
      (expression limit fuel depth).run ⟨previous, tokens ++ rest, ending⟩ = .error (.error error)

theorem Written.read_back {tree : Expression} {signs : List Sign} {nesting : Nat}
    (written : Written (.whole tree) signs nesting) : tree.ReadBack signs nesting := by
  intro tokens rest previous ending next limit depth fuel spelled isCurrent ends enough
  have untied : next.kind.ties = none := by
    revert ends
    cases next.kind <;> simp [TokenClass.endsExpression, TokenClass.ties,
      BinaryOperator.ofTokenClass?]
  have fueled : 24 * tokens.length ≤ fuel + 0 := by
    unfold fuelFor at enough
    omega
  have roomy (room : Nat) (within : depth + nesting ≤ room) :
      ∃ found, (expression room fuel depth).run ⟨previous, tokens ++ rest, ending⟩ =
          .ok (found, ⟨tokens.getLast?.or previous, rest, ending⟩) ∧
        found.unplaced = tree.unplaced := by
    have reads := written.reads_as room spelled fuel depth ⟨previous, rest, ending⟩ [] fueled within
      (Feed.stops_of_untied isCurrent untied)
    simpa [Gives, Feed.before, Feed.past, Expression.Like] using reads
  by_cases within : depth + nesting ≤ limit
  · exact .inl (roomy limit within)
  · have gated := ((read_gated_correspondence (show limit ≤ depth + nesting by omega)
      ).related_at_every_fuel fuel).expression depth ⟨previous, tokens ++ rest, ending⟩
    rcases gated with refused | same
    · exact .inr ⟨by omega, refused⟩
    · have read := roomy (depth + nesting) (Nat.le_refl _)
      rw [← Nat.add_zero fuel, same] at read
      exact .inl read

/-- Expressions survive a round trip. The plain spelling of a tree, which has parentheses only
where ranks require them, follows the grammar; and from every spelling that follows the grammar
the tree is read back. -/
theorem Expression.round_trip (tree : Expression) (inline : tree.isInline = true) :
    Written (.whole tree) tree.signs (tree.nesting + 1) ∧
      ∀ {signs : List Sign} {nesting : Nat}, Written (.whole tree) signs nesting →
        tree.ReadBack signs nesting :=
  ⟨(tree.signs_written inline).to_whole, fun written => written.read_back⟩

/-- A token that says something, of no particular place. -/
def Sign.token : Sign → Token
  | .literal value => ⟨value.tokenClass, value, "", default⟩
  | .name text => ⟨.identifier, .text text, text, default⟩
  | .mark kind => ⟨kind, .nothing, "", default⟩

/-- The tree of `x := (a - b) ** -c.0(1, (2,)) ? not d : (fn(p, q): p)`. -/
def raisedDifference : Expression :=
  .rebind default "x" (.conditional default
    (.binary default
      (.binary default (.identifier default "a") .subtract (.identifier default "b")) .power
      (.unary default .minus (.call default (.member default (.identifier default "c") 0)
        [.literal default (.int 1), .tuple default [.literal default (.int 2)]])))
    (.unary default .negation (.identifier default "d"))
    (.function default ["p", "q"] (.valued default [] (.identifier default "p"))))

theorem raised_difference_round_trip :
    let tokens := raisedDifference.signs.map Sign.token
    let last := (Sign.mark .endOfInput).token
    ∃ found, (expression 6 (fuelFor tokens.length) 0).run ⟨none, tokens ++ [last], .ok last⟩ =
        .ok (found, ⟨tokens.getLast?, [last], .ok last⟩) ∧
      found.unplaced = raisedDifference.unplaced := by
  intro tokens last
  have inline : raisedDifference.isInline = true := by decide
  obtain ⟨written, readBack⟩ := raisedDifference.round_trip inline
  rcases readBack written tokens [last] none (.ok last) last 6 0 (fuelFor tokens.length)
    (by decide) rfl rfl (Nat.le_refl _) with read | beyond
  · rw [Option.or_none] at read
    exact read
  · exact absurd beyond.1 (by decide)

end LayoutScript
