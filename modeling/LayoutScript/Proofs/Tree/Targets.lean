import LayoutScript.Proofs.Tree.ExpressionRoundTrip
import LayoutScript.Proofs.Tree.Layout

/-!
What targets of bindings are read as. Behind `let` a target is read as such; in front of an
assignment it is read as an expression and then taken for the target that it spells.
-/

namespace LayoutScript

open Parse

section Targets

/-- What tokens are read as if a target is expected. -/
def ReadsTarget (limit : Nat) (tree : Pattern) (tokens : List Token) (nesting : Nat) : Prop :=
  ∀ (fuel depth : Nat) (feed : Feed) (rest : List Token), 24 * tokens.length ≤ fuel →
    depth + nesting ≤ limit →
    Gives (pattern limit fuel depth) feed tokens rest fun found => found.unplaced = tree.unplaced

def ReadsMoreTargets (limit : Nat) (trees : List Pattern) (tokens : List Token) (nesting : Nat) :
    Prop :=
  ∀ (fuel depth : Nat) (feed : Feed) (stop : Token) (rest : List Token),
    24 * tokens.length + 1 ≤ fuel → depth + nesting ≤ limit → stop.kind = .closeParen →
    Gives (morePatterns limit fuel depth) feed tokens (stop :: rest) fun found =>
      Pattern.unplacedAll found = Pattern.unplacedAll trees

variable {limit nesting moreNesting : Nat} {tree : Pattern} {trees : List Pattern} {span : Span}
  {start stop : Token} {tokens moreTokens : List Token}

theorem reads_name_target {token : Token} {name : String} (signed : token.sign = .name name) :
    ReadsTarget limit (.identifier span name) [token] nesting := by
  intro fuel depth feed rest enough _
  obtain ⟨less, rfl⟩ := fuel_succ (by simp) (Nat.zero_le 8) enough
  have named := (Token.name_of_sign signed).2
  refine ⟨.identifier token.span name, ?_, rfl⟩
  rw [List.singleton_append, pattern, run_bind_ok run_first]
  simp only [named]
  rw [run_bind_ok (run_advance (by simp [Token.name_some named]))]
  rfl

/-- Behind a parenthesis the rest of a tuple is read one level deeper. -/
theorem run_tuple_target {fuel depth : Nat} {feed : Feed} {rest : List Token}
    (opens : start.sign = .mark .openParen) (within : depth + 1 ≤ limit) :
    (pattern limit (fuel + 1) depth).run (feed.before (start :: rest)) =
      (tuplePattern limit fuel (depth + 1) start).run ((feed.past [start]).before rest) := by
  obtain ⟨_, noName, isOpen⟩ := Token.mark_of_sign opens
  rw [pattern, run_bind_ok run_first]
  simp only [noName]
  rw [if_pos isOpen, run_bind_ok (run_advance (by simp [isOpen])), run_bind_ok (run_enter within)]

theorem reads_empty_target (opens : start.sign = .mark .openParen)
    (closes : stop.sign = .mark .closeParen) :
    ReadsTarget limit (.tuple span []) [start, stop] 1 := by
  intro fuel depth feed rest enough within
  simp only [List.length_cons, List.length_nil] at enough
  obtain ⟨less, rfl⟩ : ∃ less, fuel = less + 2 := ⟨fuel - 2, by omega⟩
  have isClose := (Token.mark_of_sign closes).2.2
  refine ⟨.tuple (start.span.join stop.span) [], ?_, rfl⟩
  simp only [List.cons_append, List.nil_append]
  rw [run_tuple_target opens within, tuplePattern, run_bind_ok (run_accept isClose (by decide)),
    if_pos (by simp), run_bind_ok (run_span_from start)]
  rfl

/-- The first target of a tuple is read. -/
theorem run_first_target {fuel depth : Nat} {feed : Feed} {rest : List Token} {found : Pattern}
    (nonempty : 0 < tokens.length) (first : ∀ token ∈ tokens.head?, token.kind ≠ .closeParen)
    (run : (pattern limit fuel depth).run (feed.before (tokens ++ rest)) =
      .ok (found, (feed.past tokens).before rest)) :
    (tuplePattern limit (fuel + 1) depth start).run (feed.before (tokens ++ rest)) =
      (do if (← accept .closeParen).isSome then
            return found
          else
            let others ← morePatterns limit fuel depth
            let _ ← consume .closeParen .commaOrCloseParen
            return .tuple (← spanFrom start) (found :: others) : Parse Pattern).run
        ((feed.past tokens).before rest) := by
  have notClose : (accept .closeParen).run (feed.before (tokens ++ rest)) =
      .ok (none, feed.before (tokens ++ rest)) := by
    obtain ⟨token, others, rfl⟩ := List.exists_cons_of_length_pos nonempty
    exact run_accept_none rfl (first token (by simp))
  rw [tuplePattern, run_bind_ok notClose, if_neg (by simp), run_bind_ok run]

theorem reads_grouped_target (opens : start.sign = .mark .openParen)
    (closes : stop.sign = .mark .closeParen) (nonempty : 0 < tokens.length)
    (first : ∀ token ∈ tokens.head?, token.kind ≠ .closeParen)
    (reads : ReadsTarget limit tree tokens nesting) :
    ReadsTarget limit tree ([start] ++ tokens ++ [stop]) (nesting + 1) := by
  intro fuel depth feed rest enough within
  simp only [List.length_append, List.length_cons, List.length_nil] at enough
  obtain ⟨less, rfl⟩ : ∃ less, fuel = less + 2 := ⟨fuel - 2, by omega⟩
  have isClose := (Token.mark_of_sign closes).2.2
  obtain ⟨found, run, like⟩ := reads less (depth + 1) (feed.past [start]) (stop :: rest) (by omega)
    (by omega)
  refine ⟨found, ?_, like⟩
  simp only [Feed.past_append]
  simp only [List.cons_append, List.nil_append, List.append_assoc]
  rw [run_tuple_target opens (by omega), run_first_target nonempty first run,
    run_bind_ok (run_accept isClose (by decide)), if_pos (by simp)]
  rfl

theorem reads_tuple_target {comma : Token} (opens : start.sign = .mark .openParen)
    (closes : stop.sign = .mark .closeParen) (nonempty : 0 < tokens.length)
    (first : ∀ token ∈ tokens.head?, token.kind ≠ .closeParen)
    (separated : moreTokens.head? = some comma) (isComma : comma.kind = .comma)
    (reads : ReadsTarget limit tree tokens nesting)
    (readsMore : ReadsMoreTargets limit trees moreTokens moreNesting) :
    ReadsTarget limit (.tuple span (tree :: trees)) ([start] ++ tokens ++ moreTokens ++ [stop])
      (max nesting moreNesting + 1) := by
  intro fuel depth feed rest enough within
  simp only [List.length_append, List.length_cons, List.length_nil] at enough
  obtain ⟨less, rfl⟩ : ∃ less, fuel = less + 2 := ⟨fuel - 2, by omega⟩
  have isClose := (Token.mark_of_sign closes).2.2
  obtain ⟨found, run, like⟩ := reads less (depth + 1) (feed.past [start])
    (moreTokens ++ stop :: rest) (by omega) (by omega)
  obtain ⟨others, runMore, same⟩ := readsMore less (depth + 1) ((feed.past [start]).past tokens)
    stop rest (by omega) (by omega) isClose
  have isCurrent : (((feed.past [start]).past tokens).before
      (moreTokens ++ stop :: rest)).current = .ok comma := Feed.current_before separated _
  refine ⟨.tuple (start.span.join stop.span) (found :: others), ?_, ?_⟩
  · simp only [Feed.past_append]
    simp only [List.cons_append, List.nil_append, List.append_assoc]
    rw [run_tuple_target opens (by omega), run_first_target nonempty first run,
      run_bind_ok (run_accept_none isCurrent (by simp [isComma])), if_neg (by simp),
      run_bind_ok runMore, run_bind_ok (run_consume isClose (by decide)),
      run_bind_ok (run_span_from start)]
    rfl
  · simp only [Pattern.unplaced, Pattern.unplacedAll, like, same]

theorem reads_no_more_targets : ReadsMoreTargets limit [] [] 0 := by
  intro fuel depth feed stop rest enough _ isClose
  obtain ⟨less, rfl⟩ : ∃ less, fuel = less + 1 := ⟨fuel - 1, by omega⟩
  refine ⟨[], ?_, rfl⟩
  rw [morePatterns, List.nil_append, run_bind_ok (run_accept_none rfl (by simp [isClose]))]
  rfl

theorem reads_last_target_comma {comma : Token} (signed : comma.sign = .mark .comma) :
    ReadsMoreTargets limit [] [comma] 0 := by
  intro fuel depth feed stop rest enough _ isClose
  obtain ⟨less, rfl⟩ : ∃ less, fuel = less + 1 := ⟨fuel - 1, by omega⟩
  have isComma := (Token.mark_of_sign signed).2.2
  refine ⟨[], ?_, rfl⟩
  rw [morePatterns, List.singleton_append, run_bind_ok (run_accept isComma (by decide)),
    if_neg (by simp), run_bind_ok (run_check rfl _), if_pos (by simp [isClose])]
  rfl

theorem reads_one_more_target {comma : Token} (signed : comma.sign = .mark .comma)
    (nonempty : 0 < tokens.length) (first : ∀ token ∈ tokens.head?, token.kind ≠ .closeParen)
    (reads : ReadsTarget limit tree tokens nesting)
    (readsMore : ReadsMoreTargets limit trees moreTokens moreNesting) :
    ReadsMoreTargets limit (tree :: trees) ([comma] ++ tokens ++ moreTokens)
      (max nesting moreNesting) := by
  intro fuel depth feed stop rest enough within isClose
  simp only [List.length_append, List.length_cons, List.length_nil] at enough
  obtain ⟨less, rfl⟩ : ∃ less, fuel = less + 1 := ⟨fuel - 1, by omega⟩
  have isComma := (Token.mark_of_sign signed).2.2
  obtain ⟨found, run, like⟩ := reads less depth (feed.past [comma]) (moreTokens ++ stop :: rest)
    (by omega) (by omega)
  obtain ⟨others, runMore, same⟩ := readsMore less depth ((feed.past [comma]).past tokens) stop rest
    (by omega) (by omega) isClose
  refine ⟨found :: others, ?_, ?_⟩
  · simp only [Feed.past_append]
    simp only [List.cons_append, List.nil_append, List.append_assoc]
    rw [morePatterns, run_bind_ok (run_accept isComma (by decide)), if_neg (by simp),
      run_bind_ok (run_check_false nonempty first), if_neg (by simp), run_bind_ok run,
      run_bind_ok runMore]
    rfl
  · simp only [Pattern.unplacedAll, like, same]

end Targets

/-- What tokens of a form are read as if a target is expected. -/
def Form.ReadsAsTarget (limit : Nat) (signs : List Sign) (nesting : Nat) : Form → Prop
  | .part _ tree => ∀ target : Pattern, target.asExpression = tree → ∀ ⦃tokens : List Token⦄,
      tokens.map Token.sign = signs → ReadsTarget limit target tokens (nesting + 1)
  | .whole tree => ∀ target : Pattern, target.asExpression = tree → ∀ ⦃tokens : List Token⦄,
      tokens.map Token.sign = signs → ReadsTarget limit target tokens nesting
  | .more trees => ∀ targets : List Pattern, Pattern.asExpressions targets = trees →
      ∀ ⦃tokens : List Token⦄, tokens.map Token.sign = signs →
        ReadsMoreTargets limit targets tokens nesting

/-- A spelling of a target is read as that target. -/
theorem Written.reads_as_target {form : Form} {signs : List Sign} {nesting : Nat}
    (written : Written form signs nesting) (limit : Nat) :
    form.ReadsAsTarget limit signs nesting := by
  induction written with
  | identifier =>
      intro target same tokens spelled
      obtain ⟨token, rfl, signed⟩ := List.map_eq_singleton_iff.1 spelled
      cases target with
      | identifier span name =>
          cases same
          exact reads_name_target signed
      | tuple span elements => cases same
  | grouped inner reads =>
      intro target same tokens spelled
      obtain ⟨front, back, rfl, frontSpelled, backSpelled⟩ := List.map_eq_append_iff.1 spelled
      obtain ⟨start, inside, rfl, opens, innerSpelled⟩ := List.map_eq_cons_iff.1 frontSpelled
      obtain ⟨stop, rfl, closes⟩ := List.map_eq_singleton_iff.1 backSpelled
      exact reads_grouped_target opens closes (spelled_nonempty innerSpelled inner.begins)
        (spelled_starts innerSpelled inner.begins rfl) (reads target same innerSpelled)
  | emptyTuple =>
      intro target same tokens spelled
      obtain ⟨start, rest, rfl, opens, restSpelled⟩ := List.map_eq_cons_iff.1 spelled
      obtain ⟨stop, rfl, closes⟩ := List.map_eq_singleton_iff.1 restSpelled
      cases target with
      | identifier span name => cases same
      | tuple span elements =>
          cases elements with
          | nil => exact reads_empty_target opens closes
          | cons element elements => cases same
  | tuple inner others comma reads readsMore =>
      intro target same tokens spelled
      obtain ⟨front, back, rfl, frontSpelled, backSpelled⟩ := List.map_eq_append_iff.1 spelled
      obtain ⟨opened, more, rfl, openedSpelled, moreSpelled⟩ :=
        List.map_eq_append_iff.1 frontSpelled
      obtain ⟨start, inside, rfl, opens, innerSpelled⟩ := List.map_eq_cons_iff.1 openedSpelled
      obtain ⟨stop, rfl, closes⟩ := List.map_eq_singleton_iff.1 backSpelled
      have separated := spelled_comma moreSpelled others.begins
      cases more with
      | nil => exact absurd moreSpelled.symm comma
      | cons sign later =>
          cases target with
          | identifier span name => cases same
          | tuple span elements =>
              cases elements with
              | nil => cases same
              | cons element elements =>
                  cases same
                  exact reads_tuple_target opens closes
                    (spelled_nonempty innerSpelled inner.begins)
                    (spelled_starts innerSpelled inner.begins rfl) rfl (separated sign rfl)
                    (reads element rfl innerSpelled) (readsMore elements rfl moreSpelled)
  | loosen tight ordered reads => exact reads
  | whole loose reads => exact reads
  | noMore =>
      intro targets same tokens spelled
      cases List.map_eq_nil_iff.1 spelled
      cases targets with
      | nil => exact reads_no_more_targets
      | cons target targets => cases same
  | lastComma =>
      intro targets same tokens spelled
      obtain ⟨comma, rfl, signed⟩ := List.map_eq_singleton_iff.1 spelled
      cases targets with
      | nil => exact reads_last_target_comma signed
      | cons target targets => cases same
  | oneMore inner others reads readsMore =>
      intro targets same tokens spelled
      obtain ⟨front, more, rfl, frontSpelled, moreSpelled⟩ := List.map_eq_append_iff.1 spelled
      obtain ⟨comma, inside, rfl, signed, innerSpelled⟩ := List.map_eq_cons_iff.1 frontSpelled
      cases targets with
      | nil => cases same
      | cons target targets =>
          cases same
          exact reads_one_more_target signed (spelled_nonempty innerSpelled inner.begins)
            (spelled_starts innerSpelled inner.begins rfl) (reads target rfl innerSpelled)
            (readsMore targets rfl moreSpelled)
  | _ =>
      -- No other expression is a target.
      intro target same
      cases target <;> cases same

mutual

/-- What reads like a target can be assigned to. -/
theorem Pattern.of_like : ∀ (target : Pattern) (found : Expression),
    found.unplaced = target.asExpression.unplaced →
      ∃ read, found.toPattern = .ok read ∧ read.unplaced = target.unplaced
  | .identifier _ name, found, like => by
      have known : (Expression.identifier default name).Like found := like
      obtain ⟨place, rfl⟩ := Expression.identifier_of_like known
      exact ⟨.identifier place name, rfl, rfl⟩
  | .tuple _ elements, found, like => by
      cases found with
      | tuple place trees =>
          simp only [asExpression, Expression.unplaced, Expression.tuple.injEq, true_and] at like
          obtain ⟨read, made, same⟩ := Pattern.all_of_like elements trees like
          refine ⟨.tuple place read, ?_, ?_⟩
          · rw [Expression.toPattern, made]
            rfl
          · simp only [unplaced, same]
      | _ => simp [asExpression, Expression.unplaced] at like

theorem Pattern.all_of_like : ∀ (targets : List Pattern) (found : List Expression),
    Expression.unplacedAll found = Expression.unplacedAll (Pattern.asExpressions targets) →
      ∃ read, Expression.toPatterns found = .ok read ∧
        Pattern.unplacedAll read = Pattern.unplacedAll targets
  | [], found, like => by
      cases found with
      | nil => exact ⟨[], rfl, rfl⟩
      | cons tree trees => cases like
  | target :: targets, found, like => by
      cases found with
      | nil => cases like
      | cons tree trees =>
          simp only [asExpressions, Expression.unplacedAll, List.cons.injEq] at like
          obtain ⟨first, made, same⟩ := Pattern.of_like target tree like.1
          obtain ⟨others, madeOthers, sameOthers⟩ := Pattern.all_of_like targets trees like.2
          refine ⟨first :: others, ?_, ?_⟩
          · rw [Expression.toPatterns, made]
            simp only [bind, Except.bind, madeOthers]
            rfl
          · simp only [unplacedAll, same, sameOthers]

end

end LayoutScript
