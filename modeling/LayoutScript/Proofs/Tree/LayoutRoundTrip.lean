import LayoutScript.Proofs.Tree.Targets

/-!
Programs are read back from their layouts. A statement ends with its newline, or with the body
that ends it; behind an indented body nothing continues the expression that it ended, so that
the next line starts a statement whatever its first token is.
-/

namespace LayoutScript

open Parse

namespace Parse

variable {feed : Feed} {token next : Token} {rest : List Token}

theorem run_skip_newlines (isCurrent : feed.current = .ok token) (other : token.kind ≠ .newline) :
    skipNewlines.run feed = .ok ((), feed) := by
  have kept : feed.skipNewlines = feed := by
    obtain ⟨previous, tokens, ending⟩ := feed
    cases tokens with
    | nil => rfl
    | cons first tokens =>
        cases isCurrent
        simp [Feed.skipNewlines, Feed.skipNewlinesFrom, other]
  change Except.ok ((), feed.skipNewlines) = _
  rw [kept]

theorem run_of_except {α : Type} {value : α} :
    (ofExcept (.ok value)).run feed = .ok (value, feed) := rfl

theorem run_second (notEnd : token.kind ≠ .endOfInput) :
    second.run (feed.before (token :: next :: rest)) =
      .ok (next, feed.before (token :: next :: rest)) := by
  have behind : (feed.before (token :: next :: rest)).second = .ok next := by
    simp [Feed.second, Feed.before, notEnd]
  change (ofExcept (feed.before (token :: next :: rest)).second).run _ = _
  rw [behind]
  exact run_of_except

end Parse

/-- Right here a simple statement ends, and reading goes on from another feed. -/
structure Feed.Ends (feed after : Feed) : Prop where
  noAssign : (acceptOpen .assign).run feed = .ok (none, feed)
  noSemicolon : (acceptOpen .semicolon).run feed = .ok (none, feed)
  closes : statementEnd.run feed = .ok ((), after)

section Ends

variable {feed : Feed} {token : Token} {rest : List Token}

theorem run_statement_end (isNewline : token.kind = .newline) :
    statementEnd.run (feed.before (token :: rest)) = .ok ((), (feed.past [token]).before rest) := by
  have taken : (feed.before (token :: rest)).advance = (feed.past [token]).before rest := by
    simp [Feed.advance, Feed.before, Feed.past, isNewline]
  rw [statementEnd, run_bind_ok run_first, if_neg (by simp [isNewline]), if_pos isNewline, ← taken]
  rfl

/-- A newline ends a statement. -/
theorem Feed.ends_with_newline (isNewline : token.kind = .newline) :
    (feed.before (token :: rest)).Ends ((feed.past [token]).before rest) where
  noAssign := run_accept_open_none rfl (.inr (by simp [isNewline]))
  noSemicolon := run_accept_open_none rfl (.inr (by simp [isNewline]))
  closes := run_statement_end isNewline

/-- An indented body ends the statement that ends with it. -/
theorem Feed.ends_with_body (isCurrent : feed.current = .ok token) (other : token.kind ≠ .newline)
    (closed : feed.blockClosed = true) : feed.Ends feed where
  noAssign := run_accept_open_none isCurrent (.inl closed)
  noSemicolon := run_accept_open_none isCurrent (.inl closed)
  closes := by
    rw [statementEnd, run_bind_ok (run_current isCurrent)]
    by_cases ending : token.kind = .endOfInput ∨ token.kind = .dedent
    · rw [if_pos (by simpa using ending)]
      rfl
    · rw [if_neg (by simpa using ending), if_neg other]
      obtain ⟨previous, tokens, ending⟩ := feed
      cases previous with
      | none => cases closed
      | some last =>
          have isDedent : last.kind = .dedent := by simpa [Feed.blockClosed] using closed
          change (if last.kind = .newline || last.kind = .dedent then pure ()
            else unexpected .statementEnd : Parse Unit).run _ = _
          rw [if_pos (by simp [isDedent])]
          rfl

end Ends

/-- No empty line follows. -/
def Feed.AtLine (feed : Feed) : Prop :=
  ∃ token, feed.current = .ok token ∧ token.kind ≠ .newline

/-- The last expression of a simple statement is read, and there the statement ends. -/
def ReadsTail (limit : Nat) (tree : Expression) (tokens : List Token) (nesting : Nat) : Prop :=
  ∀ (fuel depth : Nat) (feed : Feed) (rest : List Token), 24 * tokens.length ≤ fuel →
    depth + nesting ≤ limit → (feed.before rest).AtLine →
    ∃ found between, (expression limit fuel depth).run (feed.before (tokens ++ rest)) =
        .ok (found, between) ∧
      tree.Like found ∧ between.Ends ((feed.past tokens).before rest)

def ReadsStatement (limit : Nat) (tree : Statement) (tokens : List Token) (nesting : Nat) : Prop :=
  ∀ (fuel depth : Nat) (feed : Feed) (rest : List Token), 24 * tokens.length + 2 ≤ fuel →
    depth + nesting ≤ limit → (feed.before rest).AtLine →
    Gives (statement limit fuel depth) feed tokens rest fun found => found.unplaced = tree.unplaced

/-- A reader of statements below each other, up to a token of certain classes. -/
structure ReadsEach (limit depth : Nat) (ends : TokenClass → Bool)
    (reader : Nat → Parse (List Statement)) : Prop where
  step : ∀ fuel, reader (fuel + 1) = do
    let token ← current
    if ends token.kind then
      return []
    else
      let first ← statement limit fuel depth
      skipNewlines
      return first :: (← reader fuel)
  goesOn : ∀ kind : TokenClass, kind.startsLine = true → ends kind = false
  skips : ends .newline = false

def ReadsLines (limit : Nat) (trees : List Statement) (tokens : List Token) (nesting : Nat) :
    Prop :=
  ∀ (ends : TokenClass → Bool) (reader : Nat → Parse (List Statement)) (fuel depth : Nat)
    (feed : Feed) (rest : List Token) (next : Token), ReadsEach limit depth ends reader →
    24 * tokens.length + 3 ≤ fuel → depth + nesting ≤ limit →
    (feed.before rest).current = .ok next → ends next.kind = true →
    Gives (reader fuel) feed tokens rest fun found =>
      Statement.unplacedAll found = Statement.unplacedAll trees

def ReadsIndented (limit : Nat) (tree : Block) (tokens : List Token) (nesting : Nat) : Prop :=
  ∀ (fuel depth : Nat) (feed : Feed) (rest : List Token), 24 * tokens.length + 3 ≤ fuel →
    depth + nesting ≤ limit →
    Gives (block limit fuel depth) feed tokens rest fun found => found.unplaced = tree.unplaced

def ReadsBody (limit : Nat) (tree : Block) (tokens : List Token) (nesting : Nat) : Prop :=
  ∀ (fuel depth : Nat) (feed : Feed) (rest : List Token), 24 * tokens.length + 3 ≤ fuel →
    depth + nesting ≤ limit → (feed.before rest).AtLine →
    Gives (block limit fuel depth) feed tokens rest fun found => found.unplaced = tree.unplaced

section Tails

variable {limit nesting : Nat} {tree : Expression} {tokens : List Token}

theorem reads_line {newline : Token} (signed : newline.sign = .mark .newline)
    (reads : ReadsTree limit tree tokens nesting (expression limit) 0 0) :
    ReadsTail limit tree (tokens ++ [newline]) nesting := by
  intro fuel depth feed rest enough within _
  simp only [List.length_append, List.length_cons, List.length_nil] at enough
  have isNewline := (Token.mark_of_sign signed).2.2
  have untied : ((feed.past tokens).before (newline :: rest)).Stops 0 :=
    Feed.stops_of_untied rfl (by rw [isNewline]; rfl)
  obtain ⟨found, run, like⟩ := reads fuel depth feed (newline :: rest) (by omega) within untied
  rw [List.append_assoc, List.singleton_append, Feed.past_append]
  exact ⟨found, _, run, like, Feed.ends_with_newline isNewline⟩

section Function

variable {span : Span} {names : List String} {body : Block} {start colon newline dedent : Token}
  {listTokens : List Token}

theorem reads_indented_function (signed : start.sign = .mark .fnWord)
    (spelled : listTokens.map Token.sign = parameterSigns names) (distinct : names.Nodup)
    (parts : colon.sign = .mark .colon) (opens : tokens.head? = some newline)
    (isNewline : newline.kind = .newline) (reads : ReadsIndented limit body tokens nesting) :
    ReadsTree limit (.function span names body) ([start] ++ listTokens ++ [colon] ++ tokens)
      nesting (primary limit) 7 11 := by
  intro fuel depth feed rest enough within _
  simp only [List.length_append, List.length_cons, List.length_nil] at enough
  obtain ⟨less, rfl⟩ : ∃ less, fuel = less + 2 := ⟨fuel - 2, by omega⟩
  obtain ⟨found, run, like⟩ := reads less depth
    (((feed.past [start]).past listTokens).past [colon]) rest (by omega) within
  have isCurrent : ((((feed.past [start]).past listTokens).past [colon]).before
      (tokens ++ rest)).current = .ok newline := Feed.current_before opens rest
  refine ⟨.function (start.span.join (((((feed.past [start]).past listTokens).past [colon]).past
    tokens).previous.getD start).span) names found, ?_, ?_⟩
  · simp only [Feed.past_append]
    simp only [List.append_assoc, List.cons_append, List.nil_append]
    rw [run_function_literal signed spelled distinct parts (by omega),
      run_bind_ok (run_check isCurrent _), if_pos (by simp [isNewline]), run_bind_ok run,
      run_bind_ok (run_span_from start)]
    rfl
  · simp only [Expression.Like, Expression.unplaced, like]

/-- Whatever follows an indented body, it does not continue the function that the body ended. -/
theorem reads_tail_function (signed : start.sign = .mark .fnWord)
    (spelled : listTokens.map Token.sign = parameterSigns names) (distinct : names.Nodup)
    (parts : colon.sign = .mark .colon) (opens : tokens.head? = some newline)
    (isNewline : newline.kind = .newline) (closes : tokens.getLast? = some dedent)
    (isDedent : dedent.kind = .dedent) (reads : ReadsIndented limit body tokens nesting) :
    ReadsTail limit (.function span names body) ([start] ++ listTokens ++ [colon] ++ tokens)
      (nesting + 1) := by
  have plain : ∀ token ∈ ([start] ++ listTokens ++ [colon] ++ tokens).head?,
      UnaryOperator.ofTokenClass? token.kind = none := by
    intro token member
    cases member
    rw [(Token.mark_of_sign signed).2.2]
    rfl
  have alone : ReadsTree limit (.function span names body)
      ([start] ++ listTokens ++ [colon] ++ tokens) nesting (primary limit) 7 11 :=
    reads_indented_function signed spelled distinct parts opens isNewline reads
  have whole := reads_expression (by simp) (reads_rebinding_of_primary (by simp) plain alone)
  intro fuel depth feed rest enough within atLine
  obtain ⟨next, isCurrent, other⟩ := atLine
  -- Behind the dedent no operator is looked for, so the next token may be any.
  have closed : ((feed.past ([start] ++ listTokens ++ [colon] ++ tokens)).before
      rest).blockClosed = true := by
    simp only [Feed.past_append]
    simp [Feed.past, Feed.before, Feed.blockClosed, closes, isDedent]
  obtain ⟨found, run, like⟩ := whole fuel depth feed rest enough within
    ⟨next, isCurrent, .inl closed⟩
  exact ⟨found, _, run, like, Feed.ends_with_body isCurrent other closed⟩

end Function

end Tails

section Statements

variable {limit nesting tailNesting : Nat} {span : Span} {tree value : Expression}
  {pattern : Pattern} {tokens tailTokens : List Token}

/-- A line that starts like an expression is read as a simple statement. -/
theorem run_simple {signs : List Sign} (spelled : tokens.map Token.sign = signs)
    (begins : Begins 0 signs) :
    ∃ start, ∀ (limit fuel depth : Nat) (feed : Feed) (rest : List Token),
      (statement limit (fuel + 1) depth).run (feed.before (tokens ++ rest)) =
        (simpleStatement limit fuel depth start).run (feed.before (tokens ++ rest)) := by
  obtain ⟨first, others, rfl, starts, _, parameters⟩ := begins
  obtain ⟨start, later, rfl, signed, laterSpelled⟩ := List.map_eq_cons_iff.1 spelled
  rw [← signed, Token.sign_kind] at starts parameters
  refine ⟨start, fun limit fuel depth feed rest => ?_⟩
  have other : start.kind ≠ .newline := by
    intro same
    rw [same] at starts
    cases starts
  rw [List.cons_append, statement, run_bind_ok (run_skip_newlines rfl other),
    run_bind_ok run_first]
  split
  · simp_all [TokenClass.starts]
  · simp_all [TokenClass.starts]
  · simp_all [TokenClass.starts]
  · rename_i isFunction
    obtain ⟨sign, signs, rfl⟩ := List.head?_eq_some_iff.1 (parameters isFunction)
    obtain ⟨paren, later, rfl, opens, _⟩ := List.map_eq_cons_iff.1 laterSpelled
    have isOpen := (Token.mark_of_sign opens).2.2
    rw [List.cons_append, run_bind_ok (run_second (by simp [isFunction])),
      if_neg (by simp [isOpen])]
  · rfl

theorem reads_open_expression {signs : List Sign} (spelled : tokens.map Token.sign = signs)
    (begins : Begins 0 signs) (reads : ReadsTail limit tree tokens nesting) :
    ReadsStatement limit (.evaluate span tree false) tokens nesting := by
  intro fuel depth feed rest enough within atLine
  obtain ⟨less, rfl⟩ : ∃ less, fuel = less + 2 := ⟨fuel - 2, by omega⟩
  obtain ⟨start, simple⟩ := run_simple spelled begins
  obtain ⟨found, between, run, like, ends⟩ := reads less depth feed rest (by omega) within atLine
  refine ⟨.evaluate found.span found false, ?_, ?_⟩
  · rw [simple, simpleStatement, run_bind_ok run, run_bind_ok ends.noAssign, if_neg (by simp),
      run_bind_ok ends.noSemicolon]
    dsimp only
    rw [if_neg (by simp), pure_bind, run_bind_ok ends.closes]
    rfl
  · simp only [Statement.unplaced, like.eq]

theorem reads_closed_expression {signs : List Sign} {semicolon newline : Token}
    (spelled : tokens.map Token.sign = signs) (written : Written (.whole tree) signs nesting)
    (closes : semicolon.sign = .mark .semicolon) (ends : newline.sign = .mark .newline)
    (reads : ReadsTree limit tree tokens nesting (expression limit) 0 0) :
    ReadsStatement limit (.evaluate span tree true) (tokens ++ [semicolon] ++ [newline])
      nesting := by
  intro fuel depth feed rest enough within _
  simp only [List.length_append, List.length_cons, List.length_nil] at enough
  obtain ⟨less, rfl⟩ : ∃ less, fuel = less + 2 := ⟨fuel - 2, by omega⟩
  have isSemicolon := (Token.mark_of_sign closes).2.2
  have isNewline := (Token.mark_of_sign ends).2.2
  have nonempty := spelled_nonempty spelled written.begins
  have isOpen : ((feed.past tokens).before (semicolon :: newline :: rest)).blockClosed = false :=
    Feed.past_not_closed nonempty (spelled_level spelled written)
  have untied : ((feed.past tokens).before (semicolon :: newline :: rest)).Stops 0 :=
    Feed.stops_of_untied rfl (by rw [isSemicolon]; rfl)
  obtain ⟨start, simple⟩ := run_simple spelled written.begins
  obtain ⟨found, run, like⟩ := reads less depth feed (semicolon :: newline :: rest) (by omega)
    within untied
  refine ⟨.evaluate (start.span.join semicolon.span) found true, ?_, ?_⟩
  · simp only [Feed.past_append]
    simp only [List.append_assoc, List.cons_append, List.nil_append]
    rw [simple, simpleStatement, run_bind_ok run,
      run_bind_ok (run_accept_open_none rfl (.inr (by simp [isSemicolon]))), if_neg (by simp),
      run_bind_ok (run_accept_open isOpen isSemicolon (by decide))]
    dsimp only
    rw [if_pos (by simp), run_bind_ok (run_span_from start),
      run_bind_ok (run_statement_end isNewline)]
    rfl
  · simp only [Statement.unplaced, like.eq]

theorem reads_assign {signs : List Sign} {sign : Token} (spelled : tokens.map Token.sign = signs)
    (written : Written (.whole pattern.asExpression) signs nesting)
    (assigns : sign.sign = .mark .assign)
    (reads : ReadsTree limit pattern.asExpression tokens nesting (expression limit) 0 0)
    (readsTail : ReadsTail limit value tailTokens tailNesting) :
    ReadsStatement limit (.assign span pattern value) (tokens ++ [sign] ++ tailTokens)
      (max nesting tailNesting) := by
  intro fuel depth feed rest enough within atLine
  simp only [List.length_append, List.length_cons, List.length_nil] at enough
  obtain ⟨less, rfl⟩ : ∃ less, fuel = less + 2 := ⟨fuel - 2, by omega⟩
  have isSign := (Token.mark_of_sign assigns).2.2
  have isOpen : ((feed.past tokens).before (sign :: (tailTokens ++ rest))).blockClosed = false :=
    Feed.past_not_closed (spelled_nonempty spelled written.begins) (spelled_level spelled written)
  have untied : ((feed.past tokens).before (sign :: (tailTokens ++ rest))).Stops 0 :=
    Feed.stops_of_untied rfl (by rw [isSign]; rfl)
  obtain ⟨start, simple⟩ := run_simple spelled written.begins
  obtain ⟨subject, run, like⟩ := reads less depth feed (sign :: (tailTokens ++ rest)) (by omega)
    (by omega) untied
  obtain ⟨target, made, same⟩ := Pattern.of_like pattern subject like
  obtain ⟨found, between, runTail, likeTail, ends⟩ := readsTail less depth
    ((feed.past tokens).past [sign]) rest (by omega) (by omega) atLine
  refine ⟨.assign (subject.span.join found.span) target found, ?_, ?_⟩
  · simp only [Feed.past_append]
    simp only [List.append_assoc, List.cons_append, List.nil_append]
    rw [simple, simpleStatement, run_bind_ok run,
      run_bind_ok (run_accept_open isOpen isSign (by decide)), if_pos (by simp), made,
      run_bind_ok run_of_except, run_bind_ok runTail, run_bind_ok ends.closes]
    rfl
  · simp only [Statement.unplaced, same, likeTail.eq]

theorem reads_declare {start sign : Token} (signed : start.sign = .mark .letWord)
    (assigns : sign.sign = .mark .assign) (reads : ReadsTarget limit pattern tokens nesting)
    (readsTail : ReadsTail limit value tailTokens tailNesting) :
    ReadsStatement limit (.declare span pattern value) ([start] ++ tokens ++ [sign] ++ tailTokens)
      (max nesting tailNesting) := by
  intro fuel depth feed rest enough within atLine
  simp only [List.length_append, List.length_cons, List.length_nil] at enough
  obtain ⟨less, rfl⟩ : ∃ less, fuel = less + 2 := ⟨fuel - 2, by omega⟩
  have isLet := (Token.mark_of_sign signed).2.2
  have isSign := (Token.mark_of_sign assigns).2.2
  obtain ⟨target, run, same⟩ := reads less depth (feed.past [start]) (sign :: (tailTokens ++ rest))
    (by omega) (by omega)
  obtain ⟨found, between, runTail, likeTail, ends⟩ := readsTail less depth
    (((feed.past [start]).past tokens).past [sign]) rest (by omega) (by omega) atLine
  refine ⟨.declare (start.span.join (between.previous.getD start).span) target found, ?_, ?_⟩
  · simp only [Feed.past_append]
    simp only [List.append_assoc, List.cons_append, List.nil_append]
    rw [statement, run_bind_ok (run_skip_newlines rfl (by simp [isLet])), run_bind_ok run_first]
    simp only [isLet]
    rw [declaration, run_bind_ok (run_advance (by simp [isLet])), run_bind_ok run,
      run_bind_ok (run_consume isSign (by decide)), run_bind_ok runTail,
      run_bind_ok (run_span_from start), run_bind_ok ends.closes]
    rfl
  · simp only [Statement.unplaced, same, likeTail.eq]

end Statements

section Headed

variable {limit nesting headNesting : Nat} {span : Span} {condition : Expression} {body : Block}
  {start colon : Token} {tokens headTokens : List Token}

/-- The header of a loop or of a choice is read, and its body follows. -/
theorem reads_conditioned {tree : Statement} (make : Span → Expression → Block → Statement)
    (notEnd : start.kind ≠ .endOfInput)
    (chosen : ∀ (fuel depth : Nat) (feed : Feed) (rest : List Token),
      (statement limit (fuel + 1) depth).run (feed.before (start :: rest)) =
        (conditioned limit fuel depth make).run (feed.before (start :: rest)))
    (rebuilt : ∀ (place : Span) (test : Expression) (inner : Block),
      test.unplaced = condition.unplaced → inner.unplaced = body.unplaced →
        (make place test inner).unplaced = tree.unplaced)
    (parts : colon.sign = .mark .colon)
    (reads : ReadsTree limit condition headTokens headNesting (expression limit) 0 0)
    (readsBody : ReadsBody limit body tokens nesting) :
    ReadsStatement limit tree ([start] ++ headTokens ++ [colon] ++ tokens)
      (max headNesting nesting) := by
  intro fuel depth feed rest enough within atLine
  simp only [List.length_append, List.length_cons, List.length_nil] at enough
  obtain ⟨less, rfl⟩ : ∃ less, fuel = less + 2 := ⟨fuel - 2, by omega⟩
  have isColon := (Token.mark_of_sign parts).2.2
  have untied : (((feed.past [start]).past headTokens).before
      (colon :: (tokens ++ rest))).Stops 0 :=
    Feed.stops_of_untied rfl (by rw [isColon]; rfl)
  obtain ⟨test, run, like⟩ := reads less depth (feed.past [start]) (colon :: (tokens ++ rest))
    (by omega) (by omega) untied
  obtain ⟨inner, runBody, same⟩ := readsBody less depth
    (((feed.past [start]).past headTokens).past [colon]) rest (by omega) (by omega) atLine
  refine ⟨make (start.span.join (((((feed.past [start]).past headTokens).past [colon]).past
    tokens).previous.getD start).span) test inner, ?_, rebuilt _ test inner like same⟩
  simp only [Feed.past_append]
  simp only [List.append_assoc, List.cons_append, List.nil_append]
  rw [chosen, conditioned, run_bind_ok (run_advance notEnd), run_bind_ok run,
    run_bind_ok (run_consume isColon (by decide)), run_bind_ok runBody,
    run_bind_ok (run_span_from start)]
  rfl

theorem reads_while_loop (signed : start.sign = .mark .whileWord)
    (parts : colon.sign = .mark .colon)
    (reads : ReadsTree limit condition headTokens headNesting (expression limit) 0 0)
    (readsBody : ReadsBody limit body tokens nesting) :
    ReadsStatement limit (.whileLoop span condition body)
      ([start] ++ headTokens ++ [colon] ++ tokens) (max headNesting nesting) := by
  have isWhile := (Token.mark_of_sign signed).2.2
  refine reads_conditioned .whileLoop (by simp [isWhile]) ?_ ?_ parts reads readsBody
  · intro fuel depth feed rest
    rw [statement, run_bind_ok (run_skip_newlines rfl (by simp [isWhile])), run_bind_ok run_first]
    simp only [isWhile]
  · intro place test inner like same
    simp only [Statement.unplaced, like, same]

theorem reads_if_block (signed : start.sign = .mark .ifWord) (parts : colon.sign = .mark .colon)
    (reads : ReadsTree limit condition headTokens headNesting (expression limit) 0 0)
    (readsBody : ReadsBody limit body tokens nesting) :
    ReadsStatement limit (.ifBlock span condition body)
      ([start] ++ headTokens ++ [colon] ++ tokens) (max headNesting nesting) := by
  have isIf := (Token.mark_of_sign signed).2.2
  refine reads_conditioned .ifBlock (by simp [isIf]) ?_ ?_ parts reads readsBody
  · intro fuel depth feed rest
    rw [statement, run_bind_ok (run_skip_newlines rfl (by simp [isIf])), run_bind_ok run_first]
    simp only [isIf]
  · intro place test inner like same
    simp only [Statement.unplaced, like, same]

theorem reads_define {name : String} {names : List String} {nameToken : Token}
    (signed : start.sign = .mark .fnWord) (called : nameToken.sign = .name name)
    (spelled : headTokens.map Token.sign = parameterSigns names) (distinct : names.Nodup)
    (parts : colon.sign = .mark .colon) (readsBody : ReadsBody limit body tokens nesting) :
    ReadsStatement limit (.define span name names body)
      ([start] ++ [nameToken] ++ headTokens ++ [colon] ++ tokens) nesting := by
  intro fuel depth feed rest enough within atLine
  simp only [List.length_append, List.length_cons, List.length_nil] at enough
  obtain ⟨less, rfl⟩ : ∃ less, fuel = less + 2 := ⟨fuel - 2, by omega⟩
  have isFunction := (Token.mark_of_sign signed).2.2
  have named := (Token.name_of_sign called).2
  have isName := Token.name_some named
  have isColon := (Token.mark_of_sign parts).2.2
  have run : (parameters less).run (((feed.past [start]).past [nameToken]).before
      (headTokens ++ colon :: (tokens ++ rest))) = .ok (names,
        (((feed.past [start]).past [nameToken]).past headTokens).before
          (colon :: (tokens ++ rest))) :=
    run_parameters spelled distinct (by omega)
  obtain ⟨inner, runBody, same⟩ := readsBody less depth
    ((((feed.past [start]).past [nameToken]).past headTokens).past [colon]) rest (by omega) within
    atLine
  refine ⟨.define (start.span.join ((((((feed.past [start]).past [nameToken]).past headTokens).past
    [colon]).past tokens).previous.getD start).span) name names inner, ?_, ?_⟩
  · simp only [Feed.past_append]
    simp only [List.append_assoc, List.cons_append, List.nil_append]
    rw [statement, run_bind_ok (run_skip_newlines rfl (by simp [isFunction])),
      run_bind_ok run_first]
    simp only [isFunction]
    rw [run_bind_ok (run_second (by simp [isFunction])), if_pos isName, definition,
      run_bind_ok (run_advance (by simp [isFunction])),
      run_bind_ok (run_consume isName (by decide))]
    simp only [named]
    rw [run_bind_ok run, run_bind_ok (run_consume isColon (by decide)), run_bind_ok runBody,
      run_bind_ok (run_span_from start)]
    rfl
  · simp only [Statement.unplaced, same]

end Headed

section Lines

variable {limit nesting moreNesting : Nat} {tree : Statement} {trees : List Statement}
  {tokens moreTokens : List Token}

theorem block_statements_reads_each (limit depth : Nat) :
    ReadsEach limit depth (fun kind => kind = .dedent || kind = .endOfInput)
      (blockStatements limit · depth) where
  step fuel := by rw [blockStatements]
  goesOn kind starts := by cases kind <;> first | rfl | cases starts
  skips := rfl

theorem program_statements_reads_each (limit : Nat) :
    ReadsEach limit 0 (· == .endOfInput) (programStatements limit) where
  step fuel := by
    rw [programStatements]
    simp only [beq_iff_eq]
  goesOn kind starts := by cases kind <;> first | rfl | cases starts
  skips := rfl

theorem reads_no_lines : ReadsLines limit [] [] 0 := by
  intro ends reader fuel depth feed rest next each enough _ isCurrent atEnd
  obtain ⟨less, rfl⟩ : ∃ less, fuel = less + 1 := ⟨fuel - 1, by omega⟩
  refine ⟨[], ?_, rfl⟩
  rw [each.step, List.nil_append, run_bind_ok (run_current isCurrent), if_pos atEnd]
  rfl

/-- Tokens with which a statement begins. -/
def StartsLine (tokens : List Token) : Prop :=
  ∃ token later, tokens = token :: later ∧ token.kind.startsLine = true

theorem spelled_starts_line {signs : List Sign} (spelled : tokens.map Token.sign = signs)
    (begins : BeginsLine signs) : StartsLine tokens := by
  obtain ⟨first, others, rfl, starts⟩ := begins
  obtain ⟨token, later, rfl, signed, _⟩ := List.map_eq_cons_iff.1 spelled
  rw [← signed, Token.sign_kind] at starts
  exact ⟨token, later, rfl, starts⟩

theorem StartsLine.at_line (starts : StartsLine tokens) (feed : Feed) (rest : List Token) :
    (feed.before (tokens ++ rest)).AtLine := by
  obtain ⟨token, later, rfl, starts⟩ := starts
  refine ⟨token, rfl, fun same => ?_⟩
  rw [same] at starts
  cases starts

theorem Laid.at_line {signs : List Sign} {feed : Feed} {rest : List Token}
    (laid : Laid (.lines trees) signs nesting) (spelled : tokens.map Token.sign = signs)
    (behind : (feed.before rest).AtLine) : (feed.before (tokens ++ rest)).AtLine := by
  rcases laid.lines_begin with rfl | begins
  · cases List.map_eq_nil_iff.1 spelled
    exact behind
  · exact (spelled_starts_line spelled begins).at_line feed rest

theorem reads_one_line (first : StartsLine tokens)
    (others : ∀ ⦃feed : Feed⦄ ⦃rest : List Token⦄, (feed.before rest).AtLine →
      (feed.before (moreTokens ++ rest)).AtLine)
    (reads : ReadsStatement limit tree tokens nesting)
    (readsMore : ReadsLines limit trees moreTokens moreNesting) :
    ReadsLines limit (tree :: trees) (tokens ++ moreTokens) (max nesting moreNesting) := by
  intro ends reader fuel depth feed rest next each enough within isCurrent atEnd
  have goesOn : ∃ token, (feed.before (tokens ++ (moreTokens ++ rest))).current = .ok token ∧
      ends token.kind = false := by
    obtain ⟨token, later, rfl, starts⟩ := first
    exact ⟨token, rfl, each.goesOn token.kind starts⟩
  -- What ends the lines is no newline either, so none is skipped behind a statement.
  have behind : (feed.before rest).AtLine := by
    refine ⟨next, isCurrent, fun same => ?_⟩
    rw [same, each.skips] at atEnd
    cases atEnd
  have atLine := others behind
  have nonempty : 0 < tokens.length := by
    obtain ⟨token, later, rfl, _⟩ := first
    simp
  simp only [List.length_append] at enough
  obtain ⟨less, rfl⟩ : ∃ less, fuel = less + 1 := ⟨fuel - 1, by omega⟩
  obtain ⟨found, run, same⟩ := reads less depth feed (moreTokens ++ rest) (by omega) (by omega)
    atLine
  obtain ⟨later, runMore, sameMore⟩ := readsMore ends reader less depth (feed.past tokens) rest
    next each (by omega) (by omega) isCurrent atEnd
  obtain ⟨token, current, more⟩ := goesOn
  obtain ⟨following, isFollowing, other⟩ := atLine
  have skipped : skipNewlines.run ((feed.past tokens).before (moreTokens ++ rest)) =
      .ok ((), (feed.past tokens).before (moreTokens ++ rest)) :=
    run_skip_newlines isFollowing other
  refine ⟨found :: later, ?_, ?_⟩
  · rw [List.append_assoc, Feed.past_append, each.step, run_bind_ok (run_current current),
      if_neg (by simp [more]), run_bind_ok run, run_bind_ok skipped, run_bind_ok runMore]
    rfl
  · simp only [Statement.unplacedAll, same, sameMore]

end Lines

section Blocks

theorem Statement.unplaced_all_eq_map (trees : List Statement) :
    Statement.unplacedAll trees = trees.map Statement.unplaced := by
  induction trees with
  | nil => rfl
  | cons tree trees induction => rw [Statement.unplacedAll, induction, List.map_cons]

theorem Block.of_statements_unplaced (span : Span) (trees : List Statement) :
    (Block.ofStatements span trees).unplaced =
      Block.ofStatements default (Statement.unplacedAll trees) := by
  rw [Statement.unplaced_all_eq_map, Block.ofStatements, Block.ofStatements, List.getLast?_map]
  cases trees.getLast? with
  | none => simp [Block.unplaced, Statement.unplaced_all_eq_map]
  | some last =>
      cases last with
      | evaluate place tree closed =>
          cases closed <;>
            simp [Block.unplaced, Statement.unplaced, Statement.unplaced_all_eq_map,
              List.map_dropLast]
      | _ => simp [Block.unplaced, Statement.unplaced, Statement.unplaced_all_eq_map]

theorem Block.of_lines (tree : Block) (regular : tree.isRegular = true) :
    (Block.ofStatements default tree.lines).unplaced = tree.unplaced := by
  cases tree with
  | valued span statements value =>
      simp [Block.ofStatements, Block.lines, Block.unplaced]
  | silent span statements =>
      rw [Block.ofStatements, Block.lines]
      cases last : statements.getLast? with
      | none => rfl
      | some tree =>
          simp only [Block.isRegular, last] at regular
          cases tree with
          | evaluate place tree closed =>
              cases closed with
              | true => rfl
              | false => cases regular
          | _ => rfl

/-- A body is put together from the statements that it is read from. -/
theorem Block.of_same_lines {tree : Block} {found : List Statement} (span : Span)
    (regular : tree.isRegular = true)
    (same : Statement.unplacedAll found = Statement.unplacedAll tree.lines) :
    (Block.ofStatements span found).unplaced = tree.unplaced := by
  rw [Block.of_statements_unplaced, same, ← Block.of_statements_unplaced default,
    Block.of_lines tree regular]

variable {limit nesting : Nat} {body : Block} {tokens : List Token}

theorem reads_indented {newline indent dedent : Token} (opens : newline.sign = .mark .newline)
    (moves : indent.sign = .mark .indent) (closes : dedent.sign = .mark .dedent)
    (regular : body.isRegular = true) (reads : ReadsLines limit body.lines tokens nesting) :
    ReadsIndented limit body ([newline] ++ [indent] ++ tokens ++ [dedent]) (nesting + 1) := by
  intro fuel depth feed rest enough within
  simp only [List.length_append, List.length_cons, List.length_nil] at enough
  obtain ⟨less, rfl⟩ : ∃ less, fuel = less + 1 := ⟨fuel - 1, by omega⟩
  have isNewline := (Token.mark_of_sign opens).2.2
  have isIndent := (Token.mark_of_sign moves).2.2
  have isDedent := (Token.mark_of_sign closes).2.2
  obtain ⟨found, run, same⟩ := reads _ _ less (depth + 1) ((feed.past [newline]).past [indent])
    (dedent :: rest) dedent (block_statements_reads_each limit (depth + 1)) (by omega) (by omega)
    rfl (by simp [isDedent])
  refine ⟨.ofStatements (newline.span.join dedent.span) found, ?_,
    Block.of_same_lines _ regular same⟩
  simp only [Feed.past_append]
  simp only [List.append_assoc, List.cons_append, List.nil_append]
  rw [block, run_bind_ok run_first, run_bind_ok (run_enter (by omega)),
    run_bind_ok (run_accept isNewline (by decide)), if_pos (by simp)]
  simp only [pure_bind]
  rw [run_bind_ok (run_skip_newlines rfl (by simp [isIndent])),
    run_bind_ok (run_consume isIndent (by decide)), run_bind_ok run,
    run_bind_ok (run_consume isDedent (by decide)), run_bind_ok (run_span_from newline)]
  rfl

theorem reads_same_line {tree : Statement} (first : StartsLine tokens)
    (regular : body.isRegular = true) (single : body.lines = [tree])
    (reads : ReadsStatement limit tree tokens nesting) :
    ReadsBody limit body tokens (nesting + 1) := by
  intro fuel depth feed rest enough within atLine
  obtain ⟨less, rfl⟩ : ∃ less, fuel = less + 1 := ⟨fuel - 1, by omega⟩
  obtain ⟨start, isCurrent, other⟩ := first.at_line feed rest
  obtain ⟨found, run, same⟩ := reads less (depth + 1) feed rest (by omega) (by omega) atLine
  refine ⟨.ofStatements (start.span.join ((feed.past tokens).previous.getD start).span) [found],
    ?_, Block.of_same_lines _ regular ?_⟩
  · rw [block, run_bind_ok (run_current isCurrent), run_bind_ok (run_enter (by omega)),
      run_bind_ok (run_accept_none isCurrent other), if_neg (by simp)]
    simp only [pure_bind]
    rw [run_bind_ok run, run_bind_ok (run_span_from start)]
    rfl
  · simp only [single, Statement.unplacedAll, same]

end Blocks

/-- What tokens of a layout are read as. -/
def Shape.Reads (limit : Nat) (tokens : List Token) (nesting : Nat) : Shape → Prop
  | .tail tree => ReadsTail limit tree tokens nesting
  | .statement tree => ReadsStatement limit tree tokens nesting
  | .lines trees => ReadsLines limit trees tokens nesting
  | .indented tree => ReadsIndented limit tree tokens nesting
  | .body tree => ReadsBody limit tree tokens nesting

/-- All tokens with the signs of a layout are read as what is laid out. -/
def Shape.ReadsAs (limit : Nat) (signs : List Sign) (nesting : Nat) (shape : Shape) : Prop :=
  ∀ ⦃tokens : List Token⦄, tokens.map Token.sign = signs → shape.Reads limit tokens nesting

section Shapes

variable {limit nesting moreNesting : Nat} {span : Span} {signs moreSigns : List Sign}

theorem reads_as_line {tree : Expression} (written : Written (.whole tree) signs nesting) :
    (Shape.tail tree).ReadsAs limit (signs ++ [.mark .newline]) nesting := by
  intro tokens spelled
  obtain ⟨front, back, rfl, frontSpelled, backSpelled⟩ := List.map_eq_append_iff.1 spelled
  obtain ⟨newline, rfl, signed⟩ := List.map_eq_singleton_iff.1 backSpelled
  exact reads_line signed (written.reads_as limit frontSpelled)

theorem reads_as_tail_function {names : List String} {body : Block} (distinct : names.Nodup)
    (inner : Laid (.indented body) signs nesting)
    (reads : (Shape.indented body).ReadsAs limit signs nesting) :
    (Shape.tail (.function span names body)).ReadsAs limit
      (.mark .fnWord :: parameterSigns names ++ .mark .colon :: signs) (nesting + 1) := by
  intro tokens spelled
  obtain ⟨front, back, rfl, frontSpelled, backSpelled⟩ := List.map_eq_append_iff.1 spelled
  obtain ⟨start, list, rfl, signed, listSpelled⟩ := List.map_eq_cons_iff.1 frontSpelled
  obtain ⟨colon, below, rfl, parts, belowSpelled⟩ := List.map_eq_cons_iff.1 backSpelled
  have readsBelow := reads belowSpelled
  obtain ⟨lines, rfl⟩ := inner.indented_signs
  obtain ⟨upper, last, rfl, upperSpelled, lastSpelled⟩ := List.map_eq_append_iff.1 belowSpelled
  obtain ⟨newline, later, rfl, opens, _⟩ := List.map_eq_cons_iff.1 upperSpelled
  obtain ⟨dedent, rfl, closes⟩ := List.map_eq_singleton_iff.1 lastSpelled
  rw [List.append_cons]
  exact reads_tail_function signed listSpelled distinct parts rfl (Token.mark_of_sign opens).2.2
    List.getLast?_concat (Token.mark_of_sign closes).2.2 readsBelow

theorem reads_as_declare {pattern : Pattern} {value : Expression}
    (target : Written (.whole pattern.asExpression) signs nesting)
    (reads : (Shape.tail value).ReadsAs limit moreSigns moreNesting) :
    (Shape.statement (.declare span pattern value)).ReadsAs limit
      (.mark .letWord :: signs ++ .mark .assign :: moreSigns) (max nesting moreNesting) := by
  intro tokens spelled
  obtain ⟨front, back, rfl, frontSpelled, backSpelled⟩ := List.map_eq_append_iff.1 spelled
  obtain ⟨start, bound, rfl, signed, boundSpelled⟩ := List.map_eq_cons_iff.1 frontSpelled
  obtain ⟨sign, tail, rfl, assigns, tailSpelled⟩ := List.map_eq_cons_iff.1 backSpelled
  rw [List.append_cons]
  exact reads_declare signed assigns (target.reads_as_target limit pattern rfl boundSpelled)
    (reads tailSpelled)

theorem reads_as_assign {pattern : Pattern} {value : Expression}
    (target : Written (.whole pattern.asExpression) signs nesting)
    (reads : (Shape.tail value).ReadsAs limit moreSigns moreNesting) :
    (Shape.statement (.assign span pattern value)).ReadsAs limit
      (signs ++ .mark .assign :: moreSigns) (max nesting moreNesting) := by
  intro tokens spelled
  obtain ⟨front, back, rfl, frontSpelled, backSpelled⟩ := List.map_eq_append_iff.1 spelled
  obtain ⟨sign, tail, rfl, assigns, tailSpelled⟩ := List.map_eq_cons_iff.1 backSpelled
  rw [List.append_cons]
  exact reads_assign frontSpelled target assigns (target.reads_as limit frontSpelled)
    (reads tailSpelled)

theorem reads_as_closed_expression {tree : Expression}
    (written : Written (.whole tree) signs nesting) :
    (Shape.statement (.evaluate span tree true)).ReadsAs limit
      (signs ++ [.mark .semicolon, .mark .newline]) nesting := by
  intro tokens spelled
  obtain ⟨front, back, rfl, frontSpelled, backSpelled⟩ := List.map_eq_append_iff.1 spelled
  obtain ⟨semicolon, last, rfl, closes, lastSpelled⟩ := List.map_eq_cons_iff.1 backSpelled
  obtain ⟨newline, rfl, ends⟩ := List.map_eq_singleton_iff.1 lastSpelled
  rw [List.append_cons]
  exact reads_closed_expression frontSpelled written closes ends
    (written.reads_as limit frontSpelled)

theorem reads_as_conditioned {condition : Expression} {body : Block} {tree : Statement}
    {word : TokenClass}
    (conditioned : ∀ {start colon : Token} {headTokens tokens : List Token},
      start.sign = .mark word → colon.sign = .mark .colon →
      ReadsTree limit condition headTokens nesting (expression limit) 0 0 →
      ReadsBody limit body tokens moreNesting →
      ReadsStatement limit tree ([start] ++ headTokens ++ [colon] ++ tokens)
        (max nesting moreNesting))
    (head : Written (.whole condition) signs nesting)
    (reads : (Shape.body body).ReadsAs limit moreSigns moreNesting) :
    (Shape.statement tree).ReadsAs limit (.mark word :: signs ++ .mark .colon :: moreSigns)
      (max nesting moreNesting) := by
  intro tokens spelled
  obtain ⟨front, back, rfl, frontSpelled, backSpelled⟩ := List.map_eq_append_iff.1 spelled
  obtain ⟨start, test, rfl, signed, testSpelled⟩ := List.map_eq_cons_iff.1 frontSpelled
  obtain ⟨colon, inner, rfl, parts, innerSpelled⟩ := List.map_eq_cons_iff.1 backSpelled
  rw [List.append_cons]
  exact conditioned signed parts (head.reads_as limit testSpelled) (reads innerSpelled)

theorem reads_as_define {name : String} {names : List String} {body : Block}
    (distinct : names.Nodup) (reads : (Shape.body body).ReadsAs limit signs nesting) :
    (Shape.statement (.define span name names body)).ReadsAs limit
      (.mark .fnWord :: .name name :: parameterSigns names ++ .mark .colon :: signs)
      nesting := by
  intro tokens spelled
  obtain ⟨front, back, rfl, frontSpelled, backSpelled⟩ := List.map_eq_append_iff.1 spelled
  obtain ⟨start, header, rfl, signed, headerSpelled⟩ := List.map_eq_cons_iff.1 frontSpelled
  obtain ⟨nameToken, list, rfl, called, listSpelled⟩ := List.map_eq_cons_iff.1 headerSpelled
  obtain ⟨colon, inner, rfl, parts, innerSpelled⟩ := List.map_eq_cons_iff.1 backSpelled
  rw [List.append_cons]
  exact reads_define signed called listSpelled distinct parts (reads innerSpelled)

theorem reads_as_lines {tree : Statement} {trees : List Statement}
    (inner : Laid (.statement tree) signs nesting)
    (others : Laid (.lines trees) moreSigns moreNesting)
    (reads : (Shape.statement tree).ReadsAs limit signs nesting)
    (readsMore : (Shape.lines trees).ReadsAs limit moreSigns moreNesting) :
    (Shape.lines (tree :: trees)).ReadsAs limit (signs ++ moreSigns) (max nesting moreNesting) := by
  intro tokens spelled
  obtain ⟨front, more, rfl, frontSpelled, moreSpelled⟩ := List.map_eq_append_iff.1 spelled
  exact reads_one_line (spelled_starts_line frontSpelled inner.statement_begins)
    (fun _ _ => others.at_line moreSpelled) (reads frontSpelled) (readsMore moreSpelled)

theorem reads_as_indented {body : Block} (regular : body.isRegular = true)
    (reads : (Shape.lines body.lines).ReadsAs limit signs nesting) :
    (Shape.indented body).ReadsAs limit
      (.mark .newline :: .mark .indent :: signs ++ [.mark .dedent]) (nesting + 1) := by
  intro tokens spelled
  obtain ⟨front, back, rfl, frontSpelled, backSpelled⟩ := List.map_eq_append_iff.1 spelled
  obtain ⟨newline, rest, rfl, opens, restSpelled⟩ := List.map_eq_cons_iff.1 frontSpelled
  obtain ⟨indent, lines, rfl, moves, linesSpelled⟩ := List.map_eq_cons_iff.1 restSpelled
  obtain ⟨dedent, rfl, closes⟩ := List.map_eq_singleton_iff.1 backSpelled
  exact reads_indented opens moves closes regular (reads linesSpelled)

end Shapes

/-- What the grammar of layouts allows is read. -/
theorem Laid.reads_as {shape : Shape} {signs : List Sign} {nesting : Nat}
    (laid : Laid shape signs nesting) (limit : Nat) : shape.ReadsAs limit signs nesting := by
  induction laid with
  | line written => exact reads_as_line written
  | function distinct inner reads => exact reads_as_tail_function distinct inner reads
  | declare target inner reads => exact reads_as_declare target reads
  | assign target inner reads => exact reads_as_assign target reads
  | openExpression inner reads =>
      exact fun tokens spelled => reads_open_expression spelled inner.tail_begins (reads spelled)
  | closedExpression written => exact reads_as_closed_expression written
  | whileLoop head inner reads => exact reads_as_conditioned reads_while_loop head reads
  | ifBlock head inner reads => exact reads_as_conditioned reads_if_block head reads
  | define distinct inner reads => exact reads_as_define distinct reads
  | noLines =>
      intro tokens spelled
      cases List.map_eq_nil_iff.1 spelled
      exact reads_no_lines
  | oneLine inner others reads readsMore => exact reads_as_lines inner others reads readsMore
  | indented regular inner reads => exact reads_as_indented regular reads
  | ownLines inner reads =>
      exact fun tokens spelled fuel depth feed rest enough within _ =>
        reads spelled fuel depth feed rest enough within
  | sameLine regular single inner reads =>
      exact fun tokens spelled => reads_same_line
        (spelled_starts_line spelled inner.statement_begins) regular single (reads spelled)

/-- All tokens with some signs are read as a program of these statements, spans aside. A limit on
nesting refuses nothing that is within it; what is beyond it is read as that program or refused. -/
def Program.ReadBack (statements : List Statement) (signs : List Sign) (nesting : Nat) : Prop :=
  ∀ (tokens rest : List Token) (file : Option String) (limits : Limits),
    tokens.map Token.sign = signs → (∀ token ∈ rest.head?, token.kind = .endOfInput) →
    (∃ program, Program.ofTokens (tokens ++ rest) file limits = .ok program ∧
      Statement.unplacedAll program.statements = Statement.unplacedAll statements) ∨
    limits.nesting < nesting ∧ ∃ error, error.cause.isLimit = true ∧
      Program.ofTokens (tokens ++ rest) file limits = .error (.error error)

/-- A source text without lexical errors is read as its tokens are. -/
theorem Program.of_source_of_tokens {source : String} {file : Option String} {limits : Limits}
    {program : Program} (clean : (tokenize source file).failure = none)
    (read : Program.ofTokens (tokenize source file).tokens file limits = .ok program) :
    Program.ofSource source file limits = .ok program := by
  rw [Program.ofTokens] at read
  unfold Program.ofSource
  generalize tokenize source file = reading at clean read ⊢
  dsimp only
  rw [clean, read]

theorem Laid.read_within {statements : List Statement} {signs : List Sign} {nesting : Nat}
    (laid : Laid (.lines statements) signs nesting) {tokens rest : List Token}
    (spelled : tokens.map Token.sign = signs)
    (ends : ∀ token ∈ rest.head?, token.kind = .endOfInput) (file : Option String)
    (limits : Limits) (within : nesting ≤ limits.nesting) :
    ∃ program, Program.ofTokens (tokens ++ rest) file limits = .ok program ∧
      Statement.unplacedAll program.statements = Statement.unplacedAll statements := by
  let feed : Feed := ⟨none, [], .ok (Feed.endBehind (tokens ++ rest) file)⟩
  have start : Feed.ofTokens (tokens ++ rest) none file = feed.before (tokens ++ rest) := by
    simp [feed, Feed.ofTokens, Feed.before]
  have last : ∃ token, (feed.before rest).current = .ok token ∧ token.kind = .endOfInput := by
    cases rest with
    | nil => exact ⟨_, rfl, rfl⟩
    | cons token rest => exact ⟨token, rfl, ends token rfl⟩
  obtain ⟨final, isFinal, isEnd⟩ := last
  have atLine := laid.at_line spelled ⟨final, isFinal, by simp [isEnd]⟩
  obtain ⟨first, isFirst, other⟩ := atLine
  have enough : 24 * tokens.length + 3 ≤ fuelFor (feed.before (tokens ++ rest)).rest.length := by
    simp only [fuelFor, Feed.before, List.length_append]
    omega
  obtain ⟨found, run, same⟩ := laid.reads_as limits.nesting spelled _ _ _ 0 feed rest final
    (program_statements_reads_each limits.nesting) enough (by omega) isFinal (by simp [isEnd])
  refine ⟨⟨first.span.join (((feed.past tokens).before rest).previous.getD first).span, found⟩, ?_,
    same⟩
  rw [Program.ofTokens, start, Program.ofFeed, program, run_bind_ok (run_current isFirst),
    run_bind_ok (run_skip_newlines isFirst other), run_bind_ok run,
    run_bind_ok (run_span_from first)]
  rfl

theorem Laid.read_back {statements : List Statement} {signs : List Sign} {nesting : Nat}
    (laid : Laid (.lines statements) signs nesting) :
    Program.ReadBack statements signs nesting := by
  intro tokens rest file limits spelled ends
  by_cases within : nesting ≤ limits.nesting
  · exact .inl (laid.read_within spelled ends file limits within)
  · -- A wider limit reads the program; this one reads the same or refuses it.
    have wider := limits.within_deeper (show limits.nesting ≤ nesting by omega)
    have roomy := laid.read_within spelled ends file { limits with nesting := nesting }
      (Nat.le_refl nesting)
    rcases Program.of_feed_gated wider (.ofTokens (tokens ++ rest) none file) with refused | same
    · exact .inr ⟨by omega, refused⟩
    · rw [Program.ofTokens, same] at roomy
      exact .inl roomy

/-- Programs survive a round trip. Their plain layout, which indents all bodies, follows the
grammar; and from every layout that follows the grammar, with single statements on the lines of
their headers or below them, the same program is read back. -/
theorem Program.layout_round_trip (statements : List Statement)
    (laidOut : Statement.areLaidOut statements = true) :
    Laid (.lines statements) (Statement.signsAll statements) (Statement.nestingAll statements) ∧
      ∀ {signs : List Sign} {nesting : Nat}, Laid (.lines statements) signs nesting →
        Program.ReadBack statements signs nesting :=
  ⟨Statement.all_laid statements laidOut, fun laid => laid.read_back⟩

/-- The statements `let f = fn(x): …`, with an indented body, then `(f, 1)` and `-f`. -/
def functionAboveTuple : List Statement :=
  [.declare default (.identifier default "f")
      (.function default ["x"] (.valued default [.evaluate default (.identifier default "x") true]
        (.identifier default "x"))),
   .evaluate default (.tuple default [.identifier default "f", .literal default (.int 1)]) false,
   .evaluate default (.unary default .minus (.identifier default "f")) false]

/-- The body of the loop `while a: b = 1`. -/
def shortBody : Block :=
  .silent default [.assign default (.identifier default "b") (.literal default (.int 1))]

def shortLoop : Statement := .whileLoop default (.identifier default "a") shortBody

/-- The layout of the loop in a single line. -/
def shortLoopLine : List Sign :=
  [.mark .whileWord, .name "a", .mark .colon, .name "b", .mark .assign, .literal (.int 1),
   .mark .newline]

theorem function_above_tuple_round_trip :
    let statements := functionAboveTuple ++ [shortLoop]
    let below := (Statement.signsAll statements).map Sign.token
    let beside := (Statement.signsAll functionAboveTuple ++ shortLoopLine).map Sign.token
    (∃ program, Program.ofTokens below none {} = .ok program ∧
      Statement.unplacedAll program.statements = Statement.unplacedAll statements) ∧
    ∃ program, Program.ofTokens beside none {} = .ok program ∧
      Statement.unplacedAll program.statements = Statement.unplacedAll statements := by
  intro statements below beside
  have laidOut : Statement.areLaidOut statements = true := by decide
  obtain ⟨plain, readBack⟩ := Program.layout_round_trip statements laidOut
  have condition : Written (.whole (.identifier default "a")) [.name "a"] 1 :=
    Written.identifier.to_whole
  have target : Written (.whole (Pattern.identifier default "b").asExpression) [.name "b"] 1 :=
    Written.identifier.to_whole
  have assigned : Laid (.statement (.assign default (.identifier default "b")
      (.literal default (.int 1))))
      [.name "b", .mark .assign, .literal (.int 1), .mark .newline] 1 :=
    .assign target (.line Written.literal.to_whole)
  have body : Laid (.body shortBody)
      [.name "b", .mark .assign, .literal (.int 1), .mark .newline] 2 :=
    .sameLine rfl rfl assigned
  have line : Laid (.statement shortLoop) shortLoopLine 2 := .whileLoop condition body
  have short := (Statement.all_laid functionAboveTuple (by decide)).append line
  constructor
  · rcases readBack plain below [] none {} (by decide) (by simp) with read | beyond
    · rw [List.append_nil] at read
      exact read
    · exact absurd beyond.1 (by decide)
  · rcases readBack short beside [] none {} (by decide) (by simp) with read | beyond
    · rw [List.append_nil] at read
      exact read
    · exact absurd beyond.1 (by decide)

end LayoutScript
