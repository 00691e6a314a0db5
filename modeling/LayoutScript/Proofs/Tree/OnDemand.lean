import LayoutScript.Proofs.Tree.Concatenation
import LayoutScript.Proofs.Tree.Lookahead

/-!
Reading with a lexer that is asked for one token at a time. The lexer may fail behind the
tokens that settle what is read, so it matters when it is asked. Main statement: reading on
demand gives what reading all tokens at once gives, and if the tokens end in a lexical error,
either that error comes to light or the grammar fails on the tokens before it.
-/

namespace LayoutScript

/-- A program is read on demand. The lexer is asked for its next token only if reading runs
into the end of the tokens that it gave so far. -/
inductive OnDemand (limits : Limits) : Lexer → List Token → Except Halt Program → Prop where
  | settled {lexer : Lexer} {pulled : List Token} {result : Except Halt Program}
      (decided : ∀ ending, Program.ofFeed ⟨none, pulled, ending⟩ limits = result) :
      OnDemand limits lexer pulled result
  | pulls {lexer after : Lexer} {pulled : List Token} {token : Token}
      {result : Except Halt Program}
      (asks : ∀ error, Program.ofFeed ⟨none, pulled, .error error⟩ limits = .error (.error error))
      (gives : lexer.next = (.ok token, after))
      (rest : OnDemand limits after (pulled ++ [token]) result) :
      OnDemand limits lexer pulled result
  | breaks {lexer after : Lexer} {pulled : List Token} {error : ScriptError}
      (asks : ∀ error, Program.ofFeed ⟨none, pulled, .error error⟩ limits = .error (.error error))
      (fails : lexer.next = (.error error, after)) :
      OnDemand limits lexer pulled (.error (.error error))

/-- Two readings give the same tree, or fail for the same cause at the same place. -/
inductive SameReading : Except Halt Program → Except Halt Program → Prop where
  | tree (program : Program) : SameReading (.ok program) (.ok program)
  | failure {first second : ScriptError} (sameCause : first.cause = second.cause)
      (sameSpan : first.span = second.span) :
      SameReading (.error (.error first)) (.error (.error second))

/-- Tokens do not both settle what is read and leave it to what stands behind them. -/
theorem not_settled_of_asks {limits : Limits} {pulled : List Token} {result : Except Halt Program}
    (decided : ∀ ending, Program.ofFeed ⟨none, pulled, ending⟩ limits = result)
    (asks : ∀ error, Program.ofFeed ⟨none, pulled, .error error⟩ limits = .error (.error error)) :
    False := by
  have same : ∀ error, result = .error (.error error) := fun error => by
    rw [← decided (.error error), asks error]
  have first := same ⟨.invalidTarget, none, none⟩
  rw [same ⟨.unterminatedString, none, none⟩] at first
  cases first

/-- Tokens settle what is read, unless reading runs into their end. -/
theorem Program.settled_unless_asks (tokens : List Token) (limits : Limits) :
    ((∀ token ∈ tokens, token.kind ≠ .endOfInput) ∧ ∀ error,
      Program.ofFeed ⟨none, tokens, .error error⟩ limits = .error (.error error)) ∨
    ∃ result, ∀ more ending, Program.ofFeed ⟨none, tokens ++ more, ending⟩ limits = result := by
  cases Program.outlook tokens limits with
  | undecided unfinished asks => exact .inl ⟨unfinished, asks⟩
  | failed _ _ settled => exact .inr ⟨_, settled⟩
  | read _ _ settled => exact .inr ⟨_, settled⟩

theorem Program.of_tokens_settled {tokens : List Token} {limits : Limits}
    {result : Except Halt Program} {failure : Option ScriptError} {file : Option String}
    (settled : ∀ more ending, Program.ofFeed ⟨none, tokens ++ more, ending⟩ limits = result) :
    Program.ofFeed (.ofTokens tokens failure file) limits = result := by
  rw [← settled [], List.append_nil]
  rfl

namespace OnDemand

variable {limits : Limits} {lexer after : Lexer} {pulled tokens : List Token}
  {result other : Except Halt Program}

theorem unique (first : OnDemand limits lexer pulled result)
    (second : OnDemand limits lexer pulled other) : result = other := by
  induction first with
  | settled decided =>
      cases second with
      | settled decided' => rw [← decided (.error ⟨.invalidTarget, none, none⟩), decided']
      | pulls asks | breaks asks => exact (not_settled_of_asks decided asks).elim
  | pulls asks gives _ induction =>
      cases second with
      | settled decided => exact (not_settled_of_asks decided asks).elim
      | pulls _ gives' rest =>
          rw [gives] at gives'
          cases gives'
          exact induction rest
      | breaks _ fails =>
          rw [gives] at fails
          cases fails
  | breaks asks fails =>
      cases second with
      | settled decided => exact (not_settled_of_asks decided asks).elim
      | pulls _ gives =>
          rw [fails] at gives
          cases gives
      | breaks _ fails' =>
          rw [fails] at fails'
          cases fails'
          rfl

theorem of_settled
    (settled : ∀ more ending, Program.ofFeed ⟨none, pulled ++ more, ending⟩ limits = result) :
    OnDemand limits lexer pulled result :=
  .settled fun ending => by simpa using settled [] ending

/-- A token is pulled, or the result was settled before it. -/
theorem pull {token : Token} (more : List Token) {ending : Except ScriptError Token}
    (gives : lexer.next = (.ok token, after))
    (rest : OnDemand limits after (pulled ++ [token])
      (Program.ofFeed ⟨none, pulled ++ token :: more, ending⟩ limits)) :
    OnDemand limits lexer pulled
      (Program.ofFeed ⟨none, pulled ++ token :: more, ending⟩ limits) := by
  rcases Program.settled_unless_asks pulled limits with ⟨_, asks⟩ | ⟨result, settled⟩
  · exact .pulls asks gives rest
  · rw [settled]
    exact of_settled settled

theorem of_delivers (delivers : Lexer.Delivers lexer tokens after) (more : List Token)
    {ending : Except ScriptError Token} (pulled : List Token)
    (rest : OnDemand limits after (pulled ++ tokens)
      (Program.ofFeed ⟨none, pulled ++ (tokens ++ more), ending⟩ limits)) :
    OnDemand limits lexer pulled
      (Program.ofFeed ⟨none, pulled ++ (tokens ++ more), ending⟩ limits) := by
  induction delivers generalizing pulled with
  | none => rwa [List.append_nil] at rest
  | @more _ _ _ token tokens gives _ _ induction =>
      have later := induction (pulled ++ [token]) (by simpa using rest)
      rw [List.append_assoc] at later
      exact pull (tokens ++ more) gives later

/-- Where the lexer fails, its error comes to light unless the tokens before it settle the
result. -/
theorem of_failure {final : Lexer} {error : ScriptError}
    (delivers : Lexer.Delivers lexer tokens after) (fails : after.next = (.error error, final)) :
    OnDemand limits lexer [] (Program.ofFeed ⟨none, tokens, .error error⟩ limits) := by
  have last : OnDemand limits after tokens
      (Program.ofFeed ⟨none, tokens ++ [], .error error⟩ limits) := by
    rcases Program.settled_unless_asks tokens limits with ⟨_, asks⟩ | ⟨result, settled⟩
    · rw [List.append_nil, asks]
      exact .breaks asks fails
    · rw [settled]
      exact of_settled settled
  have whole := of_delivers delivers [] [] last
  rwa [List.nil_append, List.append_nil] at whole

/-- The end of input settles the result. -/
theorem of_end {final : Lexer} {token : Token} (delivers : Lexer.Delivers lexer tokens after)
    (ends : after.next = (.ok token, final)) (isEnd : token.kind = .endOfInput)
    (ending : Except ScriptError Token) :
    OnDemand limits lexer [] (Program.ofFeed ⟨none, tokens ++ [token], ending⟩ limits) := by
  have last : OnDemand limits final (tokens ++ [token])
      (Program.ofFeed ⟨none, tokens ++ [token], ending⟩ limits) := by
    rcases Program.settled_unless_asks (tokens ++ [token]) limits with
      ⟨unfinished, _⟩ | ⟨result, settled⟩
    · exact absurd isEnd (unfinished token (by simp))
    · have here := settled [] ending
      rw [List.append_nil] at here
      rw [here]
      exact of_settled settled
  exact of_delivers delivers [token] [] (pull [] ends last)

end OnDemand

section Source

variable {source : String} {file : Option String} {limits : Limits}

/-- Reading on demand gives what reading the tokens of the whole source gives. -/
theorem on_demand_tokenize (source : String) (file : Option String) (limits : Limits) :
    OnDemand limits (.ofText source file) [] (Program.ofFeed
      (.ofTokens (tokenize source file).tokens (tokenize source file).failure file) limits) := by
  cases failure : (tokenize source file).failure with
  | none =>
      rcases tokenize_delivers failure with
        ⟨tokens, after, ending, final, delivers, ends, isEnd, read⟩
      rw [read]
      exact .of_end delivers ends isEnd _
  | some error =>
      rcases tokenize_fails failure with ⟨after, final, delivers, fails⟩
      exact .of_failure delivers fails

/-- A lexical error quotes its line already. -/
theorem ScriptError.Origin.attach_source {text : List Char} {error : ScriptError}
    (origin : error.Origin text file) : error.attachSource (Text.lines text) = error := by
  rcases error with ⟨cause, place, quoted⟩
  rcases origin.place with ⟨span, rfl, _, inText, rfl⟩
  unfold ScriptError.attachSource ScriptError.diagnostic Diagnostic.attachSource
  cases found : (Text.lines text)[span.start.line - 1]? with
  | some line => rfl
  | none => simp only [if_neg inText.line_pos, found]

/-- Errors quote a line of the source. -/
theorem Program.of_source_error {error : ScriptError}
    (stops : Program.ofFeed (.ofTokens (tokenize source file).tokens (tokenize source file).failure
      file) limits = .error (.error error)) :
    Program.ofSource source file limits =
      .error (.error (error.attachSource (sourceLines source))) := by
  unfold Program.ofSource sourceLines
  dsimp only
  rw [stops, Lexer.lines, (tokenize_origin source file).1]

/-- What reading a source comes to: its lexical error, an error that its tokens settle, or the
program that they settle. -/
inductive Program.Outcome (source : String) (file : Option String) (limits : Limits) : Prop where
  | lexical (error : ScriptError) (failed : (tokenize source file).failure = some error)
      (stops : Program.ofFeed (.ofTokens (tokenize source file).tokens
        (tokenize source file).failure file) limits = .error (.error error))
      (gives : Program.ofSource source file limits = .error (.error error))
  | grammatical {cause : Cause} {span : Span} (isParse : cause.kind = .parse)
      (starts : span.StartsAmong (tokenize source file).tokens)
      (settled : ∀ more ending, Program.ofFeed ⟨none, (tokenize source file).tokens ++ more, ending⟩
        limits = .error (.error (.located cause span)))
      (gives : Program.ofSource source file limits =
        .error (.error ((ScriptError.located cause span).attachSource (sourceLines source))))
  | read (program : Program) (clean : (tokenize source file).failure = none)
      (settled : ∀ more ending, Program.ofFeed ⟨none, (tokenize source file).tokens ++ more, ending⟩
        limits = .ok program)
      (gives : Program.ofSource source file limits = .ok program)

theorem Program.outcome (source : String) (file : Option String) (limits : Limits) :
    Program.Outcome source file limits := by
  cases Program.outlook (tokenize source file).tokens limits with
  | undecided unfinished asks =>
      cases failure : (tokenize source file).failure with
      | some error =>
          have stops : Program.ofFeed (.ofTokens (tokenize source file).tokens
              (tokenize source file).failure file) limits = .error (.error error) := by
            rw [failure]
            exact asks error
          have origin := (tokenize_origin source file).2.2 error failure
          refine .lexical error failure stops ?_
          rw [Program.of_source_error stops, sourceLines, origin.attach_source]
      | none =>
          -- Without a lexical error the tokens have an end of input, and reading cannot pass it.
          rcases tokenize_delivers failure with ⟨tokens, _, ending, _, _, _, isEnd, read⟩
          rw [read] at unfinished
          exact absurd isEnd (unfinished ending (by simp))
  | failed isParse starts settled =>
      exact .grammatical isParse starts settled
        (Program.of_source_error (Program.of_tokens_settled settled))
  | read program finished settled =>
      cases failure : (tokenize source file).failure with
      | none =>
          exact .read program failure settled
            (Program.of_source_of_tokens failure (Program.of_tokens_settled settled))
      | some error =>
          rcases finished with ⟨token, member, isEnd⟩
          exact absurd isEnd (tokenize_failed failure token member)

end Source

/-- Reading on demand has one result, which is that of reading a source. If the source has no
lexical error, reading its list of tokens gives the same tree or the same error. Otherwise
reading fails: with the lexical error, or with an error of the grammar that every list of
tokens with the same beginning gives. -/
theorem Program.reading_on_demand_agrees (source : String) (file : Option String)
    (limits : Limits) :
    (∃ result, OnDemand limits (.ofText source file) [] result) ∧
    (∀ result, OnDemand limits (.ofText source file) [] result →
      SameReading (Program.ofSource source file limits) result) ∧
    ((tokenize source file).failure = none → ∀ name,
      SameReading (Program.ofSource source file limits)
        (Program.ofTokens (tokenize source file).tokens name limits)) ∧
    ∀ error, (tokenize source file).failure = some error →
      Program.ofSource source file limits = .error (.error error) ∨
      ∃ found, found.cause.kind = .parse ∧
        SameReading (Program.ofSource source file limits) (.error (.error found)) ∧
        ∀ more name, Program.ofTokens ((tokenize source file).tokens ++ more) name limits =
          .error (.error found) := by
  have whole := on_demand_tokenize source file limits
  refine ⟨⟨_, whole⟩, fun result given => ?_, fun clean name => ?_, fun error failed => ?_⟩
  · rw [← whole.unique given]
    cases Program.outcome source file limits with
    | lexical error _ stops gives =>
        rw [stops, gives]
        exact .failure rfl rfl
    | grammatical _ _ settled gives =>
        rw [Program.of_tokens_settled settled, gives]
        exact .failure rfl rfl
    | read program _ settled gives =>
        rw [Program.of_tokens_settled settled, gives]
        exact .tree program
  · cases Program.outcome source file limits with
    | lexical error failed =>
        rw [clean] at failed
        cases failed
    | grammatical _ _ settled gives =>
        rw [Program.ofTokens, Program.of_tokens_settled settled, gives]
        exact .failure rfl rfl
    | read program _ settled gives =>
        rw [Program.ofTokens, Program.of_tokens_settled settled, gives]
        exact .tree program
  · cases Program.outcome source file limits with
    | lexical _ same _ gives =>
        rw [failed] at same
        cases same
        exact .inl gives
    | @grammatical cause span isParse _ settled gives =>
        refine .inr ⟨.located cause span, isParse, ?_, fun more name => settled more _⟩
        rw [gives]
        exact .failure rfl rfl
    | read _ clean =>
        rw [failed] at clean
        cases clean

/-- A stray parenthesis is refused before the stray character behind it is looked at; without
that character the list of its tokens is refused likewise. -/
theorem stray_parenthesis_on_demand :
    (tokenize ")" none).failure = none ∧
    SameReading (Program.ofSource ")" none {})
      (Program.ofTokens (tokenize ")" none).tokens none {}) ∧
    (tokenize ") $" none).failure.map (·.cause) = some (.unexpectedCharacter '$') ∧
    ∃ found, found.cause.kind = .parse ∧
      SameReading (Program.ofSource ") $" none {}) (.error (.error found)) ∧
      ∀ more name, Program.ofTokens ((tokenize ") $" none).tokens ++ more) name {} =
        .error (.error found) := by
  have clean : (tokenize ")" none).failure = none := by decide +kernel
  have caught : (tokenize ") $" none).failure.map (·.cause) = some (.unexpectedCharacter '$') := by
    decide +kernel
  have refused : (match Program.ofSource ") $" none {} with
      | .error (.error error) => error.cause.kind
      | _ => .lex) = .parse := by decide +kernel
  refine ⟨clean, (Program.reading_on_demand_agrees ")" none {}).2.2.1 clean none, caught, ?_⟩
  rcases Option.map_eq_some_iff.1 caught with ⟨error, failed, isSign⟩
  rcases (Program.reading_on_demand_agrees ") $" none {}).2.2.2 error failed with
    lexical | grammatical
  · rw [lexical] at refused
    dsimp only at refused
    rw [isSign] at refused
    cases refused
  · exact grammatical

end LayoutScript
