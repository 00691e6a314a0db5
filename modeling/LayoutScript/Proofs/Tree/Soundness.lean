import LayoutScript.Proofs.Tree.Correspondence
import LayoutScript.Proofs.Tree.Derivation

/-!
Every successful reading has a derivation. Readers are followed step by step from the feed
they start at; what is known of the result of a step is a relation between the feed, the
value and the feed behind it.
-/

namespace LayoutScript

open Parse

/-- Behind the last token stands the end of input or an error. -/
def Feed.Proper (feed : Feed) : Prop :=
  ∀ token, feed.ending = .ok token → token.kind = .endOfInput

/-- From a feed a reader leads only to results of some form. -/
def Leads {α : Type} (feed : Feed) (reader : Parse α) (post : α → Feed → Prop) : Prop :=
  ∀ value after, reader.run feed = .ok (value, after) → after.Proper ∧ post value after

section Leads

variable {α β : Type} {feed : Feed}

theorem leads_pure (proper : feed.Proper) {value : α} {post : α → Feed → Prop}
    (holds : post value feed) : Leads feed (pure value) post := by
  intro result after read
  cases read
  exact ⟨proper, holds⟩

theorem leads_fail {error : ScriptError} {post : α → Feed → Prop} :
    Leads feed (fail error) post := by
  intro result after read
  cases read

theorem leads_out_of_fuel {post : α → Feed → Prop} : Leads feed outOfFuel post := by
  intro result after read
  cases read

theorem leads_bind {reader : Parse α} {next : α → Parse β} {between : α → Feed → Prop}
    {post : β → Feed → Prop} (start : Leads feed reader between)
    (rest : ∀ value behind, behind.Proper → between value behind →
      Leads behind (next value) post) : Leads feed (reader >>= next) post := by
  intro result after run
  rw [StateT.run_bind] at run
  cases first : reader.run feed with
  | error halt =>
      rw [first] at run
      cases run
  | ok read =>
      rw [first] at run
      obtain ⟨proper, holds⟩ := start read.1 read.2 first
      exact rest read.1 read.2 proper holds result after run

theorem leads_pure_bind {value : α} {next : α → Parse β} {post : β → Feed → Prop}
    (rest : Leads feed (next value) post) : Leads feed (pure value >>= next) post :=
  rest

theorem leads_mono {reader : Parse α} {post post' : α → Feed → Prop}
    (leads : Leads feed reader post) (weaker : ∀ value after, post value after → post' value after) :
    Leads feed reader post' := by
  intro value after run
  obtain ⟨proper, holds⟩ := leads value after run
  exact ⟨proper, weaker value after holds⟩

theorem leads_ite {condition : Prop} [Decidable condition] {yes no : Parse α}
    {post : α → Feed → Prop} (whenTrue : condition → Leads feed yes post)
    (whenFalse : ¬condition → Leads feed no post) :
    Leads feed (if condition then yes else no) post := by
  by_cases holds : condition
  · rw [if_pos holds]
    exact whenTrue holds
  · rw [if_neg holds]
    exact whenFalse holds

theorem leads_of_except (proper : feed.Proper) (result : Except ScriptError α) :
    Leads feed (ofExcept result) fun value after => after = feed ∧ result = .ok value := by
  cases result with
  | ok value => exact leads_pure proper ⟨rfl, rfl⟩
  | error error => exact leads_fail

theorem leads_current (proper : feed.Proper) :
    Leads feed current fun token after => after = feed ∧ feed.current = .ok token :=
  leads_of_except proper feed.current

theorem leads_second (proper : feed.Proper) :
    Leads feed second fun _ after => after = feed :=
  leads_mono (leads_of_except proper feed.second) fun _ _ both => both.1

theorem leads_last_taken (proper : feed.Proper) :
    Leads feed lastTaken fun _ after => after = feed := by
  intro result after read
  cases read
  exact ⟨proper, rfl⟩

theorem leads_block_closed (proper : feed.Proper) :
    Leads feed blockClosed fun _ after => after = feed := by
  intro result after read
  cases read
  exact ⟨proper, rfl⟩

theorem leads_span_from (proper : feed.Proper) (start : Token) :
    Leads feed (spanFrom start) fun span after => after = feed ∧ span = feed.spanSince start := by
  intro result after read
  cases read
  exact ⟨proper, rfl, rfl⟩

theorem leads_enter (proper : feed.Proper) (limit depth : Nat) (token : Token) :
    Leads feed (enter limit depth token) fun _ after => after = feed := by
  apply leads_ite
  · intro _
    exact leads_fail
  · intro _
    exact leads_pure proper rfl

theorem leads_check (proper : feed.Proper) (kind : TokenClass) :
    Leads feed (check kind) fun _ after => after = feed := by
  apply leads_bind (leads_current proper)
  intro token _ proper outcome
  rcases outcome with ⟨rfl, _⟩
  exact leads_pure proper rfl

theorem leads_unexpected {expected : Expectation} {post : α → Feed → Prop} (proper : feed.Proper) :
    Leads feed (unexpected expected) post := by
  apply leads_bind (leads_current proper)
  intro token _ _ _
  apply leads_ite
  · intro _
    exact leads_fail
  · intro _
    exact leads_fail

/-- A current token that is not the end of input can be taken. -/
theorem Feed.current_takes {token : Token} (proper : feed.Proper)
    (isCurrent : feed.current = .ok token) (notEnd : token.kind ≠ .endOfInput) :
    Takes feed token feed.advance := by
  obtain ⟨previous, rest, ending⟩ := feed
  cases rest with
  | nil => exact absurd (proper token isCurrent) notEnd
  | cons front rest =>
      cases isCurrent
      simp only [Feed.advance, if_neg notEnd]
      exact .front notEnd

theorem Takes.proper {after : Feed} {token : Token} (takes : Takes feed token after)
    (proper : feed.Proper) : after.Proper := by
  cases takes
  exact proper

theorem leads_step {token : Token} (proper : feed.Proper) (isCurrent : feed.current = .ok token)
    (notEnd : token.kind ≠ .endOfInput) :
    Leads feed (modify Feed.advance) fun _ after => Takes feed token after := by
  intro result after read
  cases read
  have takes := Feed.current_takes proper isCurrent notEnd
  exact ⟨takes.proper proper, takes⟩

theorem leads_advance {token : Token} (proper : feed.Proper) (isCurrent : feed.current = .ok token)
    (notEnd : token.kind ≠ .endOfInput) :
    Leads feed advance fun taken after => taken = token ∧ Takes feed token after := by
  apply leads_bind (leads_current proper)
  intro found _ proper outcome
  rcases outcome with ⟨rfl, found⟩
  cases found.symm.trans isCurrent
  apply leads_bind (leads_step proper isCurrent notEnd)
  intro _ after proper takes
  exact leads_pure proper ⟨rfl, takes⟩

theorem leads_accept (proper : feed.Proper) {kind : TokenClass} (notEnd : kind ≠ .endOfInput) :
    Leads feed (accept kind) fun found after =>
      (found = none ∧ after = feed) ∨
        ∃ token, found = some token ∧ Takes feed token after ∧ token.kind = kind := by
  apply leads_bind (leads_current proper)
  intro token _ proper outcome
  rcases outcome with ⟨rfl, isCurrent⟩
  apply leads_ite
  · intro outcome
    rcases outcome with rfl
    apply leads_bind (leads_advance proper isCurrent notEnd)
    intro taken after proper outcome
    rcases outcome with ⟨rfl, takes⟩
    exact leads_pure proper (.inr ⟨taken, rfl, takes, rfl⟩)
  · intro _
    exact leads_pure proper (.inl ⟨rfl, rfl⟩)

theorem leads_accept_open (proper : feed.Proper) {kind : TokenClass} (notEnd : kind ≠ .endOfInput) :
    Leads feed (acceptOpen kind) fun found after =>
      (found = none ∧ after = feed) ∨
        ∃ token, found = some token ∧ Takes feed token after ∧ token.kind = kind := by
  apply leads_bind (leads_block_closed proper)
  intro closed _ proper outcome
  rcases outcome with rfl
  apply leads_ite
  · intro _
    exact leads_pure proper (.inl ⟨rfl, rfl⟩)
  · intro _
    exact leads_accept proper notEnd

theorem leads_consume (proper : feed.Proper) {kind : TokenClass} {expected : Expectation}
    (notEnd : kind ≠ .endOfInput) :
    Leads feed (consume kind expected) fun token after =>
      Takes feed token after ∧ token.kind = kind := by
  apply leads_bind (leads_current proper)
  intro token _ proper outcome
  rcases outcome with ⟨rfl, isCurrent⟩
  apply leads_ite
  · intro outcome
    rcases outcome with rfl
    refine leads_mono (leads_advance proper isCurrent notEnd) ?_
    intro taken after outcome
    rcases outcome with ⟨rfl, takes⟩
    exact ⟨takes, rfl⟩
  · intro _
    exact leads_unexpected proper

/-- A value that is made once a parenthesis is closed. -/
theorem leads_closing (proper : feed.Proper) (value : α) :
    Leads feed (consume .closeParen .closeParen >>= fun _ => pure value) fun result after =>
      result = value ∧ ∃ stop, Takes feed stop after ∧ stop.kind = .closeParen := by
  apply leads_bind (leads_consume proper (by decide))
  intro stop after proper closes
  exact leads_pure proper ⟨rfl, stop, closes⟩

/-- A tree that is made once its range is known. -/
theorem leads_spanned (proper : feed.Proper) (start : Token) (make : Span → α) :
    Leads feed (spanFrom start >>= fun span => pure (make span)) fun tree after =>
      after = feed ∧ tree = make (feed.spanSince start) := by
  apply leads_bind (leads_span_from proper start)
  intro span _ proper outcome
  rcases outcome with ⟨rfl, rfl⟩
  exact leads_pure proper ⟨rfl, rfl⟩

theorem skip_newlines_skips (ending : Except ScriptError Token) (rest : List Token)
    (previous : Option Token) :
    ∃ tokens, Skips ⟨previous, rest, ending⟩ tokens
      (Feed.skipNewlinesFrom ending previous rest) := by
  induction rest generalizing previous with
  | nil => exact ⟨[], .none⟩
  | cons token rest induction =>
      rw [Feed.skipNewlinesFrom]
      split
      · rename_i isNewline
        obtain ⟨tokens, skips⟩ := induction (some token)
        have notEnd : token.kind ≠ .endOfInput := by
          rw [isNewline]
          decide
        exact ⟨token :: tokens, .one (.front notEnd) isNewline skips⟩
      · exact ⟨[], .none⟩

theorem Skips.proper {after : Feed} {tokens : List Token} (skips : Skips feed tokens after)
    (proper : feed.Proper) : after.Proper := by
  induction skips with
  | none => exact proper
  | one takes _ _ induction => exact induction (takes.proper proper)

theorem leads_skip_newlines (proper : feed.Proper) :
    Leads feed skipNewlines fun _ after => ∃ tokens, Skips feed tokens after := by
  intro result after read
  cases read
  obtain ⟨tokens, skips⟩ := skip_newlines_skips feed.ending feed.rest feed.previous
  exact ⟨skips.proper proper, tokens, skips⟩

theorem leads_statement_end (proper : feed.Proper) :
    Leads feed statementEnd fun _ after => ∃ tokens, Ends feed tokens after := by
  rw [statement_end_eq]
  apply leads_bind (leads_current proper)
  intro token _ proper outcome
  rcases outcome with ⟨rfl, isCurrent⟩
  apply leads_ite
  · intro _
    exact leads_pure proper ⟨[], .here⟩
  · intro _
    apply leads_ite
    · intro isNewline
      have notEnd : token.kind ≠ .endOfInput := by
        rw [isNewline]
        decide
      refine leads_mono (leads_step proper isCurrent notEnd) fun _ after takes => ?_
      exact ⟨[token], .line takes isNewline⟩
    · intro _
      apply leads_bind (leads_last_taken proper)
      intro previous _ proper outcome
      rcases outcome with rfl
      cases previous with
      | none => exact leads_unexpected proper
      | some last =>
          apply leads_ite
          · intro _
            exact leads_pure proper ⟨[], .here⟩
          · intro _
            exact leads_unexpected proper

theorem leads_ended (proper : feed.Proper) (tree : Statement) :
    Leads feed (statementEnd >>= fun _ => pure tree) fun result after =>
      result = tree ∧ ∃ tokens, Ends feed tokens after := by
  apply leads_bind (leads_statement_end proper)
  intro _ after proper ends
  exact leads_pure proper ⟨rfl, ends⟩

end Leads

/-- Whatever a reader gives at a feed is derived from there. -/
def Reads {α : Type} (feed : Feed) (reader : Parse α) (phrase : α → Phrase) : Prop :=
  Leads feed reader fun value after => ∃ tokens, Derives feed (phrase value) tokens after

/-- All readers are sound at one amount of fuel. Readers that continue a phrase are given
what was derived so far. -/
structure ReadersSound (limit fuel : Nat) : Prop where
  expression (depth : Nat) {feed : Feed} (proper : feed.Proper) :
    Reads feed (expression limit fuel depth) .expression
  rebinding (depth : Nat) {feed : Feed} (proper : feed.Proper) :
    Reads feed (rebinding limit fuel depth) .expression
  conditional (depth : Nat) {feed : Feed} (proper : feed.Proper) :
    Reads feed (conditional limit fuel depth) .expression
  binary (depth least : Nat) {feed : Feed} (proper : feed.Proper) :
    Reads feed (binary limit fuel depth least) .expression
  binaryRest (depth least : Nat) {origin feed : Feed} {left : Expression} {tokens : List Token}
    (proper : feed.Proper) (read : Derives origin (.expression left) tokens feed) :
    Leads feed (binaryRest limit fuel depth least left) fun tree after =>
      ∃ tokens, Derives origin (.expression tree) tokens after
  unary (depth : Nat) {feed : Feed} (proper : feed.Proper) :
    Reads feed (unary limit fuel depth) .expression
  power (depth : Nat) {feed : Feed} (proper : feed.Proper) :
    Reads feed (power limit fuel depth) .expression
  postfixed (depth : Nat) {feed : Feed} (proper : feed.Proper) :
    Reads feed (postfixed limit fuel depth) .expression
  postfixRest (depth : Nat) {origin feed : Feed} {subject : Expression} {tokens : List Token}
    (proper : feed.Proper) (read : Derives origin (.expression subject) tokens feed) :
    Leads feed (postfixRest limit fuel depth subject) fun tree after =>
      ∃ tokens, Derives origin (.expression tree) tokens after
  callArguments (depth : Nat) {feed : Feed} (proper : feed.Proper) :
    Reads feed (callArguments limit fuel depth) .arguments
  moreExpressions (depth : Nat) {feed : Feed} (proper : feed.Proper) :
    Reads feed (moreExpressions limit fuel depth) .more
  primary (depth : Nat) {feed : Feed} (proper : feed.Proper) :
    Reads feed (primary limit fuel depth) .expression
  group (depth : Nat) {feed : Feed} {start : Token} (proper : feed.Proper)
    (isCurrent : feed.current = .ok start) (isOpen : start.kind = .openParen) :
    Reads feed (group limit fuel depth) .expression
  functionLiteral (depth : Nat) {feed : Feed} {start : Token} (proper : feed.Proper)
    (isCurrent : feed.current = .ok start) (isFunction : start.kind = .fnWord) :
    Reads feed (functionLiteral limit fuel depth) .expression
  block (depth : Nat) {feed : Feed} (proper : feed.Proper) :
    Reads feed (block limit fuel depth) .body
  blockStatements (depth : Nat) {feed : Feed} (proper : feed.Proper) :
    Reads feed (blockStatements limit fuel depth) .statements
  statement (depth : Nat) {feed : Feed} (proper : feed.Proper) :
    Reads feed (statement limit fuel depth) .statement
  simpleStatement (depth : Nat) {origin feed : Feed} {start : Token} {newlines : List Token}
    (proper : feed.Proper) (skips : Skips origin newlines feed)
    (isCurrent : feed.current = .ok start) :
    Leads feed (simpleStatement limit fuel depth start) fun tree after =>
      ∃ tokens, Derives origin (.statement tree) tokens after
  declaration (depth : Nat) {origin feed : Feed} {start : Token} {newlines : List Token}
    (proper : feed.Proper) (skips : Skips origin newlines feed)
    (isCurrent : feed.current = .ok start) (isLet : start.kind = .letWord) :
    Leads feed (declaration limit fuel depth) fun tree after =>
      ∃ tokens, Derives origin (.statement tree) tokens after
  conditioned (depth : Nat) {origin feed : Feed} {start : Token}
    {make : Span → Expression → Block → Statement} (proper : feed.Proper)
    (isCurrent : feed.current = .ok start) (notEnd : start.kind ≠ .endOfInput)
    (makes : ∀ {behind between later after : Feed} {colon : Token} {tokens bodyTokens : List Token}
      {condition : Expression} {block : Block}, Takes feed start behind →
      Derives behind (.expression condition) tokens between → Takes between colon later →
      colon.kind = .colon → Derives later (.body block) bodyTokens after →
      ∃ tokens, Derives origin (.statement (make (after.spanSince start) condition block))
        tokens after) :
    Leads feed (conditioned limit fuel depth make) fun tree after =>
      ∃ tokens, Derives origin (.statement tree) tokens after
  definition (depth : Nat) {origin feed : Feed} {start : Token} {newlines : List Token}
    (proper : feed.Proper) (skips : Skips origin newlines feed)
    (isCurrent : feed.current = .ok start) (isFunction : start.kind = .fnWord) :
    Leads feed (definition limit fuel depth) fun tree after =>
      ∃ tokens, Derives origin (.statement tree) tokens after
  pattern (depth : Nat) {feed : Feed} (proper : feed.Proper) :
    Reads feed (pattern limit fuel depth) .target
  tuplePattern (depth : Nat) {origin feed : Feed} {start : Token} (proper : feed.Proper)
    (opens : Takes origin start feed) (isOpen : start.kind = .openParen) :
    Leads feed (tuplePattern limit fuel depth start) fun tree after =>
      ∃ tokens, Derives origin (.target tree) tokens after
  morePatterns (depth : Nat) {feed : Feed} (proper : feed.Proper) :
    Reads feed (morePatterns limit fuel depth) .moreTargets

theorem name_not_end {token : Token} {name : String} (named : token.name? = some name) :
    token.kind ≠ .endOfInput := by
  intro isEnd
  simp [Token.name?, isEnd] at named

theorem literal_not_end {token : Token} {value : Literal} (denotes : token.literal? = some value) :
    token.kind ≠ .endOfInput := by
  unfold Token.literal? at denotes
  split at denotes
  · rename_i same
    rw [← same]
    cases token.payload <;> simp [Literal.tokenClass]
  · cases denotes

theorem ne_end_of_eq {token : Token} {kind : TokenClass} (isKind : token.kind = kind)
    (notEnd : kind ≠ .endOfInput) : token.kind ≠ .endOfInput := by
  rw [isKind]
  exact notEnd

theorem parameter_names_sound (fuel : Nat) {feed : Feed} (proper : feed.Proper)
    (names : List String) (distinct : names.Nodup) :
    Leads feed (parameterNames fuel names) fun result after =>
      result.Nodup ∧ ∃ added tokens, result = names ++ added ∧
        Derives feed (.names added) tokens after := by
  induction fuel generalizing feed names with
  | zero =>
      rw [parameterNames]
      exact leads_out_of_fuel
  | succ fuel induction =>
      rw [parameterNames]
      apply leads_bind (leads_consume proper (by decide))
      intro token behind proper outcome
      rcases outcome with ⟨takes, _⟩
      cases named : token.name? with
      | none => exact leads_unexpected proper
      | some name =>
          apply leads_ite
          · intro _
            exact leads_fail
          · intro fresh
            have longer : (names ++ [name]).Nodup := by
              have absent : name ∉ names := by simpa using fresh
              exact List.nodup_append.2 ⟨distinct, by simp, by
                intro other member _ same outcome
                rcases outcome with rfl
                exact absent (List.mem_singleton.1 same ▸ member)⟩
            apply leads_bind (leads_accept proper (by decide))
            intro comma later proper outcome
            rcases outcome with ⟨rfl, rfl⟩ | ⟨token, rfl, parts, isComma⟩
            · exact leads_pure proper ⟨longer, [name], _, rfl, .lastName takes named⟩
            · apply leads_bind (leads_check proper _)
              intro closed _ proper outcome
              rcases outcome with rfl
              apply leads_ite
              · intro _
                exact leads_pure proper
                  ⟨longer, [name], _, rfl, .lastNameComma takes named parts isComma⟩
              · intro _
                refine leads_mono (induction proper (names ++ [name]) longer) ?_
                intro result after outcome
                rcases outcome with ⟨unique, added, tokens, rfl, read⟩
                have appended : names ++ [name] ++ added = names ++ name :: added := by simp
                exact ⟨unique, name :: added, _, appended,
                  .nextName takes named parts isComma read⟩

theorem parameters_sound (fuel : Nat) {feed : Feed} (proper : feed.Proper) :
    Reads feed (parameters fuel) .parameters := by
  apply leads_bind (leads_consume proper (by decide))
  intro start inside proper outcome
  rcases outcome with ⟨opens, isOpen⟩
  apply leads_bind (leads_check proper _)
  intro empty _ proper outcome
  rcases outcome with rfl
  apply leads_ite
  · intro _
    apply leads_pure_bind
    refine leads_mono (leads_closing proper _) ?_
    intro names after outcome
    rcases outcome with ⟨rfl, stop, closes, isClose⟩
    exact ⟨_, .noParameters opens isOpen closes isClose⟩
  · intro _
    apply leads_bind (parameter_names_sound fuel proper [] List.nodup_nil)
    intro names behind proper outcome
    rcases outcome with ⟨distinct, added, tokens, rfl, read⟩
    refine leads_mono (leads_closing proper _) ?_
    intro result after outcome
    rcases outcome with ⟨rfl, stop, closes, isClose⟩
    exact ⟨_, .someParameters opens isOpen read distinct closes isClose⟩

namespace ReadersSound

variable {limit fuel : Nat} {feed : Feed}

theorem pattern_step (smaller : ReadersSound limit fuel) (depth : Nat) (proper : feed.Proper) :
    Reads feed (Parse.pattern limit (fuel + 1) depth) .target := by
  rw [Parse.pattern]
  apply leads_bind (leads_current proper)
  intro token _ proper outcome
  rcases outcome with ⟨rfl, isCurrent⟩
  cases named : token.name? with
  | some name =>
      apply leads_bind (leads_advance proper isCurrent (name_not_end named))
      intro _ after proper outcome
      rcases outcome with ⟨_, takes⟩
      exact leads_pure proper ⟨_, .nameTarget takes named⟩
  | none =>
      apply leads_ite
      · intro isOpen
        apply leads_bind (leads_advance proper isCurrent (ne_end_of_eq isOpen (by decide)))
        intro _ inside proper outcome
        rcases outcome with ⟨_, opens⟩
        apply leads_bind (leads_enter proper limit depth token)
        intro _ _ proper outcome
        rcases outcome with rfl
        exact smaller.tuplePattern (depth + 1) proper opens isOpen
      · intro _
        exact leads_unexpected proper

theorem tuple_pattern_step (smaller : ReadersSound limit fuel) (depth : Nat) {origin : Feed}
    {start : Token} (proper : feed.Proper) (opens : Takes origin start feed)
    (isOpen : start.kind = .openParen) :
    Leads feed (Parse.tuplePattern limit (fuel + 1) depth start) fun tree after =>
      ∃ tokens, Derives origin (.target tree) tokens after := by
  rw [Parse.tuplePattern]
  apply leads_bind (leads_accept proper (by decide))
  intro closed behind proper outcome
  rcases outcome with ⟨rfl, rfl⟩ | ⟨stop, rfl, closes, isClose⟩
  · apply leads_bind (smaller.pattern depth proper)
    intro tree between proper outcome
    rcases outcome with ⟨tokens, inner⟩
    apply leads_bind (leads_accept proper (by decide))
    intro grouped later proper outcome
    rcases outcome with ⟨rfl, rfl⟩ | ⟨stop, rfl, closes, isClose⟩
    · apply leads_bind (smaller.morePatterns depth proper)
      intro trees behind proper outcome
      rcases outcome with ⟨moreTokens, others⟩
      apply leads_bind (leads_consume proper (by decide))
      intro stop after proper outcome
      rcases outcome with ⟨closes, isClose⟩
      refine leads_mono (leads_spanned proper start _) ?_
      intro result _ outcome
      rcases outcome with ⟨rfl, rfl⟩
      exact ⟨_, .tupleTarget opens isOpen inner others closes isClose⟩
    · exact leads_pure proper ⟨_, .groupedTarget opens isOpen inner closes isClose⟩
  · refine leads_mono (leads_spanned proper start _) ?_
    intro result _ outcome
    rcases outcome with ⟨rfl, rfl⟩
    exact ⟨_, .emptyTarget opens isOpen closes isClose⟩

theorem more_patterns_step (smaller : ReadersSound limit fuel) (depth : Nat)
    (proper : feed.Proper) :
    Reads feed (Parse.morePatterns limit (fuel + 1) depth) .moreTargets := by
  rw [Parse.morePatterns]
  apply leads_bind (leads_accept proper (by decide))
  intro found behind proper outcome
  rcases outcome with ⟨rfl, rfl⟩ | ⟨comma, rfl, takes, isComma⟩
  · exact leads_pure proper ⟨_, .noMoreTargets⟩
  · apply leads_bind (leads_check proper _)
    intro closed _ proper outcome
    rcases outcome with rfl
    apply leads_ite
    · intro _
      exact leads_pure proper ⟨_, .lastTargetComma takes isComma⟩
    · intro _
      apply leads_bind (smaller.pattern depth proper)
      intro tree between proper outcome
      rcases outcome with ⟨tokens, inner⟩
      apply leads_bind (smaller.morePatterns depth proper)
      intro trees after proper outcome
      rcases outcome with ⟨moreTokens, others⟩
      exact leads_pure proper ⟨_, .oneMoreTarget takes isComma inner others⟩

theorem expression_step (smaller : ReadersSound limit fuel) (depth : Nat) (proper : feed.Proper) :
    Reads feed (Parse.expression limit (fuel + 1) depth) .expression := by
  rw [Parse.expression]
  apply leads_bind (leads_current proper)
  intro token _ proper outcome
  rcases outcome with ⟨rfl, _⟩
  apply leads_bind (leads_enter proper limit depth token)
  intro _ _ proper outcome
  rcases outcome with rfl
  exact smaller.rebinding (depth + 1) proper

theorem rebinding_step (smaller : ReadersSound limit fuel) (depth : Nat) (proper : feed.Proper) :
    Reads feed (Parse.rebinding limit (fuel + 1) depth) .expression := by
  rw [Parse.rebinding]
  apply leads_bind (smaller.conditional depth proper)
  intro target between proper outcome
  rcases outcome with ⟨tokens, first⟩
  apply leads_bind (leads_accept_open proper (by decide))
  intro found behind proper outcome
  rcases outcome with ⟨rfl, rfl⟩ | ⟨walrus, rfl, takes, isWalrus⟩
  · exact leads_pure proper ⟨_, first⟩
  · cases target with
    | identifier span name =>
        apply leads_bind (smaller.expression depth proper)
        intro value after proper outcome
        rcases outcome with ⟨valueTokens, second⟩
        exact leads_pure proper ⟨_, .rebind first takes isWalrus second⟩
    | _ => exact leads_fail

theorem conditional_step (smaller : ReadersSound limit fuel) (depth : Nat) (proper : feed.Proper) :
    Reads feed (Parse.conditional limit (fuel + 1) depth) .expression := by
  rw [Parse.conditional]
  apply leads_bind (smaller.binary depth 0 proper)
  intro condition between proper outcome
  rcases outcome with ⟨tokens, first⟩
  apply leads_bind (leads_accept_open proper (by decide))
  intro found inside proper outcome
  rcases outcome with ⟨rfl, rfl⟩ | ⟨question, rfl, asks, isQuestion⟩
  · exact leads_pure proper ⟨_, first⟩
  · apply leads_bind (smaller.expression depth proper)
    intro whenTrue behind proper outcome
    rcases outcome with ⟨trueTokens, second⟩
    apply leads_bind (leads_consume proper (by decide))
    intro colon later proper outcome
    rcases outcome with ⟨parts, isColon⟩
    apply leads_bind (smaller.expression depth proper)
    intro whenFalse after proper outcome
    rcases outcome with ⟨falseTokens, third⟩
    exact leads_pure proper ⟨_, .conditional first asks isQuestion second parts isColon third⟩

theorem binary_step (smaller : ReadersSound limit fuel) (depth least : Nat)
    (proper : feed.Proper) :
    Reads feed (Parse.binary limit (fuel + 1) depth least) .expression := by
  rw [Parse.binary]
  apply leads_bind (smaller.unary depth proper)
  intro left between proper outcome
  rcases outcome with ⟨tokens, first⟩
  exact smaller.binaryRest depth least proper first

theorem binary_spells {token : Token} {operator : BinaryOperator} {strength : Nat}
    (found : binary? token = some (operator, strength)) : token.kind = operator.tokenClass := by
  unfold binary? at found
  obtain ⟨spelled, isSpelled, found⟩ := Option.bind_eq_some_iff.1 found
  obtain ⟨_, _, found⟩ := Option.bind_eq_some_iff.1 found
  cases found
  exact (BinaryOperator.ofTokenClass?_eq_some_iff _ _).1 isSpelled

theorem binary_rest_step (smaller : ReadersSound limit fuel) (depth least : Nat) {origin : Feed}
    {left : Expression} {tokens : List Token} (proper : feed.Proper)
    (read : Derives origin (.expression left) tokens feed) :
    Leads feed (Parse.binaryRest limit (fuel + 1) depth least left) fun tree after =>
      ∃ tokens, Derives origin (.expression tree) tokens after := by
  rw [Parse.binaryRest]
  apply leads_bind (leads_current proper)
  intro token _ proper outcome
  rcases outcome with ⟨rfl, isCurrent⟩
  cases found : binary? token with
  | none => exact leads_pure proper ⟨_, read⟩
  | some pair =>
      obtain ⟨operator, strength⟩ := pair
      have spells := binary_spells found
      apply leads_bind (leads_block_closed proper)
      intro closed _ proper outcome
      rcases outcome with rfl
      apply leads_ite
      · intro _
        exact leads_pure proper ⟨_, read⟩
      · intro _
        have notEnd : token.kind ≠ .endOfInput := by
          rw [spells]
          cases operator <;> decide
        apply leads_bind (leads_advance proper isCurrent notEnd)
        intro _ behind proper outcome
        rcases outcome with ⟨_, takes⟩
        apply leads_bind (smaller.binary depth (strength + 1) proper)
        intro right after proper outcome
        rcases outcome with ⟨rightTokens, second⟩
        exact smaller.binaryRest depth least proper (.binary read takes spells second)

theorem unary_step (smaller : ReadersSound limit fuel) (depth : Nat) (proper : feed.Proper) :
    Reads feed (Parse.unary limit (fuel + 1) depth) .expression := by
  rw [Parse.unary]
  apply leads_bind (leads_current proper)
  intro token _ proper outcome
  rcases outcome with ⟨rfl, isCurrent⟩
  cases found : UnaryOperator.ofTokenClass? token.kind with
  | none => exact smaller.power depth proper
  | some operator =>
      have spells := (UnaryOperator.ofTokenClass?_eq_some_iff _ _).1 found
      have notEnd : token.kind ≠ .endOfInput := by
        rw [spells]
        cases operator <;> decide
      apply leads_bind (leads_advance proper isCurrent notEnd)
      intro _ behind proper outcome
      rcases outcome with ⟨_, takes⟩
      apply leads_bind (leads_enter proper limit depth token)
      intro _ _ proper outcome
      rcases outcome with rfl
      apply leads_bind (smaller.unary (depth + 1) proper)
      intro tree after proper outcome
      rcases outcome with ⟨tokens, operand⟩
      exact leads_pure proper ⟨_, .unary takes spells operand⟩

theorem power_step (smaller : ReadersSound limit fuel) (depth : Nat) (proper : feed.Proper) :
    Reads feed (Parse.power limit (fuel + 1) depth) .expression := by
  rw [Parse.power]
  apply leads_bind (smaller.postfixed depth proper)
  intro base between proper outcome
  rcases outcome with ⟨tokens, first⟩
  apply leads_bind (leads_accept_open proper (by decide))
  intro found behind proper outcome
  rcases outcome with ⟨rfl, rfl⟩ | ⟨star, rfl, takes, isStar⟩
  · exact leads_pure proper ⟨_, first⟩
  · apply leads_bind (leads_enter proper limit depth star)
    intro _ _ proper outcome
    rcases outcome with rfl
    apply leads_bind (smaller.unary (depth + 1) proper)
    intro exponent after proper outcome
    rcases outcome with ⟨exponentTokens, second⟩
    exact leads_pure proper ⟨_, .binary first takes isStar second⟩

theorem postfixed_step (smaller : ReadersSound limit fuel) (depth : Nat) (proper : feed.Proper) :
    Reads feed (Parse.postfixed limit (fuel + 1) depth) .expression := by
  rw [Parse.postfixed]
  apply leads_bind (smaller.primary depth proper)
  intro subject between proper outcome
  rcases outcome with ⟨tokens, first⟩
  exact smaller.postfixRest depth proper first

theorem postfix_rest_step (smaller : ReadersSound limit fuel) (depth : Nat) {origin : Feed}
    {subject : Expression} {tokens : List Token} (proper : feed.Proper)
    (read : Derives origin (.expression subject) tokens feed) :
    Leads feed (Parse.postfixRest limit (fuel + 1) depth subject) fun tree after =>
      ∃ tokens, Derives origin (.expression tree) tokens after := by
  rw [Parse.postfixRest]
  apply leads_bind (leads_block_closed proper)
  intro closed _ proper outcome
  rcases outcome with rfl
  apply leads_ite
  · intro _
    exact leads_pure proper ⟨_, read⟩
  · intro _
    apply leads_bind (leads_current proper)
    intro token _ proper outcome
    rcases outcome with ⟨rfl, isCurrent⟩
    apply leads_ite
    · intro _
      apply leads_bind (smaller.callArguments depth proper)
      intro trees between proper outcome
      rcases outcome with ⟨listTokens, list⟩
      apply leads_bind (leads_span_from proper token)
      intro span _ proper outcome
      rcases outcome with ⟨rfl, rfl⟩
      exact smaller.postfixRest depth proper (.call read isCurrent list)
    · intro _
      apply leads_ite
      · intro isDot
        apply leads_bind (leads_advance proper isCurrent (ne_end_of_eq isDot (by decide)))
        intro _ behind proper outcome
        rcases outcome with ⟨_, takes⟩
        apply leads_bind (leads_consume proper (by decide))
        intro place after proper outcome
        rcases outcome with ⟨takesIndex, _⟩
        cases denotes : place.index? with
        | none => exact leads_unexpected proper
        | some index =>
            exact smaller.postfixRest depth proper (.member read takes isDot takesIndex denotes)
      · intro _
        exact leads_pure proper ⟨_, read⟩

theorem call_arguments_step (smaller : ReadersSound limit fuel) (depth : Nat)
    (proper : feed.Proper) :
    Reads feed (Parse.callArguments limit (fuel + 1) depth) .arguments := by
  rw [Parse.callArguments]
  apply leads_bind (leads_consume proper (by decide))
  intro start inside proper outcome
  rcases outcome with ⟨opens, isOpen⟩
  apply leads_bind (leads_check proper _)
  intro empty _ proper outcome
  rcases outcome with rfl
  apply leads_ite
  · intro _
    apply leads_pure_bind
    refine leads_mono (leads_closing proper _) ?_
    intro trees after outcome
    rcases outcome with ⟨rfl, stop, closes, isClose⟩
    exact ⟨_, .noArguments opens isOpen closes isClose⟩
  · intro _
    apply leads_bind (smaller.expression depth proper)
    intro tree between proper outcome
    rcases outcome with ⟨tokens, inner⟩
    apply leads_bind (smaller.moreExpressions depth proper)
    intro trees behind proper outcome
    rcases outcome with ⟨moreTokens, others⟩
    apply leads_pure_bind
    refine leads_mono (leads_closing proper _) ?_
    intro result after outcome
    rcases outcome with ⟨rfl, stop, closes, isClose⟩
    exact ⟨_, .someArguments opens isOpen inner others closes isClose⟩

theorem more_expressions_step (smaller : ReadersSound limit fuel) (depth : Nat)
    (proper : feed.Proper) :
    Reads feed (Parse.moreExpressions limit (fuel + 1) depth) .more := by
  rw [Parse.moreExpressions]
  apply leads_bind (leads_accept proper (by decide))
  intro found behind proper outcome
  rcases outcome with ⟨rfl, rfl⟩ | ⟨comma, rfl, takes, isComma⟩
  · exact leads_pure proper ⟨_, .noMore⟩
  · apply leads_bind (leads_check proper _)
    intro closed _ proper outcome
    rcases outcome with rfl
    apply leads_ite
    · intro _
      exact leads_pure proper ⟨_, .lastComma takes isComma⟩
    · intro _
      apply leads_bind (smaller.expression depth proper)
      intro tree between proper outcome
      rcases outcome with ⟨tokens, inner⟩
      apply leads_bind (smaller.moreExpressions depth proper)
      intro trees after proper outcome
      rcases outcome with ⟨moreTokens, others⟩
      exact leads_pure proper ⟨_, .oneMore takes isComma inner others⟩

theorem primary_step (smaller : ReadersSound limit fuel) (depth : Nat) (proper : feed.Proper) :
    Reads feed (Parse.primary limit (fuel + 1) depth) .expression := by
  rw [Parse.primary]
  apply leads_bind (leads_current proper)
  intro token _ proper outcome
  rcases outcome with ⟨rfl, isCurrent⟩
  cases denotes : token.literal? with
  | some value =>
      apply leads_bind (leads_advance proper isCurrent (literal_not_end denotes))
      intro _ after proper outcome
      rcases outcome with ⟨_, takes⟩
      exact leads_pure proper ⟨_, .literal takes denotes⟩
  | none =>
      cases named : token.name? with
      | some name =>
          apply leads_bind (leads_advance proper isCurrent (name_not_end named))
          intro _ after proper outcome
          rcases outcome with ⟨_, takes⟩
          exact leads_pure proper ⟨_, .identifier takes named⟩
      | none =>
          apply leads_ite
          · intro isOpen
            exact smaller.group depth proper isCurrent isOpen
          · intro _
            apply leads_ite
            · intro isFunction
              exact smaller.functionLiteral depth proper isCurrent isFunction
            · intro _
              exact leads_unexpected proper

theorem group_step (smaller : ReadersSound limit fuel) (depth : Nat) {start : Token}
    (proper : feed.Proper) (isCurrent : feed.current = .ok start)
    (isOpen : start.kind = .openParen) :
    Reads feed (Parse.group limit (fuel + 1) depth) .expression := by
  rw [Parse.group]
  apply leads_bind (leads_advance proper isCurrent (ne_end_of_eq isOpen (by decide)))
  intro _ inside proper outcome
  rcases outcome with ⟨rfl, opens⟩
  apply leads_bind (leads_accept proper (by decide))
  intro closed behind proper outcome
  rcases outcome with ⟨rfl, rfl⟩ | ⟨stop, rfl, closes, isClose⟩
  · apply leads_bind (smaller.expression depth proper)
    intro tree between proper outcome
    rcases outcome with ⟨tokens, inner⟩
    apply leads_bind (leads_accept proper (by decide))
    intro grouped later proper outcome
    rcases outcome with ⟨rfl, rfl⟩ | ⟨stop, rfl, closes, isClose⟩
    · apply leads_bind (smaller.moreExpressions depth proper)
      intro trees behind proper outcome
      rcases outcome with ⟨moreTokens, others⟩
      apply leads_bind (leads_consume proper (by decide))
      intro stop after proper outcome
      rcases outcome with ⟨closes, isClose⟩
      refine leads_mono (leads_spanned proper _ _) ?_
      intro result _ outcome
      rcases outcome with ⟨rfl, rfl⟩
      exact ⟨_, .tuple opens isOpen inner others closes isClose⟩
    · exact leads_pure proper ⟨_, .grouped opens isOpen inner closes isClose⟩
  · refine leads_mono (leads_spanned proper _ _) ?_
    intro result _ outcome
    rcases outcome with ⟨rfl, rfl⟩
    exact ⟨_, .emptyTuple opens isOpen closes isClose⟩

theorem function_literal_step (smaller : ReadersSound limit fuel) (depth : Nat) {start : Token}
    (proper : feed.Proper) (isCurrent : feed.current = .ok start)
    (isFunction : start.kind = .fnWord) :
    Reads feed (Parse.functionLiteral limit (fuel + 1) depth) .expression := by
  rw [Parse.functionLiteral]
  apply leads_bind (leads_advance proper isCurrent (ne_end_of_eq isFunction (by decide)))
  intro _ behind proper outcome
  rcases outcome with ⟨rfl, takes⟩
  apply leads_bind (leads_check proper _)
  intro named _ proper outcome
  rcases outcome with rfl
  apply leads_ite
  · intro _
    exact leads_unexpected proper
  · intro _
    apply leads_bind (parameters_sound fuel proper)
    intro names between proper outcome
    rcases outcome with ⟨tokens, list⟩
    apply leads_bind (leads_consume proper (by decide))
    intro colon later proper outcome
    rcases outcome with ⟨parts, isColon⟩
    apply leads_bind (leads_check proper _)
    intro indented _ proper outcome
    rcases outcome with rfl
    apply leads_ite
    · intro _
      apply leads_bind (smaller.block depth proper)
      intro block after proper outcome
      rcases outcome with ⟨bodyTokens, inner⟩
      refine leads_mono (leads_spanned proper _ _) ?_
      intro result _ outcome
      rcases outcome with ⟨rfl, rfl⟩
      exact ⟨_, .blockFunction takes isFunction list parts isColon inner⟩
    · intro _
      apply leads_bind (smaller.expression depth proper)
      intro value after proper outcome
      rcases outcome with ⟨valueTokens, inner⟩
      apply leads_pure_bind
      refine leads_mono (leads_spanned proper _ _) ?_
      intro result _ outcome
      rcases outcome with ⟨rfl, rfl⟩
      exact ⟨_, .inlineFunction takes isFunction list parts isColon inner⟩

theorem block_step (smaller : ReadersSound limit fuel) (depth : Nat) (proper : feed.Proper) :
    Reads feed (Parse.block limit (fuel + 1) depth) .body := by
  rw [Parse.block]
  apply leads_bind (leads_current proper)
  intro start _ proper outcome
  rcases outcome with ⟨rfl, isCurrent⟩
  apply leads_bind (leads_enter proper limit depth start)
  intro _ _ proper outcome
  rcases outcome with rfl
  apply leads_bind (leads_accept proper (by decide))
  intro found line proper outcome
  rcases outcome with ⟨rfl, rfl⟩ | ⟨newline, rfl, takes, isNewline⟩
  · apply leads_bind (smaller.statement (depth + 1) proper)
    intro tree after proper outcome
    rcases outcome with ⟨tokens, inner⟩
    apply leads_pure_bind
    refine leads_mono (leads_spanned proper _ _) ?_
    intro result _ outcome
    rcases outcome with ⟨rfl, rfl⟩
    exact ⟨_, .inlineBody isCurrent inner⟩
  · have same : newline = start := by
      cases takes
      cases isCurrent
      rfl
    subst same
    apply leads_bind (leads_skip_newlines proper)
    intro _ behind proper outcome
    rcases outcome with ⟨newlines, skips⟩
    apply leads_bind (leads_consume proper (by decide))
    intro mark inside proper outcome
    rcases outcome with ⟨opens, isIndent⟩
    apply leads_bind (smaller.blockStatements (depth + 1) proper)
    intro trees between proper outcome
    rcases outcome with ⟨tokens, inner⟩
    apply leads_bind (leads_consume proper (by decide))
    intro stop after proper outcome
    rcases outcome with ⟨closes, isDedent⟩
    apply leads_pure_bind
    refine leads_mono (leads_spanned proper _ _) ?_
    intro result _ outcome
    rcases outcome with ⟨rfl, rfl⟩
    exact ⟨_, .indentedBody takes isNewline skips opens isIndent inner closes isDedent⟩

theorem block_statements_step (smaller : ReadersSound limit fuel) (depth : Nat)
    (proper : feed.Proper) :
    Reads feed (Parse.blockStatements limit (fuel + 1) depth) .statements := by
  rw [Parse.blockStatements]
  apply leads_bind (leads_current proper)
  intro token _ proper outcome
  rcases outcome with ⟨rfl, _⟩
  apply leads_ite
  · intro _
    exact leads_pure proper ⟨_, .noStatements⟩
  · intro _
    apply leads_bind (smaller.statement depth proper)
    intro tree between proper outcome
    rcases outcome with ⟨tokens, first⟩
    apply leads_bind (leads_skip_newlines proper)
    intro _ behind proper outcome
    rcases outcome with ⟨newlines, skips⟩
    apply leads_bind (smaller.blockStatements depth proper)
    intro trees after proper outcome
    rcases outcome with ⟨moreTokens, others⟩
    exact leads_pure proper ⟨_, .oneStatement first skips others⟩

theorem statement_step (smaller : ReadersSound limit fuel) (depth : Nat) (proper : feed.Proper) :
    Reads feed (Parse.statement limit (fuel + 1) depth) .statement := by
  rw [Parse.statement]
  apply leads_bind (leads_skip_newlines proper)
  intro _ front proper outcome
  rcases outcome with ⟨newlines, skips⟩
  apply leads_bind (leads_current proper)
  intro token _ proper outcome
  rcases outcome with ⟨rfl, isCurrent⟩
  cases isKind : token.kind with
  | letWord => exact smaller.declaration depth proper skips isCurrent isKind
  | whileWord =>
      apply smaller.conditioned depth proper isCurrent (ne_end_of_eq isKind (by decide))
      intro behind between later after colon tokens bodyTokens condition block takes first parts
        isColon inner
      exact ⟨_, .whileLoop skips takes isKind first parts isColon inner⟩
  | ifWord =>
      apply smaller.conditioned depth proper isCurrent (ne_end_of_eq isKind (by decide))
      intro behind between later after colon tokens bodyTokens condition block takes first parts
        isColon inner
      exact ⟨_, .ifBlock skips takes isKind first parts isColon inner⟩
  | fnWord =>
      apply leads_bind (leads_second proper)
      intro following _ proper outcome
      rcases outcome with rfl
      apply leads_ite
      · intro _
        exact smaller.definition depth proper skips isCurrent isKind
      · intro _
        exact smaller.simpleStatement depth proper skips isCurrent
  | _ => exact smaller.simpleStatement depth proper skips isCurrent

theorem simple_statement_step (smaller : ReadersSound limit fuel) (depth : Nat) {origin : Feed}
    {start : Token} {newlines : List Token} (proper : feed.Proper)
    (skips : Skips origin newlines feed) (isCurrent : feed.current = .ok start) :
    Leads feed (Parse.simpleStatement limit (fuel + 1) depth start) fun tree after =>
      ∃ tokens, Derives origin (.statement tree) tokens after := by
  rw [Parse.simpleStatement]
  apply leads_bind (smaller.expression depth proper)
  intro subject between proper outcome
  rcases outcome with ⟨tokens, first⟩
  apply leads_bind (leads_accept_open proper (by decide))
  intro assigned later proper outcome
  rcases outcome with ⟨rfl, rfl⟩ | ⟨sign, rfl, parts, isSign⟩
  · apply leads_bind (leads_accept_open proper (by decide))
    intro closed last proper outcome
    rcases outcome with ⟨rfl, rfl⟩ | ⟨mark, rfl, takes, isMark⟩
    · apply leads_pure_bind
      refine leads_mono (leads_ended proper _) ?_
      intro result after outcome
      rcases outcome with ⟨rfl, ending, ends⟩
      exact ⟨_, .openExpression skips first ends⟩
    · apply leads_bind (leads_span_from proper start)
      intro span _ proper outcome
      rcases outcome with ⟨rfl, rfl⟩
      refine leads_mono (leads_ended proper _) ?_
      intro result after outcome
      rcases outcome with ⟨rfl, ending, ends⟩
      exact ⟨_, .closedExpression skips isCurrent first takes isMark ends⟩
  · apply leads_bind (leads_of_except proper _)
    intro pattern _ proper outcome
    rcases outcome with ⟨rfl, fits⟩
    apply leads_bind (smaller.expression depth proper)
    intro value last proper outcome
    rcases outcome with ⟨valueTokens, inner⟩
    refine leads_mono (leads_ended proper _) ?_
    intro result after outcome
    rcases outcome with ⟨rfl, ending, ends⟩
    exact ⟨_, .assign skips first fits parts isSign inner ends⟩

theorem declaration_step (smaller : ReadersSound limit fuel) (depth : Nat) {origin : Feed}
    {start : Token} {newlines : List Token} (proper : feed.Proper)
    (skips : Skips origin newlines feed) (isCurrent : feed.current = .ok start)
    (isLet : start.kind = .letWord) :
    Leads feed (Parse.declaration limit (fuel + 1) depth) fun tree after =>
      ∃ tokens, Derives origin (.statement tree) tokens after := by
  rw [Parse.declaration]
  apply leads_bind (leads_advance proper isCurrent (ne_end_of_eq isLet (by decide)))
  intro _ behind proper outcome
  rcases outcome with ⟨rfl, takes⟩
  apply leads_bind (smaller.pattern depth proper)
  intro pattern between proper outcome
  rcases outcome with ⟨tokens, target⟩
  apply leads_bind (leads_consume proper (by decide))
  intro sign later proper outcome
  rcases outcome with ⟨parts, isSign⟩
  apply leads_bind (smaller.expression depth proper)
  intro value last proper outcome
  rcases outcome with ⟨valueTokens, inner⟩
  apply leads_bind (leads_span_from proper _)
  intro span _ proper outcome
  rcases outcome with ⟨rfl, rfl⟩
  refine leads_mono (leads_ended proper _) ?_
  intro result after outcome
  rcases outcome with ⟨rfl, ending, ends⟩
  exact ⟨_, .declare skips takes isLet target parts isSign inner ends⟩

theorem conditioned_step (smaller : ReadersSound limit fuel) (depth : Nat) {origin : Feed}
    {start : Token} {make : Span → Expression → Block → Statement} (proper : feed.Proper)
    (isCurrent : feed.current = .ok start) (notEnd : start.kind ≠ .endOfInput)
    (makes : ∀ {behind between later after : Feed} {colon : Token} {tokens bodyTokens : List Token}
      {condition : Expression} {block : Block}, Takes feed start behind →
      Derives behind (.expression condition) tokens between → Takes between colon later →
      colon.kind = .colon → Derives later (.body block) bodyTokens after →
      ∃ tokens, Derives origin (.statement (make (after.spanSince start) condition block))
        tokens after) :
    Leads feed (Parse.conditioned limit (fuel + 1) depth make) fun tree after =>
      ∃ tokens, Derives origin (.statement tree) tokens after := by
  rw [Parse.conditioned]
  apply leads_bind (leads_advance proper isCurrent notEnd)
  intro _ behind proper outcome
  rcases outcome with ⟨rfl, takes⟩
  apply leads_bind (smaller.expression depth proper)
  intro condition between proper outcome
  rcases outcome with ⟨tokens, first⟩
  apply leads_bind (leads_consume proper (by decide))
  intro colon later proper outcome
  rcases outcome with ⟨parts, isColon⟩
  apply leads_bind (smaller.block depth proper)
  intro block after proper outcome
  rcases outcome with ⟨bodyTokens, inner⟩
  refine leads_mono (leads_spanned proper _ _) ?_
  intro result _ outcome
  rcases outcome with ⟨rfl, rfl⟩
  exact makes takes first parts isColon inner

theorem definition_step (smaller : ReadersSound limit fuel) (depth : Nat) {origin : Feed}
    {start : Token} {newlines : List Token} (proper : feed.Proper)
    (skips : Skips origin newlines feed) (isCurrent : feed.current = .ok start)
    (isFunction : start.kind = .fnWord) :
    Leads feed (Parse.definition limit (fuel + 1) depth) fun tree after =>
      ∃ tokens, Derives origin (.statement tree) tokens after := by
  rw [Parse.definition]
  apply leads_bind (leads_advance proper isCurrent (ne_end_of_eq isFunction (by decide)))
  intro _ behind proper outcome
  rcases outcome with ⟨rfl, takes⟩
  apply leads_bind (leads_consume proper (by decide))
  intro named listed proper outcome
  rcases outcome with ⟨takesName, _⟩
  cases denotes : named.name? with
  | none => exact leads_unexpected proper
  | some name =>
      apply leads_bind (parameters_sound fuel proper)
      intro names between proper outcome
      rcases outcome with ⟨tokens, list⟩
      apply leads_bind (leads_consume proper (by decide))
      intro colon later proper outcome
      rcases outcome with ⟨parts, isColon⟩
      apply leads_bind (smaller.block depth proper)
      intro block after proper outcome
      rcases outcome with ⟨bodyTokens, inner⟩
      refine leads_mono (leads_spanned proper _ _) ?_
      intro result _ outcome
      rcases outcome with ⟨rfl, rfl⟩
      exact ⟨_, .define skips takes isFunction takesName denotes list parts isColon inner⟩

end ReadersSound

theorem readers_sound (limit fuel : Nat) : ReadersSound limit fuel := by
  induction fuel with
  | zero =>
      constructor <;> intros
      case expression => rw [expression]; exact leads_out_of_fuel
      case rebinding => rw [rebinding]; exact leads_out_of_fuel
      case conditional => rw [conditional]; exact leads_out_of_fuel
      case binary => rw [binary]; exact leads_out_of_fuel
      case binaryRest => rw [binaryRest]; exact leads_out_of_fuel
      case unary => rw [unary]; exact leads_out_of_fuel
      case power => rw [power]; exact leads_out_of_fuel
      case postfixed => rw [postfixed]; exact leads_out_of_fuel
      case postfixRest => rw [postfixRest]; exact leads_out_of_fuel
      case callArguments => rw [callArguments]; exact leads_out_of_fuel
      case moreExpressions => rw [moreExpressions]; exact leads_out_of_fuel
      case primary => rw [primary]; exact leads_out_of_fuel
      case group => rw [group]; exact leads_out_of_fuel
      case functionLiteral => rw [functionLiteral]; exact leads_out_of_fuel
      case block => rw [block]; exact leads_out_of_fuel
      case blockStatements => rw [blockStatements]; exact leads_out_of_fuel
      case statement => rw [statement]; exact leads_out_of_fuel
      case simpleStatement => rw [simpleStatement]; exact leads_out_of_fuel
      case declaration => rw [declaration]; exact leads_out_of_fuel
      case conditioned => rw [conditioned]; exact leads_out_of_fuel
      case definition => rw [definition]; exact leads_out_of_fuel
      case pattern => rw [pattern]; exact leads_out_of_fuel
      case tuplePattern => rw [tuplePattern]; exact leads_out_of_fuel
      case morePatterns => rw [morePatterns]; exact leads_out_of_fuel
  | succ fuel smaller =>
      constructor
      · exact fun depth _ => smaller.expression_step depth
      · exact fun depth _ => smaller.rebinding_step depth
      · exact fun depth _ => smaller.conditional_step depth
      · exact fun depth least _ => smaller.binary_step depth least
      · exact fun depth least _ _ _ _ => smaller.binary_rest_step depth least
      · exact fun depth _ => smaller.unary_step depth
      · exact fun depth _ => smaller.power_step depth
      · exact fun depth _ => smaller.postfixed_step depth
      · exact fun depth _ _ _ _ => smaller.postfix_rest_step depth
      · exact fun depth _ => smaller.call_arguments_step depth
      · exact fun depth _ => smaller.more_expressions_step depth
      · exact fun depth _ => smaller.primary_step depth
      · exact fun depth _ _ => smaller.group_step depth
      · exact fun depth _ _ => smaller.function_literal_step depth
      · exact fun depth _ => smaller.block_step depth
      · exact fun depth _ => smaller.block_statements_step depth
      · exact fun depth _ => smaller.statement_step depth
      · exact fun depth _ _ _ _ => smaller.simple_statement_step depth
      · exact fun depth _ _ _ _ => smaller.declaration_step depth
      · exact fun depth _ _ _ _ => smaller.conditioned_step depth
      · exact fun depth _ _ _ _ => smaller.definition_step depth
      · exact fun depth _ => smaller.pattern_step depth
      · exact fun depth _ _ _ => smaller.tuple_pattern_step depth
      · exact fun depth _ => smaller.more_patterns_step depth

/-- The statements of a program are derived up to the end of input. -/
theorem program_statements_sound (limit fuel : Nat) {feed : Feed} (proper : feed.Proper) :
    Leads feed (programStatements limit fuel) fun trees after =>
      (∃ tokens, Derives feed (.statements trees) tokens after) ∧
        ∃ token, after.current = .ok token ∧ token.kind = .endOfInput := by
  induction fuel generalizing feed with
  | zero =>
      rw [programStatements]
      exact leads_out_of_fuel
  | succ fuel induction =>
      rw [programStatements]
      apply leads_bind (leads_current proper)
      intro token _ proper outcome
      rcases outcome with ⟨rfl, isCurrent⟩
      apply leads_ite
      · intro isEnd
        exact leads_pure proper ⟨⟨_, .noStatements⟩, token, isCurrent, isEnd⟩
      · intro _
        apply leads_bind ((readers_sound limit fuel).statement 0 proper)
        intro tree between proper outcome
        rcases outcome with ⟨tokens, first⟩
        apply leads_bind (leads_skip_newlines proper)
        intro _ behind proper outcome
        rcases outcome with ⟨newlines, skips⟩
        apply leads_bind (induction proper)
        intro trees after proper outcome
        rcases outcome with ⟨⟨moreTokens, others⟩, atEnd⟩
        exact leads_pure proper ⟨⟨_, .oneStatement first skips others⟩, atEnd⟩

/-- A program that is read is derived from all tokens up to the end of input, and its range is
that of all of them. -/
theorem Program.of_feed_derives {feed : Feed} {limits : Limits} {program : Program}
    (proper : feed.Proper) (read : Program.ofFeed feed limits = .ok program) :
    ∃ front after newlines tokens, Skips feed newlines front ∧
      Derives front (.statements program.statements) tokens after ∧
      (∃ start, feed.current = .ok start ∧ program.span = after.spanSince start) ∧
      ∃ token, after.current = .ok token ∧ token.kind = .endOfInput := by
  have leads : Leads feed (Parse.program limits.nesting (fuelFor feed.rest.length))
      fun program after => ∃ front newlines tokens, Skips feed newlines front ∧
        Derives front (.statements program.statements) tokens after ∧
        (∃ start, feed.current = .ok start ∧ program.span = after.spanSince start) ∧
        ∃ token, after.current = .ok token ∧ token.kind = .endOfInput := by
    apply leads_bind (leads_current proper)
    intro start _ proper outcome
    rcases outcome with ⟨rfl, isStart⟩
    apply leads_bind (leads_skip_newlines proper)
    intro _ front proper outcome
    rcases outcome with ⟨newlines, skips⟩
    apply leads_bind (program_statements_sound limits.nesting _ proper)
    intro trees after proper outcome
    rcases outcome with ⟨⟨tokens, statements⟩, atEnd⟩
    refine leads_mono (leads_spanned proper start _) ?_
    intro result _ outcome
    rcases outcome with ⟨rfl, rfl⟩
    exact ⟨front, newlines, tokens, skips, statements, ⟨start, isStart, rfl⟩, atEnd⟩
  unfold Program.ofFeed at read
  cases run : (Parse.program limits.nesting (fuelFor feed.rest.length)).run feed with
  | error halt =>
      rw [run] at read
      cases read
  | ok found =>
      rw [run] at read
      cases read
      obtain ⟨_, front, newlines, tokens, skips, statements, range, atEnd⟩ :=
        leads found.1 found.2 run
      exact ⟨front, found.2, newlines, tokens, skips, statements, range, atEnd⟩

end LayoutScript
