import LayoutScript.Proofs.Tree.Origin
import LayoutScript.Proofs.Tree.Reading

/-!
What readers decide on the tokens at hand. Given some tokens, a reader asks for more, fails,
or reads its tree; if it does not ask for more, what it does is the same whatever comes behind
the tokens. Failures start at one of the tokens, and the fuel that is computed from the number
of tokens always suffices.
-/

namespace LayoutScript

open Parse

/-- Tokens in front are taken. The end of input is never among them. -/
def Consumes (tokens left : List Token) : Prop :=
  ∃ taken, tokens = taken ++ left ∧ ∀ token ∈ taken, token.kind ≠ .endOfInput

namespace Consumes

variable {tokens left later : List Token}

theorem refl (tokens : List Token) : Consumes tokens tokens := ⟨[], rfl, by simp⟩

theorem one {token : Token} (notEnd : token.kind ≠ .endOfInput) (tokens : List Token) :
    Consumes (token :: tokens) tokens := ⟨[token], rfl, by simpa using notEnd⟩

theorem trans (first : Consumes tokens left) (second : Consumes left later) :
    Consumes tokens later := by
  obtain ⟨taken, rfl, proper⟩ := first
  obtain ⟨more, rfl, moreProper⟩ := second
  refine ⟨taken ++ more, by simp, ?_⟩
  exact List.forall_mem_append.2 ⟨proper, moreProper⟩

theorem length_le (consumes : Consumes tokens left) : left.length ≤ tokens.length := by
  obtain ⟨taken, rfl, _⟩ := consumes
  simp

theorem mem (consumes : Consumes tokens left) {token : Token} (member : token ∈ left) :
    token ∈ tokens := by
  obtain ⟨taken, rfl, _⟩ := consumes
  exact List.mem_append_right taken member

/-- An end of input that stands among the tokens is still to come. -/
theorem unfinished (consumes : Consumes tokens left)
    (proper : ∀ token ∈ left, token.kind ≠ .endOfInput) :
    ∀ token ∈ tokens, token.kind ≠ .endOfInput := by
  obtain ⟨taken, rfl, before⟩ := consumes
  exact List.forall_mem_append.2 ⟨before, proper⟩

end Consumes

mutual

/-- An expression that is no target fails at one of its nodes. -/
theorem Expression.to_pattern_error {source : List Token} (tree : Expression) {error : ScriptError}
    (fails : tree.toPattern = .error error) (nodes : AllFrom source tree.nodes) :
    ∃ span, error = .located .invalidTarget span ∧ span.StartsAmong source := by
  cases tree with
  | identifier => cases fails
  | tuple span elements =>
      cases found : Expression.toPatterns elements with
      | ok patterns =>
          rw [Expression.toPattern, found] at fails
          cases fails
      | error cause =>
          rw [Expression.toPattern, found] at fails
          cases fails
          apply Expression.to_patterns_error elements found
          exact fun node member => nodes node (List.mem_cons_of_mem _ member)
  | _ =>
      cases fails
      exact ⟨_, rfl, nodes.expression⟩

theorem Expression.to_patterns_error {source : List Token} (trees : List Expression)
    {error : ScriptError} (fails : Expression.toPatterns trees = .error error)
    (nodes : AllFrom source (Expression.nodesAll trees)) :
    ∃ span, error = .located .invalidTarget span ∧ span.StartsAmong source := by
  cases trees with
  | nil => cases fails
  | cons tree trees =>
      obtain ⟨first, others⟩ := List.forall_mem_append.1 nodes
      cases found : tree.toPattern with
      | error cause =>
          rw [Expression.toPatterns, found] at fails
          cases fails
          exact Expression.to_pattern_error tree found first
      | ok pattern =>
          cases more : Expression.toPatterns trees with
          | error cause =>
              rw [Expression.toPatterns, found, more] at fails
              cases fails
              exact Expression.to_patterns_error trees more others
          | ok patterns =>
              rw [Expression.toPatterns, found, more] at fails
              cases fails

end

/-- Skipping newlines stops in front of another token, or where the tokens at hand end. -/
theorem Feed.skip_newlines_front (tokens : List Token) (previous : Option Token) :
    ∃ last left, Consumes tokens left ∧
      (∀ ending, skipNewlinesFrom ending previous tokens = ⟨last, left, ending⟩) ∧
      (left ≠ [] → ∀ more ending,
        skipNewlinesFrom ending previous (tokens ++ more) = ⟨last, left ++ more, ending⟩) := by
  induction tokens generalizing previous with
  | nil => exact ⟨previous, [], .refl [], fun _ => rfl, fun nonempty => absurd rfl nonempty⟩
  | cons token tokens induction =>
      by_cases isNewline : token.kind = .newline
      · obtain ⟨last, left, consumes, here, onward⟩ := induction (some token)
        have taken := Consumes.one (ne_end_of_eq isNewline (by decide)) tokens
        refine ⟨last, left, taken.trans consumes, ?_, ?_⟩
        · simpa only [skipNewlinesFrom, if_pos isNewline] using here
        · simpa only [List.cons_append, skipNewlinesFrom, if_pos isNewline] using onward
      · refine ⟨previous, token :: tokens, .refl _, ?_, ?_⟩
        · simp only [skipNewlinesFrom, if_neg isNewline, implies_true]
        · simp only [List.cons_append, skipNewlinesFrom, if_neg isNewline, implies_true]

/-- What a reader makes of the tokens at hand, with any amount of extra fuel. Either it runs
into their end, or what it does is settled whatever stands behind them. All failures are of
the grammar and start where one of the tokens of the source does. -/
inductive Verdict {α : Type} (source : List Token) (reader : Nat → Parse α)
    (previous : Option Token) (tokens : List Token)
    (post : α → Option Token → List Token → Prop) : Prop where
  | wants (unfinished : ∀ token ∈ tokens, token.kind ≠ .endOfInput)
      (run : ∀ extra error, (reader extra).run ⟨previous, tokens, .error error⟩ =
        .error (.error error))
  | refuses {cause : Cause} {span : Span} (isParse : cause.kind = .parse)
      (starts : span.StartsAmong source)
      (run : ∀ extra more ending, (reader extra).run ⟨previous, tokens ++ more, ending⟩ =
        .error (.error (.located cause span)))
  | reads (value : α) {last : Option Token} {left : List Token} (consumes : Consumes tokens left)
      (run : ∀ extra more ending, (reader extra).run ⟨previous, tokens ++ more, ending⟩ =
        .ok (value, ⟨last, left ++ more, ending⟩))
      (holds : post value last left)

/-- A reader asks for a token before it does anything else. -/
def Asks {α : Type} (reader : Nat → Parse α) : Prop :=
  ∀ extra previous error, (reader extra).run ⟨previous, [], .error error⟩ = .error (.error error)

section Verdict

variable {α β : Type} {source tokens : List Token} {previous : Option Token}
  {reader : Nat → Parse α} {post : α → Option Token → List Token → Prop}

theorem Asks.bind (asks : Asks reader) (next : Nat → α → Parse β) :
    Asks fun extra => reader extra >>= next extra :=
  fun extra previous error => run_bind_error (asks extra previous error)

theorem asks_current : Asks fun _ => current := fun _ _ _ => rfl

theorem asks_consume (kind : TokenClass) (expected : Expectation) :
    Asks fun _ => consume kind expected := asks_current.bind _

namespace Verdict

theorem of_asks (asks : Asks reader) : Verdict source reader previous [] post :=
  .wants (by simp) fun extra error => asks extra previous error

theorem mono {post' : α → Option Token → List Token → Prop}
    (verdict : Verdict source reader previous tokens post)
    (weaker : ∀ value last left, Consumes tokens left → post value last left →
      post' value last left) :
    Verdict source reader previous tokens post' := by
  cases verdict with
  | wants unfinished run => exact .wants unfinished run
  | refuses isParse starts run => exact .refuses isParse starts run
  | reads value consumes run holds => exact .reads value consumes run (weaker _ _ _ consumes holds)

theorem pure {value : α} (holds : post value previous tokens) :
    Verdict source (fun _ => pure value) previous tokens post :=
  .reads value (.refl tokens) (fun _ _ _ => rfl) holds

theorem bind {next : Nat → α → Parse β} {post' : β → Option Token → List Token → Prop}
    (start : Verdict source reader previous tokens post)
    (rest : ∀ value last left, Consumes tokens left → post value last left →
      Verdict source (fun extra => next extra value) last left post') :
    Verdict source (fun extra => reader extra >>= next extra) previous tokens post' := by
  cases start with
  | wants unfinished run =>
      exact .wants unfinished fun extra error => run_bind_error (run extra error)
  | refuses isParse starts run =>
      exact .refuses isParse starts fun extra more ending => run_bind_error (run extra more ending)
  | @reads value last left consumes run holds =>
      cases rest value last left consumes holds with
      | wants unfinished later =>
          -- What was read before is read on these tokens alone too.
          refine .wants (consumes.unfinished unfinished) fun extra error => ?_
          have here := run extra [] (.error error)
          rw [List.append_nil, List.append_nil] at here
          rw [run_bind_ok here, later]
      | refuses isParse starts later =>
          refine .refuses isParse starts fun extra more ending => ?_
          rw [run_bind_ok (run extra more ending), later]
      | reads result further later holds =>
          refine .reads result (consumes.trans further) (fun extra more ending => ?_) holds
          rw [run_bind_ok (run extra more ending), later]

theorem ite {condition : Prop} [Decidable condition] {yes no : Nat → Parse α}
    (whenTrue : condition → Verdict source yes previous tokens post)
    (whenFalse : ¬condition → Verdict source no previous tokens post) :
    Verdict source (fun extra => if condition then yes extra else no extra) previous tokens
      post := by
  by_cases holds : condition
  · simpa only [if_pos holds] using whenTrue holds
  · simpa only [if_neg holds] using whenFalse holds

theorem fail {cause : Cause} {span : Span} (isParse : cause.kind = .parse)
    (starts : span.StartsAmong source) :
    Verdict source (fun _ => Parse.fail (.located cause span)) previous tokens post :=
  .refuses isParse starts fun _ _ _ => rfl

theorem current : Verdict source (fun _ => current) previous tokens fun token last left =>
    last = previous ∧ left = tokens ∧ ∃ others, tokens = token :: others := by
  cases tokens with
  | nil => exact .of_asks asks_current
  | cons token others => exact .reads token (.refl _) (fun _ _ _ => rfl) ⟨rfl, rfl, others, rfl⟩

theorem lastTaken : Verdict source (fun _ => lastTaken) previous tokens fun token last left =>
    last = previous ∧ left = tokens ∧ token = previous :=
  .reads previous (.refl _) (fun _ _ _ => rfl) ⟨rfl, rfl, rfl⟩

theorem blockClosed : Verdict source (fun _ => blockClosed) previous tokens fun _ last left =>
    last = previous ∧ left = tokens :=
  .reads (previous.any fun token => token.kind == .dedent) (.refl _) (fun _ _ _ => rfl) ⟨rfl, rfl⟩

theorem spanFrom (start : Token) :
    Verdict source (fun _ => spanFrom start) previous tokens fun _ last left =>
      last = previous ∧ left = tokens :=
  .reads (start.span.join (previous.getD start).span) (.refl _) (fun _ _ _ => rfl) ⟨rfl, rfl⟩

/-- Taking a token that is not the end of input. -/
theorem step {token : Token} {others : List Token} (notEnd : token.kind ≠ .endOfInput) :
    Verdict source (fun _ => modify Feed.advance) previous (token :: others) fun _ last left =>
      last = some token ∧ left = others := by
  refine .reads () (.one notEnd others) (fun _ more ending => ?_) ⟨rfl, rfl⟩
  change Except.ok ((), Feed.advance _) = _
  rw [Feed.advance, List.cons_append]
  simp only [if_neg notEnd]

theorem advance {token : Token} {others : List Token} (notEnd : token.kind ≠ .endOfInput) :
    Verdict source (fun _ => advance) previous (token :: others) fun taken last left =>
      taken = token ∧ last = some token ∧ left = others := by
  apply Verdict.bind .current
  intro taken last left _ found
  rcases found with ⟨rfl, rfl, _, same⟩
  cases same
  apply Verdict.bind (.step notEnd)
  intro _ last left _ found
  rcases found with ⟨rfl, rfl⟩
  exact .pure ⟨rfl, rfl, rfl⟩

theorem check (kind : TokenClass) :
    Verdict source (fun _ => check kind) previous tokens fun holds last left =>
      last = previous ∧ left = tokens ∧
        ∃ token others, tokens = token :: others ∧ holds = (token.kind == kind) := by
  apply Verdict.bind .current
  intro token last left _ found
  rcases found with ⟨rfl, rfl, others, rfl⟩
  exact .pure ⟨rfl, rfl, token, others, rfl, rfl⟩

/-- What accepting a token of a class gives. -/
def Accepted (kind : TokenClass) (previous : Option Token) (tokens : List Token)
    (found : Option Token) (last : Option Token) (left : List Token) : Prop :=
  (found = none ∧ last = previous ∧ left = tokens) ∨
    ∃ token, found = some token ∧ token.kind = kind ∧ last = some token ∧ tokens = token :: left

theorem accept {kind : TokenClass} (notEnd : kind ≠ .endOfInput) :
    Verdict source (fun _ => accept kind) previous tokens (Accepted kind previous tokens) := by
  apply Verdict.bind .current
  intro token last left _ found
  rcases found with ⟨rfl, rfl, others, rfl⟩
  apply ite
  · intro isKind
    apply Verdict.bind (.advance (ne_end_of_eq isKind notEnd))
    intro taken last left _ found
    rcases found with ⟨rfl, rfl, rfl⟩
    exact .pure (.inr ⟨taken, rfl, isKind, rfl, rfl⟩)
  · intro _
    exact .pure (.inl ⟨rfl, rfl, rfl⟩)

theorem acceptOpen {kind : TokenClass} (notEnd : kind ≠ .endOfInput) :
    Verdict source (fun _ => acceptOpen kind) previous tokens (Accepted kind previous tokens) := by
  apply Verdict.bind .blockClosed
  intro closed last left _ found
  rcases found with ⟨rfl, rfl⟩
  apply ite
  · intro _
    exact .pure (.inl ⟨rfl, rfl, rfl⟩)
  · intro _
    exact .accept notEnd

theorem unexpected (within : ∀ token ∈ tokens, token ∈ source) (expected : Expectation) :
    Verdict source (fun _ => unexpected expected) previous tokens post := by
  apply Verdict.bind .current
  intro token last left _ found
  rcases found with ⟨rfl, rfl, others, rfl⟩
  have starts : token.span.StartsAmong source := ⟨token, within token (by simp), rfl, rfl⟩
  exact ite (fun _ => .fail rfl starts) fun _ => .fail rfl starts

theorem consume (within : ∀ token ∈ tokens, token ∈ source) {kind : TokenClass}
    (notEnd : kind ≠ .endOfInput) (expected : Expectation) :
    Verdict source (fun _ => consume kind expected) previous tokens fun token last left =>
      token.kind = kind ∧ last = some token ∧ tokens = token :: left := by
  apply Verdict.bind .current
  intro token last left _ found
  rcases found with ⟨rfl, rfl, others, rfl⟩
  apply ite
  · intro isKind
    refine (Verdict.advance (ne_end_of_eq isKind notEnd)).mono fun taken last left _ found => ?_
    rcases found with ⟨rfl, rfl, rfl⟩
    exact ⟨isKind, rfl, rfl⟩
  · intro _
    exact .unexpected within expected

theorem enter {token : Token} (within : token ∈ source) (limit depth : Nat) :
    Verdict source (fun _ => enter limit depth token) previous tokens fun _ last left =>
      last = previous ∧ left = tokens := by
  apply ite
  · intro _
    exact .fail rfl ⟨token, within, rfl, rfl⟩
  · intro _
    exact .pure ⟨rfl, rfl⟩

/-- Looking at the token behind the current one. -/
theorem second {token : Token} {others : List Token} (notEnd : token.kind ≠ .endOfInput) :
    Verdict source (fun _ => second) previous (token :: others) fun _ last left =>
      last = previous ∧ left = token :: others := by
  cases others with
  | nil =>
      refine .wants (by simpa using notEnd) fun _ error => ?_
      change (ofExcept (Feed.second _)).run _ = _
      simp only [Feed.second, if_neg notEnd]
      rfl
  | cons next others =>
      refine .reads next (.refl _) (fun _ more ending => ?_) ⟨rfl, rfl⟩
      change (ofExcept (Feed.second _)).run _ = _
      simp only [Feed.second, if_neg notEnd, List.cons_append]
      rfl

/-- Newlines are taken up to the first other token. Whether one more follows is decided only
when the next reader asks for a token. -/
theorem skipNewlines_bind {next : Nat → Parse α} (asks : Asks next)
    (rest : ∀ last left, Consumes tokens left → Verdict source next last left post) :
    Verdict source (fun extra => skipNewlines >>= fun _ => next extra) previous tokens post := by
  obtain ⟨last, left, consumes, here, onward⟩ := Feed.skip_newlines_front tokens previous
  cases left with
  | nil =>
      refine .wants (consumes.unfinished (by simp)) fun extra error => ?_
      change (next extra).run (Feed.skipNewlinesFrom _ previous tokens) = _
      rw [here]
      exact asks extra last error
  | cons token others =>
      have skipped : Verdict source (fun _ => skipNewlines) previous tokens fun _ now left =>
          now = last ∧ left = token :: others := by
        refine .reads () consumes (fun _ more ending => ?_) ⟨rfl, rfl⟩
        exact congrArg (fun feed => Except.ok ((), feed)) (onward (by simp) more ending)
      apply Verdict.bind skipped
      intro _ now left consumes found
      exact rest now left consumes

theorem statementEnd (within : ∀ token ∈ tokens, token ∈ source) :
    Verdict source (fun _ => statementEnd) previous tokens fun _ _ _ => True := by
  simp only [statement_end_eq]
  apply Verdict.bind .current
  intro token last left _ found
  rcases found with ⟨rfl, rfl, others, rfl⟩
  apply ite
  · intro _
    exact .pure trivial
  · intro _
    apply ite
    · intro isNewline
      exact (Verdict.step (ne_end_of_eq isNewline (by decide))).mono fun _ _ _ _ _ => trivial
    · intro _
      apply Verdict.bind .lastTaken
      intro last _ _ _ found
      rcases found with ⟨rfl, rfl, rfl⟩
      cases last with
      | none => exact .unexpected within .statementEnd
      | some last =>
          apply ite
          · intro _
            exact .pure trivial
          · intro _
            exact .unexpected within .statementEnd

/-- Only targets are assigned to. -/
theorem target {tree : Expression} (nodes : AllFrom source tree.nodes) :
    Verdict source (fun _ => ofExcept tree.toPattern) previous tokens fun _ last left =>
      last = previous ∧ left = tokens := by
  cases found : tree.toPattern with
  | ok pattern => exact .pure ⟨rfl, rfl⟩
  | error error =>
      obtain ⟨span, rfl, starts⟩ := Expression.to_pattern_error tree found nodes
      exact .fail rfl starts

/-- The trees that a sound reader gives come from the tokens. -/
theorem from_tokens {reader : Nat → Parse Expression}
    {post : Expression → Option Token → List Token → Prop}
    (verdict : Verdict source reader previous tokens post)
    (within : ∀ token ∈ tokens, token ∈ source)
    (sound : ∀ {feed : Feed}, feed.Proper → Reads feed (reader 0) .expression) :
    Verdict source reader previous tokens fun tree last left =>
      post tree last left ∧ AllFrom source tree.nodes := by
  cases verdict with
  | wants unfinished run => exact .wants unfinished run
  | refuses isParse starts run => exact .refuses isParse starts run
  | @reads tree last left consumes run holds =>
      refine .reads tree consumes run ⟨holds, ?_⟩
      have proper :
          Feed.Proper ⟨previous, tokens ++ [], .error (.located .invalidTarget default)⟩ := by
        intro token same
        cases same
      obtain ⟨_, taken, derives⟩ := sound proper _ _ (run 0 [] _)
      refine derives.all_from.mono fun token member => within token ?_
      have parts : tokens ++ [] = taken ++ _ := derives.rest_eq
      rw [← List.append_nil tokens, parts]
      exact List.mem_append_left _ member

end Verdict

end Verdict

/-- Reading may start: the tokens belong to the source, and the fuel suffices for them and for
the readers of lower rank that are called before a token is taken. -/
structure Ready (source : List Token) (rank fuel : Nat) (tokens : List Token) : Prop where
  within : ∀ token ∈ tokens, token ∈ source
  enough : 24 * tokens.length + rank ≤ fuel

/-- A token was taken since the tokens at the start, so any reader can be called. -/
structure Behind (source : List Token) (fuel : Nat) (tokens left : List Token) : Prop
    extends Ready source 12 fuel left where
  shorter : left.length < tokens.length

namespace Ready

variable {source tokens left others : List Token} {token : Token} {rank low fuel : Nat}

theorem lower (ready : Ready source rank fuel tokens) (le : low ≤ rank) :
    Ready source low fuel tokens := by
  have enough := ready.enough
  exact ⟨ready.within, by omega⟩

/-- A reader of lower rank is called in front of the same tokens. -/
theorem call (ready : Ready source rank (fuel + 1) tokens) (lt : low < rank) :
    Ready source low fuel tokens := by
  have enough := ready.enough
  exact ⟨ready.within, by omega⟩

theorem onward (ready : Ready source rank fuel tokens) (consumes : Consumes tokens left) :
    Ready source rank fuel left := by
  have shorter := consumes.length_le
  have enough := ready.enough
  exact ⟨fun token member => ready.within token (consumes.mem member), by omega⟩

theorem behind (ready : Ready source rank (fuel + 1) tokens) (consumes : Consumes tokens left)
    (shorter : left.length < tokens.length) : Behind source fuel tokens left := by
  have enough := ready.enough
  exact ⟨⟨fun token member => ready.within token (consumes.mem member), by omega⟩, shorter⟩

theorem behind_one (ready : Ready source rank (fuel + 1) (token :: others))
    (consumes : Consumes (token :: others) others) :
    Behind source fuel (token :: others) others :=
  ready.behind consumes (by simp)

theorem first (ready : Ready source rank fuel (token :: others)) : token ∈ source :=
  ready.within token List.mem_cons_self

theorem starts (ready : Ready source rank fuel (token :: others)) :
    token.span.StartsAmong source :=
  ⟨token, ready.first, rfl, rfl⟩

end Ready

theorem Behind.fuel_pos {source tokens left : List Token} {fuel : Nat}
    (behind : Behind source fuel tokens left) : 0 < fuel := by
  have enough := behind.enough
  omega

theorem Behind.later {source tokens left later : List Token} {fuel : Nat}
    (behind : Behind source fuel tokens left) (consumes : Consumes left later) :
    Behind source fuel tokens later :=
  ⟨behind.onward consumes, consumes.length_le.trans_lt behind.shorter⟩

/-- At least one token is taken. -/
def Shortens {α : Type} (tokens : List Token) (_ : α) (_ : Option Token) (left : List Token) :
    Prop :=
  left.length < tokens.length

/-- Any number of tokens are taken. -/
def Anywhere {α : Type} (_ : α) (_ : Option Token) (_ : List Token) : Prop := True

section Shortens

variable {α β : Type} {source tokens left : List Token} {last : Option Token}
  {reader : Nat → Parse α} {post : α → Option Token → List Token → Prop}

/-- Whatever is read behind a token has that token in front. -/
theorem Verdict.shortened (shorter : left.length < tokens.length)
    (verdict : Verdict source reader last left Anywhere) :
    Verdict source reader last left (Shortens tokens) :=
  verdict.mono fun _ _ _ consumes _ => consumes.length_le.trans_lt shorter

theorem Verdict.anywhere (verdict : Verdict source reader last left post) :
    Verdict source reader last left Anywhere :=
  verdict.mono fun _ _ _ _ _ => trivial

/-- A closing parenthesis ends a list. -/
theorem Verdict.closing (within : ∀ token ∈ left, token ∈ source) (value : β) :
    Verdict source (fun _ => Parse.consume .closeParen .closeParen >>= fun _ => Pure.pure value)
      last left Anywhere :=
  .bind (.consume within (by decide) .closeParen) fun _ _ _ _ _ => .pure trivial

/-- The range of a tree is made last. -/
theorem Verdict.spanned (start : Token) (make : Span → β) :
    Verdict source (fun _ => Parse.spanFrom start >>= fun span => Pure.pure (make span)) last left
      Anywhere :=
  .bind (.spanFrom start) fun _ _ _ _ _ => .pure trivial

theorem Verdict.ended (within : ∀ token ∈ left, token ∈ source) (tree : β) :
    Verdict source (fun _ => Parse.statementEnd >>= fun _ => Pure.pure tree) last left Anywhere :=
  .bind (.statementEnd within) fun _ _ _ _ _ => .pure trivial

end Shortens

/-- All readers decide on the tokens at hand at one amount of fuel. The ranks order the readers
that are called before a token is taken. -/
structure ReadersDecide (limit : Nat) (source : List Token) (fuel : Nat) : Prop where
  expression (depth : Nat) {previous : Option Token} {tokens : List Token}
    (ready : Ready source 9 fuel tokens) :
    Verdict source (fun extra => expression limit (fuel + extra) depth) previous tokens
      (Shortens tokens)
  rebinding (depth : Nat) {previous : Option Token} {tokens : List Token}
    (ready : Ready source 8 fuel tokens) :
    Verdict source (fun extra => rebinding limit (fuel + extra) depth) previous tokens
      (Shortens tokens)
  conditional (depth : Nat) {previous : Option Token} {tokens : List Token}
    (ready : Ready source 7 fuel tokens) :
    Verdict source (fun extra => conditional limit (fuel + extra) depth) previous tokens
      (Shortens tokens)
  binary (depth least : Nat) {previous : Option Token} {tokens : List Token}
    (ready : Ready source 6 fuel tokens) :
    Verdict source (fun extra => binary limit (fuel + extra) depth least) previous tokens
      (Shortens tokens)
  binaryRest (depth least : Nat) (left : Expression) {previous : Option Token}
    {tokens : List Token} (ready : Ready source 1 fuel tokens) :
    Verdict source (fun extra => binaryRest limit (fuel + extra) depth least left) previous tokens
      Anywhere
  unary (depth : Nat) {previous : Option Token} {tokens : List Token}
    (ready : Ready source 5 fuel tokens) :
    Verdict source (fun extra => unary limit (fuel + extra) depth) previous tokens (Shortens tokens)
  power (depth : Nat) {previous : Option Token} {tokens : List Token}
    (ready : Ready source 4 fuel tokens) :
    Verdict source (fun extra => power limit (fuel + extra) depth) previous tokens (Shortens tokens)
  postfixed (depth : Nat) {previous : Option Token} {tokens : List Token}
    (ready : Ready source 3 fuel tokens) :
    Verdict source (fun extra => postfixed limit (fuel + extra) depth) previous tokens
      (Shortens tokens)
  postfixRest (depth : Nat) (subject : Expression) {previous : Option Token} {tokens : List Token}
    (ready : Ready source 2 fuel tokens) :
    Verdict source (fun extra => postfixRest limit (fuel + extra) depth subject) previous tokens
      Anywhere
  callArguments (depth : Nat) {previous : Option Token} {tokens : List Token}
    (ready : Ready source 1 fuel tokens) :
    Verdict source (fun extra => callArguments limit (fuel + extra) depth) previous tokens
      (Shortens tokens)
  moreExpressions (depth : Nat) {previous : Option Token} {tokens : List Token}
    (ready : Ready source 1 fuel tokens) :
    Verdict source (fun extra => moreExpressions limit (fuel + extra) depth) previous tokens
      Anywhere
  primary (depth : Nat) {previous : Option Token} {tokens : List Token}
    (ready : Ready source 2 fuel tokens) :
    Verdict source (fun extra => primary limit (fuel + extra) depth) previous tokens
      (Shortens tokens)
  group (depth : Nat) {previous : Option Token} {start : Token} {others : List Token}
    (notEnd : start.kind ≠ .endOfInput) (ready : Ready source 1 fuel (start :: others)) :
    Verdict source (fun extra => group limit (fuel + extra) depth) previous (start :: others)
      (Shortens (start :: others))
  functionLiteral (depth : Nat) {previous : Option Token} {start : Token} {others : List Token}
    (notEnd : start.kind ≠ .endOfInput) (ready : Ready source 1 fuel (start :: others)) :
    Verdict source (fun extra => functionLiteral limit (fuel + extra) depth) previous
      (start :: others) (Shortens (start :: others))
  block (depth : Nat) {previous : Option Token} {tokens : List Token}
    (ready : Ready source 12 fuel tokens) :
    Verdict source (fun extra => block limit (fuel + extra) depth) previous tokens (Shortens tokens)
  blockStatements (depth : Nat) {previous : Option Token} {tokens : List Token}
    (ready : Ready source 12 fuel tokens) :
    Verdict source (fun extra => blockStatements limit (fuel + extra) depth) previous tokens
      Anywhere
  statement (depth : Nat) {previous : Option Token} {tokens : List Token}
    (ready : Ready source 11 fuel tokens) :
    Verdict source (fun extra => statement limit (fuel + extra) depth) previous tokens
      (Shortens tokens)
  simpleStatement (depth : Nat) (start : Token) {previous : Option Token} {tokens : List Token}
    (ready : Ready source 10 fuel tokens) :
    Verdict source (fun extra => simpleStatement limit (fuel + extra) depth start) previous tokens
      (Shortens tokens)
  declaration (depth : Nat) {previous : Option Token} {start : Token} {others : List Token}
    (notEnd : start.kind ≠ .endOfInput) (ready : Ready source 1 fuel (start :: others)) :
    Verdict source (fun extra => declaration limit (fuel + extra) depth) previous (start :: others)
      (Shortens (start :: others))
  conditioned (depth : Nat) (make : Span → Expression → Block → Statement)
    {previous : Option Token} {start : Token} {others : List Token}
    (notEnd : start.kind ≠ .endOfInput) (ready : Ready source 1 fuel (start :: others)) :
    Verdict source (fun extra => conditioned limit (fuel + extra) depth make) previous
      (start :: others) (Shortens (start :: others))
  definition (depth : Nat) {previous : Option Token} {start : Token} {others : List Token}
    (notEnd : start.kind ≠ .endOfInput) (ready : Ready source 1 fuel (start :: others)) :
    Verdict source (fun extra => definition limit (fuel + extra) depth) previous (start :: others)
      (Shortens (start :: others))
  pattern (depth : Nat) {previous : Option Token} {tokens : List Token}
    (ready : Ready source 1 fuel tokens) :
    Verdict source (fun extra => pattern limit (fuel + extra) depth) previous tokens
      (Shortens tokens)
  tuplePattern (depth : Nat) (start : Token) {previous : Option Token} {tokens : List Token}
    (ready : Ready source 2 fuel tokens) :
    Verdict source (fun extra => tuplePattern limit (fuel + extra) depth start) previous tokens
      (Shortens tokens)
  morePatterns (depth : Nat) {previous : Option Token} {tokens : List Token}
    (ready : Ready source 1 fuel tokens) :
    Verdict source (fun extra => morePatterns limit (fuel + extra) depth) previous tokens Anywhere

section Names

variable {source tokens : List Token} {previous : Option Token}

theorem parameter_names_decide (fuel : Nat) (names : List String)
    (ready : Ready source 1 fuel tokens) :
    Verdict source (fun extra => parameterNames (fuel + extra) names) previous tokens Anywhere := by
  induction fuel generalizing previous tokens names with
  | zero => exact absurd ready.enough (by omega)
  | succ fuel induction =>
      simp only [Nat.succ_add, parameterNames]
      apply Verdict.bind (.consume ready.within (by decide) _)
      intro token _ _ consumes found
      rcases found with ⟨_, rfl, rfl⟩
      have behind := ready.behind_one consumes
      cases token.name? with
      | none => exact .unexpected behind.within _
      | some name =>
          apply Verdict.ite
          · intro _
            exact .fail rfl ready.starts
          · intro _
            apply Verdict.bind (.accept (by decide))
            intro _ _ _ consumes found
            have behind := behind.later consumes
            rcases found with ⟨rfl, rfl, rfl⟩ | ⟨comma, rfl, _, rfl, rfl⟩
            · exact .pure trivial
            · apply Verdict.bind (.check _)
              intro closes _ _ _ found
              rcases found with ⟨rfl, rfl, _⟩
              apply Verdict.ite
              · intro _
                exact .pure trivial
              · intro _
                exact induction _ (behind.lower (by decide))

theorem parameters_decide {fuel : Nat} (ready : Ready source 1 fuel tokens) :
    Verdict source (fun extra => parameters (fuel + extra)) previous tokens (Shortens tokens) := by
  apply Verdict.bind (.consume ready.within (by decide) _)
  intro _ _ _ consumes found
  rcases found with ⟨_, rfl, rfl⟩
  have ready := ready.onward consumes
  apply Verdict.shortened (Nat.lt_succ_self _)
  apply Verdict.bind (.check _)
  intro closes _ _ _ found
  rcases found with ⟨rfl, rfl, _⟩
  apply Verdict.ite
  · intro _
    exact .closing ready.within []
  · intro _
    apply Verdict.bind (parameter_names_decide _ [] ready)
    intro names _ _ consumes _
    exact .closing (ready.onward consumes).within names

end Names

namespace ReadersDecide

variable {limit fuel : Nat} {source tokens others : List Token} {previous : Option Token}
  {start : Token}

theorem pattern_step (smaller : ReadersDecide limit source fuel) (depth : Nat)
    (ready : Ready source 1 (fuel + 1) tokens) :
    Verdict source (fun extra => Parse.pattern limit (fuel + 1 + extra) depth) previous tokens
      (Shortens tokens) := by
  simp only [Nat.succ_add, Parse.pattern]
  apply Verdict.bind .current
  intro token _ _ _ found
  rcases found with ⟨rfl, rfl, others, rfl⟩
  cases named : token.name? with
  | some name =>
      apply Verdict.bind (.advance (name_not_end named))
      intro _ _ _ _ found
      rcases found with ⟨rfl, rfl, rfl⟩
      exact .pure (Nat.lt_succ_self _)
  | none =>
      apply Verdict.ite
      · intro isOpen
        apply Verdict.bind (.advance (ne_end_of_eq isOpen (by decide)))
        intro _ _ _ consumes found
        rcases found with ⟨rfl, rfl, rfl⟩
        have behind := ready.behind_one consumes
        apply Verdict.bind (.enter ready.first limit depth)
        intro _ _ _ _ found
        rcases found with ⟨rfl, rfl⟩
        apply Verdict.shortened behind.shorter
        exact .anywhere (smaller.tuplePattern (depth + 1) _ (behind.lower (by decide)))
      · intro _
        exact .unexpected ready.within _

theorem tuple_pattern_step (smaller : ReadersDecide limit source fuel) (depth : Nat) (start : Token)
    (ready : Ready source 2 (fuel + 1) tokens) :
    Verdict source (fun extra => Parse.tuplePattern limit (fuel + 1 + extra) depth start) previous
      tokens (Shortens tokens) := by
  simp only [Nat.succ_add, Parse.tuplePattern]
  apply Verdict.bind (.accept (by decide))
  intro _ _ _ consumes found
  rcases found with ⟨rfl, rfl, rfl⟩ | ⟨close, rfl, _, rfl, rfl⟩
  · apply Verdict.bind (smaller.pattern depth (ready.call (by decide)))
    intro first _ _ consumes shorter
    have behind := ready.behind consumes shorter
    apply Verdict.shortened shorter
    apply Verdict.bind (.accept (by decide))
    intro _ _ _ consumes found
    rcases found with ⟨rfl, rfl, rfl⟩ | ⟨close, rfl, _, rfl, rfl⟩
    · apply Verdict.bind (smaller.morePatterns depth (behind.lower (by decide)))
      intro others _ _ consumes _
      apply Verdict.bind (.consume (behind.later consumes).within (by decide) _)
      intro _ _ _ _ _
      exact .spanned start _
    · exact .pure trivial
  · exact .shortened (by simp) (.spanned start _)

theorem more_patterns_step (smaller : ReadersDecide limit source fuel) (depth : Nat)
    (ready : Ready source 1 (fuel + 1) tokens) :
    Verdict source (fun extra => Parse.morePatterns limit (fuel + 1 + extra) depth) previous tokens
      Anywhere := by
  simp only [Nat.succ_add, Parse.morePatterns]
  apply Verdict.bind (.accept (by decide))
  intro _ _ _ consumes found
  rcases found with ⟨rfl, rfl, rfl⟩ | ⟨comma, rfl, _, rfl, rfl⟩
  · exact .pure trivial
  · have behind := ready.behind_one consumes
    apply Verdict.bind (.check _)
    intro closes _ _ _ found
    rcases found with ⟨rfl, rfl, _⟩
    apply Verdict.ite
    · intro _
      exact .pure trivial
    · intro _
      apply Verdict.bind (smaller.pattern depth (behind.lower (by decide)))
      intro first _ _ consumes _
      have behind := behind.later consumes
      apply Verdict.bind (smaller.morePatterns depth (behind.lower (by decide)))
      intro others _ _ _ _
      exact .pure trivial

theorem expression_step (smaller : ReadersDecide limit source fuel) (depth : Nat)
    (ready : Ready source 9 (fuel + 1) tokens) :
    Verdict source (fun extra => Parse.expression limit (fuel + 1 + extra) depth) previous tokens
      (Shortens tokens) := by
  simp only [Nat.succ_add, Parse.expression]
  apply Verdict.bind .current
  intro token _ _ _ found
  rcases found with ⟨rfl, rfl, others, rfl⟩
  apply Verdict.bind (.enter ready.first limit depth)
  intro _ _ _ _ found
  rcases found with ⟨rfl, rfl⟩
  exact smaller.rebinding (depth + 1) (ready.call (by decide))

theorem rebinding_step (smaller : ReadersDecide limit source fuel) (depth : Nat)
    (ready : Ready source 8 (fuel + 1) tokens) :
    Verdict source (fun extra => Parse.rebinding limit (fuel + 1 + extra) depth) previous tokens
      (Shortens tokens) := by
  simp only [Nat.succ_add, Parse.rebinding]
  -- A target that is no name is refused at its own range, so the range must be that of a token.
  apply Verdict.bind (.from_tokens (smaller.conditional depth (ready.call (by decide)))
    ready.within ((readers_sound limit fuel).conditional depth))
  intro target _ _ consumes found
  rcases found with ⟨shorter, nodes⟩
  have behind := ready.behind consumes shorter
  apply Verdict.shortened shorter
  apply Verdict.bind (.acceptOpen (by decide))
  intro _ _ _ consumes found
  rcases found with ⟨rfl, rfl, rfl⟩ | ⟨walrus, rfl, _, rfl, rfl⟩
  · exact .pure trivial
  · have behind := behind.later consumes
    cases target with
    | identifier span name =>
        apply Verdict.bind (smaller.expression depth (behind.lower (by decide)))
        intro value _ _ _ _
        exact .pure trivial
    | _ => exact .fail rfl nodes.expression

theorem conditional_step (smaller : ReadersDecide limit source fuel) (depth : Nat)
    (ready : Ready source 7 (fuel + 1) tokens) :
    Verdict source (fun extra => Parse.conditional limit (fuel + 1 + extra) depth) previous tokens
      (Shortens tokens) := by
  simp only [Nat.succ_add, Parse.conditional]
  apply Verdict.bind (smaller.binary depth 0 (ready.call (by decide)))
  intro condition _ _ consumes shorter
  have behind := ready.behind consumes shorter
  apply Verdict.shortened shorter
  apply Verdict.bind (.acceptOpen (by decide))
  intro _ _ _ consumes found
  rcases found with ⟨rfl, rfl, rfl⟩ | ⟨question, rfl, _, rfl, rfl⟩
  · exact .pure trivial
  · have behind := behind.later consumes
    apply Verdict.bind (smaller.expression depth (behind.lower (by decide)))
    intro _ _ _ consumes _
    have behind := behind.later consumes
    apply Verdict.bind (.consume behind.within (by decide) _)
    intro _ _ _ consumes _
    have behind := behind.later consumes
    apply Verdict.bind (smaller.expression depth (behind.lower (by decide)))
    intro _ _ _ _ _
    exact .pure trivial

theorem binary_step (smaller : ReadersDecide limit source fuel) (depth least : Nat)
    (ready : Ready source 6 (fuel + 1) tokens) :
    Verdict source (fun extra => Parse.binary limit (fuel + 1 + extra) depth least) previous tokens
      (Shortens tokens) := by
  simp only [Nat.succ_add, Parse.binary]
  apply Verdict.bind (smaller.unary depth (ready.call (by decide)))
  intro left _ _ consumes shorter
  have behind := ready.behind consumes shorter
  exact .shortened shorter (smaller.binaryRest depth least left (behind.lower (by decide)))

theorem binary_rest_step (smaller : ReadersDecide limit source fuel) (depth least : Nat)
    (left : Expression) (ready : Ready source 1 (fuel + 1) tokens) :
    Verdict source (fun extra => Parse.binaryRest limit (fuel + 1 + extra) depth least left)
      previous tokens Anywhere := by
  simp only [Nat.succ_add, Parse.binaryRest]
  apply Verdict.bind .current
  intro token _ _ _ found
  rcases found with ⟨rfl, rfl, others, rfl⟩
  cases operated : binary? token with
  | none => exact .pure trivial
  | some pair =>
      obtain ⟨operator, strength⟩ := pair
      apply Verdict.bind .blockClosed
      intro closed _ _ _ found
      rcases found with ⟨rfl, rfl⟩
      apply Verdict.ite
      · intro _
        exact .pure trivial
      · intro _
        have notEnd : token.kind ≠ .endOfInput := by
          rw [ReadersSound.binary_spells operated]
          cases operator <;> decide
        apply Verdict.bind (.advance notEnd)
        intro _ _ _ consumes found
        rcases found with ⟨rfl, rfl, rfl⟩
        have behind := ready.behind_one consumes
        apply Verdict.bind (smaller.binary depth _ (behind.lower (by decide)))
        intro right _ _ consumes _
        exact smaller.binaryRest depth least _ ((behind.later consumes).lower (by decide))

theorem unary_step (smaller : ReadersDecide limit source fuel) (depth : Nat)
    (ready : Ready source 5 (fuel + 1) tokens) :
    Verdict source (fun extra => Parse.unary limit (fuel + 1 + extra) depth) previous tokens
      (Shortens tokens) := by
  simp only [Nat.succ_add, Parse.unary]
  apply Verdict.bind .current
  intro token _ _ _ found
  rcases found with ⟨rfl, rfl, others, rfl⟩
  cases operated : UnaryOperator.ofTokenClass? token.kind with
  | none => exact smaller.power depth (ready.call (by decide))
  | some operator =>
      have notEnd : token.kind ≠ .endOfInput := by
        rw [(UnaryOperator.ofTokenClass?_eq_some_iff _ _).1 operated]
        cases operator <;> decide
      apply Verdict.bind (.advance notEnd)
      intro _ _ _ consumes found
      rcases found with ⟨rfl, rfl, rfl⟩
      have behind := ready.behind_one consumes
      apply Verdict.bind (.enter ready.first limit depth)
      intro _ _ _ _ found
      rcases found with ⟨rfl, rfl⟩
      apply Verdict.shortened behind.shorter
      apply Verdict.bind (smaller.unary (depth + 1) (behind.lower (by decide)))
      intro _ _ _ _ _
      exact .pure trivial

theorem power_step (smaller : ReadersDecide limit source fuel) (depth : Nat)
    (ready : Ready source 4 (fuel + 1) tokens) :
    Verdict source (fun extra => Parse.power limit (fuel + 1 + extra) depth) previous tokens
      (Shortens tokens) := by
  simp only [Nat.succ_add, Parse.power]
  apply Verdict.bind (smaller.postfixed depth (ready.call (by decide)))
  intro base _ _ consumes shorter
  have behind := ready.behind consumes shorter
  apply Verdict.shortened shorter
  apply Verdict.bind (.acceptOpen (by decide))
  intro _ _ _ consumes found
  rcases found with ⟨rfl, rfl, rfl⟩ | ⟨token, rfl, _, rfl, rfl⟩
  · exact .pure trivial
  · apply Verdict.bind (.enter behind.first limit depth)
    intro _ _ _ _ found
    rcases found with ⟨rfl, rfl⟩
    have behind := behind.later consumes
    apply Verdict.bind (smaller.unary (depth + 1) (behind.lower (by decide)))
    intro _ _ _ _ _
    exact .pure trivial

theorem postfixed_step (smaller : ReadersDecide limit source fuel) (depth : Nat)
    (ready : Ready source 3 (fuel + 1) tokens) :
    Verdict source (fun extra => Parse.postfixed limit (fuel + 1 + extra) depth) previous tokens
      (Shortens tokens) := by
  simp only [Nat.succ_add, Parse.postfixed]
  apply Verdict.bind (smaller.primary depth (ready.call (by decide)))
  intro subject _ _ consumes shorter
  have behind := ready.behind consumes shorter
  exact .shortened shorter (smaller.postfixRest depth subject (behind.lower (by decide)))

theorem postfix_rest_step (smaller : ReadersDecide limit source fuel) (depth : Nat)
    (subject : Expression) (ready : Ready source 2 (fuel + 1) tokens) :
    Verdict source (fun extra => Parse.postfixRest limit (fuel + 1 + extra) depth subject) previous
      tokens Anywhere := by
  simp only [Nat.succ_add, Parse.postfixRest]
  apply Verdict.bind .blockClosed
  intro closed _ _ _ found
  rcases found with ⟨rfl, rfl⟩
  apply Verdict.ite
  · intro _
    exact .pure trivial
  · intro _
    apply Verdict.bind .current
    intro token _ _ _ found
    rcases found with ⟨rfl, rfl, others, rfl⟩
    apply Verdict.ite
    · intro _
      apply Verdict.bind (smaller.callArguments depth (ready.call (by decide)))
      intro arguments _ _ consumes shorter
      have behind := ready.behind consumes shorter
      apply Verdict.bind (.spanFrom token)
      intro listSpan _ _ _ found
      rcases found with ⟨rfl, rfl⟩
      exact smaller.postfixRest depth _ (behind.lower (by decide))
    · intro _
      apply Verdict.ite
      · intro isDot
        apply Verdict.bind (.advance (ne_end_of_eq isDot (by decide)))
        intro _ _ _ consumes found
        rcases found with ⟨rfl, rfl, rfl⟩
        have behind := ready.behind_one consumes
        apply Verdict.bind (.consume behind.within (by decide) _)
        intro place _ _ consumes _
        have behind := behind.later consumes
        cases place.index? with
        | some index => exact smaller.postfixRest depth _ (behind.lower (by decide))
        | none => exact .unexpected behind.within _
      · intro _
        exact .pure trivial

theorem call_arguments_step (smaller : ReadersDecide limit source fuel) (depth : Nat)
    (ready : Ready source 1 (fuel + 1) tokens) :
    Verdict source (fun extra => Parse.callArguments limit (fuel + 1 + extra) depth) previous tokens
      (Shortens tokens) := by
  simp only [Nat.succ_add, Parse.callArguments]
  apply Verdict.bind (.consume ready.within (by decide) _)
  intro _ _ _ consumes found
  rcases found with ⟨_, rfl, rfl⟩
  have behind := ready.behind_one consumes
  apply Verdict.shortened behind.shorter
  apply Verdict.bind (.check _)
  intro closes _ _ _ found
  rcases found with ⟨rfl, rfl, _⟩
  apply Verdict.ite
  · intro _
    exact .closing behind.within _
  · intro _
    apply Verdict.bind (smaller.expression depth (behind.lower (by decide)))
    intro first _ _ consumes _
    have behind := behind.later consumes
    apply Verdict.bind (smaller.moreExpressions depth (behind.lower (by decide)))
    intro others _ _ consumes _
    exact .closing (behind.later consumes).within _

theorem more_expressions_step (smaller : ReadersDecide limit source fuel) (depth : Nat)
    (ready : Ready source 1 (fuel + 1) tokens) :
    Verdict source (fun extra => Parse.moreExpressions limit (fuel + 1 + extra) depth)
      previous tokens Anywhere := by
  simp only [Nat.succ_add, Parse.moreExpressions]
  apply Verdict.bind (.accept (by decide))
  intro _ _ _ consumes found
  rcases found with ⟨rfl, rfl, rfl⟩ | ⟨comma, rfl, _, rfl, rfl⟩
  · exact .pure trivial
  · have behind := ready.behind_one consumes
    apply Verdict.bind (.check _)
    intro closes _ _ _ found
    rcases found with ⟨rfl, rfl, _⟩
    apply Verdict.ite
    · intro _
      exact .pure trivial
    · intro _
      apply Verdict.bind (smaller.expression depth (behind.lower (by decide)))
      intro first _ _ consumes _
      have behind := behind.later consumes
      apply Verdict.bind (smaller.moreExpressions depth (behind.lower (by decide)))
      intro others _ _ _ _
      exact .pure trivial

theorem primary_step (smaller : ReadersDecide limit source fuel) (depth : Nat)
    (ready : Ready source 2 (fuel + 1) tokens) :
    Verdict source (fun extra => Parse.primary limit (fuel + 1 + extra) depth) previous tokens
      (Shortens tokens) := by
  simp only [Nat.succ_add, Parse.primary]
  apply Verdict.bind .current
  intro token _ _ _ found
  rcases found with ⟨rfl, rfl, others, rfl⟩
  cases denotes : token.literal? with
  | some value =>
      apply Verdict.bind (.advance (literal_not_end denotes))
      intro _ _ _ _ found
      rcases found with ⟨rfl, rfl, rfl⟩
      exact .pure (Nat.lt_succ_self _)
  | none =>
      cases named : token.name? with
      | some name =>
          apply Verdict.bind (.advance (name_not_end named))
          intro _ _ _ _ found
          rcases found with ⟨rfl, rfl, rfl⟩
          exact .pure (Nat.lt_succ_self _)
      | none =>
          apply Verdict.ite
          · intro isOpen
            exact smaller.group depth (ne_end_of_eq isOpen (by decide)) (ready.call (by decide))
          · intro _
            apply Verdict.ite
            · intro isFunction
              exact smaller.functionLiteral depth (ne_end_of_eq isFunction (by decide))
                (ready.call (by decide))
            · intro _
              exact .unexpected ready.within _

theorem group_step (smaller : ReadersDecide limit source fuel) (depth : Nat)
    (notEnd : start.kind ≠ .endOfInput) (ready : Ready source 1 (fuel + 1) (start :: others)) :
    Verdict source (fun extra => Parse.group limit (fuel + 1 + extra) depth) previous
      (start :: others) (Shortens (start :: others)) := by
  simp only [Nat.succ_add, Parse.group]
  apply Verdict.bind (.advance notEnd)
  intro _ _ _ consumes found
  rcases found with ⟨rfl, rfl, rfl⟩
  have behind := ready.behind_one consumes
  apply Verdict.shortened behind.shorter
  apply Verdict.bind (.accept (by decide))
  intro _ _ _ _ found
  rcases found with ⟨rfl, rfl, rfl⟩ | ⟨close, rfl, _, rfl, rfl⟩
  · apply Verdict.bind (smaller.expression depth (behind.lower (by decide)))
    intro first _ _ consumes _
    have behind := behind.later consumes
    apply Verdict.bind (.accept (by decide))
    intro _ _ _ consumes found
    have behind := behind.later consumes
    rcases found with ⟨rfl, rfl, rfl⟩ | ⟨close, rfl, _, rfl, rfl⟩
    · apply Verdict.bind (smaller.moreExpressions depth (behind.lower (by decide)))
      intro others _ _ consumes _
      apply Verdict.bind (.consume (behind.later consumes).within (by decide) _)
      intro _ _ _ _ _
      exact .spanned _ _
    · exact .pure trivial
  · exact .spanned _ _

theorem function_literal_step (smaller : ReadersDecide limit source fuel) (depth : Nat)
    (notEnd : start.kind ≠ .endOfInput) (ready : Ready source 1 (fuel + 1) (start :: others)) :
    Verdict source (fun extra => Parse.functionLiteral limit (fuel + 1 + extra) depth) previous
      (start :: others) (Shortens (start :: others)) := by
  simp only [Nat.succ_add, Parse.functionLiteral]
  apply Verdict.bind (.advance notEnd)
  intro _ _ _ consumes found
  rcases found with ⟨rfl, rfl, rfl⟩
  have behind := ready.behind_one consumes
  apply Verdict.shortened behind.shorter
  apply Verdict.bind (.check _)
  intro named _ _ _ found
  rcases found with ⟨rfl, rfl, _⟩
  apply Verdict.ite
  · intro _
    exact .unexpected behind.within _
  · intro _
    apply Verdict.bind (parameters_decide (behind.lower (by decide)))
    intro names _ _ consumes _
    have behind := behind.later consumes
    apply Verdict.bind (.consume behind.within (by decide) _)
    intro _ _ _ consumes _
    have behind := behind.later consumes
    apply Verdict.bind (.check _)
    intro indented _ _ _ found
    rcases found with ⟨rfl, rfl, _⟩
    apply Verdict.ite
    · intro _
      exact .bind (smaller.block depth behind.toReady) fun body _ _ _ _ => .spanned _ _
    · intro _
      exact .bind (smaller.expression depth (behind.lower (by decide))) fun value _ _ _ _ =>
          .spanned _ (Expression.function · names (.valued value.span [] value))

theorem block_step (smaller : ReadersDecide limit source fuel) (depth : Nat)
    (ready : Ready source 12 (fuel + 1) tokens) :
    Verdict source (fun extra => Parse.block limit (fuel + 1 + extra) depth) previous tokens
      (Shortens tokens) := by
  simp only [Nat.succ_add, Parse.block]
  apply Verdict.bind .current
  intro begin _ _ _ found
  rcases found with ⟨rfl, rfl, others, rfl⟩
  apply Verdict.bind (.enter ready.first limit depth)
  intro _ _ _ _ found
  rcases found with ⟨rfl, rfl⟩
  apply Verdict.bind (.accept (by decide))
  intro _ _ _ consumes found
  rcases found with ⟨rfl, rfl, rfl⟩ | ⟨newline, rfl, _, rfl, same⟩
  · apply Verdict.bind (smaller.statement (depth + 1) (ready.call (by decide)))
    intro only _ _ _ shorter
    exact .shortened shorter (.spanned begin (Block.ofStatements · [only]))
  · cases same
    have behind := ready.behind_one consumes
    apply Verdict.shortened behind.shorter
    apply Verdict.skipNewlines_bind ((asks_consume _ _).bind _)
    intro _ _ consumes
    have behind := behind.later consumes
    apply Verdict.bind (.consume behind.within (by decide) _)
    intro _ _ _ consumes _
    have behind := behind.later consumes
    apply Verdict.bind (smaller.blockStatements (depth + 1) behind.toReady)
    intro statements _ _ consumes _
    have behind := behind.later consumes
    apply Verdict.bind (.consume behind.within (by decide) _)
    intro _ _ _ _ _
    exact .spanned begin (Block.ofStatements · statements)

theorem asks_blockStatements {limit fuel depth : Nat} (positive : 0 < fuel) :
    Asks fun extra => Parse.blockStatements limit (fuel + extra) depth := by
  obtain ⟨fuel, rfl⟩ := Nat.exists_eq_add_of_lt positive
  simp only [Nat.zero_add, Nat.succ_add, Parse.blockStatements]
  exact asks_current.bind _

theorem block_statements_step (smaller : ReadersDecide limit source fuel) (depth : Nat)
    (ready : Ready source 12 (fuel + 1) tokens) :
    Verdict source (fun extra => Parse.blockStatements limit (fuel + 1 + extra) depth)
      previous tokens Anywhere := by
  simp only [Nat.succ_add, Parse.blockStatements]
  apply Verdict.bind .current
  intro token _ _ _ found
  rcases found with ⟨rfl, rfl, others, rfl⟩
  apply Verdict.ite
  · intro _
    exact .pure trivial
  · intro _
    apply Verdict.bind (smaller.statement depth (ready.call (by decide)))
    intro first _ _ consumes shorter
    have behind := ready.behind consumes shorter
    apply Verdict.skipNewlines_bind ((asks_blockStatements behind.fuel_pos).bind _)
    intro _ _ consumes
    have behind := behind.later consumes
    apply Verdict.bind (smaller.blockStatements depth behind.toReady)
    intro others _ _ _ _
    exact .pure trivial

theorem statement_step (smaller : ReadersDecide limit source fuel) (depth : Nat)
    (ready : Ready source 11 (fuel + 1) tokens) :
    Verdict source (fun extra => Parse.statement limit (fuel + 1 + extra) depth) previous tokens
      (Shortens tokens) := by
  simp only [Nat.succ_add, Parse.statement]
  apply Verdict.skipNewlines_bind (asks_current.bind _)
  intro _ _ consumes
  have ready := ready.onward consumes
  refine .mono ?_ fun _ _ _ _ shorter => Nat.lt_of_lt_of_le shorter consumes.length_le
  apply Verdict.bind .current
  intro token _ _ _ found
  rcases found with ⟨rfl, rfl, others, rfl⟩
  cases isKind : token.kind with
  | letWord =>
      exact smaller.declaration depth (ne_end_of_eq isKind (by decide)) (ready.call (by decide))
  | whileWord | ifWord =>
      exact smaller.conditioned depth _ (ne_end_of_eq isKind (by decide)) (ready.call (by decide))
  | fnWord =>
      have notEnd := ne_end_of_eq isKind (by decide)
      apply Verdict.bind (.second notEnd)
      intro following _ _ _ found
      rcases found with ⟨rfl, rfl⟩
      apply Verdict.ite
      · intro _
        exact smaller.definition depth notEnd (ready.call (by decide))
      · intro _
        exact smaller.simpleStatement depth token (ready.call (by decide))
  | _ => exact smaller.simpleStatement depth token (ready.call (by decide))

theorem simple_statement_step (smaller : ReadersDecide limit source fuel) (depth : Nat)
    (start : Token) (ready : Ready source 10 (fuel + 1) tokens) :
    Verdict source (fun extra => Parse.simpleStatement limit (fuel + 1 + extra) depth start)
      previous tokens (Shortens tokens) := by
  simp only [Nat.succ_add, Parse.simpleStatement]
  apply Verdict.bind (.from_tokens (smaller.expression depth (ready.call (by decide)))
    ready.within ((readers_sound limit fuel).expression depth))
  intro subject _ _ consumes found
  rcases found with ⟨shorter, nodes⟩
  have behind := ready.behind consumes shorter
  apply Verdict.shortened shorter
  apply Verdict.bind (.acceptOpen (by decide))
  intro _ _ _ consumes found
  rcases found with ⟨rfl, rfl, rfl⟩ | ⟨assign, rfl, _, rfl, rfl⟩
  · apply Verdict.bind (.acceptOpen (by decide))
    intro closed _ _ consumes _
    have behind := behind.later consumes
    apply Verdict.ite
    · intro _
      apply Verdict.bind (.spanFrom start)
      intro span _ _ _ found
      rcases found with ⟨rfl, rfl⟩
      exact .ended behind.within _
    · intro _
      exact .ended behind.within _
  · have behind := behind.later consumes
    apply Verdict.bind (.target nodes)
    intro target _ _ _ found
    rcases found with ⟨rfl, rfl⟩
    apply Verdict.bind (smaller.expression depth (behind.lower (by decide)))
    intro value _ _ consumes _
    exact .ended (behind.later consumes).within _

theorem declaration_step (smaller : ReadersDecide limit source fuel) (depth : Nat)
    (notEnd : start.kind ≠ .endOfInput) (ready : Ready source 1 (fuel + 1) (start :: others)) :
    Verdict source (fun extra => Parse.declaration limit (fuel + 1 + extra) depth) previous
      (start :: others) (Shortens (start :: others)) := by
  simp only [Nat.succ_add, Parse.declaration]
  apply Verdict.bind (.advance notEnd)
  intro _ _ _ consumes found
  rcases found with ⟨rfl, rfl, rfl⟩
  have behind := ready.behind_one consumes
  apply Verdict.shortened behind.shorter
  apply Verdict.bind (smaller.pattern depth (behind.lower (by decide)))
  intro target _ _ consumes _
  have behind := behind.later consumes
  apply Verdict.bind (.consume behind.within (by decide) _)
  intro _ _ _ consumes _
  have behind := behind.later consumes
  apply Verdict.bind (smaller.expression depth (behind.lower (by decide)))
  intro value _ _ consumes _
  have behind := behind.later consumes
  apply Verdict.bind (.spanFrom _)
  intro span _ _ _ found
  rcases found with ⟨rfl, rfl⟩
  exact .ended behind.within _

theorem conditioned_step (smaller : ReadersDecide limit source fuel) (depth : Nat)
    (make : Span → Expression → Block → Statement)
    (notEnd : start.kind ≠ .endOfInput) (ready : Ready source 1 (fuel + 1) (start :: others)) :
    Verdict source (fun extra => Parse.conditioned limit (fuel + 1 + extra) depth make) previous
      (start :: others) (Shortens (start :: others)) := by
  simp only [Nat.succ_add, Parse.conditioned]
  apply Verdict.bind (.advance notEnd)
  intro _ _ _ consumes found
  rcases found with ⟨rfl, rfl, rfl⟩
  have behind := ready.behind_one consumes
  apply Verdict.shortened behind.shorter
  apply Verdict.bind (smaller.expression depth (behind.lower (by decide)))
  intro condition _ _ consumes _
  have behind := behind.later consumes
  apply Verdict.bind (.consume behind.within (by decide) _)
  intro _ _ _ consumes _
  have behind := behind.later consumes
  apply Verdict.bind (smaller.block depth behind.toReady)
  intro body _ _ _ _
  exact .spanned _ _

theorem definition_step (smaller : ReadersDecide limit source fuel) (depth : Nat)
    (notEnd : start.kind ≠ .endOfInput) (ready : Ready source 1 (fuel + 1) (start :: others)) :
    Verdict source (fun extra => Parse.definition limit (fuel + 1 + extra) depth) previous
      (start :: others) (Shortens (start :: others)) := by
  simp only [Nat.succ_add, Parse.definition]
  apply Verdict.bind (.advance notEnd)
  intro _ _ _ consumes found
  rcases found with ⟨rfl, rfl, rfl⟩
  have behind := ready.behind_one consumes
  apply Verdict.shortened behind.shorter
  apply Verdict.bind (.consume behind.within (by decide) _)
  intro token _ _ consumes _
  have behind := behind.later consumes
  cases token.name? with
  | none => exact .unexpected behind.within _
  | some name =>
      apply Verdict.bind (parameters_decide (behind.lower (by decide)))
      intro names _ _ consumes _
      have behind := behind.later consumes
      apply Verdict.bind (.consume behind.within (by decide) _)
      intro _ _ _ consumes _
      have behind := behind.later consumes
      apply Verdict.bind (smaller.block depth behind.toReady)
      intro body _ _ _ _
      exact .spanned _ _

end ReadersDecide

/-- Every reader decides on the tokens at hand, and never runs out of the fuel that their number
asks for. -/
theorem readers_decide (limit : Nat) (source : List Token) (fuel : Nat) :
    ReadersDecide limit source fuel := by
  induction fuel with
  | zero =>
      -- No rank is zero, so nothing is ready without fuel.
      constructor <;> intros <;> rename_i ready <;> exact absurd ready.enough (by omega)
  | succ fuel smaller =>
      constructor
      · exact fun depth _ _ => smaller.expression_step depth
      · exact fun depth _ _ => smaller.rebinding_step depth
      · exact fun depth _ _ => smaller.conditional_step depth
      · exact fun depth least _ _ => smaller.binary_step depth least
      · exact fun depth least left _ _ => smaller.binary_rest_step depth least left
      · exact fun depth _ _ => smaller.unary_step depth
      · exact fun depth _ _ => smaller.power_step depth
      · exact fun depth _ _ => smaller.postfixed_step depth
      · exact fun depth subject _ _ => smaller.postfix_rest_step depth subject
      · exact fun depth _ _ => smaller.call_arguments_step depth
      · exact fun depth _ _ => smaller.more_expressions_step depth
      · exact fun depth _ _ => smaller.primary_step depth
      · exact fun depth _ _ _ => smaller.group_step depth
      · exact fun depth _ _ _ => smaller.function_literal_step depth
      · exact fun depth _ _ => smaller.block_step depth
      · exact fun depth _ _ => smaller.block_statements_step depth
      · exact fun depth _ _ => smaller.statement_step depth
      · exact fun depth start _ _ => smaller.simple_statement_step depth start
      · exact fun depth _ _ _ => smaller.declaration_step depth
      · exact fun depth make _ _ _ => smaller.conditioned_step depth make
      · exact fun depth _ _ _ => smaller.definition_step depth
      · exact fun depth _ _ => smaller.pattern_step depth
      · exact fun depth start _ _ => smaller.tuple_pattern_step depth start
      · exact fun depth _ _ => smaller.more_patterns_step depth

section Program

variable {source tokens : List Token} {previous : Option Token} {limit fuel : Nat}

/-- Reading stopped in front of the end of input. -/
def AtEndOfInput {α : Type} (_ : α) (_ : Option Token) (left : List Token) : Prop :=
  ∃ token others, left = token :: others ∧ token.kind = .endOfInput

theorem asks_programStatements (positive : 0 < fuel) :
    Asks fun extra => programStatements limit (fuel + extra) := by
  obtain ⟨fuel, rfl⟩ := Nat.exists_eq_add_of_lt positive
  simp only [Nat.zero_add, Nat.succ_add, programStatements]
  exact asks_current.bind _

theorem program_statements_decide (ready : Ready source 12 fuel tokens) :
    Verdict source (fun extra => programStatements limit (fuel + extra)) previous tokens
      AtEndOfInput := by
  induction fuel generalizing previous tokens with
  | zero => exact absurd ready.enough (by omega)
  | succ fuel induction =>
      simp only [Nat.succ_add, programStatements]
      apply Verdict.bind .current
      intro token _ _ _ found
      rcases found with ⟨rfl, rfl, others, rfl⟩
      apply Verdict.ite
      · intro isEnd
        exact .pure ⟨token, others, rfl, isEnd⟩
      · intro _
        have smaller := readers_decide limit source fuel
        apply Verdict.bind (smaller.statement 0 (ready.call (by decide)))
        intro first _ _ consumes shorter
        have behind := ready.behind consumes shorter
        apply Verdict.skipNewlines_bind ((asks_programStatements behind.fuel_pos).bind _)
        intro _ _ consumes
        apply Verdict.bind (induction (behind.later consumes).toReady)
        intro others _ _ _ atEnd
        exact .pure atEnd

theorem program_decides (ready : Ready source 12 fuel tokens) :
    Verdict source (fun extra => program limit (fuel + extra)) previous tokens AtEndOfInput := by
  have positive : 0 < fuel := by
    have enough := ready.enough
    omega
  apply Verdict.bind .current
  intro start _ _ _ found
  rcases found with ⟨rfl, rfl, _⟩
  apply Verdict.skipNewlines_bind ((asks_programStatements positive).bind _)
  intro _ _ consumes
  apply Verdict.bind (program_statements_decide (ready.onward consumes))
  intro statements _ _ _ atEnd
  apply Verdict.bind (.spanFrom start)
  intro span _ _ _ found
  rcases found with ⟨rfl, rfl⟩
  exact .pure atEnd

end Program

/-- What the tokens at hand say about the program that they begin. -/
inductive Program.Outlook (tokens : List Token) (limits : Limits) : Prop where
  | undecided (unfinished : ∀ token ∈ tokens, token.kind ≠ .endOfInput)
      (asks : ∀ error, Program.ofFeed ⟨none, tokens, .error error⟩ limits = .error (.error error))
  | failed {cause : Cause} {span : Span} (isParse : cause.kind = .parse)
      (starts : span.StartsAmong tokens)
      (settled : ∀ more ending, Program.ofFeed ⟨none, tokens ++ more, ending⟩ limits =
        .error (.error (.located cause span)))
  | read (program : Program) (finished : ∃ token ∈ tokens, token.kind = .endOfInput)
      (settled : ∀ more ending, Program.ofFeed ⟨none, tokens ++ more, ending⟩ limits = .ok program)

/-- Whether a program can be read, and what it is, depends on no token behind those that were
asked for. -/
theorem Program.outlook (tokens : List Token) (limits : Limits) :
    Program.Outlook tokens limits := by
  have ready : Ready tokens 12 (fuelFor tokens.length) tokens := by
    refine ⟨fun _ member => member, ?_⟩
    unfold fuelFor
    omega
  have fuel (more : List Token) :
      fuelFor (tokens ++ more).length = fuelFor tokens.length + 24 * more.length := by
    simp only [fuelFor, List.length_append]
    omega
  have verdict : Verdict tokens
      (fun extra => Parse.program limits.nesting (fuelFor tokens.length + extra)) none tokens
      AtEndOfInput := program_decides ready
  cases verdict with
  | wants unfinished run =>
      refine .undecided unfinished fun error => ?_
      unfold Program.ofFeed
      rw [← Nat.add_zero (fuelFor _), run]
      rfl
  | refuses isParse starts run =>
      refine .failed isParse starts fun more ending => ?_
      unfold Program.ofFeed
      rw [fuel, run]
      rfl
  | reads program consumes run atEnd =>
      obtain ⟨token, others, rfl, isEnd⟩ := atEnd
      refine .read program ⟨token, consumes.mem (by simp), isEnd⟩ fun more ending => ?_
      unfold Program.ofFeed
      rw [fuel, run]
      rfl

end LayoutScript
