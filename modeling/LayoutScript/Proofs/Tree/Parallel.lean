import LayoutScript.Proofs.Tree.LayoutRoundTrip
import LayoutScript.Proofs.Tree.Yield

/-!
Two readings side by side: one of tokens up to the end of input, and one of tokens with the same
signs in front of more. The first reading meets the end of input only where a line or a block has
ended, and there the second one goes on with what follows. A reader carries over if what it reads
of the first tokens it reads of the others as well.
-/

namespace LayoutScript

open Parse

section Signs

variable {token token' : Token}

theorem Token.literal_of_same_sign (same : token'.sign = token.sign) :
    token'.literal? = token.literal? := by
  cases signed : token.sign with
  | literal value => rw [literal_of_sign signed, literal_of_sign (same.trans signed)]
  | name text => rw [(name_of_sign signed).1, (name_of_sign (same.trans signed)).1]
  | mark kind => rw [(mark_of_sign signed).1, (mark_of_sign (same.trans signed)).1]

theorem Token.name_of_same_sign (same : token'.sign = token.sign) :
    token'.name? = token.name? := by
  cases signed : token.sign with
  | literal value =>
      have unnamed {token : Token} (signed : token.sign = .literal value) : token.name? = none := by
        have other : token.kind ≠ .identifier := by
          rw [← sign_kind, signed]
          cases value <;> simp [Sign.kind, Literal.tokenClass]
        cases named : token.name? with
        | none => rfl
        | some text => exact absurd (name_some named) other
      rw [unnamed signed, unnamed (same.trans signed)]
  | name text => rw [(name_of_sign signed).2, (name_of_sign (same.trans signed)).2]
  | mark kind => rw [(mark_of_sign signed).2.1, (mark_of_sign (same.trans signed)).2.1]

theorem Token.index_of_same_sign (same : token'.sign = token.sign) :
    token'.index? = token.index? := by
  have literal {token : Token} {index : Nat} (denotes : token.index? = some index) :
      token.sign = .literal (.int index) := sign_of_index denotes
  cases found : token.index? with
  | some index => exact (index_of_sign (same.trans (literal found))).2
  | none =>
      cases found' : token'.index? with
      | none => rfl
      | some index =>
          rw [(index_of_sign (same.symm.trans (literal found'))).2] at found
          cases found

theorem Parse.binary_of_same_sign (same : token'.sign = token.sign) :
    binary? token' = binary? token := by
  rw [binary?, binary?, Token.kind_of_same_sign same]

end Signs

/-- Behind a token of these classes a line is complete. -/
def TokenClass.settles (kind : TokenClass) : Bool := kind == .newline || kind == .dedent

/-- Only the end of input is left. -/
def AtEnd (rest : List Token) : Prop := ∃ ending, rest = [ending] ∧ ending.kind = .endOfInput

/-- Tokens up to the end of input, which comes behind a complete line, and tokens with the same
signs in front of more. -/
inductive Parallel (more : List Token) : List Token → List Token → Prop where
  | done {ending : Token} (isEnd : ending.kind = .endOfInput) : Parallel more [ending] more
  | next {token token' : Token} {rest rest' : List Token} (same : token'.sign = token.sign)
      (proper : token.kind ≠ .endOfInput) (settled : AtEnd rest → token.kind.settles = true)
      (others : Parallel more rest rest') : Parallel more (token :: rest) (token' :: rest')

def Feed.Spent (feed : Feed) : Prop := AtEnd feed.rest

/-- No newline was taken last. -/
def Feed.Inside (feed : Feed) : Prop := ∀ token, feed.previous = some token → token.kind ≠ .newline

/-- Two feeds have parallel tokens ahead. -/
structure Beside (more : List Token) (feed other : Feed) : Prop where
  proper : feed.Proper
  ahead : Parallel more feed.rest other.rest

/-- Two feeds have parallel tokens ahead and behind. -/
structure Mirrors (more : List Token) (feed other : Feed) : Prop
    extends Beside more feed other where
  last : other.previous.map Token.kind = feed.previous.map Token.kind
  settled : feed.Spent → ∃ token, feed.previous = some token ∧ token.kind.settles = true

section Feeds

variable {more : List Token} {feed other : Feed}

theorem Takes.current {token : Token} {after : Feed} (takes : Takes feed token after) :
    feed.current = .ok token := by
  cases takes
  rfl

theorem Takes.previous {token : Token} {after : Feed} (takes : Takes feed token after) :
    after.previous = some token := by
  cases takes
  rfl

theorem Takes.advance_eq {token : Token} {after : Feed} (takes : Takes feed token after) :
    feed.advance = after := by
  cases takes with
  | front proper => simp only [Feed.advance, if_neg proper]

theorem Takes.run_advance {token : Token} {after : Feed} (takes : Takes feed token after) :
    advance.run feed = .ok (token, after) := by
  rw [← takes.advance_eq]
  exact run_bind_ok (run_current takes.current)

theorem Takes.run_accept {token : Token} {after : Feed} {kind : TokenClass}
    (takes : Takes feed token after) (isKind : token.kind = kind) :
    (accept kind).run feed = .ok (some token, after) := by
  rw [accept, run_bind_ok (run_current takes.current), if_pos isKind, run_bind_ok takes.run_advance]
  rfl

theorem Takes.run_consume {token : Token} {after : Feed} {kind : TokenClass}
    {expected : Expectation} (takes : Takes feed token after) (isKind : token.kind = kind) :
    (consume kind expected).run feed = .ok (token, after) := by
  rw [consume, run_bind_ok (run_current takes.current), if_pos isKind]
  exact takes.run_advance

theorem Takes.run_second {token next : Token} {after : Feed} (takes : Takes feed token after)
    (isNext : after.current = .ok next) : second.run feed = .ok (next, feed) := by
  have isSecond : feed.second = .ok next := by
    cases takes with
    | front proper =>
        rw [Feed.second]
        simp only [if_neg proper]
        exact isNext
  change (ofExcept feed.second).run feed = _
  rw [isSecond]
  rfl

/-- What is taken on one side can be taken on the other. -/
theorem Beside.takes (beside : Beside more feed other) {token : Token} {after : Feed}
    (takes : Takes feed token after) :
    ∃ token' after', Takes other token' after' ∧ token'.sign = token.sign ∧
      Mirrors more after after' := by
  obtain ⟨previous', rest', ending'⟩ := other
  obtain ⟨proper, ahead⟩ := beside
  cases takes with
  | front notEnd =>
      cases ahead with
      | done isEnd => exact absurd isEnd notEnd
      | @next _ token' _ rest' same _ settled others =>
          have notEnd' : token'.kind ≠ .endOfInput := by rwa [Token.kind_of_same_sign same]
          refine ⟨token', _, .front notEnd', same, ⟨proper, others⟩, ?_, ?_⟩
          · simp [Token.kind_of_same_sign same]
          · exact fun spent => ⟨token, rfl, settled spent⟩

theorem Beside.has_token (beside : Beside more feed other) (alive : ¬ feed.Spent) :
    ∃ token after, Takes feed token after := by
  obtain ⟨previous, rest, ending⟩ := feed
  obtain ⟨previous', rest', ending'⟩ := other
  obtain ⟨proper, ahead⟩ := beside
  cases ahead with
  | done isEnd => exact absurd ⟨_, rfl, isEnd⟩ alive
  | next _ notEnd => exact ⟨_, _, .front notEnd⟩

theorem Feed.Spent.current (spent : feed.Spent) :
    ∃ token, feed.current = .ok token ∧ token.kind = .endOfInput := by
  obtain ⟨ending, rest, isEnd⟩ := spent
  exact ⟨ending, by rw [Feed.current, rest], isEnd⟩

/-- At the end of input nothing is left to be read, and reading stays there. -/
theorem Feed.Spent.derives (spent : feed.Spent) {phrase : Phrase} {tokens : List Token}
    {after : Feed} (derives : Derives feed phrase tokens after) : tokens = [] ∧ after.Spent := by
  have rest := derives.rest_eq
  cases tokens with
  | nil =>
      rw [Feed.Spent, rest] at spent
      exact ⟨rfl, spent⟩
  | cons token tokens =>
      obtain ⟨ending, isCurrent, isEnd⟩ := spent.current
      rw [Feed.current, rest] at isCurrent
      cases isCurrent
      exact absurd isEnd (derives.not_end _ List.mem_cons_self)

/-- At the end of input the other reading stands in front of what follows. -/
theorem Beside.rest_at_end (beside : Beside more feed other) (spent : feed.Spent) :
    other.rest = more := by
  obtain ⟨previous, rest, ending⟩ := feed
  obtain ⟨previous', rest', ending'⟩ := other
  obtain ⟨proper, ahead⟩ := beside
  obtain ⟨last, rfl, isEnd⟩ := spent
  cases ahead with
  | done => rfl
  | next _ notEnd => exact absurd isEnd notEnd

/-- A token that does not complete a line is not the last one. -/
theorem Mirrors.alive (mirrors : Mirrors more feed other) {token : Token}
    (taken : feed.previous = some token) (unsettled : token.kind.settles = false) :
    ¬ feed.Spent := by
  intro spent
  obtain ⟨last, isLast, settles⟩ := mirrors.settled spent
  cases isLast.symm.trans taken
  rw [unsettled] at settles
  cases settles

theorem Mirrors.same_closed (mirrors : Mirrors more feed other) :
    other.blockClosed = feed.blockClosed := by
  have last := mirrors.last
  unfold Feed.blockClosed
  cases previous : feed.previous with
  | none =>
      rw [previous, Option.map_none, Option.map_eq_none_iff] at last
      rw [last]
  | some token =>
      rw [previous, Option.map_some, Option.map_eq_some_iff] at last
      obtain ⟨token', isLast, same⟩ := last
      rw [isLast, Option.any_some, Option.any_some, same]

/-- Inside a line the end of input comes right behind an indented body. -/
theorem Mirrors.closed_at_end (mirrors : Mirrors more feed other) (inside : feed.Inside)
    (spent : feed.Spent) : feed.blockClosed = true := by
  obtain ⟨token, taken, settles⟩ := mirrors.settled spent
  have isDedent : token.kind = .dedent := by
    simpa [TokenClass.settles, inside token taken] using settles
  simp [Feed.blockClosed, taken, isDedent]

end Feeds

/-- Where one reading succeeds and comes to a goal, the other one does as well, and the feeds
behind them mirror each other. -/
def Carries {α : Type} (more : List Token) (goal : Feed → Prop) (post : α → α → Feed → Prop)
    (feed other : Feed) (reader reader' : Parse α) : Prop :=
  ∀ value after, reader.run feed = .ok (value, after) → goal after →
    ∃ value' after', reader'.run other = .ok (value', after') ∧ post value value' after ∧
      Mirrors more after after'

section Carries

variable {α β : Type} {more : List Token} {goal : Feed → Prop} {feed other : Feed}

theorem run_bind_inv {reader : Parse α} {next : α → Parse β} {value : β} {after : Feed}
    (run : (reader >>= next).run feed = .ok (value, after)) :
    ∃ middle between, reader.run feed = .ok (middle, between) ∧
      (next middle).run between = .ok (value, after) := by
  rw [StateT.run_bind] at run
  cases first : reader.run feed with
  | error halt =>
      rw [first] at run
      cases run
  | ok read =>
      rw [first] at run
      exact ⟨read.1, read.2, rfl, run⟩

theorem carries_pure (mirrors : Mirrors more feed other) {value value' : α}
    {post : α → α → Feed → Prop} (holds : post value value' feed) :
    Carries more goal post feed other (pure value) (pure value') := by
  intro result after run _
  cases run
  exact ⟨value', other, rfl, holds, mirrors⟩

theorem carries_fail {error : ScriptError} {reader : Parse α} {post : α → α → Feed → Prop} :
    Carries more goal post feed other (fail error) reader := by
  intro result after run
  cases run

theorem carries_out_of_fuel {reader : Parse α} {post : α → α → Feed → Prop} :
    Carries more goal post feed other outOfFuel reader := by
  intro result after run
  cases run

theorem carries_unexpected {expected : Expectation} {reader : Parse α}
    {post : α → α → Feed → Prop} :
    Carries more goal post feed other (unexpected expected) reader := by
  intro result after run
  obtain ⟨token, between, _, failed⟩ := run_bind_inv run
  split at failed <;> cases failed

/-- Both readings begin with steps that are known. -/
theorem carries_run {reader reader' : Parse α} {next next' : α → Parse β} {value value' : α}
    {between between' : Feed} {post : β → β → Feed → Prop}
    (run : reader.run feed = .ok (value, between))
    (run' : reader'.run other = .ok (value', between'))
    (rest : Carries more goal post between between' (next value) (next' value')) :
    Carries more goal post feed other (reader >>= next) (reader' >>= next') := by
  intro result after ran reached
  rw [run_bind_ok run] at ran
  obtain ⟨result', after', ran', holds, mirrors⟩ := rest result after ran reached
  exact ⟨result', after', by rw [run_bind_ok run', ran'], holds, mirrors⟩

/-- A reading that has to come to a goal on the way. -/
theorem carries_bind_via {reader reader' : Parse α} {next next' : α → Parse β}
    {between : α → α → Feed → Prop} {post : β → β → Feed → Prop} (stage : Feed → Prop)
    (start : Carries more stage between feed other reader reader')
    (reached : ∀ value behind result after, (next value).run behind = .ok (result, after) →
      goal after → stage behind)
    (rest : ∀ value value' behind behind', between value value' behind →
      Mirrors more behind behind' →
      Carries more goal post behind behind' (next value) (next' value')) :
    Carries more goal post feed other (reader >>= next) (reader' >>= next') := by
  intro result after ran final
  obtain ⟨value, behind, run, further⟩ := run_bind_inv ran
  obtain ⟨value', behind', run', holds, mirrors⟩ :=
    start value behind run (reached value behind result after further final)
  obtain ⟨result', after', further', sound, mirrored⟩ :=
    rest value value' behind behind' holds mirrors result after further final
  exact ⟨result', after', by rw [run_bind_ok run', further'], sound, mirrored⟩

theorem carries_bind {reader reader' : Parse α} {next next' : α → Parse β}
    {between : α → α → Feed → Prop} {post : β → β → Feed → Prop}
    (start : Carries more (fun _ => True) between feed other reader reader')
    (rest : ∀ value value' behind behind', between value value' behind →
      Mirrors more behind behind' →
      Carries more goal post behind behind' (next value) (next' value')) :
    Carries more goal post feed other (reader >>= next) (reader' >>= next') :=
  carries_bind_via _ start (fun _ _ _ _ _ _ => trivial) rest

/-- Both readings take the same branch. -/
theorem carries_ite {condition : Prop} [Decidable condition] {yes yes' no no' : Parse α}
    {post : α → α → Feed → Prop}
    (whenTrue : condition → Carries more goal post feed other yes yes')
    (whenFalse : ¬condition → Carries more goal post feed other no no') :
    Carries more goal post feed other (if condition then yes else no)
      (if condition then yes' else no') := by
  by_cases holds : condition
  · rw [if_pos holds, if_pos holds]
    exact whenTrue holds
  · rw [if_neg holds, if_neg holds]
    exact whenFalse holds

/-- What a successful reading needs may be assumed. -/
theorem carries_given {reader reader' : Parse α} {post : α → α → Feed → Prop} {needed : Prop}
    (needs : ∀ value after, reader.run feed = .ok (value, after) → goal after → needed)
    (carries : needed → Carries more goal post feed other reader reader') :
    Carries more goal post feed other reader reader' :=
  fun value after run reached => carries (needs value after run reached) value after run reached

end Carries

/-- Something follows that is no empty line. -/
def Follows (more : List Token) : Prop :=
  ∃ first others, more = first :: others ∧ first.kind ≠ .newline

theorem Follows.current {more : List Token} (follows : Follows more) {feed : Feed}
    (rest : feed.rest = more) : ∃ first, feed.current = .ok first ∧ first.kind ≠ .newline := by
  obtain ⟨first, others, rfl, other⟩ := follows
  exact ⟨first, by rw [Feed.current, rest], other⟩

section Parts

variable {more : List Token} {goal : Feed → Prop} {feed other : Feed}

/-- A token that is taken has the same sign on both sides. -/
def SameToken (kind : TokenClass) (token token' : Token) (after : Feed) : Prop :=
  token'.sign = token.sign ∧ token.kind = kind ∧ after.previous = some token

/-- Behind a token of this class there is another one. -/
theorem SameToken.alive {kind : TokenClass} {token token' : Token} {after' : Feed}
    (same : SameToken kind token token' feed) (mirrors : Mirrors more feed after')
    (unsettled : kind.settles = false) : ¬ feed.Spent :=
  mirrors.alive same.2.2 (by rwa [same.2.1])

theorem SameToken.inside {kind : TokenClass} {token token' : Token}
    (same : SameToken kind token token' feed) (other : kind ≠ .newline) : feed.Inside := by
  intro taken isTaken
  cases isTaken.symm.trans same.2.2
  rwa [same.2.1]

theorem carries_consume (beside : Beside more feed other) {kind : TokenClass}
    (notEnd : kind ≠ .endOfInput) (expected : Expectation) :
    Carries more goal (SameToken kind) feed other (consume kind expected)
      (consume kind expected) := by
  intro token after run _
  obtain ⟨_, takes, isKind⟩ := leads_consume beside.proper notEnd token after run
  obtain ⟨token', after', takes', same, mirrors⟩ := beside.takes takes
  refine ⟨token', after', takes'.run_consume ?_, ⟨same, isKind, takes.previous⟩, mirrors⟩
  rwa [Token.kind_of_same_sign same]

/-- Nothing is consumed at the end of input. -/
theorem consume_alive {kind : TokenClass} (notEnd : kind ≠ .endOfInput) {expected : Expectation}
    {α : Type} {next : Token → Parse α} {value : α} {after : Feed}
    (run : (consume kind expected >>= next).run feed = .ok (value, after)) : ¬ feed.Spent := by
  intro spent
  obtain ⟨ending, isCurrent, isEnd⟩ := spent.current
  obtain ⟨token, behind, taken, _⟩ := run_bind_inv run
  have other : ending.kind ≠ kind := by
    rw [isEnd]
    exact notEnd.symm
  rw [consume, run_bind_ok (run_current isCurrent), if_neg other, unexpected,
    run_bind_ok (run_current isCurrent), if_pos isEnd] at taken
  cases taken

/-- Both readings accept a token of a class, or both find another one. -/
inductive Accepted (more : List Token) (kind : TokenClass) (reader : Parse (Option Token))
    (feed other : Feed) : Prop where
  | none (run : reader.run feed = .ok (.none, feed)) (run' : reader.run other = .ok (.none, other))
  | some {token token' : Token} {after after' : Feed}
      (run : reader.run feed = .ok (.some token, after))
      (run' : reader.run other = .ok (.some token', after'))
      (same : SameToken kind token token' after)
      (mirrors : Mirrors more after after')

theorem Beside.accept (beside : Beside more feed other) (alive : ¬ feed.Spent) (kind : TokenClass) :
    Accepted more kind (accept kind) feed other := by
  obtain ⟨token, after, takes⟩ := beside.has_token alive
  obtain ⟨token', after', takes', same, mirrors⟩ := beside.takes takes
  have sameKind := Token.kind_of_same_sign same
  by_cases isKind : token.kind = kind
  · exact .some (takes.run_accept isKind) (takes'.run_accept (sameKind.trans isKind))
      ⟨same, isKind, takes.previous⟩ mirrors
  · exact .none (run_accept_none takes.current isKind)
      (run_accept_none takes'.current (by rwa [sameKind]))

theorem Mirrors.accept_open (mirrors : Mirrors more feed other) (inside : feed.Inside)
    (kind : TokenClass) : Accepted more kind (acceptOpen kind) feed other := by
  have sameClosed := mirrors.same_closed
  cases closed : feed.blockClosed with
  | true =>
      rw [closed] at sameClosed
      have skipped {feed : Feed} (closed : feed.blockClosed = true) :
          (acceptOpen kind).run feed = .ok (none, feed) := by
        rw [acceptOpen, run_bind_ok run_block_closed, closed]
        rfl
      exact .none (skipped closed) (skipped sameClosed)
  | false =>
      rw [closed] at sameClosed
      have alive : ¬ feed.Spent := by
        intro spent
        rw [mirrors.closed_at_end inside spent] at closed
        cases closed
      have accepts {feed : Feed} (closed : feed.blockClosed = false) :
          (acceptOpen kind).run feed = (accept kind).run feed := by
        rw [acceptOpen, run_bind_ok run_block_closed, closed]
        rfl
      cases mirrors.accept alive kind with
      | none run run' => exact .none ((accepts closed).trans run) ((accepts sameClosed).trans run')
      | some run run' same mirrors =>
          exact .some ((accepts closed).trans run) ((accepts sameClosed).trans run') same mirrors

theorem Beside.check (beside : Beside more feed other) (alive : ¬ feed.Spent) (kind : TokenClass) :
    ∃ isKind, (check kind).run feed = .ok (isKind, feed) ∧
      (check kind).run other = .ok (isKind, other) := by
  obtain ⟨token, after, takes⟩ := beside.has_token alive
  obtain ⟨token', after', takes', same, _⟩ := beside.takes takes
  refine ⟨token.kind == kind, run_check takes.current kind, ?_⟩
  rw [run_check takes'.current kind, Token.kind_of_same_sign same]

theorem carries_enter {β : Type} {limit depth : Nat} {token token' : Token}
    {next next' : Unit → Parse β} {post : β → β → Feed → Prop}
    (rest : Carries more goal post feed other (next ()) (next' ())) :
    Carries more goal post feed other (enter limit depth token >>= next)
      (enter limit depth token' >>= next') := by
  by_cases within : depth + 1 ≤ limit
  · exact carries_run (run_enter within) (run_enter within) rest
  · intro value after run
    obtain ⟨_, _, entered, _⟩ := run_bind_inv run
    rw [enter, if_pos (by omega)] at entered
    cases entered

theorem skip_newlines_parallel {rest rest' : List Token} (parallel : Parallel more rest rest')
    (follows : Follows more)
    (previous previous' : Option Token) (ending ending' : Except ScriptError Token)
    (proper : ∀ token, ending = .ok token → token.kind = .endOfInput) :
    Beside more (Feed.skipNewlinesFrom ending previous rest)
      (Feed.skipNewlinesFrom ending' previous' rest') ∧
    (Mirrors more ⟨previous, rest, ending⟩ ⟨previous', rest', ending'⟩ →
      Mirrors more (Feed.skipNewlinesFrom ending previous rest)
        (Feed.skipNewlinesFrom ending' previous' rest')) := by
  induction parallel generalizing previous previous' with
  | @done last isEnd =>
      obtain ⟨first, others, rfl, notNewline⟩ := follows
      rw [Feed.skipNewlinesFrom, if_neg (by simp [isEnd]), Feed.skipNewlinesFrom, if_neg notNewline]
      exact ⟨⟨proper, .done isEnd⟩, id⟩
  | @next token token' rest rest' same notEnd settled others induction =>
      rw [Feed.skipNewlinesFrom, Feed.skipNewlinesFrom, Token.kind_of_same_sign same]
      split
      · rename_i isNewline
        have behind : Mirrors more ⟨some token, rest, ending⟩ ⟨some token', rest', ending'⟩ :=
          ⟨⟨proper, others⟩, by simp [Token.kind_of_same_sign same],
            fun spent => ⟨token, rfl, settled spent⟩⟩
        have mirrors := (induction (some token) (some token')).2 behind
        exact ⟨mirrors.toBeside, fun _ => mirrors⟩
      · exact ⟨⟨proper, .next same notEnd settled others⟩, id⟩

/-- Newlines are skipped on both sides, up to the end of input or to what follows. -/
theorem Beside.skip_newlines (beside : Beside more feed other)
    (follows : Follows more) :
    Beside more feed.skipNewlines other.skipNewlines :=
  (skip_newlines_parallel beside.ahead follows _ _ _ _ beside.proper).1

theorem Mirrors.skip_newlines (mirrors : Mirrors more feed other)
    (follows : Follows more) :
    Mirrors more feed.skipNewlines other.skipNewlines :=
  (skip_newlines_parallel mirrors.ahead follows _ _ _ _ mirrors.proper).2 mirrors

/-- The token that was taken last ends a statement on both sides or on none. -/
theorem carries_ended_by (mirrors : Mirrors more feed other) :
    Carries more goal (fun _ _ _ => True) feed other (endedBy feed.previous)
      (endedBy other.previous) := by
  have last := mirrors.last
  cases previous : feed.previous with
  | none => exact carries_unexpected
  | some token =>
      rw [previous, Option.map_some, Option.map_eq_some_iff] at last
      obtain ⟨token', isLast, same⟩ := last
      rw [isLast, endedBy, endedBy, same]
      apply carries_ite
      · intro _
        exact carries_pure mirrors trivial
      · intro _
        exact carries_unexpected

theorem carries_statement_end (mirrors : Mirrors more feed other)
    (follows : Follows more) :
    Carries more goal (fun _ _ _ => True) feed other statementEnd statementEnd := by
  by_cases spent : feed.Spent
  · obtain ⟨ending, isCurrent, isEnd⟩ := spent.current
    obtain ⟨first, isCurrent', notNewline⟩ := follows.current (mirrors.rest_at_end spent)
    obtain ⟨token, taken, settles⟩ := mirrors.settled spent
    have last := mirrors.last
    rw [taken, Option.map_some, Option.map_eq_some_iff] at last
    obtain ⟨token', isLast, same⟩ := last
    rw [statement_end_eq]
    apply carries_run (run_current isCurrent) (run_current isCurrent')
    rw [if_pos (by simp [isEnd]), if_neg notNewline]
    -- Whatever follows, the line is complete.
    split
    · exact carries_pure mirrors trivial
    · intro result after run _
      cases run
      refine ⟨(), other, ?_, trivial, mirrors⟩
      change (endedBy other.previous).run other = _
      rw [isLast, endedBy, same, if_pos (by simpa [TokenClass.settles] using settles)]
      rfl
  · obtain ⟨token, after, takes⟩ := mirrors.has_token spent
    obtain ⟨token', after', takes', same, behind⟩ := mirrors.takes takes
    rw [statement_end_eq]
    apply carries_run (run_current takes.current) (run_current takes'.current)
    rw [Token.kind_of_same_sign same]
    apply carries_ite
    · intro _
      exact carries_pure mirrors trivial
    · intro _
      apply carries_ite
      · intro _ result after run _
        cases run
        rw [takes.advance_eq]
        exact ⟨(), _, rfl, trivial, by rw [takes'.advance_eq]; exact behind⟩
      · intro _
        exact carries_run rfl rfl (carries_ended_by mirrors)

end Parts

end LayoutScript
