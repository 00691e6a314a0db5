import LayoutScript.Proofs.Tree.Lookahead

/-!
Readings that come to an end. A feed whose tokens lack the end of input reads like one that has it
as its last token. Tokens that have one are decided on, so that a reading gives its tree or fails
with an error of the grammar, and the fuel for the tokens and the end of input always suffices.
-/

namespace LayoutScript

open Parse

/-- A reader does the same on tokens that lack the end of input and on tokens that have it last. -/
def ClosesAlike {α : Type} (reader reader' : Parse α) : Prop :=
  ∀ (previous : Option Token) (rest : List Token) (final : Token)
    (ending : Except ScriptError Token), final.kind = .endOfInput →
    match reader.run ⟨previous, rest, .ok final⟩ with
    | .ok (value, after) => after.ending = .ok final ∧
        reader'.run ⟨previous, rest ++ [final], ending⟩ =
          .ok (value, ⟨after.previous, after.rest ++ [final], ending⟩)
    | .error halt => reader'.run ⟨previous, rest ++ [final], ending⟩ = .error halt

section Closing

variable {α β : Type}

/-- Looking at tokens changes nothing. -/
theorem closes_alike_of_looking {reader : Parse α}
    (looks : ∀ previous rest final ending, final.kind = .endOfInput → ∃ value,
      reader.run ⟨previous, rest, .ok final⟩ = .ok (value, ⟨previous, rest, .ok final⟩) ∧
      reader.run ⟨previous, rest ++ [final], ending⟩ =
        .ok (value, ⟨previous, rest ++ [final], ending⟩)) : ClosesAlike reader reader := by
  intro previous rest final ending isEnd
  obtain ⟨value, run, run'⟩ := looks previous rest final ending isEnd
  rw [run]
  exact ⟨rfl, run'⟩

theorem closes_alike_bind {reader reader' : Parse α} {next next' : α → Parse β}
    (start : ClosesAlike reader reader') (rest : ∀ value, ClosesAlike (next value) (next' value)) :
    ClosesAlike (reader >>= next) (reader' >>= next') := by
  intro previous tokens final ending isEnd
  have first := start previous tokens final ending isEnd
  cases run : reader.run ⟨previous, tokens, .ok final⟩ with
  | error halt =>
      rw [run] at first
      rw [run_bind_error run]
      exact run_bind_error first
  | ok found =>
      obtain ⟨value, last, left, behind⟩ := found
      rw [run] at first
      obtain ⟨sameEnding, run'⟩ := first
      dsimp only at sameEnding run'
      rw [run_bind_ok run, run_bind_ok run', sameEnding]
      exact rest value last left final ending isEnd

theorem closes_alike_current : ClosesAlike current current := by
  refine closes_alike_of_looking fun previous rest final ending _ => ?_
  cases rest with
  | nil => exact ⟨final, rfl, rfl⟩
  | cons token rest => exact ⟨token, rfl, rfl⟩

theorem closes_alike_second : ClosesAlike second second := by
  refine closes_alike_of_looking fun previous rest final ending isEnd => ?_
  change ∃ value, (ofExcept (Feed.second _)).run _ = _ ∧ (ofExcept (Feed.second _)).run _ = _
  match rest with
  | [] =>
      refine ⟨final, rfl, ?_⟩
      simp only [List.nil_append, Feed.second, if_pos isEnd]
      rfl
  | token :: others =>
      simp only [Feed.second, List.cons_append]
      by_cases atEnd : token.kind = .endOfInput
      · simp only [if_pos atEnd]
        exact ⟨token, rfl, rfl⟩
      · simp only [if_neg atEnd]
        cases others with
        | nil => exact ⟨final, rfl, rfl⟩
        | cons next others => exact ⟨next, rfl, rfl⟩

theorem skip_newlines_closed (previous : Option Token) (rest : List Token) {final : Token}
    (ending : Except ScriptError Token) (isEnd : final.kind = .endOfInput) :
    let after := Feed.skipNewlinesFrom (.ok final) previous rest
    after.ending = .ok final ∧ Feed.skipNewlinesFrom ending previous (rest ++ [final]) =
      ⟨after.previous, after.rest ++ [final], ending⟩ := by
  induction rest generalizing previous with
  | nil =>
      have plain : final.kind ≠ .newline := by simp [isEnd]
      refine ⟨rfl, ?_⟩
      simp only [List.nil_append, Feed.skipNewlinesFrom, if_neg plain]
  | cons token rest induction =>
      rw [List.cons_append, Feed.skipNewlinesFrom, Feed.skipNewlinesFrom]
      split
      · exact induction (some token)
      · exact ⟨rfl, rfl⟩

theorem closes_alike_skip_newlines : ClosesAlike skipNewlines skipNewlines := by
  intro previous rest final ending isEnd
  obtain ⟨sameEnding, same⟩ := skip_newlines_closed previous rest ending isEnd
  exact ⟨sameEnding, congrArg (fun feed => Except.ok ((), feed)) same⟩

theorem closes_alike_step : ClosesAlike (modify Feed.advance) (modify Feed.advance) := by
  intro previous rest final ending isEnd
  change (Feed.advance _).ending = _ ∧ Except.ok ((), Feed.advance _) = _
  cases rest with
  | nil =>
      refine ⟨rfl, ?_⟩
      simp only [List.nil_append, Feed.advance, if_pos isEnd]
  | cons token rest =>
      by_cases atEnd : token.kind = .endOfInput
      · simp only [List.cons_append, Feed.advance, if_pos atEnd]
        exact ⟨trivial, trivial⟩
      · simp only [List.cons_append, Feed.advance, if_neg atEnd]
        exact ⟨trivial, trivial⟩

theorem closes_alike_enter (limit depth : Nat) (token : Token) :
    ClosesAlike (enter limit depth token) (enter limit depth token) := by
  intro previous rest final ending _
  unfold enter
  by_cases beyond : depth + 1 > limit
  · rw [if_pos beyond]
    rfl
  · rw [if_neg beyond]
    exact ⟨rfl, rfl⟩

theorem closes_alike_correspondence (limit : Nat) :
    ReaderCorrespondence limit limit 0 ClosesAlike where
  pure value := closes_alike_of_looking fun _ _ _ _ _ => ⟨value, rfl, rfl⟩
  bind := closes_alike_bind
  outOfFuel same := by
    rw [same rfl]
    exact fun _ _ _ _ _ => rfl
  fail _ _ _ _ _ _ := rfl
  current := closes_alike_current
  second := closes_alike_second
  lastTaken := closes_alike_of_looking fun previous _ _ _ _ => ⟨previous, rfl, rfl⟩
  skipNewlines := closes_alike_skip_newlines
  step := closes_alike_step
  enter := closes_alike_enter limit

end Closing

/-- A reader gives a value, or fails with an error of the grammar. -/
inductive ReadsOrRefuses {α : Type} (outcome : Except Halt α) : Prop where
  | gives (value : α) (isValue : outcome = .ok value)
  | fails {error : ScriptError} (isParse : error.cause.kind = .parse)
      (isError : outcome = .error (.error error))

/-- Tokens with an end of input settle what a reader does. -/
theorem Verdict.reads_or_refuses {α : Type} {source tokens : List Token} {reader : Nat → Parse α}
    {previous : Option Token} {post : α → Option Token → List Token → Prop}
    (verdict : Verdict source reader previous tokens post)
    (finished : ∃ token ∈ tokens, token.kind = .endOfInput) (ending : Except ScriptError Token) :
    ReadsOrRefuses ((reader 0).run ⟨previous, tokens, ending⟩) := by
  rw [← List.append_nil tokens]
  cases verdict with
  | wants unfinished =>
      obtain ⟨token, member, isEnd⟩ := finished
      exact absurd isEnd (unfinished token member)
  | refuses isParse _ run => exact .fails isParse (run 0 [] ending)
  | reads value _ run => exact .gives _ (run 0 [] ending)

/-- What a reader does is settled by an end of input behind the tokens. -/
theorem ClosesAlike.reads_or_refuses {α : Type} {reader : Parse α}
    (alike : ClosesAlike reader reader) {previous : Option Token} {rest : List Token}
    {final : Token} (isEnd : final.kind = .endOfInput)
    (judged : ReadsOrRefuses (reader.run ⟨previous, rest ++ [final], .ok final⟩)) :
    ReadsOrRefuses (reader.run ⟨previous, rest, .ok final⟩) := by
  have same := alike previous rest final (.ok final) isEnd
  cases run : reader.run ⟨previous, rest, .ok final⟩ with
  | ok found => exact .gives found rfl
  | error halt =>
      rw [run] at same
      cases judged with
      | gives value isValue =>
          rw [same] at isValue
          cases isValue
      | fails isParse isError =>
          rw [same] at isError
          cases isError
          exact .fails isParse rfl

theorem ReadsOrRefuses.map {α β : Type} {outcome : Except Halt α}
    (judged : ReadsOrRefuses outcome) (convert : α → β) :
    ReadsOrRefuses (outcome.map convert) := by
  cases judged with
  | gives value isValue =>
      rw [isValue]
      exact .gives (convert value) rfl
  | fails isParse isError =>
      rw [isError]
      exact .fails isParse rfl

/-- Reading a program from tokens, whatever they are, comes to an end. -/
theorem Program.of_tokens_reads_or_refuses (tokens : List Token) (file : Option String)
    (limits : Limits) : ReadsOrRefuses (Program.ofTokens tokens file limits) := by
  let final := Feed.endBehind tokens file
  have isEnd : final.kind = .endOfInput := rfl
  have ready : Ready (tokens ++ [final]) 12 (fuelFor tokens.length) (tokens ++ [final]) := by
    refine ⟨fun _ member => member, ?_⟩
    rw [List.length_append, List.length_singleton, fuelFor]
    omega
  have closed : ReadsOrRefuses ((Parse.program limits.nesting (fuelFor tokens.length)).run
      ⟨none, tokens ++ [final], .ok final⟩) :=
    (program_decides ready).reads_or_refuses ⟨final, by simp, isEnd⟩ (.ok final)
  have alike := (closes_alike_correspondence limits.nesting).program (fuelFor tokens.length)
  exact (alike.reads_or_refuses isEnd closed).map (·.1)

/-- There is always fuel for a statement, if there is for the tokens and the end of input. -/
theorem statement_never_short {feed : Feed} (proper : feed.Proper) {limit fuel depth : Nat}
    (enough : 24 * (feed.rest.length + 1) + 11 ≤ fuel) :
    (statement limit fuel depth).run feed ≠ .error .outOfFuel := by
  obtain ⟨previous, rest, ending⟩ := feed
  dsimp only at enough
  intro short
  cases ending with
  | error error =>
      have ready : Ready rest 11 fuel rest := ⟨fun _ member => member, by omega⟩
      have verdict : Verdict rest (fun extra => statement limit (fuel + extra) depth) previous rest
          (Shortens rest) := (readers_decide limit rest fuel).statement depth ready
      cases verdict with
      | wants _ run => cases short.symm.trans (run 0 error)
      | refuses _ _ run =>
          have here := run 0 [] (.error error)
          rw [List.append_nil] at here
          cases short.symm.trans here
      | reads value _ run =>
          have here := run 0 [] (.error error)
          rw [List.append_nil] at here
          cases short.symm.trans here
  | ok final =>
      have isEnd := proper final rfl
      have ready : Ready (rest ++ [final]) 11 fuel (rest ++ [final]) := by
        refine ⟨fun _ member => member, ?_⟩
        rw [List.length_append, List.length_singleton]
        omega
      have closed : ReadsOrRefuses ((statement limit fuel depth).run
          ⟨previous, rest ++ [final], .ok final⟩) :=
        ((readers_decide limit _ fuel).statement depth ready).reads_or_refuses
          ⟨final, by simp, isEnd⟩ _
      have alike := ((closes_alike_correspondence limit).related_at_every_fuel fuel).statement depth
      cases alike.reads_or_refuses isEnd closed with
      | gives found run => cases short.symm.trans run
      | fails _ run => cases short.symm.trans run

end LayoutScript
