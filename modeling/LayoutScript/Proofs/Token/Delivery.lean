import LayoutScript.Proofs.Token.Steps

/-!
Tokens one after another. A lexer delivers tokens until it comes to the end of input. Every token
is paid for, by the characters it is spelled with, by the block it closes, or at the end of input,
so that the bound on their number is never met before the end.
-/

namespace LayoutScript

theorem Text.drop_returns_of_none {text : List Char} (none : '\r' ∉ text) :
    Text.dropReturns text = text := by
  fun_induction Text.dropReturns text with
  | case1 => simp at none
  | case2 char rest _ induction =>
      rw [induction fun member => none (List.mem_cons_of_mem _ member)]
  | case3 => rfl

/-- Lines are joined as they are, if no carriage return stands alone at the end of the first. -/
theorem Text.drop_returns_append {first second : List Char}
    (plain : '\r' ∉ Text.dropReturns first) :
    Text.dropReturns (first ++ '\n' :: second) =
      Text.dropReturns first ++ '\n' :: Text.dropReturns second := by
  have feed (text : List Char) :
      Text.dropReturns ('\n' :: text) = '\n' :: Text.dropReturns text := by
    rw [Text.dropReturns]
    simp
  fun_induction Text.dropReturns first with
  | case1 rest induction =>
      rw [List.mem_cons, not_or] at plain
      rw [List.cons_append, List.cons_append, Text.dropReturns, induction plain.2, List.cons_append]
  | case2 char rest noPair induction =>
      rw [List.mem_cons, not_or] at plain
      rw [List.cons_append, Text.dropReturns, induction plain.2, List.cons_append]
      rintro _ rfl
      exact absurd rfl plain.1
  | case3 => exact feed second

namespace Scan

open Cursor

theorem string_body_shorter (start : Cursor) (quote : Char) (text : List Char)
    (position : Position) (contents : List Char) :
    (stringBody start quote text position contents).stop.rest.length ≤ text.length := by
  obtain ⟨_, passes⟩ := string_body_passes start quote text position contents
  have length := passes.length
  dsimp only at length
  omega

theorem number_shorter (afterDot : Bool) {start : Cursor} {first : Char} {others : List Char}
    (front : start.rest = first :: others) (digit : Text.isDigit first = true) :
    (number afterDot start).stop.rest.length ≤ others.length := by
  unfold number
  extract_lets wholeEnd fractionEnd beforeMark markEnd stop badEnd whole value
  have wholeRest : wholeEnd.rest.length ≤ others.length := by
    rw [skip_while_rest, front, List.dropWhile_cons_of_pos digit]
    exact (List.dropWhile_sublist _).length_le
  obtain ⟨fraction, fractionPasses⟩ : ∃ passed, Passes wholeEnd passed beforeMark :=
    getD_passes (ite_passes fun _ found => fraction_passes found)
  obtain ⟨mark, markPasses⟩ : ∃ passed, Passes beforeMark passed stop :=
    getD_passes (ite_passes fun _ found => float_mark_passes found)
  have length := (fractionPasses.trans markPasses).length
  split
  · have badLength := (skip_while_passes stop Text.isNameChar).length
    change (stop.skipWhile Text.isNameChar).rest.length ≤ others.length
    omega
  · split
    · split <;> (change stop.rest.length ≤ others.length; omega)
    · change stop.rest.length ≤ others.length
      omega

theorem word_shorter {start : Cursor} {first : Char} {others : List Char}
    (front : start.rest = first :: others) (starts : Text.isNameStart first = true) :
    (word start).stop.rest.length ≤ others.length := by
  have continues : Text.isNameChar first = true := by
    rw [Text.isNameChar, ← Text.isNameStart, starts, Bool.true_or]
  change (start.skipWhile Text.isNameChar).rest.length ≤ others.length
  rw [skip_while_rest, front, List.dropWhile_cons_of_pos continues]
  exact (List.dropWhile_sublist _).length_le

theorem operator_shorter {start : Cursor} {first : Char} {others : List Char}
    (front : start.rest = first :: others) :
    (operator start first).stop.rest.length ≤ others.length := by
  have once : start.advance.rest = others := by rw [Cursor.advance, front]
  obtain ⟨_, further⟩ := advance_passes start.advance
  have length := further.length
  rw [once] at length
  unfold operator
  split
  · rename_i kind double found
    cases double with
    | true =>
        change start.advance.advance.rest.length ≤ others.length
        omega
    | false => exact Nat.le_of_eq (congrArg List.length once)
  · exact Nat.le_of_eq (congrArg List.length once)

/-- A token is spelled with at least one character. -/
theorem token_shorter (afterDot : Bool) {start : Cursor} {first : Char} {others : List Char}
    (front : start.rest = first :: others) :
    (token afterDot start first).stop.rest.length ≤ others.length := by
  unfold token
  split
  · rw [string, front]
    exact string_body_shorter _ _ _ _ _
  · split
    · rename_i digit
      exact number_shorter afterDot front digit
    · split
      · rename_i starts
        exact word_shorter front starts
      · exact operator_shorter front

end Scan

namespace Lexer

open Cursor

section Spending

theorem close_blocks_count (width : Nat) (indents : List Nat) :
    (closeBlocks width indents).1 + (closeBlocks width indents).2.length = indents.length := by
  induction indents with
  | nil => rfl
  | cons innermost outer induction =>
      rw [closeBlocks]
      split
      · simp only [List.length_cons]
        omega
      · simp

theorem margin_shorter (line : Cursor) :
    (Margin.read line).stop.rest.length + (Margin.read line).blanks.length ≤ line.rest.length := by
  have blanks := (skip_while_passes line isBlank).length
  have returns := (skip_while_passes (line.skipWhile isBlank) (· == '\r')).length
  obtain ⟨_, comment⟩ := skip_comment_passes ((line.skipWhile isBlank).skipWhile (· == '\r'))
  have length := comment.length
  rw [margin_blanks]
  change (skipComment _).rest.length + _ ≤ _
  omega

/-- The tokens of a margin are paid for by its blanks or by the blocks that they close. -/
theorem begin_line_spends {lexer after : Lexer} {tokens : List Token}
    (sized : lexer.cursor.rest.length ≤ lexer.size) (run : lexer.beginLine = (.ok tokens, after)) :
    (∀ token ∈ tokens, token.kind ≠ .endOfInput) ∧
      tokens.length + 2 * after.cursor.rest.length + after.indents.length ≤
        2 * lexer.cursor.rest.length + lexer.indents.length := by
  obtain ⟨margin, ahead, begins⟩ := begin_line_begins sized
  rw [run] at begins
  obtain ⟨passed, line, passes, _, rfl⟩ := ahead.line
  have length := passes.length
  have shorter := margin_shorter line
  generalize made : (Except.ok tokens : Except ScriptError (List Token)) = result at begins
  cases begins with
  | bare =>
      cases made
      refine ⟨by simp, ?_⟩
      change 0 + 2 * (Margin.read line).stop.rest.length + lexer.indents.length ≤ _
      omega
  | mixed => cases made
  | wider more outside unmixed wide =>
      cases made
      refine ⟨List.forall_mem_singleton.2 (by simp [layoutToken]), ?_⟩
      simp only [behind, List.length_cons, List.length_nil]
      omega
  | closes more outside unmixed narrow blocks level =>
      cases made
      have count := close_blocks_count (Margin.read line).blanks.length lexer.indents
      rw [blocks] at count
      refine ⟨fun token member => ?_, ?_⟩
      · rw [(List.mem_replicate.1 member).2]
        simp [layoutToken]
      · simp only [behind, List.length_replicate]
        dsimp only at count
        omega
  | inconsistent => cases made

theorem end_tokens_count (lexer : Lexer) :
    (∃ token ∈ lexer.endTokens, token.kind = .endOfInput) ∧
      lexer.endTokens.length ≤ lexer.indents.length + 2 := by
  unfold endTokens
  extract_lets make
  have isEnd : (make .endOfInput).kind = .endOfInput := rfl
  split
  · exact ⟨⟨_, List.mem_singleton_self _, isEnd⟩, by simp⟩
  · refine ⟨⟨make .endOfInput, by simp, isEnd⟩, ?_⟩
    split <;> simp

/-- What a call for tokens spends: it comes to the end of input and closes all blocks, or each of
its tokens takes a character or closes a block. -/
def Spends (lexer : Lexer) (tokens : List Token) (after : Lexer) : Prop :=
  (∃ token ∈ tokens, token.kind = .endOfInput) ∧
      tokens.length ≤ 2 * lexer.cursor.rest.length + lexer.indents.length + 2 ∨
    (∀ token ∈ tokens, token.kind ≠ .endOfInput) ∧
      tokens.length + 2 * after.cursor.rest.length + after.indents.length ≤
        2 * lexer.cursor.rest.length + lexer.indents.length

theorem finish_scan_spends {lexer after : Lexer} {tokens : List Token} {first : Char}
    {others : List Char} (afterDot : Bool) (front : lexer.cursor.rest = first :: others)
    (run : lexer.finishScan lexer.cursor (Scan.token afterDot lexer.cursor first) =
      (.ok tokens, after)) :
    (∀ token ∈ tokens, token.kind ≠ .endOfInput) ∧
      tokens.length + 2 * after.cursor.rest.length + after.indents.length ≤
        2 * lexer.cursor.rest.length + lexer.indents.length := by
  have shorter := Scan.token_shorter afterDot front
  have spelled := Scan.token_spelled afterDot lexer.cursor first
  unfold finishScan at run
  split at run
  · rename_i kind payload found
    cases run
    refine ⟨List.forall_mem_singleton.2 ?_, ?_⟩
    · rintro rfl
      cases spelled.visible _ _ found
    · rw [front]
      simp only [List.length_cons, List.length_nil]
      omega
  · cases run

theorem scan_content_spends {fuel : Nat} {lexer after : Lexer} {tokens : List Token}
    (continues : ∀ {next : Lexer}, next.cursor.rest.length ≤ next.size →
      scanTokens fuel next = (.ok tokens, after) → Spends next tokens after)
    (sized : lexer.cursor.rest.length ≤ lexer.size)
    (run : scanContent fuel lexer = (.ok tokens, after)) : Spends lexer tokens after := by
  obtain ⟨_, trims⟩ := trim_passes lexer.cursor
  have length := trims.length
  have trimmedLength : lexer.trimmed.cursor.rest.length ≤ lexer.cursor.rest.length := by
    change (trim lexer.cursor).rest.length ≤ _
    omega
  unfold scanContent at run
  split at run
  · cases run
    obtain ⟨ended, few⟩ := end_tokens_count lexer.trimmed
    exact .inl ⟨ended, Nat.le_trans few (by change lexer.indents.length + 2 ≤ _; omega)⟩
  · rename_i char others front
    have fedLength : lexer.fed.cursor.rest.length + 1 = lexer.trimmed.cursor.rest.length := by
      change lexer.trimmed.cursor.advance.rest.length + 1 = _
      rw [Cursor.advance, front, List.length_cons]
    split at run
    · split at run
      · cases run
        refine .inr ⟨List.forall_mem_singleton.2 (by simp), ?_⟩
        simp only [List.length_cons, List.length_nil]
        change _ + lexer.indents.length ≤ _
        omega
      · have shorter : lexer.fed.cursor.rest.length ≤ lexer.fed.size :=
          Nat.le_trans (by omega) sized
        rcases continues shorter run with ⟨ended, few⟩ | ⟨proper, spent⟩
        · refine .inl ⟨ended, Nat.le_trans few ?_⟩
          change _ + lexer.indents.length + 2 ≤ _
          omega
        · refine .inr ⟨proper, Nat.le_trans spent ?_⟩
          change _ + lexer.indents.length ≤ _
          omega
    · obtain ⟨proper, spent⟩ := finish_scan_spends _ front run
      refine .inr ⟨proper, Nat.le_trans spent ?_⟩
      change _ + lexer.indents.length ≤ _
      omega

theorem scan_tokens_spends {fuel : Nat} {lexer after : Lexer} {tokens : List Token}
    (sized : lexer.cursor.rest.length ≤ lexer.size)
    (run : scanTokens fuel lexer = (.ok tokens, after)) : Spends lexer tokens after := by
  induction fuel generalizing lexer with
  | zero =>
      cases run
      obtain ⟨ended, few⟩ := end_tokens_count lexer
      exact .inl ⟨ended, by omega⟩
  | succ fuel induction =>
      cases atStart : lexer.atLineStart with
      | false =>
          rw [scan_tokens_within_line atStart] at run
          exact scan_content_spends induction sized run
      | true =>
          rw [scan_tokens_at_line_start atStart] at run
          obtain ⟨margin, ahead, begins⟩ := begin_line_begins sized
          cases begun : lexer.beginLine with
          | mk result ready =>
              rw [begun] at run begins
              match result with
              | .error error => cases run
              | .ok (token :: others) =>
                  cases run
                  exact .inr (begin_line_spends sized begun)
              | .ok [] =>
                  obtain ⟨_, spent⟩ := begin_line_spends sized begun
                  obtain ⟨kept, cursor, _⟩ := begins.kept
                  obtain ⟨_, passes⟩ := ahead.passes
                  have shorter := passes.length
                  have readySized : ready.cursor.rest.length ≤ ready.size := by
                    rw [kept.size, cursor]
                    omega
                  rw [List.length_nil, Nat.zero_add] at spent
                  rcases scan_content_spends induction readySized run with
                    ⟨ended, few⟩ | ⟨proper, less⟩
                  · exact .inl ⟨ended, by omega⟩
                  · exact .inr ⟨proper, Nat.le_trans less spent⟩

end Spending

/-- A bound on the tokens that are still to come, with the end of input. -/
def remaining (lexer : Lexer) : Nat :=
  lexer.pending.length +
    if lexer.pending.any (·.kind = .endOfInput) then 0
    else 2 * lexer.cursor.rest.length + lexer.indents.length + 2

theorem next_waiting {lexer : Lexer} {token : Token} {tokens : List Token}
    (pending : lexer.pending = token :: tokens) :
    lexer.next = (.ok token, { lexer with pending := tokens, last := some token.kind }) := by
  rw [next, pending]
  rfl

theorem next_made {lexer after : Lexer} {token : Token} {tokens : List Token}
    (idle : lexer.pending = [])
    (run : scanTokens (lexer.size + 1) lexer = (.ok (token :: tokens), after)) :
    lexer.next = (.ok token, { after with pending := tokens, last := some token.kind }) := by
  rw [next, idle]
  dsimp only
  rw [run]
  rfl

/-- A lexer has a next token because it waits, or because it was made. -/
theorem next_cases {lexer after : Lexer} {token : Token}
    (sized : lexer.cursor.rest.length ≤ lexer.size) (run : lexer.next = (.ok token, after)) :
    (∃ tokens, lexer.pending = token :: tokens ∧
      after = { lexer with pending := tokens, last := some token.kind }) ∨
    lexer.pending = [] ∧ ∃ tokens made,
      scanTokens (lexer.size + 1) lexer = (.ok (token :: tokens), made) ∧
      after = { made with pending := tokens, last := some token.kind } := by
  cases pending : lexer.pending with
  | cons first others =>
      rw [next_waiting pending] at run
      cases run
      exact .inl ⟨others, rfl, rfl⟩
  | nil =>
      refine .inr ⟨rfl, ?_⟩
      have scans := scan_tokens_scans (Nat.lt_succ_of_le sized) sized
      rw [next, pending] at run
      cases scanned : scanTokens (lexer.size + 1) lexer with
      | mk result made =>
          rw [scanned] at run scans
          match result with
          | .error error => cases run
          | .ok [] => exact absurd rfl scans.made
          | .ok (first :: others) =>
              cases run
              exact ⟨others, made, rfl, rfl⟩

theorem next_last {lexer after : Lexer} {token : Token} (run : lexer.next = (.ok token, after)) :
    after.last = some token.kind := by
  have taken (other : Lexer) (tokens : List Token)
      (took : other.takePending tokens = (.ok token, after)) : after.last = some token.kind := by
    cases tokens <;> cases took <;> rfl
  unfold next at run
  split at run
  · exact taken lexer _ run
  · split at run
    · exact taken _ _ run
    · cases run

/-- Every token but the end of input leaves fewer to come. -/
theorem next_remaining {lexer after : Lexer} {token : Token}
    (sized : lexer.cursor.rest.length ≤ lexer.size) (run : lexer.next = (.ok token, after))
    (proper : token.kind ≠ .endOfInput) : after.remaining + 1 ≤ lexer.remaining := by
  rcases next_cases sized run with ⟨tokens, pending, rfl⟩ | ⟨idle, tokens, made, scanned, rfl⟩
  · rw [remaining, remaining, pending]
    simp only [List.length_cons, List.any_cons, proper, decide_false, Bool.false_or]
    omega
  · rw [remaining, remaining, idle]
    simp only [List.length_nil, List.any_nil, Bool.false_eq_true, if_false, Nat.zero_add]
    rcases scan_tokens_spends sized scanned with ⟨⟨ending, member, isEnd⟩, few⟩ | ⟨none, spent⟩
    · have waits : tokens.any (·.kind = .endOfInput) = true := by
        rcases List.mem_cons.1 member with rfl | inside
        · exact absurd isEnd proper
        · exact List.any_eq_true.2 ⟨ending, inside, by simpa using isEnd⟩
      rw [waits, if_pos rfl]
      simp only [List.length_cons] at few
      omega
    · have waits : tokens.any (·.kind = .endOfInput) = false := by
        rw [List.any_eq_false]
        intro other inside
        simpa using none other (List.mem_cons_of_mem _ inside)
      rw [waits, if_neg (by decide)]
      simp only [List.length_cons] at spent
      omega

/-- A lexer gives tokens, none of them the end of input, and then is another lexer. -/
inductive Delivers : Lexer → List Token → Lexer → Prop where
  | none {lexer : Lexer} : Delivers lexer [] lexer
  | more {lexer middle after : Lexer} {token : Token} {tokens : List Token}
      (gives : lexer.next = (.ok token, middle)) (proper : token.kind ≠ .endOfInput)
      (others : Delivers middle tokens after) : Delivers lexer (token :: tokens) after

namespace Delivers

variable {lexer middle after : Lexer} {tokens more : List Token}

theorem one {token : Token} (gives : lexer.next = (.ok token, after))
    (proper : token.kind ≠ .endOfInput) : Delivers lexer [token] after :=
  .more gives proper .none

theorem trans (first : Delivers lexer tokens middle) (second : Delivers middle more after) :
    Delivers lexer (tokens ++ more) after := by
  induction first with
  | none => exact second
  | more gives proper _ induction => exact .more gives proper (induction second)

theorem last {token : Token} (delivers : Delivers lexer (tokens ++ [token]) after) :
    after.last = some token.kind := by
  induction tokens generalizing lexer with
  | nil =>
      cases delivers with
      | more gives _ others =>
          cases others
          exact next_last gives
  | cons first tokens induction =>
      cases delivers with
      | more _ _ others => exact induction others

theorem not_end (delivers : Delivers lexer tokens after) :
    ∀ token ∈ tokens, token.kind ≠ .endOfInput := by
  induction delivers with
  | none => exact List.forall_mem_nil _
  | more _ proper _ induction => exact List.forall_mem_cons.2 ⟨proper, induction⟩

theorem placed (delivers : Delivers lexer tokens after) (orderly : lexer.Placed) :
    after.Placed := by
  induction delivers with
  | none => exact orderly
  | @more lexer middle after token tokens gives proper _ induction =>
      apply induction
      have given := next_gives orderly.enough
      rw [gives] at given
      cases given with
      | waiting pending => exact ⟨orderly.sized, orderly.passed⟩
      | made idle scans =>
          obtain ⟨made, _⟩ := orderly.scanned scans
          exact ⟨made.sized, made.passed⟩

theorem remaining (delivers : Delivers lexer tokens after) (orderly : lexer.Placed) :
    tokens.length + after.remaining ≤ lexer.remaining := by
  induction delivers with
  | none => simp
  | more gives proper others induction =>
      have once := next_remaining orderly.enough gives proper
      have later := induction ((Delivers.one gives proper).placed orderly)
      simp only [List.length_cons]
      omega

/-- What is delivered before the end of input is read if there is room for it. -/
theorem read_within (delivers : Delivers lexer tokens after) {final : Lexer} {ending : Token}
    (ends : after.next = (.ok ending, final)) (isEnd : ending.kind = .endOfInput) {fuel : Nat}
    (enough : tokens.length < fuel) :
    readWithin fuel lexer = ⟨tokens ++ [ending], .none, { final with finished := true }⟩ := by
  induction delivers generalizing fuel with
  | none =>
      cases fuel with
      | zero => exact absurd enough (Nat.not_lt_zero _)
      | succ fuel => simp only [readWithin, ends, if_pos isEnd, List.nil_append]
  | more gives proper _ induction =>
      cases fuel with
      | zero => exact absurd enough (Nat.not_lt_zero _)
      | succ fuel =>
          simp only [readWithin, gives, if_neg proper,
            induction ends (Nat.lt_of_succ_lt_succ enough), List.cons_append]

end Delivers

/-- A reading without failure comes to the end of input. -/
theorem read_within_delivers {fuel : Nat} {lexer : Lexer} (placed : lexer.Placed)
    (enough : lexer.remaining ≤ fuel) (clean : (readWithin fuel lexer).failure = none) :
    ∃ tokens after ending final, Delivers lexer tokens after ∧
      after.next = (.ok ending, final) ∧ ending.kind = .endOfInput ∧
      readWithin fuel lexer = ⟨tokens ++ [ending], none, { final with finished := true }⟩ := by
  induction fuel generalizing lexer with
  | zero =>
      rw [remaining] at enough
      split at enough
      · rename_i waits
        cases pending : lexer.pending with
        | nil =>
            rw [pending] at waits
            cases waits
        | cons first others =>
            rw [pending, List.length_cons] at enough
            omega
      · omega
  | succ fuel induction =>
      cases given : lexer.next with
      | mk result middle =>
          cases result with
          | error error => simp [readWithin, given] at clean
          | ok token =>
              by_cases isEnd : token.kind = .endOfInput
              · refine ⟨[], lexer, token, middle, .none, given, isEnd, ?_⟩
                simp only [readWithin, given, if_pos isEnd, List.nil_append]
              · have once := Delivers.one given isEnd
                have less := next_remaining placed.enough given isEnd
                simp only [readWithin, given, if_neg isEnd] at clean ⊢
                obtain ⟨tokens, after, ending, final, delivers, ends, isEnding, read⟩ :=
                  induction (once.placed placed) (by omega) clean
                refine ⟨token :: tokens, after, ending, final, once.trans delivers, ends, isEnding, ?_⟩
                simp only [read, List.cons_append]

/-- A reading that ends with an error has all tokens up to it. -/
theorem read_within_fails {fuel : Nat} {lexer : Lexer} {error : ScriptError}
    (failed : (readWithin fuel lexer).failure = some error) :
    ∃ after final, Delivers lexer (readWithin fuel lexer).tokens after ∧
      after.next = (.error error, final) := by
  induction fuel generalizing lexer with
  | zero => cases failed
  | succ fuel induction =>
      cases given : lexer.next with
      | mk result middle =>
          cases result with
          | error found =>
              simp only [readWithin, given] at failed ⊢
              cases failed
              exact ⟨lexer, middle, .none, given⟩
          | ok token =>
              by_cases isEnd : token.kind = .endOfInput
              · simp only [readWithin, given, if_pos isEnd] at failed
                cases failed
              · simp only [readWithin, given, if_neg isEnd] at failed ⊢
                obtain ⟨after, final, delivers, fails⟩ := induction failed
                exact ⟨after, final, .more given isEnd delivers, fails⟩

theorem remaining_pos (lexer : Lexer) : 0 < lexer.remaining := by
  rw [remaining]
  split
  · rename_i waits
    obtain ⟨token, member, _⟩ := List.any_eq_true.1 waits
    have some := List.length_pos_of_mem member
    omega
  · omega

theorem Placed.remaining_le {lexer : Lexer} (placed : lexer.Placed) :
    lexer.remaining ≤ lexer.tokenBound := by
  have enough := placed.enough
  rw [remaining, tokenBound]
  split <;> omega

/-- An iteration that has room for all tokens gives what can be read, and is then asked once more
than the end of input. -/
theorem Placed.drain_running {lexer : Lexer} (placed : lexer.Placed) {fuel : Nat}
    (enough : lexer.remaining ≤ fuel) :
    drain (fuel + 1) .running lexer = readWithin fuel lexer := by
  induction fuel generalizing lexer with
  | zero => exact absurd lexer.remaining_pos (by omega)
  | succ fuel induction =>
      rw [drain, resume, step, readWithin]
      cases given : lexer.next with
      | mk result after =>
          cases result with
          | error error => rfl
          | ok token =>
              by_cases isEnd : token.kind = .endOfInput
              · simp only [if_pos isEnd]
                rfl
              · have once := Delivers.one given isEnd
                have less := next_remaining placed.enough given isEnd
                simp only [if_neg isEnd]
                rw [induction (once.placed placed) (by omega)]

/-- A new iteration over a lexer that was not read yet. -/
theorem Placed.read_all {lexer : Lexer} (placed : lexer.Placed) (fresh : lexer.finished = false) :
    lexer.readAll = readWithin lexer.tokenBound lexer := by
  rw [← placed.drain_running placed.remaining_le, readAll, drain, drain, resume, fresh]
  rfl

/-- Whatever a source delivers has room in a reading, and so has one more token. -/
theorem room_for_delivered {source : String} {file : Option String} {tokens : List Token}
    {after : Lexer} (delivers : Delivers (.ofText source file) tokens after) :
    tokens.length < (ofText source file).tokenBound := by
  have placed : (ofText source file).Placed := .of_text source file
  have count := delivers.remaining placed
  have bound := placed.remaining_le
  have more := after.remaining_pos
  omega

theorem read_all_finished {lexer : Lexer} (finished : lexer.finished = true) :
    lexer.readAll = ⟨[], none, lexer⟩ := by
  rw [readAll, drain, resume, if_pos finished]

end Lexer

theorem tokenize_eq (source : String) (file : Option String) :
    tokenize source file =
      Lexer.readWithin (Lexer.ofText source file).tokenBound (.ofText source file) :=
  (Lexer.Placed.of_text source file).read_all rfl

/-- The tokens of a source, from what its lexer delivers. -/
theorem tokenize_of_delivers {source : String} {file : Option String} {tokens : List Token}
    {after final : Lexer} {ending : Token}
    (delivers : Lexer.Delivers (.ofText source file) tokens after)
    (ends : after.next = (.ok ending, final)) (isEnd : ending.kind = .endOfInput) :
    tokenize source file = ⟨tokens ++ [ending], none, { final with finished := true }⟩ := by
  rw [tokenize_eq]
  exact delivers.read_within ends isEnd (Lexer.room_for_delivered delivers)

/-- A source that can be read to its end is delivered whole. -/
theorem tokenize_delivers {source : String} {file : Option String}
    (clean : (tokenize source file).failure = none) :
    ∃ tokens after ending final, Lexer.Delivers (.ofText source file) tokens after ∧
      after.next = (.ok ending, final) ∧ ending.kind = .endOfInput ∧
      tokenize source file = ⟨tokens ++ [ending], none, { final with finished := true }⟩ := by
  have placed : (Lexer.ofText source file).Placed := .of_text source file
  rw [tokenize_eq] at clean ⊢
  exact Lexer.read_within_delivers placed placed.remaining_le clean

/-- A source with an error is delivered up to it. -/
theorem tokenize_fails {source : String} {file : Option String} {error : ScriptError}
    (failed : (tokenize source file).failure = some error) :
    ∃ after final, Lexer.Delivers (.ofText source file) (tokenize source file).tokens after ∧
      after.next = (.error error, final) := by
  rw [tokenize_eq] at failed ⊢
  exact Lexer.read_within_fails failed

end LayoutScript
