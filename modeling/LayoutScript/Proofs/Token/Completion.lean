import LayoutScript.Proofs.Token.Indentation

/-!
Lexers come to the end of input, also across errors. Every call that does not give the end takes
something off a bound, an error as well as a token: what fails has passed a character. Behind the
end of input nothing changes any more.
-/

namespace LayoutScript

namespace Lexer

open Cursor

variable {lexer after : Lexer} {tokens : List Token} {error : ScriptError}

section Errors

/-- A line without blanks always fits: it closes all blocks. -/
theorem close_blocks_level (indents : List Nat) : (closeBlocks 0 indents).2.headD 0 = 0 := by
  induction indents with
  | nil => rfl
  | cons innermost outer induction =>
      rw [closeBlocks]
      split
      · exact induction
      · rename_i narrow
        exact Nat.le_zero.mp (Nat.le_of_not_lt narrow)

/-- A character is passed and no block opened. -/
def Shrinks (lexer after : Lexer) : Prop :=
  after.cursor.rest.length < lexer.cursor.rest.length ∧
    after.indents.length ≤ lexer.indents.length

/-- A margin that is refused has blanks. -/
theorem Begins.fails_shrinking {margin : Margin} (ahead : margin.Ahead lexer.cursor)
    (begins : Begins lexer margin (.error error) after) : Shrinks lexer after := by
  obtain ⟨passed, line, passes, _, rfl⟩ := ahead.line
  have length := passes.length
  have shorter := margin_shorter line
  have within (blanks : (Margin.read line).blanks ≠ []) :
      (Margin.read line).stop.rest.length < lexer.cursor.rest.length := by
    have positive := List.length_pos_iff.2 blanks
    omega
  rw [Shrinks, begins.kept.2.1]
  generalize made : (.error error : Except ScriptError (List Token)) = result at begins
  cases begins with
  | bare | wider | closes => cases made
  | mixed blanks => exact ⟨within (by simp [blanks]), Nat.le_refl _⟩
  | inconsistent _ _ _ _ blocks uneven =>
      have count := close_blocks_count (Margin.read line).blanks.length lexer.indents
      have level := close_blocks_level lexer.indents
      refine ⟨within fun none => uneven ?_, ?_⟩
      · rw [none, List.length_nil] at blocks ⊢
        rw [blocks] at level
        exact level
      · rw [blocks] at count
        dsimp only at count ⊢
        omega

theorem Opens.spends {ready : Lexer} (opens : Opens lexer ready) :
    ready.cursor.rest.length ≤ lexer.cursor.rest.length ∧
      ready.indents.length ≤ lexer.indents.length := by
  obtain ⟨_, ⟨passed, passes⟩, _⟩ := opens.kept
  have length := passes.length
  refine ⟨by omega, ?_⟩
  cases opens with
  | inside => exact Nat.le_refl _
  | @margin margin _ _ _ begins =>
      generalize made : (.ok [] : Except ScriptError (List Token)) = result at begins
      cases begins with
      | bare => exact Nat.le_refl _
      | wider | mixed | inconsistent => cases made
      | closes _ _ _ _ blocks _ =>
          have count := close_blocks_count margin.blanks.length lexer.indents
          rw [blocks] at count
          dsimp only at count ⊢
          omega

/-- An error is paid for by a character. -/
theorem Scans.fails_shrinking (scans : Scans lexer (.error error) after) :
    Shrinks lexer after := by
  generalize made : (.error error : Except ScriptError (List Token)) = result at scans
  induction scans with
  | margin _ ahead begins _ =>
      subst made
      exact begins.fails_shrinking ahead
  | finish | lineFeed => cases made
  | @continued lexer ready after result opens ahead _ _ induction =>
      obtain ⟨less, blocks⟩ := opens.spends
      obtain ⟨lessLater, blocksLater⟩ := induction made
      obtain ⟨_, fed⟩ := fed_passes ahead
      have length := fed.length
      have kept : ready.fed.indents = ready.indents := rfl
      rw [kept] at blocksLater
      exact ⟨by omega, by omega⟩
  | @token lexer ready scan opens _ begun =>
      obtain ⟨afterDot, first, others, front, _, rfl⟩ := begun
      obtain ⟨less, blocks⟩ := opens.spends
      obtain ⟨_, trims⟩ := trim_passes ready.cursor
      have length := trims.length
      have shorter := Scan.token_shorter afterDot front
      have spelled := congrArg List.length front
      rw [List.length_cons] at spelled
      change (trim ready.cursor).rest.length = _ at spelled
      have kept : (ready.trimmed.finishScan ready.trimmed.cursor
          (Scan.token afterDot ready.trimmed.cursor first)).2.indents = ready.indents := by
        unfold finishScan
        split <;> rfl
      rw [Shrinks, (finish_scan_kept _ _ _).2.1, kept]
      exact ⟨by omega, blocks⟩

/-- An error leaves fewer calls to come. -/
theorem next_fails_remaining (sized : lexer.cursor.rest.length ≤ lexer.size)
    (run : lexer.next = (.error error, after)) : after.remaining + 1 ≤ lexer.remaining := by
  have gives := next_gives sized
  rw [run] at gives
  cases gives with
  | failed idle scans =>
      obtain ⟨less, blocks⟩ := scans.fails_shrinking
      have pending := scans.pending
      rw [idle] at pending
      rw [remaining, remaining, idle, pending]
      simp only [List.length_nil, List.any_nil, Bool.false_eq_true, if_false]
      dsimp only at less blocks
      omega

end Errors

section Ending

/-- The end of input where a lexer is. -/
def ending (lexer : Lexer) : Token := lexer.layoutToken .endOfInput lexer.cursor lexer.cursor

/-- Tokens come to no end of input, or to the one behind all text as their last. -/
def ComesToEnd (lexer : Lexer) (tokens : List Token) : Prop :=
  (∀ token ∈ tokens, token.kind ≠ .endOfInput) ∨
    lexer.cursor.rest = [] ∧ ∃ front, tokens = front ++ [lexer.ending] ∧
      ∀ token ∈ front, token.kind ≠ .endOfInput

theorem end_tokens_ending (lexer : Lexer) :
    ∃ front, lexer.endTokens = front ++ [lexer.ending] ∧
      ∀ token ∈ front, token.kind ≠ .endOfInput := by
  unfold endTokens
  extract_lets make
  split
  · exact ⟨[], rfl, List.forall_mem_nil _⟩
  · refine ⟨_, rfl, List.forall_mem_append.2 ⟨?_, ?_⟩⟩
    · split
      · exact List.forall_mem_singleton.2 (by simp [make, layoutToken])
      · exact List.forall_mem_nil _
    · intro token member
      rw [(List.mem_replicate.1 member).2]
      simp [make, layoutToken]

theorem end_input_ending (lexer : Lexer) : lexer.endInput.ending = lexer.ending := by
  unfold endInput
  split <;> rfl

theorem Scans.comes_to_end (scans : Scans lexer (.ok tokens) after) : ComesToEnd after tokens := by
  generalize made : (.ok tokens : Except ScriptError (List Token)) = result at scans
  induction scans with
  | margin _ _ begins _ =>
      subst made
      refine .inl fun token member => ?_
      cases begins with
      | bare => cases member
      | wider =>
          rw [List.mem_singleton.1 member]
          simp [layoutToken]
      | closes =>
          rw [(List.mem_replicate.1 member).2]
          simp [layoutToken]
  | @finish lexer ready _ atEnd =>
      cases made
      obtain ⟨front, tokens, proper⟩ := end_tokens_ending ready.trimmed
      refine .inr ⟨?_, front, ?_, proper⟩
      · rw [(end_input_kept _).2.1]
        exact atEnd
      · rw [end_input_ending]
        exact tokens
  | lineFeed =>
      cases made
      exact .inl (List.forall_mem_singleton.2 (by simp))
  | continued _ _ _ _ induction => exact induction made
  | @token lexer ready scan _ spelled _ =>
      refine .inl fun token member => ?_
      unfold finishScan at made
      split at made
      · rename_i kind payload found
        cases made
        rw [List.mem_singleton.1 member]
        rintro rfl
        cases spelled.visible _ _ found
      · cases made

/-- The end of input has been given, and nothing is left. -/
structure Exhausted (lexer : Lexer) (token : Token) : Prop where
  rest : lexer.cursor.rest = []
  idle : lexer.pending = []
  last : lexer.last = some .endOfInput
  isEnding : token = lexer.ending

/-- A lexer that can be called: it is at a place of its source, and the end of input waits only
behind all text. -/
structure Steady (lexer : Lexer) : Prop where
  placed : lexer.Placed
  waiting : ComesToEnd lexer lexer.pending

theorem steady_of_text (source : String) (file : Option String) : (ofText source file).Steady :=
  ⟨.of_text source file, .inl (List.forall_mem_nil _)⟩

/-- Tokens behind the first come to the end of input unless the first is it. -/
theorem ComesToEnd.tail {token : Token} (comes : ComesToEnd lexer (token :: tokens)) :
    ComesToEnd lexer tokens ∧ (token.kind = .endOfInput →
      lexer.cursor.rest = [] ∧ tokens = [] ∧ token = lexer.ending) := by
  rcases comes with none | ⟨rest, front, same, proper⟩
  · obtain ⟨first, others⟩ := List.forall_mem_cons.1 none
    exact ⟨.inl others, fun isEnd => absurd isEnd first⟩
  · cases front with
    | nil =>
        cases same
        exact ⟨.inl (List.forall_mem_nil _), fun _ => ⟨rest, rfl, rfl⟩⟩
    | cons first front =>
        cases same
        obtain ⟨notEnd, others⟩ := List.forall_mem_cons.1 proper
        exact ⟨.inr ⟨rest, front, rfl, others⟩, fun isEnd => absurd isEnd notEnd⟩

/-- One call. The lexer can be called again, and if it gave the end of input it has ended. -/
theorem Steady.next (steady : lexer.Steady) :
    lexer.next.2.Steady ∧ ∀ token, lexer.next.1 = .ok token → token.kind = .endOfInput →
      lexer.next.2.Exhausted token := by
  have gives := next_gives steady.placed.enough
  generalize lexer.next = given at gives
  obtain ⟨result, after⟩ := given
  cases gives with
  | waiting pending =>
      have comes := steady.waiting
      rw [pending] at comes
      obtain ⟨later, ends⟩ := comes.tail
      refine ⟨⟨⟨steady.placed.sized, steady.placed.passed⟩, later⟩, ?_⟩
      rintro token ⟨⟩ isEnd
      obtain ⟨rest, none, isEnding⟩ := ends isEnd
      exact ⟨rest, none, congrArg some isEnd, isEnding⟩
  | made _ scans =>
      have placed := (steady.placed.scanned scans).1
      obtain ⟨later, ends⟩ := scans.comes_to_end.tail
      refine ⟨⟨⟨placed.sized, placed.passed⟩, later⟩, ?_⟩
      rintro token ⟨⟩ isEnd
      obtain ⟨rest, none, isEnding⟩ := ends isEnd
      exact ⟨rest, none, congrArg some isEnd, isEnding⟩
  | failed idle scans =>
      refine ⟨⟨(steady.placed.scanned scans).1, .inl ?_⟩, ?_⟩
      · rw [scans.pending, idle]
        exact List.forall_mem_nil _
      · rintro token ⟨⟩

theorem passes_at_end {start stop : Cursor} {passed : List Char} (passes : Passes start passed stop)
    (ended : start.rest = []) : stop = start := by
  have parts := passes.rest
  rw [ended] at parts
  obtain ⟨rfl, rest⟩ := List.append_eq_nil_iff.1 parts.symm
  obtain ⟨_, _⟩ := start
  obtain ⟨_, _⟩ := stop
  cases passes.position
  cases ended
  cases rest
  rfl

/-- Behind the end of input there is only the end of input. -/
theorem Scans.at_end {result : Except ScriptError (List Token)} (scans : Scans lexer result after)
    (rest : lexer.cursor.rest = []) (last : lexer.last = some .endOfInput) :
    result = .ok [lexer.ending] ∧ after.ending = lexer.ending ∧ after.cursor.rest = [] ∧
      after.last = some .endOfInput := by
  have still {ready : Lexer} (opens : Opens lexer ready) :
      ready.trimmed.cursor = lexer.cursor := by
    obtain ⟨_, passes⟩ := opens.trimmed_passes
    exact passes_at_end passes rest
  cases scans with
  | margin _ ahead begins made =>
      obtain ⟨_, passes⟩ := ahead.passes
      have stop : _ = _ := congrArg Cursor.rest (passes_at_end passes rest)
      rw [rest] at stop
      cases begins with
      | bare => exact absurd rfl made
      | mixed _ more | wider more | closes more | inconsistent more => exact absurd stop more
  | @finish _ ready opens _ =>
      have cursor := still opens
      have kept := opens.kept.1
      have isEnd : ready.trimmed.last = some .endOfInput := kept.last.trans last
      have same : ready.trimmed.ending = lexer.ending := by
        rw [ending, ending, layoutToken, layoutToken, cursor]
        congr 1
        exact congrArg (lexer.cursor.spanTo lexer.cursor) kept.file
      rw [endTokens, endInput, if_pos isEnd, if_pos isEnd]
      refine ⟨congrArg (fun token => Except.ok [token]) same, same, ?_, isEnd⟩
      rw [cursor, rest]
  | lineFeed opens ahead =>
      rw [Cursor.peek?, still opens, rest] at ahead
      cases ahead
  | continued opens ahead =>
      rw [Cursor.peek?, still opens, rest] at ahead
      cases ahead
  | token opens _ begun =>
      obtain ⟨_, first, others, front, _⟩ := begun
      rw [still opens, rest] at front
      cases front

theorem Exhausted.next {token : Token} (ended : lexer.Exhausted token) :
    lexer.next.1 = .ok token ∧ lexer.next.2.Exhausted token := by
  have sized : lexer.cursor.rest.length ≤ lexer.size := by
    rw [ended.rest]
    exact Nat.zero_le _
  have gives := next_gives sized
  generalize lexer.next = given at gives
  obtain ⟨result, after⟩ := given
  cases gives with
  | waiting pending =>
      rw [ended.idle] at pending
      cases pending
  | made _ scans =>
      obtain ⟨made, same, rest, last⟩ := scans.at_end ended.rest ended.last
      cases made
      refine ⟨congrArg Except.ok ended.isEnding.symm, rest, rfl, rfl, ?_⟩
      exact ended.isEnding.trans same.symm
  | failed _ scans => cases (scans.at_end ended.rest ended.last).1

theorem Exhausted.calls {token : Token} (ended : lexer.Exhausted token) (count : Nat) :
    calls count lexer = List.replicate count (.ok token) := by
  induction count generalizing lexer with
  | zero => rfl
  | succ count induction =>
      rw [Lexer.calls, ended.next.1, induction ended.next.2, List.replicate_succ]

/-- A call that does not give the end of input leaves fewer to come. -/
theorem Steady.next_remaining (steady : lexer.Steady)
    (proper : ∀ token, lexer.next.1 = .ok token → token.kind ≠ .endOfInput) :
    lexer.next.2.remaining + 1 ≤ lexer.remaining := by
  cases given : lexer.next with
  | mk result after =>
      rw [given] at proper
      cases result with
      | ok token => exact Lexer.next_remaining steady.placed.enough given (proper token rfl)
      | error error => exact next_fails_remaining steady.placed.enough given

end Ending

section Iteration

theorem Begins.finished {margin : Margin} {result : Except ScriptError (List Token)}
    (begins : Begins lexer margin result after) : after.finished = lexer.finished := by
  cases begins <;> rfl

theorem Opens.finished {ready : Lexer} (opens : Opens lexer ready) :
    ready.finished = lexer.finished := by
  cases opens with
  | inside => rfl
  | margin _ _ begins => exact begins.finished

theorem Scans.finished {result : Except ScriptError (List Token)}
    (scans : Scans lexer result after) : after.finished = lexer.finished := by
  induction scans with
  | margin _ _ begins _ => exact begins.finished
  | finish opens _ =>
      rw [← opens.finished, endInput]
      split <;> rfl
  | lineFeed opens _ _ => exact opens.finished
  | continued opens _ _ _ induction => exact induction.trans opens.finished
  | token opens _ _ =>
      rw [← opens.finished, finishScan]
      split <;> rfl

/-- Only reading to the end marks a lexer as read. -/
theorem Steady.next_finished (steady : lexer.Steady) :
    lexer.next.2.finished = lexer.finished := by
  have gives := next_gives steady.placed.enough
  generalize lexer.next = given at gives
  obtain ⟨result, after⟩ := given
  cases gives with
  | waiting => rfl
  | made _ scans => exact scans.finished
  | failed _ scans => exact scans.finished

/-- A lexer of a source and the iterations over it that were begun. Tokens are taken by calls and
by asking any of the iterations, in any order. -/
inductive Iterated (source : String) (file : Option String) : Lexer → List Iteration → Prop where
  | start : Iterated source file (ofText source file) []
  | next {lexer : Lexer} {iterations : List Iteration}
      (before : Iterated source file lexer iterations) :
      Iterated source file lexer.next.2 iterations
  | begin {lexer : Lexer} {iterations : List Iteration}
      (before : Iterated source file lexer iterations) :
      Iterated source file lexer (.fresh :: iterations)
  | resume {lexer : Lexer} {first others : List Iteration} {iteration : Iteration}
      (before : Iterated source file lexer (first ++ iteration :: others)) :
      Iterated source file (lexer.resume iteration).2.2
        (first ++ (lexer.resume iteration).2.1 :: others)

/-- What an iteration tells of the lexer: one that gave the end of input, that nothing else is left,
and one that has ended, that the lexer is marked as read. -/
def Iteration.Tells (lexer : Lexer) : Iteration → Prop
  | .atEnd => ∃ ending, lexer.Exhausted ending
  | .ended => lexer.finished = true
  | .fresh | .running | .broken => True

/-- A lexer that can be called, as its iterations know it. Only an iteration that ends marks it. -/
structure Coherent (lexer : Lexer) (iterations : List Iteration) : Prop where
  steady : lexer.Steady
  tells : ∀ iteration ∈ iterations, iteration.Tells lexer
  ended : lexer.finished = true → .ended ∈ iterations

theorem Iteration.Tells.next {iteration : Iteration} (tells : iteration.Tells lexer)
    (steady : lexer.Steady) : iteration.Tells lexer.next.2 := by
  cases iteration with
  | atEnd =>
      obtain ⟨ending, ended⟩ := tells
      exact ⟨ending, ended.next.2⟩
  | ended => exact steady.next_finished.trans tells
  | fresh | running | broken => trivial

theorem Iteration.Tells.marked {iteration : Iteration} (tells : iteration.Tells lexer) :
    iteration.Tells { lexer with finished := true } := by
  cases iteration with
  | atEnd =>
      obtain ⟨ending, ended⟩ := tells
      exact ⟨ending, ended.rest, ended.idle, ended.last, ended.isEnding⟩
  | ended => rfl
  | fresh | running | broken => trivial

theorem mem_of_replaced {first others : List Iteration} {iteration other kept : Iteration}
    (inside : kept ∈ first ++ iteration :: others) (apart : kept ≠ iteration) :
    kept ∈ first ++ other :: others := by
  simp only [List.mem_append, List.mem_cons] at inside ⊢
  exact inside.imp_right fun behind => .inr (behind.resolve_left apart)

/-- A step of an iteration is a call; one that gives the end of input suspends the iteration. -/
theorem step_cases (lexer : Lexer) :
    lexer.step.2.2 = lexer.next.2 ∧
      (lexer.step.2.1 = .running ∨ lexer.step.2.1 = .broken ∨
        lexer.step.2.1 = .atEnd ∧
          ∃ token, lexer.next.1 = .ok token ∧ token.kind = .endOfInput) := by
  rw [step]
  cases given : lexer.next with
  | mk result after =>
      cases result with
      | error error => exact ⟨rfl, .inr (.inl rfl)⟩
      | ok token =>
          by_cases isEnd : token.kind = .endOfInput
          · exact ⟨rfl, .inr (.inr ⟨if_pos isEnd, token, rfl, isEnd⟩)⟩
          · exact ⟨rfl, .inl (if_neg isEnd)⟩

theorem Steady.step_tells (steady : lexer.Steady) : lexer.step.2.1.Tells lexer.next.2 := by
  obtain ⟨_, phase | phase | ⟨phase, token, given, isEnd⟩⟩ := lexer.step_cases
  · rw [phase]
    trivial
  · rw [phase]
    trivial
  · rw [phase]
    exact ⟨token, steady.next.2 token given isEnd⟩

section Coherent

variable {iterations first others : List Iteration} {iteration : Iteration}

theorem Coherent.next (coherent : Coherent lexer iterations) :
    Coherent lexer.next.2 iterations where
  steady := coherent.steady.next.1
  tells iteration member := (coherent.tells iteration member).next coherent.steady
  ended finished := coherent.ended (coherent.steady.next_finished.symm.trans finished)

theorem Coherent.step (coherent : Coherent lexer (first ++ iteration :: others))
    (going : iteration ≠ .ended) : Coherent lexer.step.2.2 (first ++ lexer.step.2.1 :: others) := by
  obtain ⟨steady, tells, ended⟩ := coherent.next
  rw [lexer.step_cases.1]
  obtain ⟨before, rest⟩ := List.forall_mem_append.1 tells
  refine ⟨steady, List.forall_mem_append.2 ⟨before, List.forall_mem_cons.2 ⟨?_, ?_⟩⟩, ?_⟩
  · exact coherent.steady.step_tells
  · exact (List.forall_mem_cons.1 rest).2
  · exact fun finished => mem_of_replaced (ended finished) going.symm

/-- Asking an iteration keeps what all of them know. -/
theorem Coherent.resume (coherent : Coherent lexer (first ++ iteration :: others)) :
    Coherent (lexer.resume iteration).2.2 (first ++ (lexer.resume iteration).2.1 :: others) := by
  have inside : Iteration.ended ∈ first ++ .ended :: others := by simp
  cases iteration with
  | running => exact coherent.step (by simp)
  | ended | broken => exact coherent
  | fresh =>
      rw [Lexer.resume]
      cases fresh : lexer.finished with
      | false => exact coherent.step (by simp)
      | true =>
          obtain ⟨before, rest⟩ := List.forall_mem_append.1 coherent.tells
          refine ⟨coherent.steady, List.forall_mem_append.2 ⟨before, ?_⟩, fun _ => inside⟩
          exact List.forall_mem_cons.2 ⟨fresh, (List.forall_mem_cons.1 rest).2⟩
  | atEnd =>
      obtain ⟨before, rest⟩ := List.forall_mem_append.1 coherent.tells
      obtain ⟨_, behind⟩ := List.forall_mem_cons.1 rest
      refine ⟨⟨⟨coherent.steady.placed.sized, coherent.steady.placed.passed⟩,
        coherent.steady.waiting⟩, List.forall_mem_append.2 ⟨?_, ?_⟩, fun _ => inside⟩
      · exact fun other member => (before other member).marked
      · exact List.forall_mem_cons.2 ⟨rfl, fun other member => (behind other member).marked⟩

theorem Iterated.coherent {source : String} {file : Option String}
    (iterated : Iterated source file lexer iterations) : Coherent lexer iterations := by
  induction iterated with
  | start => exact ⟨steady_of_text source file, List.forall_mem_nil _, by simp [ofText]⟩
  | next _ induction => exact induction.next
  | begin _ induction =>
      refine ⟨induction.steady, List.forall_mem_cons.2 ⟨trivial, induction.tells⟩, ?_⟩
      intro finished
      exact List.mem_cons_of_mem _ (induction.ended finished)
  | resume _ induction => exact induction.resume

end Coherent

section Drain

variable {source : String} {file : Option String} {iterations : List Iteration}

/-- The iteration begun last is asked. -/
theorem Iterated.resume_head {iteration : Iteration}
    (before : Iterated source file lexer (iteration :: iterations)) :
    Iterated source file (lexer.resume iteration).2.2
      ((lexer.resume iteration).2.1 :: iterations) :=
  have before : Iterated source file lexer ([] ++ iteration :: iterations) := before
  before.resume

/-- An iteration that has room for all tokens comes to its own end, unless an error ends it. -/
theorem Iterated.drain {iteration : Iteration} {fuel : Nat}
    (iterated : Iterated source file lexer (iteration :: iterations))
    (going : lexer.resume iteration = lexer.step) (enough : lexer.remaining ≤ fuel) :
    ∃ final, Iterated source file (Lexer.drain (fuel + 1) iteration lexer).lexer
        (final :: iterations) ∧
      ((Lexer.drain (fuel + 1) iteration lexer).failure = none → final = .ended) := by
  induction fuel generalizing lexer iteration with
  | zero => exact absurd lexer.remaining_pos (by omega)
  | succ fuel induction =>
      have placed := iterated.coherent.steady.placed
      have resumed := iterated.resume_head
      rw [Lexer.drain]
      rw [going, Lexer.step] at resumed
      rw [going, Lexer.step]
      cases given : lexer.next with
      | mk result after =>
          rw [given] at resumed
          cases result with
          | error error => exact ⟨_, resumed, by simp⟩
          | ok token =>
              by_cases isEnd : token.kind = .endOfInput
              · simp only [if_pos isEnd] at resumed ⊢
                exact ⟨_, Iterated.resume_head resumed, fun _ => rfl⟩
              · simp only [if_neg isEnd] at resumed ⊢
                have less := next_remaining placed.enough given isEnd
                exact induction resumed rfl (by omega)

/-- Reading on is asking one more iteration until it ends. -/
theorem Iterated.read_all (iterated : Iterated source file lexer iterations) :
    ∃ final, Iterated source file lexer.readAll.lexer (final :: iterations) ∧
      (lexer.readAll.failure = none → final = .ended) := by
  cases fresh : lexer.finished with
  | true =>
      have resumed := iterated.begin.resume_head
      rw [Lexer.resume, if_pos fresh] at resumed
      rw [read_all_finished fresh]
      exact ⟨.ended, resumed, fun _ => rfl⟩
  | false =>
      apply iterated.begin.drain
      · rw [Lexer.resume, fresh]
        rfl
      · exact iterated.coherent.steady.placed.remaining_le

/-- Where the end of input was given but the lexer not marked, reading on gives it again. -/
theorem Exhausted.read_all {token : Token} (ended : lexer.Exhausted token) (placed : lexer.Placed)
    (fresh : lexer.finished = false) :
    token.kind = .endOfInput ∧ lexer.readAll.tokens = [token] ∧ lexer.readAll.failure = none := by
  have isEnd : token.kind = .endOfInput := by
    rw [ended.isEnding]
    rfl
  have again := ended.next.1
  rw [placed.read_all fresh, tokenBound, readWithin]
  cases given : lexer.next with
  | mk result after =>
      rw [given] at again
      cases again
      simp only [if_pos isEnd, and_self, and_true]
      exact isEnd

end Drain

end Iteration

end Lexer

end LayoutScript
