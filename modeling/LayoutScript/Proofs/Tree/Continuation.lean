import LayoutScript.Proofs.Tree.Agreement

/-!
Reading on. Tokens that are read as a program up to the end of input are read in the same way
where other tokens follow, so that the lines of two programs, one after the other, are read as the
statements of both.
-/

namespace LayoutScript

open Parse

/-- The number of statements in a list. -/
def Phrase.count : Phrase → Nat
  | .statements trees => trees.length
  | _ => 0

theorem Derives.count_le {feed after : Feed} {phrase : Phrase} {tokens : List Token}
    (derives : Derives feed phrase tokens after) : phrase.count ≤ tokens.length := by
  induction derives with
  | oneStatement first _ _ _ others =>
      have some := List.length_pos_iff.2 (first.nonempty rfl)
      simp only [Phrase.count, List.length_cons, List.length_append] at others ⊢
      omega
  | _ => exact Nat.zero_le _

section Programs

variable {limit : Nat} {more : List Token}

/-- The statements of a program are read in the same way where more follows, and then reading
goes on with what follows. -/
theorem program_statements_carry (follows : Follows more) {fuel later : Nat}
    {feed other after : Feed} {trees : List Statement} (beside : Beside more feed other)
    (run : (programStatements limit fuel).run feed = .ok (trees, after))
    (enough : fuel ≤ later + trees.length) :
    ∃ trees' behind, behind.rest = more ∧
      Statement.unplacedAll trees' = Statement.unplacedAll trees ∧
      ∀ others final, (programStatements limit later).run behind = .ok (others, final) →
        (programStatements limit (later + trees.length)).run other =
          .ok (trees' ++ others, final) := by
  induction fuel generalizing feed other trees with
  | zero => cases run
  | succ fuel induction =>
      rw [programStatements] at run
      by_cases spent : feed.Spent
      · obtain ⟨ending, isCurrent, isEnd⟩ := spent.current
        rw [run_bind_ok (run_current isCurrent), if_pos isEnd] at run
        cases run
        exact ⟨[], other, beside.rest_at_end spent, rfl, fun others final read => read⟩
      · obtain ⟨token, _, takes⟩ := beside.has_token spent
        obtain ⟨token', _, takes', _, _⟩ := beside.takes takes
        rw [run_bind_ok (run_current takes.current), if_neg takes.not_end] at run
        obtain ⟨one, between, read, further⟩ := run_bind_inv run
        obtain ⟨trees, final, readOthers, made⟩ := run_bind_inv
          ((run_bind_ok (show skipNewlines.run between = .ok ((), between.skipNewlines) from rfl)).symm.trans
            further)
        cases made
        rw [List.length_cons] at enough
        obtain ⟨gap, isGap⟩ : ∃ gap, later + trees.length = fuel + gap :=
          ⟨later + trees.length - fuel, by omega⟩
        obtain ⟨one', between', read', sameOne, mirrors⟩ :=
          (readers_carry limit gap fuel follows).statement 0 beside one between read trivial
        obtain ⟨trees', behind, rest, sameOthers, goesOn⟩ :=
          induction (mirrors.skip_newlines follows).toBeside readOthers (by omega)
        refine ⟨one' :: trees', behind, rest, ?_, ?_⟩
        · simp only [Statement.unplacedAll]
          rw [sameOne, sameOthers]
        · intro others final ends
          rw [List.length_cons, ← Nat.add_assoc, programStatements,
            run_bind_ok (run_current takes'.current), if_neg takes'.not_end, isGap,
            run_bind_ok read', ← isGap,
            run_bind_ok (show skipNewlines.run between' = .ok ((), between'.skipNewlines) from rfl),
            run_bind_ok (goesOn others final ends)]
          rfl

/-- Tokens that end a line, and tokens with the same signs. -/
theorem parallel_of_signs {ending : Token} (isEnd : ending.kind = .endOfInput)
    {tokens tokens' : List Token} (same : tokens'.map Token.sign = tokens.map Token.sign)
    (proper : ∀ token ∈ tokens, token.kind ≠ .endOfInput)
    (settled : ∀ token ∈ tokens.getLast?, token.kind.settles = true) :
    Parallel more (tokens ++ [ending]) (tokens' ++ more) := by
  induction tokens generalizing tokens' with
  | nil =>
      rw [List.map_eq_nil_iff.1 same]
      exact .done isEnd
  | cons token tokens induction =>
      obtain ⟨token', others, rfl, sameFirst, sameOthers⟩ := List.map_eq_cons_iff.1 same
      obtain ⟨notEnd, properOthers⟩ := List.forall_mem_cons.1 proper
      refine .next sameFirst notEnd ?_ (induction sameOthers properOthers ?_)
      · rintro ⟨last, single, _⟩
        cases tokens with
        | nil => exact settled token rfl
        | cons second tokens => simp at single
      · intro last isLast
        cases tokens with
        | nil => cases isLast
        | cons second tokens => exact settled last (by rwa [List.getLast?_cons_cons])

/-- Tokens are read as a program if statements are read from them. -/
theorem Program.of_tokens_eq (tokens : List Token) (file : Option String) (limits : Limits) :
    ∃ place : Feed → Span, Program.ofTokens tokens file limits =
      ((programStatements limits.nesting (fuelFor tokens.length)).run
        (Feed.ofTokens tokens none file).skipNewlines).map
          fun found => ⟨place found.2, found.1⟩ := by
  have first : ∃ start, (Feed.ofTokens tokens none file).current = .ok start := by
    cases tokens with
    | nil => exact ⟨_, rfl⟩
    | cons token tokens => exact ⟨token, rfl⟩
  obtain ⟨start, isCurrent⟩ := first
  refine ⟨fun feed => start.span.join (feed.previous.getD start).span, ?_⟩
  rw [Program.ofTokens, Program.ofFeed, program, run_bind_ok (run_current isCurrent),
    run_bind_ok (show skipNewlines.run _ = .ok ((), (Feed.ofTokens tokens none file).skipNewlines)
      from rfl)]
  change ((programStatements limits.nesting (fuelFor tokens.length) >>= _).run _).map _ = _
  cases run : (programStatements limits.nesting (fuelFor tokens.length)).run
      (Feed.ofTokens tokens none file).skipNewlines with
  | error halt =>
      rw [StateT.run_bind, run]
      rfl
  | ok found =>
      rw [run_bind_ok run, run_bind_ok (run_span_from start)]
      rfl

theorem Program.of_tokens_run {tokens : List Token} {file : Option String} {limits : Limits}
    {program : Program} (read : Program.ofTokens tokens file limits = .ok program) :
    ∃ after, (programStatements limits.nesting (fuelFor tokens.length)).run
      (Feed.ofTokens tokens none file).skipNewlines = .ok (program.statements, after) := by
  obtain ⟨place, same⟩ := Program.of_tokens_eq tokens file limits
  rw [same] at read
  cases run : (programStatements limits.nesting (fuelFor tokens.length)).run
      (Feed.ofTokens tokens none file).skipNewlines with
  | error halt =>
      rw [run] at read
      cases read
  | ok found =>
      rw [run] at read
      cases read
      exact ⟨found.2, rfl⟩

theorem Program.of_tokens_of_run {tokens : List Token} {file : Option String} {limits : Limits}
    {trees : List Statement} {after : Feed}
    (run : (programStatements limits.nesting (fuelFor tokens.length)).run
      (Feed.ofTokens tokens none file).skipNewlines = .ok (trees, after)) :
    ∃ program, Program.ofTokens tokens file limits = .ok program ∧ program.statements = trees := by
  obtain ⟨place, same⟩ := Program.of_tokens_eq tokens file limits
  exact ⟨⟨place after, trees⟩, by rw [same, run]; rfl, rfl⟩

/-- The tokens of a text, without the end of input: a number of complete lines. -/
structure Lines (tokens : List Token) : Prop where
  proper : ∀ token ∈ tokens, token.kind ≠ .endOfInput
  settled : ∀ token ∈ tokens.getLast?, token.kind.settles = true
  begun : ∀ token ∈ tokens.head?, token.kind ≠ .newline

/-- There are no more statements than tokens. -/
theorem statements_le_tokens {fuel : Nat} {tokens : List Token} {ending : Token}
    {file : Option String} {trees : List Statement} {after : Feed}
    (isEnd : ending.kind = .endOfInput)
    (run : (programStatements limit fuel).run
      (Feed.ofTokens (tokens ++ [ending]) none file).skipNewlines = .ok (trees, after)) :
    trees.length ≤ tokens.length := by
  have proper := Feed.of_tokens_proper (tokens ++ [ending]) none file
  obtain ⟨newlines, skips⟩ := skip_newlines_skips
    (Feed.ofTokens (tokens ++ [ending]) none file).ending (tokens ++ [ending]) none
  obtain ⟨_, ⟨taken, derives⟩, last, isLast, lastEnd⟩ :=
    program_statements_sound limit fuel (skips.proper proper) trees after run
  have count : trees.length ≤ taken.length := derives.count_le
  have rest : tokens ++ [ending] = newlines ++ (taken ++ after.rest) := by
    rw [← derives.rest_eq]
    exact skips.rest_eq
  let visible (token : Token) : Bool := token.kind != .endOfInput
  have all : taken.countP visible = taken.length := by
    rw [List.countP_eq_length]
    intro token member
    simpa [visible] using derives.not_end token member
  have few : tokens.countP visible ≤ tokens.length := List.countP_le_length
  have hidden : visible ending = false := by simp [visible, isEnd]
  have counted := congrArg (List.countP visible) rest
  simp only [List.countP_append, List.countP_singleton, hidden, Bool.false_eq_true, if_false]
    at counted
  omega

theorem Feed.skip_newlines_none {tokens : List Token} {file : Option String}
    (begun : ∀ token ∈ tokens.head?, token.kind ≠ .newline) :
    (Feed.ofTokens tokens none file).skipNewlines = Feed.ofTokens tokens none file := by
  cases tokens with
  | nil => rfl
  | cons token tokens =>
      rw [Feed.skipNewlines]
      simp only [Feed.ofTokens, Feed.skipNewlinesFrom, if_neg (begun token rfl)]

/-- Reading is compositional. Where lines of tokens are read as a program, and others as well,
tokens with the signs of both are read as the statements of both. -/
theorem Program.of_tokens_append {first second tokens : List Token} {end₁ end₂ ending : Token}
    {file : Option String} {limits : Limits} {program program' : Program}
    (lines : Lines first) (lines' : Lines second) (isEnd₁ : end₁.kind = .endOfInput)
    (isEnd₂ : end₂.kind = .endOfInput) (isEnd : ending.kind = .endOfInput)
    (same : tokens.map Token.sign = first.map Token.sign ++ second.map Token.sign)
    (read : Program.ofTokens (first ++ [end₁]) file limits = .ok program)
    (read' : Program.ofTokens (second ++ [end₂]) file limits = .ok program') :
    ∃ joined, Program.ofTokens (tokens ++ [ending]) file limits = .ok joined ∧
      Statement.unplacedAll joined.statements =
        Statement.unplacedAll (program.statements ++ program'.statements) := by
  obtain ⟨front, back, rfl, sameFront, sameBack⟩ := List.map_eq_append_iff.1 same
  obtain ⟨after, run⟩ := Program.of_tokens_run read
  obtain ⟨after', run'⟩ := Program.of_tokens_run read'
  have few := statements_le_tokens isEnd₁ run
  have few' := statements_le_tokens isEnd₂ run'
  have sizes : front.length = first.length ∧ back.length = second.length := by
    constructor
    · simpa using congrArg List.length sameFront
    · simpa using congrArg List.length sameBack
  have follows : Follows (back ++ [ending]) := by
    cases back with
    | nil => exact ⟨ending, [], rfl, by simp [isEnd]⟩
    | cons token back =>
        refine ⟨token, back ++ [ending], rfl, ?_⟩
        obtain ⟨token', others, isSecond, sameToken, _⟩ := List.map_eq_cons_iff.1 sameBack.symm
        rw [← Token.kind_of_same_sign sameToken]
        exact lines'.begun token' (by rw [isSecond]; rfl)
  have ends : Follows [ending] := ⟨ending, [], rfl, by simp [isEnd]⟩
  let total := fuelFor (front ++ back ++ [ending]).length
  have isTotal : total = 24 * (first.length + second.length + 3) := by
    simp only [total, fuelFor, List.length_append, List.length_singleton]
    omega
  have fuel : fuelFor (first ++ [end₁]).length = 24 * (first.length + 3) ∧
      fuelFor (second ++ [end₂]).length = 24 * (second.length + 3) := by
    simp [fuelFor]
  have start : Beside (back ++ [ending]) (Feed.ofTokens (first ++ [end₁]) none file)
      (Feed.ofTokens (front ++ back ++ [ending]) none file) := by
    refine ⟨Feed.of_tokens_proper _ _ _, ?_⟩
    rw [show (Feed.ofTokens (front ++ back ++ [ending]) none file).rest = front ++ (back ++ [ending])
      from List.append_assoc _ _ _]
    exact parallel_of_signs isEnd₁ sameFront lines.proper lines.settled
  obtain ⟨trees, behind, rest, sameTrees, goesOn⟩ := program_statements_carry follows
    (start.skip_newlines follows) run
    (show _ ≤ (total - program.statements.length) + program.statements.length by omega)
  have middle : Beside [ending] (Feed.ofTokens (second ++ [end₂]) none file) behind := by
    refine ⟨Feed.of_tokens_proper _ _ _, ?_⟩
    rw [rest]
    exact parallel_of_signs isEnd₂ sameBack lines'.proper lines'.settled
  have begun : ∀ token ∈ (second ++ [end₂]).head?, token.kind ≠ .newline := by
    cases second with
    | nil => simp [isEnd₂]
    | cons token second => exact lines'.begun
  rw [Feed.skip_newlines_none begun] at run'
  let later := total - program.statements.length - program'.statements.length
  have split : total - program.statements.length = later + program'.statements.length := by omega
  obtain ⟨trees', final, rest', sameTrees', goesOn'⟩ := program_statements_carry ends middle run'
    (show _ ≤ later + program'.statements.length by omega)
  have stops : (programStatements limits.nesting later).run final = .ok ([], final) := by
    obtain ⟨less, isLater⟩ : ∃ less, later = less + 1 := ⟨later - 1, by omega⟩
    have isCurrent : final.current = .ok ending := by rw [Feed.current, rest']
    rw [isLater, programStatements, run_bind_ok (run_current isCurrent), if_pos isEnd]
    rfl
  have others := goesOn' [] final stops
  rw [← split] at others
  have whole := goesOn (trees' ++ []) final others
  rw [Nat.sub_add_cancel (by omega)] at whole
  obtain ⟨joined, readWhole, isJoined⟩ := Program.of_tokens_of_run whole
  refine ⟨joined, readWhole, ?_⟩
  rw [isJoined, List.append_nil, Statement.unplaced_all_eq_map, Statement.unplaced_all_eq_map,
    List.map_append, List.map_append, ← Statement.unplaced_all_eq_map,
    ← Statement.unplaced_all_eq_map, ← Statement.unplaced_all_eq_map,
    ← Statement.unplaced_all_eq_map, sameTrees, sameTrees']

end Programs

end LayoutScript
