import LayoutScript.Proofs.Token.Lockstep
import LayoutScript.Proofs.Tree.Yield

/-!
How a text ends. In a text without carriage returns the end of input comes behind a token of a
line, or where a line could begin. So its tokens, up to the end of input, are complete lines: the
end of input makes the newline that a line feed in its place would make, and closes the blocks
that are open.
-/

namespace LayoutScript

theorem Passes.rest_mem {start stop : Cursor} {passed : List Char}
    (passes : Passes start passed stop) {char : Char} (member : char ∈ stop.rest) :
    char ∈ start.rest := by
  rw [passes.rest]
  exact List.mem_append_right _ member

theorem before_end_cons {token : Token} (proper : token.kind ≠ .endOfInput) (tokens : List Token) :
    beforeEnd (token :: tokens) = token :: beforeEnd tokens :=
  List.takeWhile_cons_of_pos (by simpa using proper)

theorem before_end_end {token : Token} (isEnd : token.kind = .endOfInput) (tokens : List Token) :
    beforeEnd (token :: tokens) = [] :=
  List.takeWhile_cons_of_neg (by simpa using isEnd)

namespace Lexer

open Cursor

/-- A token begins at a cursor. -/
def Solid (cursor : Cursor) : Prop :=
  ∃ char others, cursor.rest = char :: others ∧ isSpace char = false ∧ char ≠ '#' ∧ char ≠ '\n'

theorem Solid.trim {cursor : Cursor} (solid : Solid cursor) : trim cursor = cursor := by
  obtain ⟨rest, position⟩ := cursor
  obtain ⟨char, others, rfl, noSpace, noComment, _⟩ := solid
  have stays :
      Cursor.skipWhile ⟨char :: others, position⟩ isSpace = ⟨char :: others, position⟩ := by
    rw [Cursor.skipWhile, skipFrom, noSpace]
    rfl
  rw [Lexer.trim, stays, skipComment, if_neg]
  simpa [Cursor.peek?] using noComment

/-- A line that is not empty begins with a token, behind its blanks. -/
theorem margin_solid {line : Cursor} (plain : '\r' ∉ line.rest)
    (more : (Margin.read line).stop.rest ≠ [])
    (noFeed : (Margin.read line).stop.peek? ≠ some '\n') : Solid (Margin.read line).stop := by
  have noReturn : (line.rest.dropWhile isBlank).dropWhile (· == '\r') =
      line.rest.dropWhile isBlank := by
    apply List.dropWhile_beq_eq_self_of_head?_ne
    intro isReturn
    exact plain ((List.dropWhile_sublist _).mem (List.mem_of_mem_head? isReturn))
  have found := margin_stop_rest line
  dsimp only at found
  rw [noReturn] at found
  rw [Cursor.peek?] at noFeed
  split at found
  · -- A comment reaches to the end of its line.
    rw [found] at more noFeed
    have feed := List.head_dropWhile_not isNotLineFeed more
    rw [List.head?_eq_some_head more] at noFeed
    simp only [isNotLineFeed, bne_eq_false_iff_eq] at feed
    exact absurd (congrArg some feed) noFeed
  · rename_i noComment
    obtain ⟨char, others, front⟩ := List.exists_cons_of_ne_nil more
    have member : char ∈ line.rest := by
      apply (List.dropWhile_sublist isBlank).mem
      rw [← found, front]
      exact List.mem_cons_self
    have noBlank := List.head?_dropWhile_not isBlank line.rest
    rw [← found, front] at noBlank noComment
    rw [front] at noFeed
    refine ⟨char, others, front, ?_, ?_, ?_⟩
    · have notReturn : char ≠ '\r' := fun same => plain (same ▸ member)
      simpa [isSpace, notReturn] using noBlank
    · simpa using noComment
    · simpa using noFeed

theorem Margin.Ahead.begins_token {start : Cursor} {margin : Margin} (ahead : margin.Ahead start)
    (plain : '\r' ∉ start.rest) (more : margin.stop.rest ≠ []) : Solid margin.stop := by
  obtain ⟨passed, line, passes, _, rfl⟩ := ahead.line
  exact margin_solid (mt passes.rest_mem plain) more ahead.solid

section Blocks

theorem close_blocks_mem {width level : Nat} {indents : List Nat}
    (member : level ∈ (closeBlocks width indents).2) : level ∈ indents := by
  induction indents with
  | nil => exact member
  | cons innermost outer induction =>
      rw [closeBlocks] at member
      split at member
      · exact List.mem_cons_of_mem _ (induction member)
      · exact member

/-- A line that is not indented closes all blocks. -/
theorem close_blocks_zero {indents : List Nat} (positive : ∀ width ∈ indents, 0 < width) :
    closeBlocks 0 indents = (indents.length, []) := by
  induction indents with
  | nil => rfl
  | cons innermost outer induction =>
      obtain ⟨wide, others⟩ := List.forall_mem_cons.1 positive
      rw [closeBlocks, if_pos wide, induction others]
      rfl

end Blocks

/-- A lexer in a text without carriage returns. -/
structure Tidy (lexer : Lexer) : Prop where
  plain : '\r' ∉ lexer.cursor.rest
  positive : ∀ width ∈ lexer.indents, 0 < width

theorem Begins.positive {lexer after : Lexer} {margin : Margin}
    {result : Except ScriptError (List Token)} (begins : Begins lexer margin result after)
    (positive : ∀ width ∈ lexer.indents, 0 < width) : ∀ width ∈ after.indents, 0 < width := by
  cases begins with
  | bare => exact positive
  | mixed => exact positive
  | wider _ _ _ wide => exact List.forall_mem_cons.2 ⟨Nat.zero_lt_of_lt wide, positive⟩
  | closes _ _ _ _ blocks _ =>
      intro width member
      exact positive width (close_blocks_mem (by rw [blocks]; exact member))
  | inconsistent _ _ _ _ blocks _ =>
      intro width member
      exact positive width (close_blocks_mem (by rw [blocks]; exact member))

theorem Begins.tidy {lexer after : Lexer} {margin : Margin}
    {result : Except ScriptError (List Token)} (begins : Begins lexer margin result after)
    (ahead : margin.Ahead lexer.cursor) (tidy : lexer.Tidy) : after.Tidy := by
  obtain ⟨_, passes⟩ := ahead.passes
  rw [← begins.kept.2.1] at passes
  exact ⟨mt passes.rest_mem tidy.plain, begins.positive tidy.positive⟩

theorem Opens.tidy {lexer ready : Lexer} (opens : Opens lexer ready) (tidy : lexer.Tidy) :
    ready.Tidy := by
  cases opens with
  | inside => exact tidy
  | margin _ ahead begins => exact begins.tidy ahead tidy

theorem Tidy.fed {lexer : Lexer} (tidy : lexer.Tidy)
    (ahead : lexer.trimmed.cursor.peek? = some '\n') : lexer.fed.Tidy := by
  obtain ⟨_, passes⟩ := fed_passes ahead
  exact ⟨mt passes.rest_mem tidy.plain, tidy.positive⟩

/-- A lexer between two tokens of a text without carriage returns, with more than the end of input
to come. In a line it is behind a token or in front of one. -/
structure Poised (lexer : Lexer) : Prop extends Tidy lexer where
  placed : lexer.Placed
  within : lexer.atLineStart = false → Solid lexer.cursor ∨
    lexer.pending = [] ∧ ∃ kind, lexer.last = some kind ∧ kind.isVisible = true
  begun : lexer.atLineStart = true →
    lexer.pending = [] ∧ (lexer.last = none ∨ lexer.last = some .newline)
  waiting : ∀ token ∈ lexer.pending, token.kind = .dedent

/-- What holds of a lexer behind tokens that it makes. -/
def Leaves (lexer after : Lexer) (tokens : List Token) : Prop :=
  ∀ token others, tokens = token :: others →
    Poised { after with pending := others, last := some token.kind } ∧
      after.depth = depthAfter lexer.depth token.kind

theorem Begins.leaves {lexer after : Lexer} {margin : Margin} {tokens : List Token}
    (begins : Begins lexer margin (.ok tokens) after) (ahead : margin.Ahead lexer.cursor)
    (placed : after.Placed) (tidy : lexer.Tidy) : Leaves lexer after tokens := by
  have afterTidy := begins.tidy ahead tidy
  obtain ⟨_, cursor, within, depth⟩ := begins.kept
  have solid (more : margin.stop.rest ≠ []) : Solid after.cursor := by
    rw [cursor]
    exact ahead.begins_token tidy.plain more
  have poised (more : margin.stop.rest ≠ []) (token : Token) (others : List Token)
      (dedents : ∀ other ∈ others, other.kind = .dedent) :
      Poised { after with pending := others, last := some token.kind } :=
    { plain := afterTidy.plain
      positive := afterTidy.positive
      placed := ⟨placed.sized, placed.passed⟩
      within := fun _ => .inl (solid more)
      begun := fun atStart => absurd atStart (by rw [within]; decide)
      waiting := dedents }
  generalize made : (Except.ok tokens : Except ScriptError (List Token)) = result at begins
  rintro token others rfl
  cases begins with
  | bare => cases made
  | mixed => cases made
  | wider more =>
      cases made
      exact ⟨poised more _ [] (by simp), rfl⟩
  | closes more =>
      have dedents : ∀ other ∈ token :: others, other.kind = .dedent := by
        intro other member
        rw [Except.ok.inj made] at member
        rw [(List.mem_replicate.1 member).2]
        rfl
      obtain ⟨first, rest⟩ := List.forall_mem_cons.1 dedents
      refine ⟨poised more _ others rest, ?_⟩
      rw [first]
      exact depth
  | inconsistent => cases made

theorem Scans.leaves {lexer after : Lexer} {tokens : List Token}
    (scans : Scans lexer (.ok tokens) after) (placed : lexer.Placed) (tidy : lexer.Tidy)
    (proper : ∀ token ∈ tokens, token.kind ≠ .endOfInput) : Leaves lexer after tokens := by
  have afterPlaced := (placed.scanned scans).1
  generalize made : (Except.ok tokens : Except ScriptError (List Token)) = result at scans
  induction scans with
  | margin _ ahead begins _ =>
      cases made
      exact begins.leaves ahead afterPlaced tidy
  | @finish lexer ready opens _ =>
      cases made
      obtain ⟨ending, member, isEnd⟩ := (end_tokens_count ready.trimmed).1
      exact absurd isEnd (proper ending member)
  | @lineFeed lexer ready opens ahead outside =>
      cases made
      rintro token others ⟨⟩
      have readyTidy := (opens.tidy tidy).fed ahead
      refine ⟨{ plain := readyTidy.plain, positive := readyTidy.positive
                placed := ⟨afterPlaced.sized, afterPlaced.passed⟩
                within := ?_, begun := ?_, waiting := ?_ }, ?_⟩
      · rintro ⟨⟩
      · exact fun _ => ⟨rfl, .inr rfl⟩
      · simp
      · exact opens.kept.2.2.2
  | @continued lexer ready after result opens ahead within others induction =>
      have leaves := induction ((placed.opened opens).fed ahead) ((opens.tidy tidy).fed ahead)
        afterPlaced made
      intro token others isMade
      obtain ⟨poised, depth⟩ := leaves token others isMade
      refine ⟨poised, depth.trans ?_⟩
      change depthAfter ready.depth token.kind = _
      rw [opens.kept.2.2.2]
  | @token lexer ready scan opens spelled =>
      obtain ⟨_, within, sameDepth⟩ := opens.kept.2
      obtain ⟨_, trims⟩ := trim_passes ready.cursor
      obtain ⟨_, passes⟩ := spelled.passes
      have plain := mt (trims.trans passes).rest_mem (opens.tidy tidy).plain
      cases outcome : scan.outcome with
      | error failure =>
          rw [finishScan, outcome] at made
          cases made
      | ok found =>
          have finished : ready.trimmed.finishScan ready.trimmed.cursor scan =
              (.ok [⟨found.1, found.2, String.ofList (ready.trimmed.cursor.textTo scan.stop),
                ready.trimmed.cursor.spanTo scan.stop ready.file⟩],
              { ready.trimmed with
                cursor := scan.stop, depth := depthAfter ready.depth found.1 }) := by
            rw [finishScan, outcome]
            rfl
          rw [finished] at made afterPlaced ⊢
          cases made
          rintro token others ⟨⟩
          refine ⟨{ plain := plain, positive := (opens.tidy tidy).positive
                    placed := ⟨afterPlaced.sized, afterPlaced.passed⟩
                    within := ?_, begun := ?_, waiting := ?_ }, ?_⟩
          · exact fun _ => .inr ⟨rfl, _, rfl, spelled.visible _ _ outcome⟩
          · intro atStart
            have isStart : ready.atLineStart = true := atStart
            rw [within] at isStart
            cases isStart
          · simp
          · exact congrArg (depthAfter · found.1) sameDepth

theorem Poised.of_text {source : String} (file : Option String)
    (plain : '\r' ∉ Text.dropReturns source.toList) : (ofText source file).Poised where
  plain := plain
  positive := by rintro width ⟨⟩
  placed := .of_text source file
  within := by rintro ⟨⟩
  begun := fun _ => ⟨rfl, .inl rfl⟩
  waiting := by rintro token ⟨⟩

theorem Poised.next {lexer after : Lexer} {token : Token} (poised : lexer.Poised)
    (run : lexer.next = (.ok token, after))
    (proper : ∀ other ∈ token :: after.pending, other.kind ≠ .endOfInput) :
    after.Poised ∧ after.depth = depthAfter lexer.depth token.kind := by
  cases next_gives_token poised.placed run with
  | @waiting _ tokens pending =>
      have dedents := poised.waiting
      rw [pending] at dedents
      obtain ⟨first, others⟩ := List.forall_mem_cons.1 dedents
      refine ⟨{ plain := poised.plain, positive := poised.positive
                placed := ⟨poised.placed.sized, poised.placed.passed⟩
                within := ?_, begun := ?_, waiting := others }, ?_⟩
      · intro within
        rcases poised.within within with solid | ⟨idle, _⟩
        · exact .inl solid
        · rw [idle] at pending
          cases pending
      · intro atStart
        have idle := (poised.begun atStart).1
        rw [idle] at pending
        cases pending
      · rw [first]
        rfl
  | made idle scans => exact scans.leaves poised.placed poised.toTidy proper token _ rfl

/-- Where the end of input waits, the tokens in front of it are delivered. -/
theorem Delivers.before_end {lexer after final : Lexer} {tokens : List Token} {ending : Token}
    (delivers : Delivers lexer tokens after) (ends : after.next = (.ok ending, final))
    (isEnd : ending.kind = .endOfInput)
    (waits : ∃ token ∈ lexer.pending, token.kind = .endOfInput) :
    tokens = beforeEnd lexer.pending := by
  obtain ⟨last, member, isLast⟩ := waits
  induction delivers with
  | none =>
      obtain ⟨first, others, pending⟩ := List.exists_cons_of_ne_nil (List.ne_nil_of_mem member)
      rw [next_waiting pending] at ends
      cases ends
      rw [pending, before_end_end isEnd]
  | more gives proper _ induction =>
      obtain ⟨first, others, pending⟩ := List.exists_cons_of_ne_nil (List.ne_nil_of_mem member)
      rw [next_waiting pending] at gives
      cases gives
      rw [pending] at member ⊢
      rw [before_end_cons proper]
      rcases List.mem_cons.1 member with rfl | inside
      · exact absurd isLast proper
      · rw [induction ends inside]

/-- The last call for tokens, which comes to the end of input. -/
structure LastCall (lexer : Lexer) (tokens : List Token) (after last : Lexer)
    (before : List Token) : Prop where
  delivers : Delivers lexer before last
  remains : ∃ others, Delivers last others after
  poised : last.Poised
  idle : last.pending = []
  ends : ∃ scanned made, scanTokens (last.size + 1) last = (.ok scanned, made) ∧
    (∃ token ∈ scanned, token.kind = .endOfInput) ∧ tokens = before ++ beforeEnd scanned
  depth : last.depth = (before.map Token.kind).foldl depthAfter lexer.depth

theorem LastCall.more {lexer middle after last : Lexer} {token : Token} {tokens before : List Token}
    (gives : lexer.next = (.ok token, middle)) (proper : token.kind ≠ .endOfInput)
    (depth : middle.depth = depthAfter lexer.depth token.kind)
    (call : LastCall middle tokens after last before) :
    LastCall lexer (token :: tokens) after last (token :: before) := by
  obtain ⟨scanned, made, run, ended, parts⟩ := call.ends
  refine ⟨.more gives proper call.delivers, call.remains, call.poised, call.idle,
    ⟨scanned, made, run, ended, ?_⟩, ?_⟩
  · rw [parts, List.cons_append]
  · rw [List.map_cons, List.foldl_cons, ← depth]
    exact call.depth

theorem LastCall.here {lexer middle after : Lexer} {token : Token} {tokens : List Token}
    (poised : lexer.Poised) (delivers : Delivers lexer tokens after)
    (gives : lexer.next = (.ok token, middle))
    (ended : ∃ other ∈ token :: middle.pending, other.kind = .endOfInput)
    (parts : tokens = beforeEnd (token :: middle.pending)) :
    LastCall lexer tokens after lexer [] := by
  obtain ⟨other, member, isEnd⟩ := ended
  rcases next_cases poised.placed.enough gives with
    ⟨others, pending, rfl⟩ | ⟨idle, others, made, scanned, rfl⟩
  · have dedent := poised.waiting other (by rw [pending]; exact member)
    rw [isEnd] at dedent
    cases dedent
  · exact ⟨.none, ⟨tokens, delivers⟩, poised, idle,
      ⟨_, made, scanned, ⟨other, member, isEnd⟩, parts⟩, rfl⟩

theorem Poised.last_call {lexer after final : Lexer} {tokens : List Token} {ending : Token}
    (poised : lexer.Poised) (delivers : Delivers lexer tokens after)
    (ends : after.next = (.ok ending, final)) (isEnd : ending.kind = .endOfInput) :
    ∃ last before, LastCall lexer tokens after last before := by
  induction delivers with
  | none =>
      refine ⟨_, [], .here poised .none ends ⟨ending, List.mem_cons_self, isEnd⟩ ?_⟩
      rw [before_end_end isEnd]
  | @more lexer middle after token tokens gives proper others induction =>
      by_cases ended : ∃ other ∈ token :: middle.pending, other.kind = .endOfInput
      · refine ⟨lexer, [], .here poised (.more gives proper others) gives ended ?_⟩
        obtain ⟨other, member, isLast⟩ := ended
        rw [before_end_cons proper]
        rcases List.mem_cons.1 member with rfl | inside
        · exact absurd isLast proper
        · rw [others.before_end ends isEnd ⟨other, inside, isLast⟩]
      · obtain ⟨middlePoised, depth⟩ := poised.next gives
          fun other member isLast => ended ⟨other, member, isLast⟩
        obtain ⟨last, before, call⟩ := induction middlePoised ends
        exact ⟨last, token :: before, call.more gives proper depth⟩

section Ending

variable {lexer after : Lexer} {tokens : List Token}

/-- Nothing is left but empty lines, or spaces and a comment at the end of a line. -/
def AtEnd (lexer : Lexer) : Prop :=
  if lexer.atLineStart then (Margin.skipEmpty lexer.size lexer.cursor).stop.rest = []
  else (trim lexer.cursor).rest = []

/-- What the end of input makes: it ends a line and closes the open blocks. -/
def closing (lexer : Lexer) : List Sign :=
  (if lexer.atLineStart then [] else [.mark .newline]) ++
    List.replicate lexer.indents.length (.mark .dedent)

theorem end_tokens_before_end (going : lexer.last ≠ some .endOfInput) :
    (beforeEnd lexer.endTokens).map Token.sign =
      (if lexer.lineIsOpen then [.mark .newline] else []) ++
        List.replicate lexer.indents.length (.mark .dedent) := by
  rw [endTokens, if_neg going]
  dsimp only
  rw [before_end_append]
  · rw [List.map_append, List.map_replicate, apply_ite (List.map Token.sign)]
    rfl
  · intro token member
    rcases List.mem_append.1 member with line | dedent
    · split at line
      · cases List.mem_singleton.1 line
        simp [layoutToken]
      · cases line
    · cases (List.mem_replicate.1 dedent).2
      simp [layoutToken]
  · rintro token ⟨⟩
    rfl

/-- Where only empty lines are left, the end of input comes next. -/
theorem scan_tokens_bare {fuel : Nat} (atStart : lexer.atLineStart = true)
    (ended : (Margin.skipEmpty lexer.size lexer.cursor).stop.rest = []) :
    scanTokens (fuel + 1) lexer =
      (.ok (lexer.behind (Margin.skipEmpty lexer.size lexer.cursor)).trimmed.endTokens,
        (lexer.behind (Margin.skipEmpty lexer.size lexer.cursor)).trimmed.endInput) := by
  have begun : lexer.beginLine =
      (.ok [], lexer.behind (Margin.skipEmpty lexer.size lexer.cursor)) := by
    unfold beginLine
    dsimp only
    rw [ended]
    rfl
  have gone : (lexer.behind (Margin.skipEmpty lexer.size lexer.cursor)).trimmed.cursor.rest = [] :=
    trim_ended ended
  rw [scan_tokens_at_line_start atStart, begun]
  dsimp only
  rw [scanContent, gone]

/-- A round outside parentheses comes to the end of input only where nothing is left. -/
theorem scan_content_proper {fuel : Nat} (outside : lexer.depth = 0)
    (more : lexer.trimmed.cursor.rest ≠ []) (run : scanContent fuel lexer = (.ok tokens, after)) :
    ∀ token ∈ tokens, token.kind ≠ .endOfInput := by
  unfold scanContent at run
  split at run
  · rename_i ended
    exact absurd ended more
  · rename_i char others front
    rw [if_pos outside] at run
    split at run
    · cases run
      exact List.forall_mem_singleton.2 (by simp)
    · exact (finish_scan_spends _ front run).1

theorem visible_loud {kind : TokenClass} (visible : kind.isVisible = true) :
    isQuiet (some kind) = false := by
  revert visible
  cases kind <;> decide

/-- In a line the end of input makes a newline, since it comes behind a token. -/
theorem Poised.closes_line (poised : lexer.Poised) (outside : lexer.depth = 0)
    (within : lexer.atLineStart = false) (ended : lexer.trimmed.cursor.rest = []) :
    (beforeEnd lexer.trimmed.endTokens).map Token.sign = lexer.closing := by
  have notSolid : ¬ Solid lexer.cursor := by
    intro solid
    rw [trimmed, solid.trim] at ended
    obtain ⟨char, others, front, _⟩ := solid
    rw [front] at ended
    cases ended
  obtain ⟨_, kind, last, visible⟩ := (poised.within within).resolve_left notSolid
  have isOpen : lexer.trimmed.lineIsOpen = true := by
    rw [line_is_open_eq, show lexer.trimmed.last = some kind from last, visible_loud visible,
      show lexer.trimmed.depth = 0 from outside]
    rfl
  have going : lexer.trimmed.last ≠ some .endOfInput := by
    rw [show lexer.trimmed.last = some kind from last]
    rintro ⟨⟩
    cases visible
  rw [end_tokens_before_end going, isOpen, closing, within]
  rfl

/-- In front of a line the end of input makes no newline. -/
theorem end_tokens_quiet (quiet : isQuiet lexer.last = true) :
    (beforeEnd lexer.endTokens).map Token.sign =
      List.replicate lexer.indents.length (.mark .dedent) := by
  have closed : lexer.lineIsOpen = false := by
    rw [line_is_open_eq, quiet, Bool.not_true, Bool.and_false]
  have going : lexer.last ≠ some .endOfInput := by
    intro last
    rw [last] at quiet
    cases quiet
  rw [end_tokens_before_end going, closed]
  rfl

theorem Poised.quiet (poised : lexer.Poised) (atStart : lexer.atLineStart = true) :
    isQuiet lexer.last = true := by
  rcases (poised.begun atStart).2 with last | last <;> rw [last] <;> rfl

/-- Outside parentheses the end of input is met where nothing is left. -/
theorem Poised.at_end {scanned : List Token} {made : Lexer} (poised : lexer.Poised)
    (outside : lexer.depth = 0) (run : scanTokens (lexer.size + 1) lexer = (.ok scanned, made))
    (ended : ∃ token ∈ scanned, token.kind = .endOfInput) :
    lexer.AtEnd ∧ (beforeEnd scanned).map Token.sign = lexer.closing := by
  obtain ⟨ending, member, isEnd⟩ := ended
  unfold AtEnd
  cases atStart : lexer.atLineStart with
  | false =>
      rw [scan_tokens_within_line atStart] at run
      by_cases spent : lexer.trimmed.cursor.rest = []
      · refine ⟨spent, ?_⟩
        rw [scanContent, spent] at run
        cases run
        exact poised.closes_line outside atStart spent
      · exact absurd isEnd (scan_content_proper outside spent run ending member)
  | true =>
      by_cases spent : (Margin.skipEmpty lexer.size lexer.cursor).stop.rest = []
      · refine ⟨spent, ?_⟩
        rw [scan_tokens_bare atStart spent] at run
        cases run
        have quiet := poised.quiet atStart
        rw [closing, atStart]
        exact end_tokens_quiet (show isQuiet (lexer.behind _).trimmed.last = true from quiet)
      · -- A line that is not empty begins with a token.
        exfalso
        rw [scan_tokens_at_line_start atStart] at run
        have cursor := begin_line_cursor lexer
        obtain ⟨margin, ahead, begins⟩ := begin_line_begins poised.placed.enough
        cases begun : lexer.beginLine with
        | mk result ready =>
            rw [begun] at run begins cursor
            dsimp only at run begins cursor
            obtain ⟨_, stop, _, depth⟩ := begins.kept
            cases result with
            | error error => cases run
            | ok opening =>
                cases opening with
                | cons token others =>
                    cases run
                    exact (begin_line_spends poised.placed.enough begun).1 ending member isEnd
                | nil =>
                    have solid : Solid ready.cursor := by
                      rw [stop]
                      refine ahead.begins_token poised.plain ?_
                      rwa [← stop, cursor]
                    have more : ready.trimmed.cursor.rest ≠ [] := by
                      rw [trimmed, solid.trim, cursor]
                      exact spent
                    exact scan_content_proper (depth.trans outside) more run ending member isEnd

/-- A call that comes to the end of input makes nothing but a newline, dedents and the end. -/
theorem Scans.ending_kinds (scans : Scans lexer (.ok tokens) after)
    (ended : ∃ token ∈ tokens, token.kind = .endOfInput) :
    ∀ token ∈ tokens, token.kind = .newline ∨ IsClosing token.kind := by
  obtain ⟨ending, member, isEnd⟩ := ended
  generalize made : (Except.ok tokens : Except ScriptError (List Token)) = result at scans
  induction scans with
  | margin _ _ begins =>
      exfalso
      cases begins with
      | bare => cases made; cases member
      | mixed => cases made
      | wider =>
          cases made
          cases List.mem_singleton.1 member
          cases isEnd
      | closes =>
          cases made
          cases (List.mem_replicate.1 member).2
          cases isEnd
      | inconsistent => cases made
  | @finish lexer ready =>
      cases made
      obtain ⟨line, closing, parts, first, closes, _⟩ := end_tokens_parts ready.trimmed
      intro token inside
      rw [parts] at inside
      rcases List.mem_append.1 inside with inLine | inClosing
      · rcases first with rfl | ⟨_, newline, rfl, isNewline⟩
        · cases inLine
        · cases List.mem_singleton.1 inLine
          exact .inl isNewline
      · exact .inr (closes token inClosing)
  | lineFeed =>
      cases made
      cases List.mem_singleton.1 member
      cases isEnd
  | continued _ _ _ _ induction => exact induction made
  | token _ spelled =>
      cases tokens with
      | nil => cases member
      | cons token others =>
          obtain ⟨rfl, visible⟩ := finish_scan_tokens spelled made
          cases List.mem_singleton.1 member
          rw [isEnd] at visible
          cases visible

theorem foldl_depth {kinds : List TokenClass}
    (outside : ∀ kind ∈ kinds, kind ≠ .openParen ∧ kind ≠ .closeParen) (depth : Nat) :
    kinds.foldl depthAfter depth = depth := by
  induction kinds with
  | nil => rfl
  | cons kind kinds induction =>
      obtain ⟨⟨noOpen, noClose⟩, others⟩ := List.forall_mem_cons.1 outside
      have stays : depthAfter depth kind = depth := by
        unfold depthAfter
        split <;> trivial
      rw [List.foldl_cons, stays, induction others]

/-- Where all parentheses are closed, the text ends outside parentheses, and its last tokens are
those that the end of input makes. -/
theorem LastCall.parts {last : Lexer} {before : List Token}
    (call : LastCall lexer tokens after last before)
    (balanced : (tokens.map Token.kind).foldl depthAfter lexer.depth = 0) :
    last.depth = 0 ∧ last.AtEnd ∧
      tokens.map Token.sign = before.map Token.sign ++ last.closing := by
  obtain ⟨scanned, made, run, ended, rfl⟩ := call.ends
  have enough := call.poised.placed.enough
  have scans := scan_tokens_scans (Nat.lt_succ_of_le enough) enough
  rw [run] at scans
  have outside : last.depth = 0 := by
    rw [List.map_append, List.foldl_append, ← call.depth, foldl_depth] at balanced
    · exact balanced
    · intro kind member
      obtain ⟨token, inside, rfl⟩ := List.mem_map.1 member
      rcases scans.ending_kinds ended token (List.takeWhile_sublist _ |>.mem inside) with
        isNewline | isDedent | isEnd <;> simp [*]
  obtain ⟨atEnd, closes⟩ := call.poised.at_end outside run ended
  exact ⟨outside, atEnd, by rw [List.map_append, closes]⟩

/-- The last token of a text ends a line or a block. -/
theorem LastCall.settled {last : Lexer} {before : List Token}
    (call : LastCall lexer tokens after last before)
    (balanced : (tokens.map Token.kind).foldl depthAfter lexer.depth = 0) :
    ∀ token ∈ tokens.getLast?, token.kind = .newline ∨ token.kind = .dedent := by
  obtain ⟨_, _, signs⟩ := call.parts balanced
  intro token isLast
  have lastSign : (before.map Token.sign ++ last.closing).getLast? = some token.sign := by
    rw [← signs, List.getLast?_map, isLast]
    rfl
  rw [List.getLast?_append] at lastSign
  have byKind {kind : TokenClass} (same : Sign.mark kind = token.sign) : token.kind = kind := by
    rw [← Token.sign_kind, ← same]
    rfl
  unfold closing at lastSign
  cases count : last.indents.length with
  | succ count =>
      rw [count, List.replicate_succ', ← List.append_assoc, List.getLast?_concat] at lastSign
      exact .inr (byKind (Option.some.inj lastSign))
  | zero =>
      rw [count, List.replicate_zero, List.append_nil] at lastSign
      cases atStart : last.atLineStart with
      | false =>
          rw [atStart] at lastSign
          exact .inl (byKind (Option.some.inj lastSign))
      | true =>
          rw [atStart] at lastSign
          have ofBefore : before.getLast?.map Token.sign = some token.sign := by
            rw [← List.getLast?_map]
            exact lastSign
          obtain ⟨other, isOther, same⟩ := Option.map_eq_some_iff.1 ofBefore
          obtain ⟨front, rfl⟩ := List.getLast?_eq_some_iff.1 isOther
          left
          rcases (call.poised.begun atStart).2 with none | newline
          · rw [call.delivers.last] at none
            cases none
          · rw [call.delivers.last] at newline
            rw [Token.kind_of_same_sign same.symm]
            exact Option.some.inj newline

/-- The first line of a text is not empty. -/
theorem Poised.first_kind {token : Token} {others : List Token} (poised : lexer.Poised)
    (atStart : lexer.atLineStart = true) (outside : lexer.depth = 0)
    (scans : Scans lexer (.ok (token :: others)) after) : token.kind ≠ .newline := by
  generalize made : (.ok (token :: others) : Except ScriptError (List Token)) = result at scans
  cases scans with
  | margin _ _ begins =>
      cases begins with
      | bare => cases made
      | mixed => cases made
      | wider =>
          cases made
          simp [layoutToken]
      | closes =>
          have member : token ∈ token :: others := List.mem_cons_self
          rw [Except.ok.inj made] at member
          rw [(List.mem_replicate.1 member).2]
          simp [layoutToken]
      | inconsistent => cases made
  | @finish _ ready opens =>
      have closed : ready.trimmed.lineIsOpen = false := by
        rw [line_is_open_eq, show ready.trimmed.last = lexer.last from opens.kept.1.last,
          poised.quiet atStart, Bool.not_true, Bool.and_false]
      rcases (end_tokens_closing made).1 with ⟨isOpen, _⟩ | closing
      · rw [closed] at isOpen
        cases isOpen
      · rcases closing with isDedent | isEnd <;> simp [*]
  | @lineFeed _ ready opens feed =>
      exfalso
      cases opens with
      | inside within =>
          rw [atStart] at within
          cases within
      | @margin margin _ _ ahead begins =>
          have cursor := begins.kept.2.1
          rw [trimmed, cursor] at feed
          by_cases spent : margin.stop.rest = []
          · rw [Cursor.peek?, trim_ended spent] at feed
            cases feed
          · rw [(ahead.begins_token poised.plain spent).trim] at feed
            exact ahead.solid feed
  | continued opens _ within =>
      rw [opens.kept.2.2.2, outside] at within
      exact absurd within (Nat.lt_irrefl 0)
  | token _ spelled =>
      obtain ⟨_, visible⟩ := finish_scan_tokens spelled made
      intro isNewline
      rw [isNewline] at visible
      cases visible

/-- The tokens of a text do not begin with a newline. -/
theorem Poised.begins_line (poised : lexer.Poised) (atStart : lexer.atLineStart = true)
    (outside : lexer.depth = 0) (delivers : Delivers lexer tokens after) :
    ∀ token ∈ tokens.head?, token.kind ≠ .newline := by
  cases delivers with
  | none => simp
  | more gives =>
      rintro token ⟨⟩
      cases next_gives_token poised.placed gives with
      | waiting pending =>
          rw [(poised.begun atStart).1] at pending
          cases pending
      | made _ scans => exact poised.first_kind atStart outside scans

end Ending

end Lexer

end LayoutScript
