import LayoutScript.Proofs.Token.Endings

/-!
Two texts with a line feed between them. A lexer of both makes the tokens of the first text, and
where that text ends it stands in front of the second one, with the open blocks of the first. The
first line of the second text is not indented: it closes these blocks, as the end of input would.
-/

namespace LayoutScript

namespace Lexer

open Cursor

/-- A lexer in front of a text, behind complete lines. -/
structure Fronts (text : List Char) (lexer : Lexer) : Prop where
  rest : lexer.cursor.rest = text
  sized : lexer.cursor.rest.length ≤ lexer.size
  atStart : lexer.atLineStart = true
  idle : lexer.pending = []
  outside : lexer.depth = 0
  quiet : isQuiet lexer.last = true
  positive : ∀ width ∈ lexer.indents, 0 < width

theorem Fronts.of_text (source : String) (file : Option String) :
    Fronts (Text.dropReturns source.toList) (ofText source file) where
  rest := rfl
  sized := Nat.le_refl _
  atStart := rfl
  idle := rfl
  outside := rfl
  quiet := rfl
  positive := by rintro width ⟨⟩

section Join

variable {text : List Char} {last other lexer ready : Lexer} {signs : List Sign}

theorem next_eq_of_scan (idle : lexer.pending = []) (idle' : other.pending = [])
    (same : scanTokens (lexer.size + 1) lexer = scanTokens (other.size + 1) other) :
    lexer.next = other.next := by
  simp only [next, idle, idle', same]

/-- In front of a line only the first line that is not empty matters. -/
theorem next_moved {place : Cursor} (atStart : lexer.atLineStart = true) (idle : lexer.pending = [])
    (same : Margin.skipEmpty lexer.size lexer.cursor = Margin.skipEmpty lexer.size place) :
    lexer.next = { lexer with cursor := place }.next := by
  have begun : { lexer with cursor := place }.beginLine = lexer.beginLine := by
    unfold beginLine
    dsimp only
    rw [same]
  have atStart' : { lexer with cursor := place }.atLineStart = true := atStart
  have scanned : scanTokens (lexer.size + 1) lexer =
      scanTokens (lexer.size + 1) { lexer with cursor := place } := by
    rw [scan_tokens_at_line_start atStart, scan_tokens_at_line_start atStart', begun]
  exact next_eq_of_scan idle (show { lexer with cursor := place }.pending = [] from idle) scanned

/-- Where one text ends, the lexer of both comes in front of the other. It may have to end a line
for that, and then makes the newline that the end of input makes. -/
theorem Trails.fronts (trails : Trails ('\n' :: text) none last other) (poised : last.Poised)
    (idle : last.pending = []) (outside : last.depth = 0) (atEnd : last.AtEnd) :
    ∃ front, Fronts text front ∧ front.indents = last.indents ∧
      front.indentChar = last.indentChar ∧ ∀ signs final, Speaks front signs final →
        Speaks other ((if last.atLineStart then [] else [.mark .newline]) ++ signs) final := by
  have idle' : other.pending = [] := by
    have pending := trails.pending
    rw [idle] at pending
    exact List.map_eq_nil_iff.1 pending
  have sameChar : other.indentChar = last.indentChar := by
    rw [trails.indentChar, Option.or_none]
  unfold AtEnd at atEnd
  cases atStart : last.atLineStart with
  | false =>
      rw [atStart] at atEnd
      have rest := (trails.trimmed (.feed text)).cursor.rest_behind atEnd
      have feed : other.trimmed.cursor.peek? = some '\n' := by
        rw [Cursor.peek?, rest, List.head?_cons]
      have shorter := fed_shorter feed
      have sized := trails.sized'
      have run : scanTokens (other.size + 1) other = (.ok [⟨.newline, .nothing, "\\n",
          other.trimmed.cursor.spanTo other.fed.cursor other.file⟩], other.fed) := by
        rw [scan_tokens_within_line (trails.atLineStart.trans atStart), scanContent, rest]
        dsimp only
        rw [if_pos rfl, if_pos (trails.depth.trans outside)]
      refine ⟨{ other.fed with pending := [], last := some .newline }, ?_, trails.indents, sameChar,
        ?_⟩
      · exact {
          rest := by
            change other.trimmed.cursor.advance.rest = text
            rw [Cursor.advance, rest]
          sized := by
            change other.fed.cursor.rest.length ≤ other.size
            omega
          atStart := rfl, idle := rfl, quiet := rfl
          outside := trails.depth.trans outside
          positive := by
            change ∀ width ∈ other.indents, 0 < width
            rw [trails.indents]
            exact poised.positive }
      · intro signs final speaks
        exact Speaks.behind (.one (next_made idle' run) (by simp)) speaks
  | true =>
      rw [atStart] at atEnd
      obtain ⟨position, same⟩ := skip_empty_behind trails.cursor trails.sized trails.sized' atEnd
      have length := congrArg List.length trails.cursor
      have sized := trails.sized'
      simp only [List.length_append, List.length_cons] at length
      have room : text.length ≤ other.size := by omega
      refine ⟨{ other with cursor := ⟨text, position⟩ }, ?_, trails.indents, sameChar, ?_⟩
      · exact {
          rest := rfl, sized := room
          atStart := trails.atLineStart.trans atStart, idle := idle'
          outside := trails.depth.trans outside
          quiet := trails.last.quiet.trans (poised.quiet atStart)
          positive := by
            change ∀ width ∈ other.indents, 0 < width
            rw [trails.indents]
            exact poised.positive }
      · intro signs final speaks
        exact speaks.of_next
          (next_moved (trails.atLineStart.trans atStart) idle' (same other.size room))

/-- A first line that is not indented closes all blocks. -/
theorem Fronts.begin_flat (fronts : Fronts text lexer)
    (more : (Margin.skipEmpty lexer.size lexer.cursor).stop.rest ≠ [])
    (flat : (Margin.skipEmpty lexer.size lexer.cursor).blanks = []) :
    ∃ dedent : Token, dedent.sign = .mark .dedent ∧
      lexer.beginLine = (.ok (List.replicate lexer.indents.length dedent),
        { lexer.behind (Margin.skipEmpty lexer.size lexer.cursor) with indents := [] }) := by
  have begins := begin_line_margin lexer
  generalize Margin.skipEmpty lexer.size lexer.cursor = margin at begins more flat ⊢
  refine ⟨lexer.layoutToken .dedent margin.start margin.stop, rfl, ?_⟩
  have all := close_blocks_zero fronts.positive
  cases begun : lexer.beginLine with
  | mk result after =>
      rw [begun] at begins
      dsimp only at begins
      cases begins with
      | bare nothing =>
          rcases nothing with ended | inside
          · exact absurd ended more
          · rw [fronts.outside] at inside
            exact absurd inside (Nat.lt_irrefl 0)
      | mixed blanks =>
          rw [flat] at blanks
          cases blanks
      | wider _ _ _ wide =>
          rw [flat] at wide
          exact absurd wide (Nat.not_lt_zero _)
      | closes _ _ unmixed _ blocks =>
          rw [flat] at blocks unmixed
          rw [List.length_nil, all] at blocks
          cases blocks
          cases unmixed
          rfl
      | inconsistent _ _ _ _ blocks uneven =>
          rw [flat] at blocks uneven
          rw [List.length_nil, all] at blocks
          cases blocks
          exact absurd rfl uneven

/-- Behind a margin that makes no tokens. -/
theorem next_begun (atStart : lexer.atLineStart = true) (idle : lexer.pending = [])
    (begun : lexer.beginLine = (.ok [], ready)) (sameSize : ready.size = lexer.size)
    (within : ready.atLineStart = false) (idle' : ready.pending = []) :
    lexer.next = ready.next := by
  apply next_eq_of_scan idle idle'
  rw [sameSize, scan_tokens_at_line_start atStart, begun, scan_tokens_within_line within]

/-- Dedents that wait are delivered. -/
theorem delivers_dedents {tokens : List Token} (pending : lexer.pending = tokens)
    (dedents : ∀ token ∈ tokens, token.kind = .dedent) (last : lexer.last = some .dedent) :
    Delivers lexer tokens { lexer with pending := [], last := some .dedent } := by
  induction tokens generalizing lexer with
  | nil =>
      have same : lexer = { lexer with pending := [], last := some .dedent } := by
        rw [← pending, ← last]
      rw [← same]
      exact .none
  | cons token tokens induction =>
      obtain ⟨first, others⟩ := List.forall_mem_cons.1 dedents
      refine .more (next_waiting pending) (by rw [first]; decide) ?_
      exact induction rfl others (congrArg some first)

/-- A lexer behind the margin of a first line that is not indented. -/
structure Opened (lexer ready : Lexer) : Prop where
  cursor : ready.cursor = (Margin.skipEmpty lexer.size lexer.cursor).stop
  size : ready.size = lexer.size
  within : ready.atLineStart = false
  idle : ready.pending = []
  indents : ready.indents = []
  outside : ready.depth = 0
  quiet : isQuiet ready.last = true
  indentChar : ready.indentChar = lexer.indentChar

/-- Without open blocks nothing is made of the margin. -/
theorem Fronts.opened_bare (fronts : Fronts text lexer) (none : lexer.indents = [])
    (more : (Margin.skipEmpty lexer.size lexer.cursor).stop.rest ≠ [])
    (flat : (Margin.skipEmpty lexer.size lexer.cursor).blanks = []) :
    ∃ ready, Opened lexer ready ∧ Kept lexer ready ∧ lexer.next = ready.next := by
  obtain ⟨dedent, _, begun⟩ := fronts.begin_flat more flat
  rw [none, List.length_nil, List.replicate_zero] at begun
  refine ⟨{ lexer.behind (Margin.skipEmpty lexer.size lexer.cursor) with indents := [] },
    ⟨rfl, rfl, rfl, fronts.idle, rfl, fronts.outside, fronts.quiet, rfl⟩, ⟨rfl, rfl, rfl, rfl⟩, ?_⟩
  exact next_begun fronts.atStart fronts.idle begun rfl rfl fronts.idle

/-- The open blocks are closed in front of the first line. -/
theorem Fronts.opened (fronts : Fronts text lexer)
    (more : (Margin.skipEmpty lexer.size lexer.cursor).stop.rest ≠ [])
    (flat : (Margin.skipEmpty lexer.size lexer.cursor).blanks = []) :
    ∃ ready, Opened lexer ready ∧ ∀ signs final, Speaks ready signs final →
      Speaks lexer (List.replicate lexer.indents.length (.mark .dedent) ++ signs) final := by
  cases isOpen : lexer.indents with
  | nil =>
      obtain ⟨ready, opened, _, same⟩ := fronts.opened_bare isOpen more flat
      exact ⟨ready, opened, fun signs final speaks => speaks.of_next same⟩
  | cons innermost outer =>
      obtain ⟨dedent, sign, begun⟩ := fronts.begin_flat more flat
      rw [isOpen, List.length_cons, List.replicate_succ] at begun
      have isDedent : dedent.kind = .dedent := by
        rw [← Token.sign_kind, sign]
        rfl
      have scanned : scanTokens (lexer.size + 1) lexer =
          (.ok (dedent :: List.replicate outer.length dedent),
            { lexer.behind (Margin.skipEmpty lexer.size lexer.cursor) with indents := [] }) := by
        rw [scan_tokens_at_line_start fronts.atStart, begun]
      have first := Delivers.one (next_made fronts.idle scanned) (by rw [isDedent]; decide)
      have others := first.trans (delivers_dedents rfl
        (fun token member => by rw [(List.mem_replicate.1 member).2, isDedent])
        (congrArg some isDedent))
      refine ⟨{ lexer.behind (Margin.skipEmpty lexer.size lexer.cursor) with
        indents := [], pending := [], last := some .dedent },
        ⟨rfl, rfl, rfl, rfl, rfl, fronts.outside, rfl, rfl⟩, fun signs final speaks => ?_⟩
      have whole := Speaks.behind others speaks
      rw [List.map_append, List.map_replicate, List.map_singleton, sign, List.singleton_append,
        ← List.replicate_succ] at whole
      exact whole

/-- Where the end of input waits, what is in front of it is said. -/
theorem speaks_waiting {tokens : List Token} (pending : lexer.pending = tokens)
    (ended : ∃ token ∈ tokens, token.kind = .endOfInput) :
    ∃ final, Speaks lexer ((beforeEnd tokens).map Token.sign) final := by
  obtain ⟨ending, member, isEnd⟩ := ended
  induction tokens generalizing lexer with
  | nil => cases member
  | cons token tokens induction =>
      by_cases first : token.kind = .endOfInput
      · rw [before_end_end first]
        exact ⟨_, [], lexer, token, .none, next_waiting pending, first, rfl⟩
      · have inside : ending ∈ tokens := by
          rcases List.mem_cons.1 member with rfl | inside
          · exact absurd isEnd first
          · exact inside
        have next := next_waiting pending
        obtain ⟨final, speaks⟩ :=
          @induction { lexer with pending := tokens, last := some token.kind } rfl inside
        rw [before_end_cons first]
        exact ⟨final, Speaks.behind (.one next first) speaks⟩

/-- A call that comes to the end of input says all that is left. -/
theorem speaks_ending {scanned : List Token} {made : Lexer} (idle : lexer.pending = [])
    (run : scanTokens (lexer.size + 1) lexer = (.ok scanned, made))
    (ended : ∃ token ∈ scanned, token.kind = .endOfInput) :
    ∃ final, Speaks lexer ((beforeEnd scanned).map Token.sign) final := by
  have waits : { made with pending := scanned }.pending = scanned := rfl
  obtain ⟨final, speaks⟩ := speaks_waiting waits ended
  refine ⟨final, speaks.of_next ?_⟩
  cases scanned with
  | nil =>
      obtain ⟨_, member, _⟩ := ended
      cases member
  | cons token tokens => rw [next_made idle run, next_waiting waits]

/-- In front of empty lines only, all blocks are closed. -/
theorem Fronts.speaks_end (fronts : Fronts text lexer)
    (ended : (Margin.skipEmpty lexer.size lexer.cursor).stop.rest = []) :
    ∃ final, Speaks lexer (List.replicate lexer.indents.length (.mark .dedent)) final := by
  have run : scanTokens (lexer.size + 1) lexer = _ := scan_tokens_bare fronts.atStart ended
  obtain ⟨final, speaks⟩ := speaks_ending fronts.idle run (end_tokens_count _).1
  refine ⟨final, ?_⟩
  have quiet : isQuiet (lexer.behind (Margin.skipEmpty lexer.size lexer.cursor)).trimmed.last = true :=
    fronts.quiet
  rw [end_tokens_quiet quiet] at speaks
  exact speaks

/-- What a lexer says is fixed. -/
theorem Speaks.unique {signs' : List Sign} {final final' : Lexer}
    (speaks : Speaks lexer signs final) (speaks' : Speaks lexer signs' final') : signs = signs' := by
  obtain ⟨tokens, after, ending, delivers, ends, isEnd, rfl⟩ := speaks
  obtain ⟨tokens', after', ending', delivers', ends', isEnd', rfl⟩ := speaks'
  induction delivers generalizing tokens' with
  | none =>
      cases delivers' with
      | none => rfl
      | more gives proper =>
          rw [ends] at gives
          cases gives
          exact absurd isEnd proper
  | more gives proper _ induction =>
      cases delivers' with
      | none =>
          rw [ends'] at gives
          cases gives
          exact absurd isEnd' proper
      | more gives' _ others' =>
          rw [gives] at gives'
          cases gives'
          rw [List.map_cons, List.map_cons, induction ends _ others']

theorem Speaks.first {final : Lexer} (speaks : Speaks lexer signs final) :
    ∃ token after, lexer.next = (.ok token, after) ∧
      (token.kind = .endOfInput ∨ signs.head? = some token.sign) := by
  obtain ⟨tokens, after, ending, delivers, ends, isEnd, rfl⟩ := speaks
  cases delivers with
  | none => exact ⟨ending, final, ends, .inl isEnd⟩
  | more gives => exact ⟨_, _, gives, .inr rfl⟩

/-- A text whose first token is no indent begins with a line that is not indented. -/
theorem Fronts.flat {final : Lexer} (fronts : Fronts text lexer) (none : lexer.indents = [])
    (speaks : Speaks lexer signs final) (noIndent : signs.head? ≠ some (.mark .indent))
    (more : (Margin.skipEmpty lexer.size lexer.cursor).stop.rest ≠ []) :
    (Margin.skipEmpty lexer.size lexer.cursor).blanks = [] := by
  have begins := begin_line_margin lexer
  obtain ⟨token, after, next, kind⟩ := speaks.first
  rcases next_cases fronts.sized next with ⟨_, pending, _⟩ | ⟨_, tokens, made, scanned, _⟩
  · rw [fronts.idle] at pending
    cases pending
  rw [scan_tokens_at_line_start fronts.atStart] at scanned
  generalize Margin.skipEmpty lexer.size lexer.cursor = margin at begins more ⊢
  cases begun : lexer.beginLine with
  | mk result ready =>
      rw [begun] at begins scanned
      dsimp only at begins
      cases begins with
      | bare nothing =>
          rcases nothing with ended | inside
          · exact absurd ended more
          · rw [fronts.outside] at inside
            exact absurd inside (Nat.lt_irrefl 0)
      | mixed => cases scanned
      | wider =>
          cases scanned
          rcases kind with isEnd | isFirst
          · cases isEnd
          · exact absurd isFirst noIndent
      | closes _ _ _ narrow =>
          rw [none] at narrow
          exact List.length_eq_zero_iff.1 (Nat.le_zero.1 narrow)
      | inconsistent => cases scanned

/-- A text says the same behind complete lines, once the open blocks are closed. -/
theorem Fronts.speaks {fresh front final : Lexer} (start : Fronts text fresh)
    (placed : fresh.Placed) (none : fresh.indents = []) (unknown : fresh.indentChar = .none)
    (fronts : Fronts text front)
    (speaks : Speaks fresh signs final) (noIndent : signs.head? ≠ some (.mark .indent))
    (fits : ∀ char ∈ final.indentChar, ∀ known ∈ front.indentChar, known = char) :
    ∃ final',
      Speaks front (List.replicate front.indents.length (.mark .dedent) ++ signs) final' := by
  have trails : Cursor.Trails [] fresh.cursor front.cursor := by
    rw [Cursor.Trails, fronts.rest, start.rest, List.append_nil]
  obtain ⟨sameBlanks, stops⟩ :=
    skip_empty_together trails .nil start.sized fronts.sized (.inl rfl)
  by_cases spent : (Margin.skipEmpty fresh.size fresh.cursor).stop.rest = []
  · obtain ⟨_, nothing⟩ := start.speaks_end spent
    rw [none, List.length_nil, List.replicate_zero] at nothing
    rw [speaks.unique nothing, List.append_nil]
    exact fronts.speaks_end (stops.rest_behind spent)
  · have flat := start.flat none speaks noIndent spent
    have spent' : (Margin.skipEmpty front.size front.cursor).stop.rest ≠ [] := by
      rw [stops, List.append_nil]
      exact spent
    obtain ⟨ready, opened, kept, same⟩ := start.opened_bare none spent flat
    obtain ⟨ready', opened', opens'⟩ := fronts.opened spent' (sameBlanks.trans flat)
    obtain ⟨_, passes⟩ := (skip_empty_ahead start.sized).passes
    obtain ⟨_, passes'⟩ := (skip_empty_ahead fronts.sized).passes
    rw [← opened.cursor] at passes
    rw [← opened'.cursor] at passes'
    have readyPlaced : ready.Placed := placed.moved kept passes fun atStart => by
      rw [opened.within] at atStart
      cases atStart
    have readyTrails : Trails [] front.indentChar ready ready' :=
      { cursor := by rw [opened.cursor, opened'.cursor]; exact stops
        sized := readyPlaced.enough
        sized' := by
          have length := passes'.length
          have sized := fronts.sized
          rw [opened'.size]
          omega
        indents := opened'.indents.trans opened.indents.symm
        depth := opened'.outside.trans opened.outside.symm
        atLineStart := opened'.within.trans opened.within.symm
        pending := by rw [opened.idle, opened'.idle]
        last := .inr ⟨opened.quiet, opened'.quiet⟩
        indentChar := by rw [opened'.indentChar, opened.indentChar, unknown, Option.none_or] }
    obtain ⟨final', spoken⟩ := (speaks.of_next same.symm).trails readyTrails readyPlaced fits
    exact ⟨final', opens' _ _ spoken⟩

end Join

/-- A lexer of one text, and one of that text with another behind it. -/
theorem Trails.of_text {first : String} (second : String) (file : Option String)
    (plain : '\r' ∉ Text.dropReturns first.toList) :
    Trails ('\n' :: Text.dropReturns second.toList) none (ofText first file)
      (ofText (first ++ "\n" ++ second) file) := by
  have text : Text.dropReturns (first ++ "\n" ++ second).toList =
      Text.dropReturns first.toList ++ '\n' :: Text.dropReturns second.toList := by
    rw [← Text.drop_returns_append plain]
    simp
  exact {
    cursor := text
    sized := Nat.le_refl _, sized' := Nat.le_refl _
    indents := rfl, depth := rfl, atLineStart := rfl, pending := rfl
    last := .inl rfl, indentChar := rfl }

/-- The tokens of two texts, one after the other, are the tokens of the two with a line feed
between them. The parentheses of the first text are closed, the second text does not begin with an
indentation, and both indent with the same character. -/
theorem Speaks.join {first second : String} {file : Option String} {signs signs' : List Sign}
    {final final' : Lexer} (plain : '\r' ∉ Text.dropReturns first.toList)
    (speaks : Speaks (ofText first file) signs final)
    (speaks' : Speaks (ofText second file) signs' final')
    (balanced : (signs.map Sign.kind).foldl depthAfter 0 = 0)
    (noIndent : signs'.head? ≠ some (.mark .indent))
    (fits : ∀ char ∈ final'.indentChar, ∀ known ∈ final.indentChar, known = char) :
    ∃ whole, Speaks (ofText (first ++ "\n" ++ second) file) (signs ++ signs') whole := by
  obtain ⟨tokens, after, ending, delivers, ends, isEnd, rfl⟩ := speaks
  have poised := Poised.of_text file plain
  obtain ⟨last, before, call⟩ := poised.last_call delivers ends isEnd
  rw [Token.map_sign_kind] at balanced
  obtain ⟨outside, atEnd, parts⟩ := call.parts balanced
  have notEnded : ∀ token ∈ last.pending, token.kind ≠ .endOfInput := by
    rw [call.idle]
    simp
  obtain ⟨tokens', last', delivers', same, trails⟩ := (Trails.of_text second file plain).delivers
    (.feed _) poised.placed call.delivers (.inr notEnded) (by simp)
  obtain ⟨front, fronts, sameIndents, sameChar, goesOn⟩ :=
    trails.fronts call.poised call.idle outside atEnd
  have known : ∀ char ∈ final'.indentChar, ∀ known ∈ front.indentChar, known = char := by
    intro char isChar known isKnown
    rw [sameChar] at isKnown
    obtain ⟨others, remains⟩ := call.remains
    have later := remains.indent_char call.poised.placed isKnown
    have placed := delivers.placed poised.placed
    exact fits char isChar known (next_indent_char placed.enough ends later)
  obtain ⟨whole, spoken⟩ := Fronts.speaks (.of_text second file) (.of_text second file) rfl rfl
    fronts speaks' noIndent known
  refine ⟨whole, ?_⟩
  have joined := Speaks.behind delivers' (goesOn _ _ spoken)
  rw [same, sameIndents, ← List.append_assoc, ← List.append_assoc] at joined
  rw [parts, closing, ← List.append_assoc]
  exact joined

end Lexer

end LayoutScript
