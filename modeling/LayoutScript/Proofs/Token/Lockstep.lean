import LayoutScript.Proofs.Token.Trailing
import LayoutScript.Proofs.Tree.Spelling

/-!
Lexers in lockstep. A lexer that has more text behind the text of another one makes the same
tokens, spans aside, as long as the other one does not come to the end of input. It may have seen
an indentation before, if that is with the character that the other one indents with.
-/

namespace LayoutScript

theorem Token.map_sign_kind (tokens : List Token) :
    (tokens.map Token.sign).map Sign.kind = tokens.map Token.kind := by
  rw [List.map_map]
  exact List.map_congr_left fun token _ => token.sign_kind

namespace Lexer

open Cursor

theorem layout_token_sign (lexer other : Lexer) (kind : TokenClass)
    (start stop start' stop' : Cursor) :
    (other.layoutToken kind start' stop').sign = (lexer.layoutToken kind start stop).sign := rfl

/-- The end of input ends no line behind these. -/
def isQuiet : Option TokenClass → Bool
  | none | some .newline | some .indent | some .dedent => true
  | some _ => false

theorem line_is_open_eq (lexer : Lexer) :
    lexer.lineIsOpen = (lexer.depth == 0 && !isQuiet lexer.last) := by
  unfold lineIsOpen
  cases lexer.last with
  | none => rfl
  | some kind => cases kind <;> rfl

/-- Two last tokens are of one class, or neither is part of a line. -/
def Alike (last last' : Option TokenClass) : Prop :=
  last' = last ∨ isQuiet last = true ∧ isQuiet last' = true

theorem Alike.quiet {last last' : Option TokenClass} (alike : Alike last last') :
    isQuiet last' = isQuiet last := by
  rcases alike with rfl | ⟨quiet, quiet'⟩
  · rfl
  · rw [quiet, quiet']

theorem Alike.same_loud {last last' : Option TokenClass} (alike : Alike last last')
    {kind : TokenClass} (loud : isQuiet (some kind) = false) :
    last' = some kind ↔ last = some kind := by
  rcases alike with rfl | ⟨quiet, quiet'⟩
  · rfl
  · constructor
    · rintro rfl
      simp [loud] at quiet'
    · rintro rfl
      simp [loud] at quiet

/-- A lexer is where another one is, with more text behind. -/
structure Trails (suffix : List Char) (mark : Option Char) (lexer other : Lexer) : Prop where
  cursor : Cursor.Trails suffix lexer.cursor other.cursor
  sized : lexer.cursor.rest.length ≤ lexer.size
  sized' : other.cursor.rest.length ≤ other.size
  indents : other.indents = lexer.indents
  depth : other.depth = lexer.depth
  atLineStart : other.atLineStart = lexer.atLineStart
  pending : other.pending.map Token.sign = lexer.pending.map Token.sign
  last : Alike lexer.last other.last
  indentChar : other.indentChar = lexer.indentChar.or mark

/-- An outcome of one lexer is one of the other. -/
def Echoes (suffix : List Char) (mark : Option Char) (tokens : List Token) (after : Lexer)
    (outcome : Except ScriptError (List Token) × Lexer) : Prop :=
  ∃ tokens' after', outcome = (.ok tokens', after') ∧
    tokens'.map Token.sign = tokens.map Token.sign ∧ Trails suffix mark after after'

theorem indent_tokens_kept (lexer : Lexer) (margin : Margin) :
    (lexer.indentTokens margin).2.cursor = lexer.cursor ∧
      (lexer.indentTokens margin).2.indentChar = lexer.indentChar := by
  unfold indentTokens
  dsimp only
  split
  · exact ⟨rfl, rfl⟩
  · split <;> exact ⟨rfl, rfl⟩

theorem begin_line_cursor (lexer : Lexer) :
    lexer.beginLine.2.cursor = (Margin.skipEmpty lexer.size lexer.cursor).stop :=
  (begin_line_margin lexer).kept.2.1

theorem unmixed_keeps {known known' : Option Char} {blanks : List Char}
    (unmixed : Unmixed known blanks known') {char : Char} (isKnown : known = some char) :
    known' = some char := by
  cases unmixed with
  | none => exact isKnown
  | some => rw [isKnown, Option.getD_some]

theorem Begins.indent_char {lexer after : Lexer} {margin : Margin}
    {result : Except ScriptError (List Token)} (begins : Begins lexer margin result after)
    {char : Char} (isKnown : lexer.indentChar = some char) : after.indentChar = some char := by
  cases begins with
  | bare => exact isKnown
  | mixed =>
      dsimp only
      rw [isKnown, Option.getD_some]
  | wider _ _ unmixed => exact unmixed_keeps unmixed isKnown
  | closes _ _ unmixed => exact unmixed_keeps unmixed isKnown
  | inconsistent _ _ unmixed => exact unmixed_keeps unmixed isKnown

theorem Opens.indent_char {lexer ready : Lexer} (opens : Opens lexer ready) {char : Char}
    (isKnown : lexer.indentChar = some char) : ready.indentChar = some char := by
  cases opens with
  | inside => exact isKnown
  | margin _ _ begins => exact begins.indent_char isKnown

/-- The character that a source indents with is fixed once. -/
theorem Scans.indent_char {lexer after : Lexer} {result : Except ScriptError (List Token)}
    (scans : Scans lexer result after) {char : Char} (isKnown : lexer.indentChar = some char) :
    after.indentChar = some char := by
  induction scans with
  | margin _ _ begins _ => exact begins.indent_char isKnown
  | @finish lexer ready opens _ =>
      have kept : ready.trimmed.endInput.indentChar = ready.indentChar := by
        unfold endInput
        split <;> rfl
      rw [kept]
      exact opens.indent_char isKnown
  | lineFeed opens => exact opens.indent_char isKnown
  | continued opens _ _ _ induction => exact induction (opens.indent_char isKnown)
  | @token lexer ready scan opens _ =>
      have kept : (ready.trimmed.finishScan ready.trimmed.cursor scan).2.indentChar =
          ready.indentChar := by
        unfold finishScan
        split <;> rfl
      rw [kept]
      exact opens.indent_char isKnown

/-- A margin that makes tokens is not at the end. -/
theorem begin_line_more {lexer after : Lexer} {token : Token} {tokens : List Token}
    (sized : lexer.cursor.rest.length ≤ lexer.size)
    (run : lexer.beginLine = (.ok (token :: tokens), after)) : after.cursor.rest ≠ [] := by
  obtain ⟨margin, _, begins⟩ := begin_line_begins sized
  rw [run] at begins
  dsimp only at begins
  rw [begins.kept.2.1]
  generalize made : (.ok (token :: tokens) : Except ScriptError (List Token)) = result at begins
  cases begins with
  | bare => cases made
  | mixed => cases made
  | wider more => exact more
  | closes more => exact more
  | inconsistent => cases made

theorem trim_ended {cursor : Cursor} (ended : cursor.rest = []) : (trim cursor).rest = [] := by
  obtain ⟨passed, trims⟩ := trim_passes cursor
  have rest := trims.rest
  rw [ended] at rest
  exact (List.append_eq_nil_iff.1 rest.symm).2

/-- The rounds behind a margin that makes no tokens. -/
theorem scan_content_ready {fuel : Nat} {ready after : Lexer} {tokens : List Token}
    (within : ready.atLineStart = false) (enough : ready.cursor.rest.length ≤ fuel)
    (sized : ready.cursor.rest.length ≤ ready.size)
    (run : scanContent fuel ready = (.ok tokens, after)) :
    Scans ready (.ok tokens) after ∧
      (ready.cursor.rest = [] → ∃ token ∈ tokens, token.kind = .endOfInput) := by
  constructor
  · have scans := scan_content_scans (.inside within) enough sized
      fun _ less fits => scan_tokens_scans less fits
    rw [run] at scans
    exact scans
  · intro ended
    rw [scanContent, show ready.trimmed.cursor.rest = [] from trim_ended ended] at run
    cases run
    exact (end_tokens_count ready.trimmed).1

theorem fed_shorter {lexer : Lexer} (ahead : lexer.trimmed.cursor.peek? = some '\n') :
    lexer.fed.cursor.rest.length < lexer.cursor.rest.length := by
  obtain ⟨passed, passes⟩ := fed_passes ahead
  have length := passes.length
  rw [List.length_append, List.length_singleton] at length
  omega

namespace Trails

variable {suffix : List Char} {mark : Option Char} {lexer other after : Lexer}
  {tokens : List Token}

theorem move {stop stop' : Cursor} (trails : Trails suffix mark lexer other)
    (together : Together lexer.cursor other.cursor stop stop') :
    Trails suffix mark { lexer with cursor := stop } { other with cursor := stop' } := by
  have cursor := together.trails trails.cursor
  obtain ⟨passed, passes, passes'⟩ := together
  have length := passes.length
  have length' := passes'.length
  have sized := trails.sized
  have sized' := trails.sized'
  exact { trails with
    cursor
    sized := by dsimp only; omega
    sized' := by dsimp only; omega }

theorem trimmed (trails : Trails suffix mark lexer other) (breaks : Text.Breaks suffix) :
    Trails suffix mark lexer.trimmed other.trimmed :=
  trails.move (trim_together trails.cursor breaks)

/-- The tokens of a margin. -/
theorem indent_tokens {margin margin' : Margin} (trails : Trails suffix mark lexer other)
    (same : margin'.blanks = margin.blanks)
    (run : lexer.indentTokens margin = (.ok tokens, after)) :
    Echoes suffix mark tokens after (other.indentTokens margin') := by
  unfold indentTokens at run ⊢
  rw [same, trails.indents]
  dsimp only at run ⊢
  split at run
  · rename_i wide
    cases run
    rw [if_pos wide]
    exact ⟨_, _, rfl, rfl, { trails with indents := rfl }⟩
  · rename_i narrow
    rw [if_neg narrow]
    split at run
    · rename_i level
      cases run
      rw [if_pos level]
      refine ⟨_, _, rfl, ?_, { trails with indents := rfl }⟩
      rw [List.map_replicate, List.map_replicate, layout_token_sign lexer other]
    · cases run

/-- Both lexers indent with one character. -/
theorem indent_char_getD (trails : Trails suffix mark lexer other) {first : Char}
    (fits : ∀ known ∈ mark, known = lexer.indentChar.getD first) :
    other.indentChar.getD first = lexer.indentChar.getD first := by
  rw [trails.indentChar]
  cases isKnown : lexer.indentChar with
  | some char => rfl
  | none =>
      rw [isKnown] at fits
      cases mark with
      | none => rfl
      | some known => exact fits known rfl

/-- The start of a line, if there is one. -/
theorem begin_line (trails : Trails suffix mark lexer other) (breaks : Text.Breaks suffix)
    (run : lexer.beginLine = (.ok tokens, after)) (goesOn : suffix = [] ∨ after.cursor.rest ≠ [])
    (fits : ∀ char ∈ after.indentChar, ∀ known ∈ mark, known = char) :
    Echoes suffix mark tokens after other.beginLine := by
  have cursor := begin_line_cursor lexer
  rw [run] at cursor
  dsimp only at cursor
  rw [cursor] at goesOn
  obtain ⟨sameBlanks, stops⟩ :=
    skip_empty_together trails.cursor breaks trails.sized trails.sized' goesOn
  obtain ⟨_, passes⟩ := (skip_empty_ahead trails.sized).passes
  obtain ⟨_, passes'⟩ := (skip_empty_ahead trails.sized').passes
  have length := passes.length
  have length' := passes'.length
  have sized := trails.sized
  have sized' := trails.sized'
  unfold beginLine at run ⊢
  dsimp only at run ⊢
  generalize Margin.skipEmpty lexer.size lexer.cursor = margin at *
  generalize Margin.skipEmpty other.size other.cursor = margin' at *
  have moved : Trails suffix mark (lexer.behind margin) (other.behind margin') :=
    { trails with
      cursor := stops
      sized := by dsimp only [behind]; omega
      sized' := by dsimp only [behind]; omega
      atLineStart := rfl }
  have sameBare : (margin'.stop.rest.isEmpty || decide (other.depth > 0)) =
      (margin.stop.rest.isEmpty || decide (lexer.depth > 0)) := by
    rw [stops, trails.depth]
    rcases goesOn with rfl | more
    · rw [List.append_nil]
    · cases rest : margin.stop.rest with
      | nil => exact absurd rest more
      | cons => rfl
  rw [sameBare]
  split at run
  · rename_i bare
    cases run
    rw [if_pos bare]
    exact ⟨_, _, rfl, rfl, moved⟩
  · rename_i solid
    rw [if_neg solid]
    cases blanks : margin.blanks with
    | nil =>
        rw [blanks] at run
        rw [sameBlanks, blanks]
        exact moved.indent_tokens sameBlanks run
    | cons first others =>
        rw [blanks] at run
        rw [sameBlanks, blanks]
        dsimp only at run ⊢
        split at run
        · rename_i all
          have isChar : after.indentChar = some (lexer.indentChar.getD first) :=
            (congrArg (fun outcome => outcome.2.indentChar) run).symm.trans
              (indent_tokens_kept _ margin).2
          have same := trails.indent_char_getD (fits _ isChar)
          rw [same, if_pos all]
          have marked : Trails suffix mark
              { lexer.behind margin with indentChar := some (lexer.indentChar.getD first) }
              { other.behind margin' with indentChar := some (lexer.indentChar.getD first) } :=
            { moved with indentChar := rfl }
          exact marked.indent_tokens sameBlanks run
        · cases run

theorem end_tokens (trails : Trails suffix mark lexer other) :
    Echoes suffix mark lexer.endTokens lexer.endInput (.ok other.endTokens, other.endInput) := by
  have ended := trails.last.same_loud (show isQuiet (some .endOfInput) = false from rfl)
  have isOpen : other.lineIsOpen = lexer.lineIsOpen := by
    rw [line_is_open_eq, line_is_open_eq, trails.depth, trails.last.quiet]
  unfold endTokens endInput
  by_cases spent : lexer.last = some .endOfInput
  · rw [if_pos spent, if_pos spent, if_pos (ended.2 spent), if_pos (ended.2 spent)]
    exact ⟨_, _, rfl, rfl, trails⟩
  · rw [if_neg spent, if_neg spent, if_neg (mt ended.1 spent), if_neg (mt ended.1 spent), isOpen,
      trails.indents]
    refine ⟨_, _, rfl, ?_, { trails with indents := rfl }⟩
    simp only [List.map_append, List.map_replicate, apply_ite (List.map Token.sign)]
    rfl

/-- The token ahead. -/
theorem finish_scan (trails : Trails suffix mark lexer other) (breaks : Text.Breaks suffix)
    {first : Char} {afterDot : Bool} (ahead : lexer.cursor.peek? = some first)
    (run : lexer.finishScan lexer.cursor (Scan.token afterDot lexer.cursor first) =
      (.ok tokens, after)) :
    Echoes suffix mark tokens after
      (other.finishScan other.cursor (Scan.token afterDot other.cursor first)) := by
  have foundToo := Scan.token_found_too afterDot ahead trails.cursor breaks
  unfold finishScan at run ⊢
  split at run
  · rename_i kind payload found
    cases run
    obtain ⟨found', together⟩ := foundToo _ found
    rw [found']
    refine ⟨_, _, rfl, rfl, { trails.move together with depth := ?_ }⟩
    exact congrArg (depthAfter · kind) trails.depth
  · cases run

/-- A round behind the margin. -/
theorem scan_content {fuel fuel' : Nat}
    (continues : ∀ {next next' : Lexer}, Trails suffix mark next next' →
      next.cursor.rest.length < fuel → next'.cursor.rest.length < fuel' →
      scanTokens fuel next = (.ok tokens, after) →
      Echoes suffix mark tokens after (scanTokens fuel' next'))
    (trails : Trails suffix mark lexer other) (breaks : Text.Breaks suffix)
    (enough : lexer.cursor.rest.length ≤ fuel) (enough' : other.cursor.rest.length ≤ fuel')
    (goesOn : suffix = [] ∨ ∀ token ∈ tokens, token.kind ≠ .endOfInput)
    (run : scanContent fuel lexer = (.ok tokens, after)) :
    Echoes suffix mark tokens after (scanContent fuel' other) := by
  have trimmed := trails.trimmed breaks
  unfold scanContent at run ⊢
  split at run
  · rename_i ended
    cases run
    obtain ⟨ending, member, isEnd⟩ := (end_tokens_count lexer.trimmed).1
    cases goesOn.resolve_right fun none => none ending member isEnd
    rw [trimmed.cursor.rest_behind ended]
    exact trimmed.end_tokens
  · rename_i char rest front
    have ahead : lexer.trimmed.cursor.peek? = some char := by
      rw [Cursor.peek?, front, List.head?_cons]
    have front' : other.trimmed.cursor.rest = char :: (rest ++ suffix) := by
      rw [trimmed.cursor, front, List.cons_append]
    rw [front']
    dsimp only
    split at run
    · rename_i lineFeed
      cases lineFeed
      have shorter := fed_shorter ahead
      have shorter' := fed_shorter (trimmed.cursor.peek_ahead ahead)
      have fed : Trails suffix mark lexer.fed other.fed :=
        { trimmed.move (trimmed.cursor.advance ahead) with atLineStart := rfl }
      rw [if_pos rfl]
      split at run
      · rename_i outside
        cases run
        rw [trails.depth, if_pos outside]
        exact ⟨_, _, rfl, rfl, fed⟩
      · rename_i within
        rw [trails.depth, if_neg within]
        exact continues fed (by omega) (by omega) run
    · rename_i plain
      rw [if_neg plain]
      have sameDot : (other.last == some .dot) = (lexer.last == some .dot) := by
        rw [Bool.eq_iff_iff, beq_iff_eq, beq_iff_eq]
        exact trails.last.same_loud rfl
      rw [sameDot]
      exact trimmed.finish_scan breaks ahead run

/-- A call for tokens, unless it comes to the end of input in front of more text. -/
theorem scan_tokens {fuel fuel' : Nat} (trails : Trails suffix mark lexer other)
    (breaks : Text.Breaks suffix) (enough : lexer.cursor.rest.length < fuel)
    (enough' : other.cursor.rest.length < fuel')
    (goesOn : suffix = [] ∨ ∀ token ∈ tokens, token.kind ≠ .endOfInput)
    (fits : ∀ char ∈ after.indentChar, ∀ known ∈ mark, known = char)
    (run : scanTokens fuel lexer = (.ok tokens, after)) :
    Echoes suffix mark tokens after (scanTokens fuel' other) := by
  induction fuel generalizing lexer other fuel' with
  | zero => exact absurd enough (Nat.not_lt_zero _)
  | succ fuel induction =>
      obtain ⟨fuel', rfl⟩ := Nat.exists_eq_succ_of_ne_zero (Nat.ne_zero_of_lt enough')
      have content {ready ready' : Lexer} (moved : Trails suffix mark ready ready')
          (room : ready.cursor.rest.length ≤ fuel) (room' : ready'.cursor.rest.length ≤ fuel')
          (run : scanContent fuel ready = (.ok tokens, after)) :
          Echoes suffix mark tokens after (scanContent fuel' ready') :=
        scan_content (fun next less less' scanned => induction next less less' scanned) moved breaks
          room room' goesOn run
      cases atStart : lexer.atLineStart with
      | false =>
          rw [scan_tokens_within_line atStart] at run
          rw [scan_tokens_within_line (trails.atLineStart.trans atStart)]
          exact content trails (Nat.le_of_lt_succ enough) (Nat.le_of_lt_succ enough') run
      | true =>
          rw [scan_tokens_at_line_start atStart] at run
          rw [scan_tokens_at_line_start (trails.atLineStart.trans atStart)]
          cases begun : lexer.beginLine with
          | mk result ready =>
              rw [begun] at run
              match result with
              | .error error => cases run
              | .ok (token :: others) =>
                  cases run
                  obtain ⟨tokens', after', begun', same, moved⟩ :=
                    trails.begin_line breaks begun (.inr (begin_line_more trails.sized begun)) fits
                  rw [begun']
                  cases tokens' with
                  | nil => cases same
                  | cons token' others' => exact ⟨_, _, rfl, same, moved⟩
              | .ok [] =>
                  dsimp only at run
                  obtain ⟨margin, ahead, begins⟩ := begin_line_begins trails.sized
                  rw [begun] at begins
                  dsimp only at begins
                  obtain ⟨kept, cursor, within, _⟩ := begins.kept
                  obtain ⟨_, passes⟩ := ahead.passes
                  have length := passes.length
                  have sized := trails.sized
                  rw [← cursor] at length
                  have readySized : ready.cursor.rest.length ≤ ready.size := by
                    rw [kept.size]
                    omega
                  obtain ⟨scans, ends⟩ :=
                    scan_content_ready within (by omega) readySized run
                  have more : suffix = [] ∨ ready.cursor.rest ≠ [] := by
                    refine goesOn.imp_right fun proper ended => ?_
                    obtain ⟨ending, member, isEnd⟩ := ends ended
                    exact proper ending member isEnd
                  obtain ⟨tokens', ready', begun', same, moved⟩ :=
                    trails.begin_line breaks begun more
                      fun char isKnown => fits char (scans.indent_char isKnown)
                  cases List.map_eq_nil_iff.1 same
                  rw [begun']
                  have rest := congrArg List.length trails.cursor
                  have rest' := congrArg List.length moved.cursor
                  rw [List.length_append] at rest rest'
                  exact content moved (by omega) (by omega) run

/-- The next token. -/
theorem next {token : Token} (trails : Trails suffix mark lexer other) (breaks : Text.Breaks suffix)
    (run : lexer.next = (.ok token, after))
    (goesOn : suffix = [] ∨ ∀ other ∈ token :: after.pending, other.kind ≠ .endOfInput)
    (fits : ∀ char ∈ after.indentChar, ∀ known ∈ mark, known = char) :
    ∃ token' after', other.next = (.ok token', after') ∧ token'.sign = token.sign ∧
      Trails suffix mark after after' := by
  rcases next_cases trails.sized run with ⟨tokens, waits, rfl⟩ | ⟨idle, tokens, made, scanned, rfl⟩
  · have pending := trails.pending
    rw [waits, List.map_cons] at pending
    obtain ⟨token', tokens', waits', same, sameOthers⟩ := List.map_eq_cons_iff.1 pending
    refine ⟨token', _, next_waiting waits', same,
      { trails with pending := sameOthers, last := .inl ?_ }⟩
    rw [Token.kind_of_same_sign same]
  · have idle' : other.pending = [] := by
      have pending := trails.pending
      rw [idle] at pending
      exact List.map_eq_nil_iff.1 pending
    have fitsMade : ∀ char ∈ made.indentChar, ∀ known ∈ mark, known = char := fits
    have proper : suffix = [] ∨ ∀ other ∈ token :: tokens, other.kind ≠ .endOfInput := goesOn
    obtain ⟨tokens', made', scanned', same, moved⟩ := trails.scan_tokens breaks
      (Nat.lt_succ_of_le trails.sized) (Nat.lt_succ_of_le trails.sized') proper fitsMade scanned
    rw [List.map_cons] at same
    obtain ⟨token', others', rfl, sameFirst, sameOthers⟩ := List.map_eq_cons_iff.1 same
    refine ⟨token', _, next_made idle' scanned', sameFirst,
      { moved with pending := sameOthers, last := .inl ?_ }⟩
    rw [Token.kind_of_same_sign sameFirst]

end Trails

theorem next_indent_char {lexer after : Lexer} {token : Token}
    (sized : lexer.cursor.rest.length ≤ lexer.size) (run : lexer.next = (.ok token, after))
    {char : Char} (isKnown : lexer.indentChar = some char) : after.indentChar = some char := by
  have gives := next_gives sized
  rw [run] at gives
  cases gives with
  | waiting => exact isKnown
  | made _ scans => exact scans.indent_char isKnown

theorem Delivers.indent_char {lexer after : Lexer} {tokens : List Token}
    (delivers : Delivers lexer tokens after) (placed : lexer.Placed) {char : Char}
    (isKnown : lexer.indentChar = some char) : after.indentChar = some char := by
  induction delivers with
  | none => exact isKnown
  | more gives proper _ induction =>
      exact induction ((Delivers.one gives proper).placed placed)
        (next_indent_char placed.enough gives isKnown)

theorem Delivers.proper {lexer after : Lexer} {tokens : List Token}
    (delivers : Delivers lexer tokens after) : ∀ token ∈ tokens, token.kind ≠ .endOfInput := by
  induction delivers with
  | none => simp
  | more _ proper _ induction => exact List.forall_mem_cons.2 ⟨proper, induction⟩

/-- The end of input waits until it is delivered. -/
theorem Delivers.end_waits {lexer after : Lexer} {tokens : List Token}
    (delivers : Delivers lexer tokens after)
    (proper : ∀ token ∈ after.pending, token.kind ≠ .endOfInput) :
    ∀ token ∈ lexer.pending, token.kind ≠ .endOfInput := by
  induction delivers with
  | none => exact proper
  | more gives notEnd _ induction =>
      intro token member
      obtain ⟨first, others, pending⟩ := List.exists_cons_of_ne_nil (List.ne_nil_of_mem member)
      rw [next_waiting pending] at gives
      cases gives
      rw [pending] at member
      rcases List.mem_cons.1 member with rfl | inside
      · exact notEnd
      · exact induction proper token inside

/-- What a lexer delivers, the other one delivers, as far as there is no end of input. -/
theorem Trails.delivers {suffix : List Char} {mark : Option Char} {lexer other after : Lexer}
    {tokens : List Token} (trails : Trails suffix mark lexer other) (breaks : Text.Breaks suffix)
    (placed : lexer.Placed) (delivers : Delivers lexer tokens after)
    (goesOn : suffix = [] ∨ ∀ token ∈ after.pending, token.kind ≠ .endOfInput)
    (fits : ∀ char ∈ after.indentChar, ∀ known ∈ mark, known = char) :
    ∃ tokens' after', Delivers other tokens' after' ∧
      tokens'.map Token.sign = tokens.map Token.sign ∧ Trails suffix mark after after' := by
  induction delivers generalizing other with
  | none => exact ⟨[], other, .none, rfl, trails⟩
  | @more lexer between after token tokens gives proper others induction =>
      have middle := (Delivers.one gives proper).placed placed
      have more : suffix = [] ∨ ∀ other ∈ token :: between.pending, other.kind ≠ .endOfInput :=
        goesOn.imp_right fun ends => List.forall_mem_cons.2 ⟨proper, others.end_waits ends⟩
      obtain ⟨token', middle', gives', same, moved⟩ := trails.next breaks gives more
        fun char isKnown => fits char (others.indent_char middle isKnown)
      obtain ⟨tokens', after', others', sameOthers, final⟩ := induction moved middle goesOn fits
      have proper' : token'.kind ≠ .endOfInput := by rwa [Token.kind_of_same_sign same]
      refine ⟨token' :: tokens', after', .more gives' proper' others', ?_, final⟩
      rw [List.map_cons, List.map_cons, same, sameOthers]

/-- A lexer delivers tokens with these signs and then the end of input. -/
def Speaks (lexer : Lexer) (signs : List Sign) (final : Lexer) : Prop :=
  ∃ tokens after ending, Delivers lexer tokens after ∧ after.next = (.ok ending, final) ∧
    ending.kind = .endOfInput ∧ tokens.map Token.sign = signs

namespace Speaks

variable {lexer other middle final : Lexer} {signs : List Sign}

/-- Only the next token matters. -/
theorem of_next (speaks : Speaks lexer signs final) (same : other.next = lexer.next) :
    Speaks other signs final := by
  obtain ⟨tokens, after, ending, delivers, ends, isEnd, signed⟩ := speaks
  cases delivers with
  | none => exact ⟨[], other, ending, .none, same.trans ends, isEnd, signed⟩
  | more gives proper others =>
      exact ⟨_, after, ending, .more (same.trans gives) proper others, ends, isEnd, signed⟩

theorem behind {tokens : List Token} (delivers : Delivers lexer tokens middle)
    (speaks : Speaks middle signs final) : Speaks lexer (tokens.map Token.sign ++ signs) final := by
  obtain ⟨others, after, ending, further, ends, isEnd, signed⟩ := speaks
  refine ⟨tokens ++ others, after, ending, delivers.trans further, ends, isEnd, ?_⟩
  rw [List.map_append, signed]

/-- At the end of both texts the two lexers say the same. -/
theorem trails {mark : Option Char} (speaks : Speaks lexer signs final)
    (trails : Trails [] mark lexer other) (placed : lexer.Placed)
    (fits : ∀ char ∈ final.indentChar, ∀ known ∈ mark, known = char) :
    ∃ final', Speaks other signs final' := by
  obtain ⟨tokens, after, ending, delivers, ends, isEnd, signed⟩ := speaks
  have afterPlaced := delivers.placed placed
  obtain ⟨tokens', after', delivers', same, moved⟩ :=
    trails.delivers .nil placed delivers (.inl rfl)
      fun char isKnown => fits char (next_indent_char afterPlaced.enough ends isKnown)
  obtain ⟨ending', final', ends', sameEnd, _⟩ := moved.next .nil ends (.inl rfl) fits
  refine ⟨final', tokens', after', ending', delivers', ends', ?_, same.trans signed⟩
  rw [Token.kind_of_same_sign sameEnd, isEnd]

end Speaks

end Lexer

end LayoutScript
