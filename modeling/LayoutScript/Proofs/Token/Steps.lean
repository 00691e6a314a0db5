import LayoutScript.Token.Lexer

/-!
What the lexer can do. A cursor passes characters of the text ahead of it, the start of a
line makes layout tokens out of its margin, and a call for tokens is one of five steps. The
bounds on rounds never come to bear, so the relations below do not mention them.
-/

namespace LayoutScript

/-- The classes of tokens that are spelled by characters of their own. -/
def TokenClass.isVisible (kind : TokenClass) : Bool := !kind.isLayout && kind != .endOfInput

/-- A cursor moves over some characters. -/
structure Passes (start : Cursor) (passed : List Char) (stop : Cursor) : Prop where
  rest : start.rest = passed ++ stop.rest
  position : stop.position = passed.foldl Position.next start.position

namespace Passes

variable {start middle stop : Cursor} {passed more : List Char}

theorem none (cursor : Cursor) : Passes cursor [] cursor := ⟨rfl, rfl⟩

theorem trans (first : Passes start passed middle) (second : Passes middle more stop) :
    Passes start (passed ++ more) stop := by
  constructor
  · rw [first.rest, second.rest, List.append_assoc]
  · rw [second.position, first.position, List.foldl_append]

theorem one (char : Char) (rest : List Char) (position : Position) :
    Passes ⟨char :: rest, position⟩ [char] ⟨rest, position.next char⟩ := ⟨rfl, rfl⟩

theorem length (passes : Passes start passed stop) :
    start.rest.length = passed.length + stop.rest.length := by
  rw [passes.rest, List.length_append]

theorem offset_foldl (passed : List Char) (position : Position) :
    (passed.foldl Position.next position).offset = position.offset + passed.length := by
  induction passed generalizing position with
  | nil => rfl
  | cons char passed induction =>
      have once : (position.next char).offset = position.offset + 1 := by
        unfold Position.next
        split <;> rfl
      rw [List.foldl_cons, induction, once, List.length_cons]
      omega

/-- The text between two cursors is what was passed. -/
theorem text_to (passes : Passes start passed stop) : start.textTo stop = passed := by
  have length : stop.position.offset - start.position.offset = passed.length := by
    rw [passes.position, offset_foldl]
    omega
  rw [Cursor.textTo, length, passes.rest, List.take_left]

end Passes

namespace Cursor

theorem skip_from_passes (accepts : Char → Bool) (text : List Char) (position : Position) :
    Passes ⟨text, position⟩ (text.takeWhile accepts) (skipFrom accepts text position) := by
  induction text generalizing position with
  | nil => exact .none _
  | cons char rest induction =>
      by_cases accepted : accepts char = true
      · rw [skipFrom, if_pos accepted, List.takeWhile_cons_of_pos accepted]
        exact (Passes.one char rest position).trans (induction _)
      · rw [skipFrom, if_neg accepted, List.takeWhile_cons_of_neg accepted]
        exact .none _

theorem skip_while_passes (cursor : Cursor) (accepts : Char → Bool) :
    Passes cursor (cursor.rest.takeWhile accepts) (cursor.skipWhile accepts) :=
  skip_from_passes accepts cursor.rest cursor.position

theorem skip_while_rest (cursor : Cursor) (accepts : Char → Bool) :
    (cursor.skipWhile accepts).rest = cursor.rest.dropWhile accepts := by
  have passes := (skip_while_passes cursor accepts).rest
  have parts : cursor.rest.takeWhile accepts ++ cursor.rest.dropWhile accepts = cursor.rest :=
    List.takeWhile_append_dropWhile
  exact (List.append_cancel_left (parts.trans passes)).symm

theorem advance_passes (cursor : Cursor) : ∃ passed, Passes cursor passed cursor.advance := by
  obtain ⟨rest, position⟩ := cursor
  cases rest with
  | nil => exact ⟨[], .none _⟩
  | cons char rest => exact ⟨[char], .one char rest position⟩

theorem advance_passes_front {cursor : Cursor} {char : Char} (ahead : cursor.peek? = some char) :
    Passes cursor [char] cursor.advance := by
  obtain ⟨rest, position⟩ := cursor
  cases rest with
  | nil => cases ahead
  | cons front rest =>
      cases ahead
      exact .one char rest position

end Cursor

namespace Scan

open Cursor

/-- What scanning one token from a cursor gives: a token with characters of its own, or an
error at a place ahead, and a cursor further on. A float is the finite value of a numeral. -/
structure Spelled (start : Cursor) (scan : Scan) : Prop where
  passes : ∃ passed, Passes start passed scan.stop
  visible : ∀ kind payload, scan.outcome = .ok (kind, payload) → kind.isVisible = true
  numeral : ∀ kind number, scan.outcome = .ok (kind, .float number) →
    number.isFinite = true ∧ ∃ whole fraction, number = floatValue whole fraction
  place : ∀ cause place, scan.outcome = .error (cause, place) →
    ∃ passed, Passes start passed place

theorem spelled_found {start stop : Cursor} {passed : List Char} {kind : TokenClass}
    {payload : Literal} (passes : Passes start passed stop) (visible : kind.isVisible = true)
    (plain : ∀ number, payload ≠ .float number) :
    Spelled start (found kind payload stop) := by
  refine ⟨⟨passed, passes⟩, ?_, ?_, ?_⟩
  · rintro kind payload ⟨⟩
    exact visible
  · rintro kind number ⟨⟩
    exact absurd rfl (plain number)
  · rintro cause place ⟨⟩

theorem spelled_failed {start stop place : Cursor} {passed before : List Char} (cause : Cause)
    (passes : Passes start passed stop) (placed : Passes start before place) :
    Spelled start (failed cause place stop) := by
  refine ⟨⟨passed, passes⟩, ?_, ?_, ?_⟩
  · rintro kind payload ⟨⟩
  · rintro kind number ⟨⟩
  · rintro cause place ⟨⟩
    exact ⟨before, placed⟩

theorem string_body_passes (start : Cursor) (quote : Char) (text : List Char)
    (position : Position) (contents : List Char) :
    ∃ passed, Passes ⟨text, position⟩ passed
      (stringBody start quote text position contents).stop := by
  fun_induction stringBody start quote text position contents with
  | case1 | case3 => exact ⟨_, .none _⟩
  | case2 | case4 | case5 => exact ⟨_, .one _ _ _⟩
  | case6 position contents escaped after _ denoted _ _ _ _ induction =>
      obtain ⟨passed, passes⟩ := induction
      exact ⟨_, ((Passes.one _ _ _).trans (.one _ _ _)).trans passes⟩
  | case7 position contents escaped after => exact ⟨_, (Passes.one _ _ _).trans (.one _ _ _)⟩
  | case8 char rest position contents _ _ _ induction =>
      obtain ⟨passed, passes⟩ := induction
      exact ⟨_, (Passes.one _ _ _).trans passes⟩

theorem string_body_spelled {start : Cursor} {quote : Char} {text : List Char}
    {position : Position} {contents before : List Char}
    (within : Passes start before ⟨text, position⟩) :
    Spelled start (stringBody start quote text position contents) := by
  fun_induction stringBody start quote text position contents generalizing before with
  | case1 => exact spelled_failed _ within (.none _)
  | case2 => exact spelled_found (within.trans (.one _ _ _)) rfl (by simp)
  | case3 => exact spelled_failed _ within (.none _)
  | case4 | case5 => exact spelled_failed _ (within.trans (.one _ _ _)) (within.trans (.one _ _ _))
  | case6 =>
      rename_i induction
      exact induction ((within.trans (.one _ _ _)).trans (.one _ _ _))
  | case7 position contents escaped after =>
      exact spelled_failed _ ((within.trans (.one _ _ _)).trans (.one _ _ _))
        (within.trans (.one _ _ _))
  | case8 char rest position contents _ _ _ induction =>
      exact induction (within.trans (.one _ _ _))

theorem string_spelled (start : Cursor) : Spelled start (string start) := by
  obtain ⟨rest, position⟩ := start
  cases rest with
  | nil => exact spelled_failed _ (.none _) (.none _)
  | cons quote rest => exact string_body_spelled (.one _ _ _)

theorem fraction_passes {cursor stop : Cursor} (found : fraction? cursor = some stop) :
    ∃ passed, Passes cursor passed stop := by
  obtain ⟨passed, passes⟩ := advance_passes cursor
  unfold fraction? at found
  split at found
  · simp only at found
    split at found
    · cases found
      exact ⟨_, passes.trans (skip_while_passes _ _)⟩
    · split at found
      · cases found
      · cases found
        exact ⟨_, passes⟩
  · cases found

theorem float_mark_passes {cursor stop : Cursor} (found : floatMark? cursor = some stop) :
    ∃ passed, Passes cursor passed stop := by
  unfold floatMark? at found
  split at found
  · cases found
    exact advance_passes cursor
  · cases found

theorem getD_passes {cursor : Cursor} {stop? : Option Cursor}
    (passes : ∀ stop, stop? = some stop → ∃ passed, Passes cursor passed stop) :
    ∃ passed, Passes cursor passed (stop?.getD cursor) := by
  cases stop? with
  | none => exact ⟨[], .none _⟩
  | some stop => exact passes stop rfl

theorem ite_passes {cursor : Cursor} {skip : Bool} {stop? : Option Cursor}
    (passes : ∀ stop, stop? = some stop → ∃ passed, Passes cursor passed stop) :
    ∀ stop, (if skip then none else stop?) = some stop → ∃ passed, Passes cursor passed stop := by
  intro stop found
  cases skip with
  | true => cases found
  | false => exact passes stop found

theorem number_spelled (afterDot : Bool) (start : Cursor) :
    Spelled start (number afterDot start) := by
  unfold number
  extract_lets wholeEnd fractionEnd beforeMark markEnd stop badEnd whole value
  have wholePasses := skip_while_passes start Text.isDigit
  obtain ⟨fraction, fractionPasses⟩ : ∃ passed, Passes wholeEnd passed beforeMark :=
    getD_passes (ite_passes fun _ found => fraction_passes found)
  obtain ⟨mark, markPasses⟩ : ∃ passed, Passes beforeMark passed stop :=
    getD_passes (ite_passes fun _ found => float_mark_passes found)
  have passes := (wholePasses.trans fractionPasses).trans markPasses
  split
  · exact spelled_failed _ (passes.trans (skip_while_passes stop Text.isNameChar)) (.none _)
  · split
    · split
      · rename_i isFinite
        refine ⟨⟨_, passes⟩, ?_, ?_, ?_⟩
        · rintro kind payload ⟨⟩
          rfl
        · rintro kind number ⟨⟩
          exact ⟨isFinite, _, _, rfl⟩
        · rintro cause place ⟨⟩
      · exact spelled_failed _ passes (.none _)
    · exact spelled_found passes rfl (by simp)

theorem of_word_visible {text : String} {kind : TokenClass}
    (found : TokenClass.ofWord? text = some kind) : kind.isVisible = true := by
  unfold TokenClass.ofWord? at found
  split at found <;> cases found <;> rfl

theorem word_token_visible (lexeme : String) : (wordToken lexeme).1.isVisible = true := by
  unfold wordToken
  split
  · rfl
  · rfl
  · exact of_word_visible (by assumption)
  · rfl

theorem word_token_plain (lexeme : String) (number : Binary64) :
    (wordToken lexeme).2 ≠ .float number := by
  unfold wordToken
  split <;> simp

theorem word_spelled (start : Cursor) : Spelled start (word start) :=
  spelled_found (skip_while_passes start Text.isNameChar) (word_token_visible _)
    (word_token_plain _)

theorem operator_visible {first : Char} {second : Option Char} {kind : TokenClass} {double : Bool}
    (found : operator? first second = some (kind, double)) : kind.isVisible = true := by
  unfold operator? at found
  split at found
  case h_17 => cases found
  all_goals
    first
      | (cases found; rfl)
      | (split at found <;> cases found <;> rfl)

theorem operator_spelled (start : Cursor) (first : Char) : Spelled start (operator start first) := by
  obtain ⟨once, oncePasses⟩ := advance_passes start
  obtain ⟨twice, twicePasses⟩ := advance_passes start.advance
  unfold operator
  split
  · rename_i kind double found
    cases double with
    | true => exact spelled_found (oncePasses.trans twicePasses) (operator_visible found) (by simp)
    | false => exact spelled_found oncePasses (operator_visible found) (by simp)
  · exact spelled_failed _ oncePasses (.none _)

theorem token_spelled (afterDot : Bool) (start : Cursor) (first : Char) :
    Spelled start (token afterDot start first) := by
  unfold token
  split
  · exact string_spelled start
  · split
    · exact number_spelled afterDot start
    · split
      · exact word_spelled start
      · exact operator_spelled start first

end Scan

namespace Lexer

open Cursor

theorem skip_comment_passes (cursor : Cursor) :
    ∃ passed, Passes cursor passed (skipComment cursor) := by
  unfold skipComment
  split
  · exact ⟨_, skip_while_passes cursor isNotLineFeed⟩
  · exact ⟨[], .none _⟩

/-- A text ends in another one, and what stands in front of that makes no token of its own:
spaces, line feeds, and comments up to the end of their line. -/
inductive Filler : List Char → List Char → Prop where
  | none {text : List Char} : Filler text text
  | space {char : Char} {rest stop : List Char} (blank : isSpace char = true ∨ char = '\n')
      (others : Filler rest stop) : Filler (char :: rest) stop
  | comment {rest stop : List Char} (others : Filler (rest.dropWhile isNotLineFeed) stop) :
      Filler ('#' :: rest) stop

theorem Filler.trans {start middle stop : List Char} (first : Filler start middle)
    (second : Filler middle stop) : Filler start stop := by
  induction first with
  | none => exact second
  | space blank _ induction => exact .space blank (induction second)
  | comment _ induction => exact .comment (induction second)

theorem filler_skip_while (cursor : Cursor) (accepts : Char → Bool)
    (spaces : ∀ char, accepts char = true → isSpace char = true) :
    Filler cursor.rest (cursor.skipWhile accepts).rest := by
  rw [skip_while_rest]
  induction cursor.rest with
  | nil => exact .none
  | cons char rest induction =>
      by_cases accepted : accepts char = true
      · rw [List.dropWhile_cons_of_pos accepted]
        exact .space (.inl (spaces char accepted)) induction
      · rw [List.dropWhile_cons_of_neg accepted]
        exact .none

theorem filler_skip_comment (cursor : Cursor) : Filler cursor.rest (skipComment cursor).rest := by
  unfold skipComment
  split
  · rename_i ahead
    rw [skip_while_rest]
    rcases cursor with ⟨rest, position⟩
    cases rest with
    | nil => cases ahead
    | cons char rest =>
        cases ahead
        rw [List.dropWhile_cons_of_pos rfl]
        exact .comment .none
  · exact .none

/-- The cursor behind spaces and a comment. -/
def trim (cursor : Cursor) : Cursor := skipComment (cursor.skipWhile isSpace)

theorem filler_trim (cursor : Cursor) : Filler cursor.rest (trim cursor).rest :=
  (filler_skip_while cursor isSpace fun _ space => space).trans (filler_skip_comment _)

theorem trim_passes (cursor : Cursor) : ∃ passed, Passes cursor passed (trim cursor) := by
  obtain ⟨passed, passes⟩ := skip_comment_passes (cursor.skipWhile isSpace)
  exact ⟨_, (skip_while_passes cursor isSpace).trans passes⟩

theorem margin_passes (line : Cursor) : ∃ passed, Passes line passed (Margin.read line).stop := by
  have blanks := skip_while_passes line isBlank
  have returns := skip_while_passes (line.skipWhile isBlank) (· == '\r')
  obtain ⟨comment, passes⟩ := skip_comment_passes ((line.skipWhile isBlank).skipWhile (· == '\r'))
  exact ⟨_, (blanks.trans returns).trans passes⟩

theorem filler_margin (line : Cursor) : Filler line.rest (Margin.read line).stop.rest := by
  have blanks := filler_skip_while line isBlank fun char blank => by
    rw [isSpace, blank, Bool.true_or]
  have returns := filler_skip_while (line.skipWhile isBlank) (· == '\r') fun char isReturn => by
    rw [isSpace, isReturn, Bool.or_true]
  exact (blanks.trans returns).trans (filler_skip_comment _)

theorem margin_blanks (line : Cursor) :
    (Margin.read line).blanks = line.rest.takeWhile isBlank :=
  (skip_while_passes line isBlank).text_to

/-- The text up to a place is empty or ends a line. -/
def EndsLine (text : List Char) : Prop := text = [] ∨ text.getLast? = some '\n'

theorem ends_line_append {text more : List Char} (first : EndsLine text) (second : EndsLine more) :
    EndsLine (text ++ more) := by
  obtain rfl | last := second
  · rw [List.append_nil]
    exact first
  · right
    rw [List.getLast?_append, last, Option.some_or]

/-- A margin is that of the first line ahead of a cursor that is not empty. -/
structure Margin.Ahead (start : Cursor) (margin : Margin) : Prop where
  line : ∃ passed line, Passes start passed line ∧ EndsLine passed ∧ margin = Margin.read line
  solid : margin.stop.peek? ≠ some '\n'
  skipped : Filler start.rest margin.start.rest

theorem Margin.Ahead.passes {start : Cursor} {margin : Margin} (ahead : margin.Ahead start) :
    ∃ passed, Passes start passed margin.stop := by
  obtain ⟨passed, line, passes, _, rfl⟩ := ahead.line
  obtain ⟨more, further⟩ := margin_passes line
  exact ⟨_, passes.trans further⟩

theorem skip_empty_ahead {fuel : Nat} {start : Cursor} (enough : start.rest.length ≤ fuel) :
    (Margin.skipEmpty fuel start).Ahead start := by
  induction fuel generalizing start with
  | zero =>
      rw [Margin.skipEmpty]
      refine ⟨⟨[], start, .none _, .inl rfl, rfl⟩, ?_, .none⟩
      obtain ⟨passed, passes⟩ := margin_passes start
      have short := passes.length
      have gone : (Margin.read start).stop.rest = [] := List.length_eq_zero_iff.mp (by omega)
      rw [Cursor.peek?, gone]
      simp
  | succ fuel induction =>
      rw [Margin.skipEmpty]
      obtain ⟨passed, passes⟩ := margin_passes start
      split
      · rename_i lineFeed
        have feed := advance_passes_front lineFeed
        have shorter := (passes.trans feed).length
        rw [List.length_append, List.length_singleton] at shorter
        obtain ⟨⟨more, line, further, ends, found⟩, solid, skipped⟩ := induction
          (show (Margin.read start).stop.advance.rest.length ≤ fuel by omega)
        have empty : Filler start.rest (Margin.read start).stop.advance.rest := by
          have margin := filler_margin start
          rw [feed.rest] at margin
          exact margin.trans (.space (.inr rfl) .none)
        refine ⟨⟨_, line, (passes.trans feed).trans further, ?_, found⟩, solid, empty.trans skipped⟩
        apply ends_line_append _ ends
        right
        simp
      · rename_i solid
        exact ⟨⟨[], start, .none _, .inl rfl, rfl⟩, solid, .none⟩

/-- The blanks of a margin are all the character that the source indents with. The first
blanks of a source fix that character. -/
inductive Unmixed (known : Option Char) : List Char → Option Char → Prop where
  | none : Unmixed known [] known
  | some {first : Char} {others : List Char}
      (same : (first :: others).all (· == known.getD first) = true) :
      Unmixed known (first :: others) (some (known.getD first))

/-- The lexer behind the margin of a line. -/
def behind (lexer : Lexer) (margin : Margin) : Lexer :=
  { lexer with cursor := margin.stop, atLineStart := false }

/-- What the start of a line can make of its margin. -/
inductive Begins (lexer : Lexer) (margin : Margin) :
    Except ScriptError (List Token) → Lexer → Prop where
  | bare (nothing : margin.stop.rest = [] ∨ 0 < lexer.depth) :
      Begins lexer margin (.ok []) (lexer.behind margin)
  | mixed {first : Char} {others : List Char} (blanks : margin.blanks = first :: others)
      (more : margin.stop.rest ≠ []) (outside : lexer.depth = 0)
      (differs : (first :: others).all (· == lexer.indentChar.getD first) = false) :
      Begins lexer margin (.error (lexer.fail .mixedIndentation margin.start margin.stop))
        { lexer.behind margin with indentChar := some (lexer.indentChar.getD first) }
  | wider {indentChar : Option Char} (more : margin.stop.rest ≠ []) (outside : lexer.depth = 0)
      (unmixed : Unmixed lexer.indentChar margin.blanks indentChar)
      (wide : lexer.indents.headD 0 < margin.blanks.length) :
      Begins lexer margin (.ok [lexer.layoutToken .indent margin.start margin.stop])
        { lexer.behind margin with indentChar, indents := margin.blanks.length :: lexer.indents }
  | closes {indentChar : Option Char} {closed : Nat} {remaining : List Nat}
      (more : margin.stop.rest ≠ []) (outside : lexer.depth = 0)
      (unmixed : Unmixed lexer.indentChar margin.blanks indentChar)
      (narrow : margin.blanks.length ≤ lexer.indents.headD 0)
      (blocks : closeBlocks margin.blanks.length lexer.indents = (closed, remaining))
      (level : remaining.headD 0 = margin.blanks.length) :
      Begins lexer margin
        (.ok (List.replicate closed (lexer.layoutToken .dedent margin.start margin.stop)))
        { lexer.behind margin with indentChar, indents := remaining }
  | inconsistent {indentChar : Option Char} {closed : Nat} {remaining : List Nat}
      (more : margin.stop.rest ≠ []) (outside : lexer.depth = 0)
      (unmixed : Unmixed lexer.indentChar margin.blanks indentChar)
      (narrow : margin.blanks.length ≤ lexer.indents.headD 0)
      (blocks : closeBlocks margin.blanks.length lexer.indents = (closed, remaining))
      (uneven : remaining.headD 0 ≠ margin.blanks.length) :
      Begins lexer margin (.error (lexer.fail .inconsistentIndentation margin.start margin.stop))
        { lexer.behind margin with indentChar, indents := remaining }

theorem indent_tokens_begins {lexer : Lexer} {margin : Margin} {indentChar : Option Char}
    (more : margin.stop.rest ≠ []) (outside : lexer.depth = 0)
    (unmixed : Unmixed lexer.indentChar margin.blanks indentChar) :
    Begins lexer margin (indentTokens { lexer.behind margin with indentChar } margin).1
      (indentTokens { lexer.behind margin with indentChar } margin).2 := by
  unfold indentTokens
  extract_lets width current
  split
  · rename_i wide
    exact .wider more outside unmixed wide
  · rename_i narrow
    have narrow : margin.blanks.length ≤ lexer.indents.headD 0 := Nat.le_of_not_lt narrow
    have blocks : closeBlocks margin.blanks.length lexer.indents =
        (closeBlocks width { lexer.behind margin with indentChar }.indents) := rfl
    generalize closeBlocks width { lexer.behind margin with indentChar }.indents = pair at blocks
    obtain ⟨closed, remaining⟩ := pair
    dsimp only
    split
    · rename_i level
      exact .closes more outside unmixed narrow blocks level
    · rename_i uneven
      exact .inconsistent more outside unmixed narrow blocks uneven

theorem begin_line_margin (lexer : Lexer) :
    Begins lexer (Margin.skipEmpty lexer.size lexer.cursor) lexer.beginLine.1 lexer.beginLine.2 := by
  unfold beginLine
  extract_lets margin moved
  split
  · rename_i nothing
    rw [Bool.or_eq_true, List.isEmpty_iff, decide_eq_true_eq] at nothing
    exact .bare nothing
  · rename_i something
    rw [Bool.or_eq_true, List.isEmpty_iff, decide_eq_true_eq, not_or, Nat.not_lt] at something
    have more : margin.stop.rest ≠ [] := something.1
    have outside : lexer.depth = 0 := Nat.le_zero.mp something.2
    split
    · rename_i blanks
      refine indent_tokens_begins more outside ?_
      rw [blanks]
      exact .none
    · rename_i first others blanks
      extract_lets indentChar fixed
      split
      · rename_i same
        rw [blanks] at same
        refine indent_tokens_begins more outside ?_
        rw [blanks]
        exact .some same
      · rename_i differs
        rw [blanks, Bool.not_eq_true] at differs
        exact .mixed blanks more outside differs

theorem begin_line_begins {lexer : Lexer} (enough : lexer.cursor.rest.length ≤ lexer.size) :
    ∃ margin : Margin, margin.Ahead lexer.cursor ∧
      Begins lexer margin lexer.beginLine.1 lexer.beginLine.2 :=
  ⟨_, skip_empty_ahead enough, begin_line_margin lexer⟩

/-- The lexer in front of what a line holds: it has left the margin, if there was one to
leave, and nothing was made of it. -/
inductive Opens (lexer : Lexer) : Lexer → Prop where
  | inside (within : lexer.atLineStart = false) : Opens lexer lexer
  | margin {margin : Margin} {ready : Lexer} (atStart : lexer.atLineStart = true)
      (ahead : margin.Ahead lexer.cursor) (begins : Begins lexer margin (.ok []) ready) :
      Opens lexer ready

/-- The lexer behind spaces and a comment. -/
def trimmed (lexer : Lexer) : Lexer := { lexer with cursor := trim lexer.cursor }

/-- The lexer behind the line feed ahead. -/
def fed (lexer : Lexer) : Lexer :=
  { lexer.trimmed with cursor := lexer.trimmed.cursor.advance, atLineStart := true }

/-- What a call for tokens can do. -/
inductive Scans : Lexer → Except ScriptError (List Token) → Lexer → Prop where
  | margin {lexer after : Lexer} {margin : Margin} {result : Except ScriptError (List Token)}
      (atStart : lexer.atLineStart = true) (ahead : margin.Ahead lexer.cursor)
      (begins : Begins lexer margin result after) (made : result ≠ .ok []) :
      Scans lexer result after
  | finish {lexer ready : Lexer} (opens : Opens lexer ready)
      (atEnd : ready.trimmed.cursor.rest = []) :
      Scans lexer (.ok ready.trimmed.endTokens) ready.trimmed.endInput
  | lineFeed {lexer ready : Lexer} (opens : Opens lexer ready)
      (ahead : ready.trimmed.cursor.peek? = some '\n') (outside : ready.depth = 0) :
      Scans lexer (.ok [⟨.newline, .nothing, "\\n",
        ready.trimmed.cursor.spanTo ready.fed.cursor ready.file⟩]) ready.fed
  | continued {lexer ready after : Lexer} {result : Except ScriptError (List Token)}
      (opens : Opens lexer ready) (ahead : ready.trimmed.cursor.peek? = some '\n')
      (within : 0 < ready.depth) (others : Scans ready.fed result after) :
      Scans lexer result after
  | token {lexer ready : Lexer} {scan : Scan} (opens : Opens lexer ready)
      (spelled : scan.Spelled ready.trimmed.cursor)
      (begun : ∃ afterDot first others, ready.trimmed.cursor.rest = first :: others ∧
        first ≠ '\n' ∧ scan = Scan.token afterDot ready.trimmed.cursor first) :
      Scans lexer (ready.trimmed.finishScan ready.trimmed.cursor scan).1
        (ready.trimmed.finishScan ready.trimmed.cursor scan).2

/-- What no call for tokens changes. -/
structure Kept (lexer after : Lexer) : Prop where
  source : after.source = lexer.source
  size : after.size = lexer.size
  file : after.file = lexer.file
  last : after.last = lexer.last

theorem Kept.trans {lexer middle after : Lexer} (first : Kept lexer middle)
    (second : Kept middle after) : Kept lexer after :=
  ⟨second.source.trans first.source, second.size.trans first.size, second.file.trans first.file,
    second.last.trans first.last⟩

theorem Begins.kept {lexer after : Lexer} {margin : Margin}
    {result : Except ScriptError (List Token)} (begins : Begins lexer margin result after) :
    Kept lexer after ∧ after.cursor = margin.stop ∧ after.atLineStart = false ∧
      after.depth = lexer.depth := by
  cases begins <;> exact ⟨⟨rfl, rfl, rfl, rfl⟩, rfl, rfl, rfl⟩

theorem Opens.kept {lexer ready : Lexer} (opens : Opens lexer ready) :
    Kept lexer ready ∧ (∃ passed, Passes lexer.cursor passed ready.cursor) ∧
      ready.atLineStart = false ∧ ready.depth = lexer.depth := by
  cases opens with
  | inside within => exact ⟨⟨rfl, rfl, rfl, rfl⟩, ⟨[], .none _⟩, within, rfl⟩
  | margin atStart ahead begins =>
      obtain ⟨kept, cursor, rest⟩ := begins.kept
      refine ⟨kept, ?_, rest⟩
      rw [cursor]
      exact ahead.passes

theorem fed_passes {lexer : Lexer} (ahead : lexer.trimmed.cursor.peek? = some '\n') :
    ∃ passed, Passes lexer.cursor (passed ++ ['\n']) lexer.fed.cursor := by
  obtain ⟨passed, passes⟩ := trim_passes lexer.cursor
  exact ⟨passed, passes.trans (advance_passes_front ahead)⟩

/-- A round of scanning behind the margin. -/
def scanContent (fuel : Nat) (ready : Lexer) : Except ScriptError (List Token) × Lexer :=
  match ready.trimmed.cursor.rest with
  | [] => (.ok ready.trimmed.endTokens, ready.trimmed.endInput)
  | char :: _ =>
      if char = '\n' then
        if ready.depth = 0 then
          (.ok [⟨.newline, .nothing, "\\n",
            ready.trimmed.cursor.spanTo ready.fed.cursor ready.file⟩], ready.fed)
        else scanTokens fuel ready.fed
      else
        ready.trimmed.finishScan ready.trimmed.cursor
          (Scan.token (ready.last == some .dot) ready.trimmed.cursor char)

theorem scan_tokens_at_line_start {fuel : Nat} {lexer : Lexer} (atStart : lexer.atLineStart = true) :
    scanTokens (fuel + 1) lexer = match lexer.beginLine with
      | (.error error, after) => (.error error, after)
      | (.ok (token :: tokens), after) => (.ok (token :: tokens), after)
      | (.ok [], ready) => scanContent fuel ready := by
  rw [scanTokens, if_pos atStart]
  rfl

theorem scan_tokens_within_line {fuel : Nat} {lexer : Lexer} (within : lexer.atLineStart = false) :
    scanTokens (fuel + 1) lexer = scanContent fuel lexer := by
  rw [scanTokens, within]
  rfl

theorem scan_content_scans {fuel : Nat} {lexer ready : Lexer} (opens : Opens lexer ready)
    (enough : ready.cursor.rest.length ≤ fuel) (sized : ready.cursor.rest.length ≤ ready.size)
    (continues : ∀ lexer : Lexer, lexer.cursor.rest.length < fuel →
      lexer.cursor.rest.length ≤ lexer.size →
      Scans lexer (scanTokens fuel lexer).1 (scanTokens fuel lexer).2) :
    Scans lexer (scanContent fuel ready).1 (scanContent fuel ready).2 := by
  unfold scanContent
  split
  · rename_i atEnd
    exact .finish opens atEnd
  · rename_i char rest front
    split
    · rename_i lineFeed
      have ahead : ready.trimmed.cursor.peek? = some '\n' := by
        rw [Cursor.peek?, front, lineFeed, List.head?_cons]
      split
      · rename_i outside
        exact .lineFeed opens ahead outside
      · rename_i within
        obtain ⟨passed, passes⟩ := fed_passes ahead
        have shorter := passes.length
        rw [List.length_append, List.length_singleton] at shorter
        have smaller : ready.fed.cursor.rest.length ≤ ready.fed.size :=
          Nat.le_trans (by omega) sized
        exact .continued opens ahead (Nat.pos_of_ne_zero within)
          (continues ready.fed (by omega) smaller)
    · rename_i other
      exact .token opens (Scan.token_spelled _ _ _) ⟨_, char, rest, front, other, rfl⟩

/-- A call for tokens does one of the steps, as long as the bound exceeds the text ahead. -/
theorem scan_tokens_scans {fuel : Nat} {lexer : Lexer} (enough : lexer.cursor.rest.length < fuel)
    (sized : lexer.cursor.rest.length ≤ lexer.size) :
    Scans lexer (scanTokens fuel lexer).1 (scanTokens fuel lexer).2 := by
  induction fuel generalizing lexer with
  | zero => exact absurd enough (Nat.not_lt_zero _)
  | succ fuel induction =>
      have content : ∀ ready, Opens lexer ready →
          Scans lexer (scanContent fuel ready).1 (scanContent fuel ready).2 := by
        intro ready opens
        obtain ⟨kept, ⟨passed, passes⟩, _⟩ := opens.kept
        have shorter := passes.length
        have sameSize := kept.size
        exact scan_content_scans opens (by omega) (by omega) fun lexer => induction
      cases atStart : lexer.atLineStart with
      | false =>
          rw [scan_tokens_within_line atStart]
          exact content lexer (.inside atStart)
      | true =>
          obtain ⟨margin, ahead, begins⟩ := begin_line_begins sized
          rw [scan_tokens_at_line_start atStart]
          generalize lexer.beginLine = begun at begins
          obtain ⟨made, after⟩ := begun
          match made with
          | .error error => exact .margin atStart ahead begins (by simp)
          | .ok (token :: tokens) => exact .margin atStart ahead begins (by simp)
          | .ok [] => exact content after (.margin atStart ahead begins)

/-- A call that gives no error makes a token. -/
theorem Scans.made {lexer after : Lexer} {result : Except ScriptError (List Token)}
    (scans : Scans lexer result after) : result ≠ .ok [] := by
  induction scans with
  | margin _ _ _ made => exact made
  | finish =>
      rw [endTokens]
      split <;> simp
  | lineFeed => simp
  | continued _ _ _ _ induction => exact induction
  | token =>
      rw [finishScan]
      split <;> simp

theorem end_input_kept (lexer : Lexer) :
    Kept lexer lexer.endInput ∧ lexer.endInput.cursor = lexer.cursor ∧
      lexer.endInput.atLineStart = lexer.atLineStart := by
  unfold endInput
  split <;> exact ⟨⟨rfl, rfl, rfl, rfl⟩, rfl, rfl⟩

theorem finish_scan_kept (lexer : Lexer) (start : Cursor) (scan : Scan) :
    Kept lexer (lexer.finishScan start scan).2 ∧ (lexer.finishScan start scan).2.cursor = scan.stop ∧
      (lexer.finishScan start scan).2.atLineStart = lexer.atLineStart := by
  unfold finishScan
  split <;> exact ⟨⟨rfl, rfl, rfl, rfl⟩, rfl, rfl⟩

/-- The cursor of a lexer is in its source, and at the start of a line where it says so. -/
structure Placed (lexer : Lexer) : Prop where
  sized : lexer.size = lexer.source.length
  passed : ∃ passed, Passes (.ofText lexer.source) passed lexer.cursor ∧
    (lexer.atLineStart = true → EndsLine passed)

namespace Placed

variable {lexer after : Lexer}

theorem of_text (source : String) (file : Option String) : (ofText source file).Placed :=
  ⟨rfl, [], .none _, fun _ => .inl rfl⟩

theorem enough (placed : lexer.Placed) : lexer.cursor.rest.length ≤ lexer.size := by
  obtain ⟨passed, passes, _⟩ := placed.passed
  have length := passes.length
  have sized := placed.sized
  simp only [Cursor.ofText] at length
  omega

theorem moved (placed : lexer.Placed) (kept : Kept lexer after) {more : List Char}
    (passes : Passes lexer.cursor more after.cursor)
    (starts : after.atLineStart = true → more.getLast? = some '\n') : after.Placed := by
  obtain ⟨passed, first, _⟩ := placed.passed
  refine ⟨?_, passed ++ more, ?_, ?_⟩
  · rw [kept.size, kept.source, placed.sized]
  · rw [kept.source]
    exact first.trans passes
  · intro atStart
    right
    rw [List.getLast?_append, starts atStart, Option.some_or]

theorem opened (placed : lexer.Placed) (opens : Opens lexer after) : after.Placed := by
  obtain ⟨kept, ⟨passed, passes⟩, within, _⟩ := opens.kept
  refine placed.moved kept passes fun atStart => ?_
  rw [within] at atStart
  cases atStart

theorem fed (placed : lexer.Placed) (ahead : lexer.trimmed.cursor.peek? = some '\n') :
    lexer.fed.Placed := by
  obtain ⟨passed, passes⟩ := fed_passes ahead
  refine placed.moved ⟨rfl, rfl, rfl, rfl⟩ passes fun _ => ?_
  simp

/-- Within a line only the cursor matters. -/
theorem content {ready : Lexer} {more : List Char} (placed : lexer.Placed)
    (opens : Opens lexer ready) (kept : Kept ready.trimmed after)
    (passes : Passes ready.trimmed.cursor more after.cursor)
    (sameStart : after.atLineStart = ready.atLineStart) : after.Placed ∧ Kept lexer after := by
  obtain ⟨openKept, _, within, _⟩ := opens.kept
  obtain ⟨spaces, trims⟩ := trim_passes ready.cursor
  have readyKept : Kept ready after := ⟨kept.source, kept.size, kept.file, kept.last⟩
  refine ⟨(placed.opened opens).moved readyKept (trims.trans passes) fun atStart => ?_,
    openKept.trans readyKept⟩
  rw [sameStart, within] at atStart
  cases atStart

theorem scanned (placed : lexer.Placed) {result : Except ScriptError (List Token)}
    (scans : Scans lexer result after) : after.Placed ∧ Kept lexer after := by
  induction scans with
  | margin atStart ahead begins made =>
      obtain ⟨kept, cursor, within, _⟩ := begins.kept
      obtain ⟨passed, passes⟩ := ahead.passes
      rw [← cursor] at passes
      refine ⟨placed.moved kept passes fun atStart => ?_, kept⟩
      rw [within] at atStart
      cases atStart
  | @finish lexer ready opens atEnd =>
      obtain ⟨kept, cursor, sameStart⟩ := end_input_kept ready.trimmed
      have passes : Passes ready.trimmed.cursor [] ready.trimmed.endInput.cursor := by
        rw [cursor]
        exact .none _
      exact placed.content opens kept passes sameStart
  | @lineFeed lexer ready opens ahead outside =>
      have kept : Kept ready ready.fed := ⟨rfl, rfl, rfl, rfl⟩
      exact ⟨(placed.opened opens).fed ahead, opens.kept.1.trans kept⟩
  | @continued lexer ready after result opens ahead within others induction =>
      have fedKept : Kept ready ready.fed := ⟨rfl, rfl, rfl, rfl⟩
      obtain ⟨afterPlaced, kept⟩ := induction ((placed.opened opens).fed ahead)
      exact ⟨afterPlaced, (opens.kept.1.trans fedKept).trans kept⟩
  | @token lexer ready scan opens spelled =>
      obtain ⟨passed, passes⟩ := spelled.passes
      obtain ⟨kept, cursor, sameStart⟩ :=
        finish_scan_kept ready.trimmed ready.trimmed.cursor scan
      rw [← cursor] at passes
      exact placed.content opens kept passes sameStart

end Placed

/-- What asking for the next token can do. -/
inductive Gives (lexer : Lexer) : Except ScriptError Token → Lexer → Prop where
  | waiting {token : Token} {tokens : List Token} (pending : lexer.pending = token :: tokens) :
      Gives lexer (.ok token) { lexer with pending := tokens, last := some token.kind }
  | made {token : Token} {tokens : List Token} {after : Lexer} (idle : lexer.pending = [])
      (scans : Scans lexer (.ok (token :: tokens)) after) :
      Gives lexer (.ok token) { after with pending := tokens, last := some token.kind }
  | failed {error : ScriptError} {after : Lexer} (idle : lexer.pending = [])
      (scans : Scans lexer (.error error) after) : Gives lexer (.error error) after

theorem next_gives {lexer : Lexer} (sized : lexer.cursor.rest.length ≤ lexer.size) :
    Gives lexer lexer.next.1 lexer.next.2 := by
  unfold next
  split
  · rename_i token tokens pending
    exact .waiting pending
  · rename_i idle
    have scans := scan_tokens_scans (Nat.lt_succ_of_le sized) sized
    generalize scanTokens (lexer.size + 1) lexer = scanned at scans
    obtain ⟨made, after⟩ := scanned
    match made with
    | .error error => exact .failed idle scans
    | .ok [] => exact absurd rfl scans.made
    | .ok (token :: tokens) => exact .made idle scans

/-- What an iteration gives that is asked at most `fuel` times, with the mark that it leaves behind
the end of input. -/
def readWithin : Nat → Lexer → Reading
  | 0, lexer => ⟨[], none, lexer⟩
  | fuel + 1, lexer =>
      match lexer.next with
      | (.error error, lexer) => ⟨[], some error, lexer⟩
      | (.ok token, lexer) =>
          if token.kind = .endOfInput then
            ⟨[token], none, { lexer with finished := true }⟩
          else
            let reading := readWithin fuel lexer
            { reading with tokens := token :: reading.tokens }

end Lexer

end LayoutScript
