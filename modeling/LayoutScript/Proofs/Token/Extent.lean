import LayoutScript.Proofs.Text.Lines
import LayoutScript.Proofs.Token.Delivery
import LayoutScript.Proofs.Token.Margin
import LayoutScript.Proofs.Token.Trailing
import Mathlib.Data.List.Induction

/-!
The places of tokens. A position counts the text in front of it, a token that is spelled by
characters is the text between its ends, and tokens come in the order of the text. This also
holds of what a lexer gives when it is asked again behind an error. Where a source is read to
its end, whatever no token is spelled with is a space, a line feed or part of a comment.
-/

namespace LayoutScript

/-- A position counts the characters, the line feeds and the rest of the line in front of it. -/
structure Position.Exact (text : List Char) (position : Position) : Prop where
  within : position.offset ≤ text.length
  line : position.line = 1 + (text.take position.offset).count '\n'
  column : position.column = 1 + (Text.lastLine (text.take position.offset)).length

theorem Text.last_line_snoc (front : List Char) (char : Char) :
    lastLine (front ++ [char]) = grow (lastLine front) char := by
  unfold lastLine grow
  rw [List.reverse_append]
  by_cases isFeed : char = '\n'
  · simp [isFeed]
  · simp [isFeed]

/-- The unfinished line is what stands behind the last line feed. -/
theorem Text.open_line_eq (front : List Char) : openLine front = lastLine front := by
  induction front using List.reverseRecOn with
  | nil => rfl
  | append_singleton front char induction =>
      rw [last_line_snoc, ← induction, openLine, List.foldl_append]
      rfl

theorem Position.offset_behind (front : List Char) : (behind front).offset = front.length := by
  rw [behind, Passes.offset_foldl]
  exact Nat.zero_add _

theorem Position.In.exact {text : List Char} {position : Position} (inText : position.In text) :
    position.Exact text := by
  rcases inText with ⟨front, back, rfl, rfl⟩
  have taken : (front ++ back).take (behind front).offset = front := by
    rw [offset_behind, List.take_left]
  constructor
  · rw [offset_behind, List.length_append]
    exact Nat.le_add_right _ _
  · rw [taken, line_behind, Nat.add_comm]
  · rw [taken, column_behind, Text.open_line_eq, Nat.add_comm]

/-- One token comes before another. Dedents of one line share their range, so that a dedent may
start in front of where the token before it stops. -/
structure Token.Before (first second : Token) : Prop where
  start : first.span.start.offset ≤ second.span.start.offset
  stop : first.span.stop.offset ≤ second.span.stop.offset
  apart : second.kind ≠ .dedent → first.span.stop.offset ≤ second.span.start.offset

/-- A token lies in a text, and if it is spelled by characters they are those between its ends. -/
structure Token.Lies (text : List Char) (token : Token) : Prop where
  start : token.span.start.In text
  stop : token.span.stop.In text
  forward : token.span.start.offset ≤ token.span.stop.offset
  lexeme : token.kind.isVisible = true → token.lexeme ≠ "" ∧
    token.lexeme.toList = text.extract token.span.start.offset token.span.stop.offset

/-- The range of an error lies in a text. -/
structure ScriptError.Lies (text : List Char) (error : ScriptError) : Prop where
  place : ∃ span, error.span = some span ∧ span.start.In text ∧ span.stop.In text

/-- A token that is spelled by characters has the one at a place. -/
def Token.Covers (token : Token) (place : Nat) : Prop :=
  token.kind.isVisible = true ∧ token.span.start.offset ≤ place ∧ place < token.span.stop.offset

/-- A comment takes a part of a text, from its mark up to the end of the line. -/
structure Text.Comment (text : List Char) (first last : Nat) : Prop where
  mark : text[first]? = some '#'
  inside : ∀ place, first ≤ place → place < last → text[place]? ≠ some '\n'
  ends : text[last]? = none ∨ text[last]? = some '\n'

/-- The character at a place of a text is accounted for: it belongs to a token, or it is a space
or a line feed, or it is in a comment, up to a bound, that no token has a character of. -/
def Text.Accounted (text : List Char) (tokens : List Token) (bound place : Nat) : Prop :=
  (∃ token ∈ tokens, token.Covers place) ∨
    (∃ char, text[place]? = some char ∧ (Lexer.isSpace char = true ∨ char = '\n')) ∨
    ∃ first last, first ≤ place ∧ place < last ∧ last ≤ bound ∧ Text.Comment text first last ∧
      ∀ token ∈ tokens, ∀ other, first ≤ other → other < last → ¬token.Covers other

namespace Passes

variable {start stop : Cursor} {passed : List Char}

theorem offset (passes : Passes start passed stop) :
    stop.position.offset = start.position.offset + passed.length := by
  rw [passes.position, offset_foldl]

/-- What is passed without a line feed is in one line. -/
theorem same_line (passes : Passes start passed stop) (single : '\n' ∉ passed) :
    stop.position.line = start.position.line := by
  rw [passes.position]
  generalize start.position = position
  clear passes
  induction passed generalizing position with
  | nil => rfl
  | cons char passed induction =>
      rw [List.mem_cons, not_or] at single
      rw [List.foldl_cons, induction single.2, Position.line_next, if_neg (Ne.symm single.1),
        Nat.add_zero]

end Passes

/-- A range lies between two places of a text. -/
structure Span.Between (start stop : Cursor) (span : Span) : Prop where
  parts : ∃ first last before inner behind, Passes start before first ∧ Passes first inner last ∧
    Passes last behind stop ∧ span.start = first.position ∧ span.stop = last.position

namespace Span.Between

variable {start middle stop : Cursor} {span : Span}

theorem behind {passed : List Char} (passes : Passes start passed middle)
    (between : span.Between middle stop) : span.Between start stop := by
  rcases between.parts with ⟨first, last, before, inner, rest, toFirst, toLast, toStop, ends⟩
  exact ⟨first, last, _, inner, rest, passes.trans toFirst, toLast, toStop, ends⟩

theorem offsets (between : span.Between start stop) :
    start.position.offset ≤ span.start.offset ∧ span.start.offset ≤ span.stop.offset ∧
      span.stop.offset ≤ stop.position.offset := by
  rcases between.parts with ⟨first, last, _, _, _, toFirst, toLast, toStop, isStart, isStop⟩
  have before := toFirst.offset
  have inner := toLast.offset
  have rest := toStop.offset
  rw [isStart, isStop]
  omega

end Span.Between

namespace Scan

open Cursor

/-- A cursor moves on within its line. -/
def Inline (start stop : Cursor) : Prop := ∃ passed, Passes start passed stop ∧ '\n' ∉ passed

theorem Inline.none (cursor : Cursor) : Inline cursor cursor :=
  ⟨[], .none cursor, List.not_mem_nil⟩

theorem Inline.trans {start middle stop : Cursor} (first : Inline start middle)
    (second : Inline middle stop) : Inline start stop := by
  rcases first with ⟨passed, passes, single⟩
  rcases second with ⟨more, further, singleToo⟩
  exact ⟨passed ++ more, passes.trans further, by simp [single, singleToo]⟩

theorem inline_skip_while (cursor : Cursor) {accepts : Char → Bool}
    (refuses : accepts '\n' = false) : Inline cursor (cursor.skipWhile accepts) := by
  refine ⟨_, skip_while_passes cursor accepts, fun member => ?_⟩
  have accepted := List.mem_takeWhile_imp member
  rw [refuses] at accepted
  cases accepted

theorem inline_advance {cursor : Cursor} {char : Char} (ahead : cursor.peek? = some char)
    (other : char ≠ '\n') : Inline cursor cursor.advance :=
  ⟨[char], advance_passes_front ahead, by simpa using Ne.symm other⟩

theorem string_body_inline {start : Cursor} {quote : Char} {text : List Char} {position : Position}
    {contents : List Char} {kind : TokenClass} {payload : Literal} (quotes : quote ≠ '\n')
    (found : (stringBody start quote text position contents).outcome = .ok (kind, payload)) :
    Inline ⟨text, position⟩ (stringBody start quote text position contents).stop := by
  have one {char : Char} (rest : List Char) (position : Position) (other : char ≠ '\n') :
      Inline ⟨char :: rest, position⟩ ⟨rest, position.next char⟩ :=
    ⟨[char], .one char rest position, by simpa using Ne.symm other⟩
  fun_induction stringBody start quote text position contents with
  | case2 rest position contents => exact one _ _ quotes
  | case6 position contents escaped after other denoted _ _ _ _ induction =>
      have backslash : '\\' ≠ '\n' := by decide
      exact ((one _ _ backslash).trans (one _ _ other)).trans (induction found)
  | case8 char rest position contents _ other _ induction =>
      exact (one _ _ other).trans (induction found)
  | _ => cases found

theorem fraction_inline {cursor stop : Cursor} (found : fraction? cursor = some stop) :
    Inline cursor stop := by
  unfold fraction? at found
  split at found
  · rename_i ahead
    have point := inline_advance ahead (by decide)
    simp only at found
    split at found
    · cases found
      exact point.trans (inline_skip_while _ rfl)
    · split at found
      · cases found
      · cases found
        exact point
  · cases found

theorem float_mark_inline {cursor stop : Cursor} (found : floatMark? cursor = some stop) :
    Inline cursor stop := by
  unfold floatMark? at found
  split at found
  · rename_i mark
    rw [Bool.and_eq_true, decide_eq_true_eq] at mark
    cases found
    exact inline_advance mark.1 (by decide)
  · cases found

theorem getD_inline {cursor : Cursor} {skip : Bool} {stop? : Option Cursor}
    (inline : ∀ stop, stop? = some stop → Inline cursor stop) :
    Inline cursor ((if skip then none else stop?).getD cursor) := by
  cases skip with
  | true => exact .none cursor
  | false =>
      cases stop? with
      | none => exact .none cursor
      | some stop => exact inline stop rfl

theorem number_inline {afterDot : Bool} {start : Cursor} {kind : TokenClass} {payload : Literal}
    (found : (number afterDot start).outcome = .ok (kind, payload)) :
    Inline start (number afterDot start).stop := by
  unfold number at found ⊢
  extract_lets wholeEnd fractionEnd beforeMark markEnd stop _ _ _ at found
  extract_lets
  have whole : Inline start wholeEnd := inline_skip_while start rfl
  have fraction : Inline wholeEnd beforeMark := getD_inline fun _ found => fraction_inline found
  have mark : Inline beforeMark stop := getD_inline fun _ found => float_mark_inline found
  have all := (whole.trans fraction).trans mark
  split at found
  · cases found
  · rename_i proper
    rw [if_neg proper]
    split
    · split <;> exact all
    · exact all

theorem operator_inline {start : Cursor} {first : Char} {kind : TokenClass} {payload : Literal}
    (ahead : start.peek? = some first) (other : first ≠ '\n')
    (found : (operator start first).outcome = .ok (kind, payload)) :
    Inline start (operator start first).stop := by
  have once := inline_advance ahead other
  unfold operator at found ⊢
  split at found
  · rename_i kind double spelled
    cases double with
    | false => exact once
    | true =>
        rcases operator_double spelled with ⟨second, isSecond⟩
        have inLine : second ≠ '\n' := by
          rintro rfl
          rw [operator_second (.inr isSecond)] at spelled
          rcases operator_double spelled with ⟨_, none⟩
          cases none
        rw [peek_second_eq] at isSecond
        exact once.trans (inline_advance isSecond inLine)
  · cases found

/-- A token takes at least one character, and never a line feed. -/
theorem token_lexeme {afterDot : Bool} {start : Cursor} {first : Char} {others : List Char}
    {kind : TokenClass} {payload : Literal} (front : start.rest = first :: others)
    (other : first ≠ '\n') (found : (token afterDot start first).outcome = .ok (kind, payload)) :
    ∃ lexeme, Passes start lexeme (token afterDot start first).stop ∧ lexeme ≠ [] ∧
      '\n' ∉ lexeme := by
  have shorter := token_shorter afterDot front
  have ahead : start.peek? = some first := by rw [Cursor.peek?, front, List.head?_cons]
  have inline : Inline start (token afterDot start first).stop := by
    unfold token at found ⊢
    split at found
    · rename_i quotes
      rw [if_pos quotes]
      rw [string, front] at found ⊢
      have opening := inline_advance ahead other
      rw [Cursor.advance, front] at opening
      exact opening.trans (string_body_inline other found)
    · rename_i plain
      rw [if_neg plain]
      split at found
      · rename_i digit
        rw [if_pos digit]
        exact number_inline found
      · rename_i noDigit
        rw [if_neg noDigit]
        split at found
        · rename_i starts
          rw [if_pos starts]
          exact inline_skip_while start rfl
        · rename_i sign
          rw [if_neg sign]
          exact operator_inline ahead other found
  rcases inline with ⟨lexeme, passes, single⟩
  refine ⟨lexeme, passes, ?_, single⟩
  rintro rfl
  have length := passes.length
  rw [front, List.length_cons, List.length_nil] at length
  omega

end Scan

namespace Lexer

open Cursor

variable {lexer after : Lexer} {tokens : List Token}

/-- What lies between two places: filler alone, or filler and the characters of one token. -/
inductive Crosses (start : Cursor) (tokens : List Token) (stop : Cursor) : Prop where
  | bare (fills : Filler start.rest stop.rest)
      (hidden : ∀ token ∈ tokens, token.kind.isVisible = false)
  | spelled {token : Token} {front : Cursor} {passed lexeme : List Char} (only : tokens = [token])
      (fills : Filler start.rest front.rest) (reaches : Passes start passed front)
      (passes : Passes front lexeme stop) (proper : lexeme ≠ []) (single : '\n' ∉ lexeme)
      (visible : token.kind.isVisible = true)
      (isLexeme : token.lexeme = String.ofList lexeme)
      (starts : token.span.start = front.position) (stops : token.span.stop = stop.position)

theorem Crosses.behind {start middle stop : Cursor} {passed : List Char}
    (fills : Filler start.rest middle.rest) (reaches : Passes start passed middle)
    (crosses : Crosses middle tokens stop) : Crosses start tokens stop := by
  cases crosses with
  | bare others hidden => exact .bare (fills.trans others) hidden
  | spelled only others further passes proper single visible isLexeme starts stops =>
      exact .spelled only (fills.trans others) (reaches.trans further) passes proper single visible
        isLexeme starts stops

theorem Margin.Ahead.filler {start : Cursor} {margin : Margin} (ahead : margin.Ahead start) :
    Filler start.rest margin.stop.rest := by
  have skipped := ahead.skipped
  rcases ahead.line with ⟨_, line, _, _, rfl⟩
  exact skipped.trans (filler_margin line)

theorem Opens.filler {ready : Lexer} (opens : Opens lexer ready) :
    Filler lexer.cursor.rest ready.trimmed.cursor.rest := by
  have trims := filler_trim ready.cursor
  cases opens with
  | inside => exact trims
  | margin _ ahead begins =>
      have left := ahead.filler
      rw [← begins.kept.2.1] at left
      exact left.trans trims

theorem Opens.trimmed_passes {ready : Lexer} (opens : Opens lexer ready) :
    ∃ passed, Passes lexer.cursor passed ready.trimmed.cursor := by
  rcases opens.kept.2.1 with ⟨passed, passes⟩
  rcases trim_passes ready.cursor with ⟨more, trims⟩
  exact ⟨_, passes.trans trims⟩

theorem fed_filler {ready : Lexer} (ahead : ready.trimmed.cursor.peek? = some '\n') :
    Filler ready.trimmed.cursor.rest ready.fed.cursor.rest := by
  rw [(advance_passes_front ahead).rest]
  exact .space (.inr rfl) .none

theorem Begins.hidden {margin : Margin} (begins : Begins lexer margin (.ok tokens) after) :
    ∀ token ∈ tokens, token.kind.isVisible = false := by
  generalize made : (Except.ok tokens : Except ScriptError (List Token)) = result at begins
  cases begins with
  | bare =>
      cases made
      exact List.forall_mem_nil _
  | wider =>
      cases made
      exact List.forall_mem_singleton.2 rfl
  | closes =>
      cases made
      intro token member
      rw [(List.mem_replicate.1 member).2]
      rfl
  | mixed | inconsistent => cases made

theorem end_tokens_hidden (lexer : Lexer) :
    ∀ token ∈ lexer.endTokens, token.kind.isVisible = false := by
  rcases end_tokens_parts lexer with ⟨line, closing, parts, first, closes, _⟩
  rw [parts, List.forall_mem_append]
  constructor
  · rcases first with rfl | ⟨_, token, rfl, isNewline⟩
    · exact List.forall_mem_nil _
    · exact List.forall_mem_singleton.2 (by rw [isNewline]; rfl)
  · exact fun token member => (closes token member).hidden

/-- One call for tokens passes filler and at most the characters of one token. -/
theorem Scans.crosses (scans : Scans lexer (.ok tokens) after) :
    Crosses lexer.cursor tokens after.cursor := by
  generalize made : (Except.ok tokens : Except ScriptError (List Token)) = result at scans
  induction scans with
  | margin atStart ahead begins _ =>
      subst made
      have fills := ahead.filler
      rw [← begins.kept.2.1] at fills
      exact .bare fills begins.hidden
  | @finish lexer ready opens atEnd =>
      cases made
      have fills := opens.filler
      rw [← (end_input_kept ready.trimmed).2.1] at fills
      exact .bare fills (end_tokens_hidden _)
  | lineFeed opens ahead outside =>
      cases made
      exact .bare (opens.filler.trans (fed_filler ahead)) (List.forall_mem_singleton.2 rfl)
  | continued opens ahead _ _ induction =>
      rcases opens.trimmed_passes with ⟨_, passes⟩
      exact (induction made).behind (opens.filler.trans (fed_filler ahead))
        (passes.trans (advance_passes_front ahead))
  | @token lexer ready scan opens spelled begun =>
      rcases begun with ⟨afterDot, first, others, front, other, rfl⟩
      unfold finishScan at made ⊢
      split at made
      · rename_i kind payload found
        rcases Scan.token_lexeme front other found with ⟨lexeme, passes, proper, single⟩
        rcases opens.trimmed_passes with ⟨_, reaches⟩
        cases made
        refine .spelled rfl opens.filler reaches passes proper single
          (spelled.visible _ _ found) ?_ rfl rfl
        rw [passes.text_to]
      · cases made

/-- The tokens of a call lie between the places where it starts and stops, in order. -/
structure Spread (start : Cursor) (tokens : List Token) (stop : Cursor) : Prop where
  between : ∀ token ∈ tokens, token.span.Between start stop
  ordered : tokens.Pairwise Token.Before

theorem Spread.behind {start middle stop : Cursor} {passed : List Char}
    (passes : Passes start passed middle) (spread : Spread middle tokens stop) :
    Spread start tokens stop :=
  ⟨fun token member => (spread.between token member).behind passes, spread.ordered⟩

theorem spread_one {start stop : Cursor} {token : Token} (between : token.span.Between start stop) :
    Spread start [token] stop :=
  ⟨List.forall_mem_singleton.2 between, List.pairwise_singleton _ _⟩

theorem Begins.spread {margin : Margin} (ahead : margin.Ahead lexer.cursor)
    (begins : Begins lexer margin (.ok tokens) after) :
    Spread lexer.cursor tokens after.cursor := by
  rcases ahead.line with ⟨passed, line, passes, _, isMargin⟩
  rcases margin_passes line with ⟨more, further⟩
  have between : Span.Between lexer.cursor after.cursor
      (margin.start.spanTo margin.stop lexer.file) := by
    rw [begins.kept.2.1, isMargin]
    exact ⟨line, _, passed, more, [], passes, further, .none _, rfl, rfl⟩
  generalize made : (Except.ok tokens : Except ScriptError (List Token)) = result at begins
  cases begins with
  | bare =>
      cases made
      exact ⟨List.forall_mem_nil _, .nil⟩
  | wider =>
      cases made
      exact spread_one between
  | closes =>
      cases made
      constructor
      · intro token member
        rw [(List.mem_replicate.1 member).2]
        exact between
      · rw [List.pairwise_replicate]
        exact .inr ⟨Nat.le_refl _, Nat.le_refl _, fun other => absurd rfl other⟩
  | mixed | inconsistent => cases made

theorem end_tokens_span (lexer : Lexer) :
    ∀ token ∈ lexer.endTokens, token.span = lexer.cursor.spanTo lexer.cursor lexer.file := by
  unfold endTokens
  extract_lets make
  split
  · exact List.forall_mem_singleton.2 rfl
  · simp only [List.forall_mem_append]
    refine ⟨⟨?_, ?_⟩, List.forall_mem_singleton.2 rfl⟩
    · split
      · exact List.forall_mem_singleton.2 rfl
      · exact List.forall_mem_nil _
    · intro token member
      rw [(List.mem_replicate.1 member).2]
      rfl

theorem end_tokens_spread (lexer : Lexer) :
    Spread lexer.cursor lexer.endTokens lexer.endInput.cursor := by
  have spans := end_tokens_span lexer
  constructor
  · intro token member
    rw [spans token member, (end_input_kept lexer).2.1]
    exact ⟨lexer.cursor, lexer.cursor, [], [], [], .none _, .none _, .none _, rfl, rfl⟩
  · refine List.pairwise_of_forall_mem_list fun first isFirst second isSecond => ?_
    have isStart := congrArg Span.start (spans first isFirst)
    have isStop := congrArg Span.stop (spans first isFirst)
    have isNextStart := congrArg Span.start (spans second isSecond)
    have isNextStop := congrArg Span.stop (spans second isSecond)
    constructor
    · rw [isStart, isNextStart]
    · rw [isStop, isNextStop]
    · intro _
      rw [isStop, isNextStart]
      exact Nat.le_refl _

/-- One call for tokens. -/
theorem Scans.spread (scans : Scans lexer (.ok tokens) after) :
    Spread lexer.cursor tokens after.cursor := by
  generalize made : (Except.ok tokens : Except ScriptError (List Token)) = result at scans
  induction scans with
  | margin atStart ahead begins _ =>
      subst made
      exact begins.spread ahead
  | @finish lexer ready opens atEnd =>
      cases made
      rcases opens.trimmed_passes with ⟨passed, passes⟩
      exact (end_tokens_spread ready.trimmed).behind passes
  | @lineFeed lexer ready opens ahead outside =>
      cases made
      rcases opens.trimmed_passes with ⟨passed, passes⟩
      exact spread_one ⟨_, _, passed, _, [], passes, advance_passes_front ahead, .none _, rfl, rfl⟩
  | continued opens ahead _ _ induction =>
      rcases opens.trimmed_passes with ⟨passed, passes⟩
      exact (induction made).behind (passes.trans (advance_passes_front ahead))
  | @token lexer ready scan opens spelled begun =>
      rcases opens.trimmed_passes with ⟨passed, passes⟩
      rcases spelled.passes with ⟨lexeme, further⟩
      rw [(finish_scan_kept _ _ _).2.1]
      unfold finishScan at made
      split at made
      · cases made
        exact spread_one ⟨_, _, passed, lexeme, [], passes, further, .none _, rfl, rfl⟩
      · cases made

theorem fail_lies {start stop : Cursor} (first : start.position.In lexer.source)
    (last : stop.position.In lexer.source) (cause : Cause) :
    (lexer.fail cause start stop).Lies lexer.source :=
  ⟨start.spanTo stop lexer.file, rfl, first, last⟩

theorem Begins.error_lies {margin : Margin} {error : ScriptError} (placed : lexer.Placed)
    (ahead : margin.Ahead lexer.cursor) (begins : Begins lexer margin (.error error) after) :
    error.Lies lexer.source := by
  rcases ahead.passes with ⟨_, toStop⟩
  rcases ahead.line with ⟨_, line, toLine, _, rfl⟩
  generalize made : (Except.error error : Except ScriptError (List Token)) = result at begins
  cases begins with
  | mixed | inconsistent =>
      cases made
      exact fail_lies (placed.position_in toLine) (placed.position_in toStop) _
  | bare | wider | closes => cases made

/-- An error of a call for tokens lies in the source. -/
theorem Scans.error_lies {error : ScriptError} (scans : Scans lexer (.error error) after)
    (placed : lexer.Placed) : error.Lies lexer.source := by
  generalize made : (Except.error error : Except ScriptError (List Token)) = result at scans
  induction scans with
  | margin _ ahead begins _ =>
      subst made
      exact begins.error_lies placed ahead
  | finish | lineFeed => cases made
  | @continued lexer ready after result opens ahead _ _ induction =>
      rw [← opens.kept.1.source]
      exact induction ((placed.opened opens).fed ahead) made
  | @token lexer ready scan opens spelled begun =>
      rcases opens.trimmed_passes with ⟨_, passes⟩
      rcases spelled.passes with ⟨_, toStop⟩
      rw [← opens.kept.1.source]
      unfold finishScan at made
      split at made
      · cases made
      · rename_i cause place found
        rcases spelled.place cause place found with ⟨_, toPlace⟩
        have source : ready.source = lexer.source := opens.kept.1.source
        cases made
        apply fail_lies
        · rw [source]
          exact placed.position_in (passes.trans toPlace)
        · rw [source]
          exact placed.position_in (passes.trans toStop)

theorem Begins.pending {margin : Margin} {result : Except ScriptError (List Token)}
    (begins : Begins lexer margin result after) : after.pending = lexer.pending := by
  cases begins <;> rfl

theorem Opens.pending {ready : Lexer} (opens : Opens lexer ready) :
    ready.pending = lexer.pending := by
  cases opens with
  | inside => rfl
  | margin _ _ begins => exact begins.pending

/-- A call for tokens leaves waiting tokens alone. -/
theorem Scans.pending {result : Except ScriptError (List Token)}
    (scans : Scans lexer result after) : after.pending = lexer.pending := by
  induction scans with
  | margin _ _ begins _ => exact begins.pending
  | @finish lexer ready opens _ =>
      rw [← opens.pending, endInput]
      split <;> rfl
  | lineFeed opens _ _ => exact opens.pending
  | continued opens _ _ _ induction => exact induction.trans opens.pending
  | token opens _ _ =>
      rw [← opens.pending, finishScan]
      split <;> rfl

/-- A call for tokens moves forward. -/
theorem Scans.passes {result : Except ScriptError (List Token)} (scans : Scans lexer result after) :
    ∃ passed, Passes lexer.cursor passed after.cursor := by
  induction scans with
  | margin _ ahead begins _ =>
      rw [begins.kept.2.1]
      exact ahead.passes
  | finish opens _ =>
      rw [(end_input_kept _).2.1]
      exact opens.trimmed_passes
  | lineFeed opens ahead _ =>
      rcases opens.trimmed_passes with ⟨_, passes⟩
      exact ⟨_, passes.trans (advance_passes_front ahead)⟩
  | continued opens ahead _ _ induction =>
      rcases opens.trimmed_passes with ⟨_, passes⟩
      rcases induction with ⟨_, further⟩
      exact ⟨_, (passes.trans (advance_passes_front ahead)).trans further⟩
  | token opens spelled _ =>
      rcases opens.trimmed_passes with ⟨_, passes⟩
      rcases spelled.passes with ⟨_, further⟩
      rw [(finish_scan_kept _ _ _).2.1]
      exact ⟨_, passes.trans further⟩

/-- The text that a cursor of a lexer has passed. -/
theorem Placed.source_parts (placed : lexer.Placed) :
    ∃ passed, lexer.source = passed ++ lexer.cursor.rest ∧
      lexer.cursor.position.offset = passed.length := by
  rcases placed.passed with ⟨passed, passes, _⟩
  refine ⟨passed, passes.rest, ?_⟩
  rw [passes.offset]
  exact Nat.zero_add _

theorem Scans.token_lies {token : Token} (placed : lexer.Placed)
    (scans : Scans lexer (.ok tokens) after) (member : token ∈ tokens) :
    token.Lies lexer.source := by
  have between := scans.spread.between token member
  rcases between.parts with ⟨first, last, _, _, _, toFirst, toLast, _, isStart, isStop⟩
  refine ⟨?_, ?_, between.offsets.2.1, fun visible => ?_⟩
  · rw [isStart]
    exact placed.position_in toFirst
  · rw [isStop]
    exact placed.position_in (toFirst.trans toLast)
  · cases scans.crosses with
    | bare _ hidden =>
        rw [hidden token member] at visible
        cases visible
    | @spelled only front passed lexeme isOnly _ reaches passes proper _ _ isLexeme starts stops =>
        rw [isOnly, List.mem_singleton] at member
        subst member
        rcases placed.source_parts with ⟨before, source, offset⟩
        constructor
        · rw [isLexeme]
          intro empty
          exact proper (by simpa using congrArg String.toList empty)
        · have startOffset := reaches.offset
          have stopOffset := passes.offset
          have whole : lexer.source = (before ++ passed) ++ (lexeme ++ after.cursor.rest) := by
            rw [source, reaches.rest, passes.rest, List.append_assoc]
          have size : (before ++ passed).length = front.position.offset := by
            rw [List.length_append, startOffset, offset]
          rw [isLexeme, String.toList_ofList, starts, stops, List.extract_eq_take_drop, whole,
            ← size, List.drop_left, stopOffset, ← size, Nat.add_sub_cancel_left, List.take_left]

/-- A lexer that has given tokens from a text, with those that wait behind them. -/
structure Charted (text : List Char) (tokens : List Token) (lexer : Lexer) : Prop where
  placed : lexer.Placed
  source : lexer.source = text
  lies : ∀ token ∈ tokens ++ lexer.pending, token.Lies text
  passed : ∀ token ∈ tokens ++ lexer.pending,
    token.span.stop.offset ≤ lexer.cursor.position.offset
  ordered : (tokens ++ lexer.pending).Pairwise Token.Before

variable {text : List Char}

theorem charted_of_text (source : String) (file : Option String) :
    (ofText source file).Charted (Text.dropReturns source.toList) [] :=
  ⟨.of_text source file, rfl, List.forall_mem_nil _, List.forall_mem_nil _, .nil⟩

/-- What is passed in front of the tokens of a call comes before them. -/
theorem Charted.scanned {made : List Token} (charted : lexer.Charted text tokens)
    (idle : lexer.pending = []) (scans : Scans lexer (.ok made) after) :
    (∀ token ∈ tokens ++ made, token.Lies text) ∧
    (∀ token ∈ tokens ++ made, token.span.stop.offset ≤ after.cursor.position.offset) ∧
    (tokens ++ made).Pairwise Token.Before := by
  rcases charted with ⟨placed, rfl, lies, passed, ordered⟩
  rw [idle, List.append_nil] at lies passed ordered
  have spread := scans.spread
  have between (token : Token) (member : token ∈ made) := (spread.between token member).offsets
  rcases scans.passes with ⟨more, passes⟩
  have offset := passes.offset
  refine ⟨?_, ?_, ?_⟩
  · rw [List.forall_mem_append]
    exact ⟨lies, fun token member => scans.token_lies placed member⟩
  · rw [List.forall_mem_append]
    constructor
    · intro token member
      have before := passed token member
      omega
    · exact fun token member => (between token member).2.2
  · rw [List.pairwise_append]
    refine ⟨ordered, spread.ordered, fun first isFirst second isSecond => ?_⟩
    have early := (lies first isFirst).forward
    have before := passed first isFirst
    have later := between second isSecond
    exact ⟨by omega, by omega, fun _ => by omega⟩

/-- One call for a token. -/
theorem Charted.next (charted : lexer.Charted text tokens) :
    match lexer.next.1 with
    | .ok token => lexer.next.2.Charted text (tokens ++ [token])
    | .error error => error.Lies text ∧ lexer.next.2.Charted text tokens := by
  have gives := next_gives charted.placed.enough
  generalize lexer.next = given at gives
  rcases given with ⟨result, after⟩
  cases gives with
  | @waiting token others pending =>
      rcases charted with ⟨placed, source, lies, passed, ordered⟩
      rw [pending, List.append_cons] at lies passed ordered
      exact ⟨⟨placed.sized, placed.passed⟩, source, lies, passed, ordered⟩
  | @made token others made idle scans =>
      rcases charted.placed.scanned scans with ⟨placed, kept⟩
      rcases charted.scanned idle scans with ⟨lies, passed, ordered⟩
      rw [List.append_cons] at lies passed ordered
      exact ⟨⟨placed.sized, placed.passed⟩, kept.source.trans charted.source, lies, passed, ordered⟩
  | failed idle scans =>
      rcases charted.placed.scanned scans with ⟨placed, kept⟩
      rcases scans.passes with ⟨more, passes⟩
      have offset := passes.offset
      have pending : after.pending = [] := scans.pending.trans idle
      rcases charted with ⟨oldPlaced, rfl, lies, passed, ordered⟩
      rw [idle] at lies passed ordered
      refine ⟨scans.error_lies oldPlaced, placed, kept.source, ?_, ?_, ?_⟩
      · rw [pending]
        exact lies
      · rw [pending]
        intro token member
        have before := passed token member
        dsimp only at offset ⊢
        omega
      · rw [pending]
        exact ordered

/-- The results of calls for tokens one after another, also behind an error. -/
def calls : Nat → Lexer → List (Except ScriptError Token)
  | 0, _ => []
  | count + 1, lexer => lexer.next.1 :: calls count lexer.next.2

/-- All calls. -/
theorem Charted.calls (charted : lexer.Charted text tokens) (count : Nat) :
    (∃ final : Lexer,
      final.Charted text (tokens ++ (calls count lexer).filterMap Except.toOption)) ∧
    ∀ error, .error error ∈ Lexer.calls count lexer → error.Lies text := by
  induction count generalizing lexer tokens with
  | zero =>
      refine ⟨⟨lexer, ?_⟩, fun error member => by cases member⟩
      rw [Lexer.calls, List.filterMap_nil, List.append_nil]
      exact charted
  | succ count induction =>
      have once := charted.next
      rw [Lexer.calls]
      cases given : lexer.next.1 with
      | ok token =>
          rw [given] at once
          rcases induction once with ⟨⟨final, done⟩, errors⟩
          refine ⟨⟨final, ?_⟩, fun error member => ?_⟩
          · rw [List.append_assoc] at done
            exact done
          · rcases List.mem_cons.1 member with same | later
            · cases same
            · exact errors error later
      | error found =>
          rw [given] at once
          rcases induction once.2 with ⟨done, errors⟩
          refine ⟨done, fun error member => ?_⟩
          rcases List.mem_cons.1 member with same | later
          · cases same
            exact once.1
          · exact errors error later

/-- Reading on is calling until the end of input or an error comes. -/
theorem read_within_calls (fuel : Nat) (lexer : Lexer) :
    ∃ count, calls count lexer = (readWithin fuel lexer).tokens.map .ok ++
      (readWithin fuel lexer).failure.toList.map .error := by
  induction fuel generalizing lexer with
  | zero => exact ⟨0, rfl⟩
  | succ fuel induction =>
      cases given : lexer.next with
      | mk result after =>
          cases result with
          | error error =>
              refine ⟨1, ?_⟩
              simp [calls, readWithin, given]
          | ok token =>
              by_cases isEnd : token.kind = .endOfInput
              · refine ⟨1, ?_⟩
                simp [calls, readWithin, given, isEnd]
              · rcases induction after with ⟨count, same⟩
                refine ⟨count + 1, ?_⟩
                simp [calls, readWithin, given, isEnd, same]

/-- What is known of a place that filler has passed: it holds a space or a line feed, or it is in a
comment that the filler has passed whole. -/
def Unspelled (text : List Char) (first last place : Nat) : Prop :=
  (∃ char, text[place]? = some char ∧ (isSpace char = true ∨ char = '\n')) ∨
    ∃ mark stop, first ≤ mark ∧ mark ≤ place ∧ place < stop ∧ stop ≤ last ∧
      Text.Comment text mark stop

theorem Unspelled.widen {text : List Char} {first last first' last' place : Nat}
    (unspelled : Unspelled text first last place) (lower : first' ≤ first) (upper : last ≤ last') :
    Unspelled text first' last' place := by
  rcases unspelled with space | ⟨mark, stop, least, before, behind, most, comment⟩
  · exact .inl space
  · exact .inr ⟨mark, stop, by omega, before, behind, by omega, comment⟩

/-- The comment at the start of a text reaches to the first line feed. -/
theorem comment_at (before rest : List Char) :
    Text.Comment (before ++ '#' :: rest) before.length
      (before.length + 1 + (rest.takeWhile isNotLineFeed).length) := by
  have parts : before ++ '#' :: rest = (before ++ '#' :: rest.takeWhile isNotLineFeed) ++
      rest.dropWhile isNotLineFeed := by
    simp [List.takeWhile_append_dropWhile]
  have size : (before ++ '#' :: rest.takeWhile isNotLineFeed).length =
      before.length + 1 + (rest.takeWhile isNotLineFeed).length := by
    simp
    omega
  refine ⟨by simp, fun place least most => ?_, ?_⟩
  · rw [parts, List.getElem?_append_left (by omega), List.getElem?_append_right least]
    intro isFeed
    have member := List.mem_of_getElem? isFeed
    rcases List.mem_cons.1 member with mark | taken
    · cases mark
    · cases List.mem_takeWhile_imp taken
  · rw [parts, ← size, List.getElem?_append_right (Nat.le_refl _), Nat.sub_self]
    cases behind : rest.dropWhile isNotLineFeed with
    | nil => exact .inl rfl
    | cons char others =>
        have stops := List.head?_dropWhile_not isNotLineFeed rest
        rw [behind] at stops
        right
        simpa [isNotLineFeed] using stops

/-- Every place that filler passes. -/
theorem Filler.passed {start stop : List Char} (fills : Filler start stop) :
    ∃ passed, start = passed ++ stop ∧ ∀ before : List Char, ∀ place, before.length ≤ place →
      place < before.length + passed.length →
      Unspelled (before ++ start) before.length (before.length + passed.length) place := by
  induction fills with
  | none =>
      refine ⟨[], rfl, fun before place least most => ?_⟩
      exact absurd least (Nat.not_le_of_lt most)
  | @space char rest stop blank _ induction =>
      rcases induction with ⟨passed, rfl, unspelled⟩
      refine ⟨char :: passed, rfl, fun before place least most => ?_⟩
      rw [List.length_cons] at most ⊢
      by_cases here : place = before.length
      · exact .inl ⟨char, by simp [here], blank⟩
      · have size : (before ++ [char]).length = before.length + 1 := by simp
        have later := unspelled (before ++ [char]) place (by omega) (by omega)
        rw [List.append_assoc, size] at later
        exact later.widen (by omega) (by omega)
  | @comment rest stop _ induction =>
      rcases induction with ⟨passed, dropped, unspelled⟩
      have parts : '#' :: rest = ('#' :: rest.takeWhile isNotLineFeed) ++ (passed ++ stop) := by
        rw [← dropped, List.cons_append, List.takeWhile_append_dropWhile]
      refine ⟨'#' :: rest.takeWhile isNotLineFeed ++ passed, ?_, fun before place least most => ?_⟩
      · rw [parts, List.append_assoc]
      · have size : (before ++ '#' :: rest.takeWhile isNotLineFeed).length =
            before.length + 1 + (rest.takeWhile isNotLineFeed).length := by
          simp
          omega
        have total : ('#' :: rest.takeWhile isNotLineFeed ++ passed).length =
            1 + (rest.takeWhile isNotLineFeed).length + passed.length := by
          simp
          omega
        rw [total] at most ⊢
        by_cases inComment : place < before.length + 1 + (rest.takeWhile isNotLineFeed).length
        · exact .inr ⟨_, _, Nat.le_refl _, least, inComment, by omega, comment_at before rest⟩
        · have later := unspelled (before ++ '#' :: rest.takeWhile isNotLineFeed) place (by omega)
            (by omega)
          rw [dropped, List.append_assoc, ← parts, size] at later
          exact later.widen (by omega) (by omega)

theorem unspelled_between {start stop : Cursor} {passed before : List Char} {place : Nat}
    (passes : Passes start passed stop) (fills : Filler start.rest stop.rest)
    (size : start.position.offset = before.length) (least : start.position.offset ≤ place)
    (most : place < stop.position.offset) :
    Unspelled (before ++ start.rest) start.position.offset stop.position.offset place := by
  rcases fills.passed with ⟨filler, parts, unspelled⟩
  have same : passed = filler := List.append_cancel_right (passes.rest.symm.trans parts)
  have offset := passes.offset
  rw [same, size] at offset
  rw [size] at least ⊢
  rw [offset] at most ⊢
  exact unspelled before place least most

section Accounting

variable {text : List Char} {bound place : Nat}

/-- Tokens behind the bound take nothing away. -/
theorem accounted_mono {others : List Token} {later : Nat}
    (accounted : Text.Accounted text tokens bound place) (further : bound ≤ later)
    (behind : ∀ token ∈ others, token.kind.isVisible = true → bound ≤ token.span.start.offset) :
    Text.Accounted text (tokens ++ others) later place := by
  rcases accounted with ⟨token, member, covers⟩ | space |
    ⟨first, last, least, most, inside, comment, free⟩
  · exact .inl ⟨token, List.mem_append_left _ member, covers⟩
  · exact .inr (.inl space)
  · refine .inr (.inr ⟨first, last, least, most, by omega, comment, ?_⟩)
    rw [List.forall_mem_append]
    refine ⟨free, fun token member other lower upper covers => ?_⟩
    have start := behind token member covers.1
    have reached := covers.2.1
    omega

/-- Filler behind the tokens is accounted for. -/
theorem accounted_of_unspelled {first : Nat} (unspelled : Unspelled text first bound place)
    (passed : ∀ token ∈ tokens, token.span.stop.offset ≤ first) :
    Text.Accounted text tokens bound place := by
  rcases unspelled with space | ⟨mark, stop, lower, least, most, upper, comment⟩
  · exact .inr (.inl space)
  · refine .inr (.inr ⟨mark, stop, least, most, upper, comment, ?_⟩)
    intro token member other behind _ covers
    have before := passed token member
    have reached := covers.2.2
    omega

theorem Crosses.accounted {start stop : Cursor} {before passed : List Char} {made : List Token}
    (crosses : Crosses start made stop) (passes : Passes start passed stop)
    (size : start.position.offset = before.length)
    (behind : ∀ token ∈ tokens, token.span.stop.offset ≤ start.position.offset)
    (accounted : ∀ place < start.position.offset,
      Text.Accounted (before ++ start.rest) tokens start.position.offset place) :
    ∀ place < stop.position.offset,
      Text.Accounted (before ++ start.rest) (tokens ++ made) stop.position.offset place := by
  intro place most
  have offset := passes.offset
  cases crosses with
  | bare fills hidden =>
      have none : ∀ (bound : Nat), ∀ token ∈ made, token.kind.isVisible = true →
          bound ≤ token.span.start.offset := by
        intro bound token member visible
        rw [hidden token member] at visible
        cases visible
      by_cases old : place < start.position.offset
      · exact accounted_mono (accounted place old) (by omega) (none _)
      · have unspelled := unspelled_between passes fills size (Nat.le_of_not_lt old) most
        exact accounted_mono (accounted_of_unspelled unspelled behind) (Nat.le_refl _) (none _)
  | @spelled token front reached lexeme only fills reaches passes proper _ visible _ starts stops =>
      subst only
      have frontOffset := reaches.offset
      have stopOffset := passes.offset
      have starting : ∀ bound ≤ front.position.offset, ∀ other ∈ [token],
          other.kind.isVisible = true → bound ≤ other.span.start.offset := by
        intro bound upper other member _
        rw [List.mem_singleton.1 member, starts]
        exact upper
      by_cases old : place < start.position.offset
      · exact accounted_mono (accounted place old) (by omega) (starting _ (by omega))
      · by_cases filled : place < front.position.offset
        · have unspelled := unspelled_between reaches fills size (Nat.le_of_not_lt old) filled
          exact accounted_mono (accounted_of_unspelled unspelled behind) (by omega)
            (starting _ (Nat.le_refl _))
        · refine .inl ⟨token, by simp, visible, ?_, ?_⟩
          · rw [starts]
            exact Nat.le_of_not_lt filled
          · rw [stops]
            exact most

end Accounting

/-- The end of input is made where nothing is left. -/
theorem Scans.ended {token : Token} (scans : Scans lexer (.ok tokens) after)
    (member : token ∈ tokens) (isEnd : token.kind = .endOfInput) : after.cursor.rest = [] := by
  generalize made : (Except.ok tokens : Except ScriptError (List Token)) = result at scans
  induction scans with
  | margin _ ahead begins _ =>
      subst made
      cases begins with
      | bare => cases member
      | wider =>
          rw [List.mem_singleton.1 member] at isEnd
          cases isEnd
      | closes =>
          rw [(List.mem_replicate.1 member).2] at isEnd
          cases isEnd
  | finish opens atEnd =>
      rw [(end_input_kept _).2.1]
      exact atEnd
  | lineFeed =>
      cases made
      rw [List.mem_singleton.1 member] at isEnd
      cases isEnd
  | continued _ _ _ _ induction => exact induction made
  | token opens spelled _ =>
      cases tokens with
      | nil => cases member
      | cons first others =>
          rcases finish_scan_tokens spelled made with ⟨rfl, visible⟩
          rw [← List.mem_singleton.1 member, isEnd] at visible
          cases visible

/-- A lexer that has given tokens without an error has accounted for the text it passed. -/
structure Surveyed (text : List Char) (tokens : List Token) (lexer : Lexer) : Prop
    extends Charted text tokens lexer where
  closing : ∀ token ∈ lexer.pending, IsClosing token.kind
  ended : ∀ token ∈ lexer.pending, token.kind = .endOfInput → lexer.cursor.rest = []
  accounted : ∀ place < lexer.cursor.position.offset,
    Text.Accounted text tokens lexer.cursor.position.offset place

theorem surveyed_of_text (source : String) (file : Option String) :
    (ofText source file).Surveyed (Text.dropReturns source.toList) [] := by
  refine ⟨charted_of_text source file, List.forall_mem_nil _, List.forall_mem_nil _, ?_⟩
  intro place negative
  exact absurd negative (Nat.not_lt_zero _)

/-- Hidden tokens account for nothing. -/
theorem accounted_hidden {others : List Token} {bound place : Nat}
    (hidden : ∀ token ∈ others, token.kind.isVisible = false)
    (accounted : Text.Accounted text (tokens ++ others) bound place) :
    Text.Accounted text tokens bound place := by
  rcases accounted with ⟨token, member, covers⟩ | space |
    ⟨first, last, least, most, inside, comment, free⟩
  · rcases List.mem_append.1 member with inTokens | inOthers
    · exact .inl ⟨token, inTokens, covers⟩
    · have visible := covers.1
      rw [hidden token inOthers] at visible
      cases visible
  · exact .inr (.inl space)
  · exact .inr (.inr ⟨first, last, least, most, inside, comment,
      fun token member => free token (List.mem_append_left _ member)⟩)

theorem Surveyed.next {token : Token} (surveyed : lexer.Surveyed text tokens)
    (given : lexer.next = (.ok token, after)) :
    after.Surveyed text (tokens ++ [token]) ∧
      (token.kind = .endOfInput → after.cursor.rest = []) := by
  have charted := surveyed.toCharted.next
  rw [given] at charted
  rcases surveyed with ⟨old, closing, ended, accounted⟩
  have gives := next_gives old.placed.enough
  rw [given] at gives
  cases gives with
  | @waiting _ others pending =>
      rw [pending] at closing ended
      rcases List.forall_mem_cons.1 closing with ⟨closes, othersClose⟩
      rcases List.forall_mem_cons.1 ended with ⟨endsHere, othersEnd⟩
      refine ⟨⟨charted, othersClose, othersEnd, fun place passed => ?_⟩, endsHere⟩
      refine accounted_mono (accounted place passed) (Nat.le_refl _) ?_
      rw [List.forall_mem_singleton, closes.hidden]
      intro visible
      cases visible
  | @made _ others made idle scans =>
      have closes := scans.others_closing
      rcases old.placed.source_parts with ⟨before, source, size⟩
      rcases scans.passes with ⟨more, passes⟩
      rw [old.source] at source
      subst source
      have behind := old.passed
      rw [idle, List.append_nil] at behind
      refine ⟨⟨charted, closes, fun other member => ?_, fun place passed => ?_⟩, ?_⟩
      · exact scans.ended (List.mem_cons_of_mem _ member)
      · have all := scans.crosses.accounted passes size behind accounted place passed
        rw [List.append_cons] at all
        exact accounted_hidden (fun other member => (closes other member).hidden) all
      · exact scans.ended List.mem_cons_self

theorem Delivers.surveyed {more : List Token} (delivers : Delivers lexer more after)
    (surveyed : lexer.Surveyed text tokens) : after.Surveyed text (tokens ++ more) := by
  induction delivers generalizing tokens with
  | none =>
      rw [List.append_nil]
      exact surveyed
  | more gives _ _ induction =>
      rw [List.append_cons]
      exact induction (surveyed.next gives).1

end Lexer

/-- The results of reading are those of calls, up to the end of input or an error. -/
theorem tokenize_calls (source : String) (file : Option String) :
    ∃ count, Lexer.calls count (.ofText source file) =
      (tokenize source file).tokens.map .ok ++
        (tokenize source file).failure.toList.map .error := by
  rw [tokenize_eq]
  exact Lexer.read_within_calls _ _

/-- The tokens of a source come in the order of its text. -/
theorem tokenize_ordered (source : String) (file : Option String) :
    (tokenize source file).tokens.Pairwise Token.Before ∧
      ∀ token ∈ (tokenize source file).tokens, token.Lies (Text.dropReturns source.toList) := by
  rcases tokenize_calls source file with ⟨count, called⟩
  rcases (Lexer.charted_of_text source file).calls count with ⟨⟨final, charted⟩, _⟩
  have tokens : (Lexer.calls count (.ofText source file)).filterMap Except.toOption =
      (tokenize source file).tokens := by
    have errors : (tokenize source file).failure.toList.filterMap
        (fun _ => (none : Option Token)) = [] := List.filterMap_eq_nil_iff.2 fun _ _ => rfl
    rw [called, List.filterMap_append, List.filterMap_map, List.filterMap_map]
    exact (congrArg₂ (· ++ ·) List.filterMap_some errors).trans (List.append_nil _)
  rw [List.nil_append, tokens] at charted
  exact ⟨(List.pairwise_append.1 charted.ordered).1,
    fun token member => charted.lies token (List.mem_append_left _ member)⟩

/-- A source that is read to its end has all its text in tokens, spaces and comments. -/
theorem tokenize_accounted {source : String} {file : Option String}
    (clean : (tokenize source file).failure = none) :
    ∀ place < (Text.dropReturns source.toList).length,
      Text.Accounted (Text.dropReturns source.toList) (tokenize source file).tokens
        (Text.dropReturns source.toList).length place := by
  rcases tokenize_delivers clean with ⟨tokens, after, ending, final, delivers, ends, isEnd, read⟩
  have before := delivers.surveyed (Lexer.surveyed_of_text source file)
  rcases before.next ends with ⟨surveyed, atEnd⟩
  rcases surveyed.placed.source_parts with ⟨passed, parts, offset⟩
  rw [atEnd isEnd, List.append_nil, surveyed.source] at parts
  have accounted := surveyed.accounted
  rw [offset, ← parts] at accounted
  rw [read]
  exact accounted

/-- Reading loses nothing of a text and gives exact places, also in what is given behind an error:
the tokens are in the order of the text, those with characters are spelled by the text between
their ends, and a clean reading leaves only spaces, line feeds and comments out. -/
theorem tokenize_lossless (source : String) (file : Option String) :
    let text := Text.dropReturns source.toList
    (∀ count,
      (∀ token, .ok token ∈ Lexer.calls count (.ofText source file) →
        token.span.start.Exact text ∧ token.span.stop.Exact text ∧
        (token.kind.isVisible = true → token.lexeme ≠ "" ∧
          token.lexeme.toList = text.extract token.span.start.offset token.span.stop.offset)) ∧
      (∀ error, .error error ∈ Lexer.calls count (.ofText source file) →
        ∃ span, error.span = some span ∧ span.start.Exact text ∧ span.stop.Exact text) ∧
      ((Lexer.calls count (.ofText source file)).filterMap Except.toOption).Pairwise
        fun first second => first.span.start.offset ≤ second.span.start.offset ∧
          first.span.stop.offset ≤ second.span.stop.offset) ∧
    (∃ count, Lexer.calls count (.ofText source file) =
      (tokenize source file).tokens.map .ok ++ (tokenize source file).failure.toList.map .error) ∧
    ((tokenize source file).failure = none → ∀ place < text.length,
      Text.Accounted text (tokenize source file).tokens text.length place) := by
  refine ⟨fun count => ?_, tokenize_calls source file, tokenize_accounted⟩
  rcases (Lexer.charted_of_text source file).calls count with ⟨⟨final, charted⟩, errors⟩
  rw [List.nil_append] at charted
  refine ⟨fun token given => ?_, fun error failed => ?_, ?_⟩
  · have member : token ∈ (Lexer.calls count (.ofText source file)).filterMap Except.toOption :=
      List.mem_filterMap.2 ⟨_, given, rfl⟩
    have lies := charted.lies token (List.mem_append_left _ member)
    exact ⟨lies.start.exact, lies.stop.exact, lies.lexeme⟩
  · rcases (errors error failed).place with ⟨span, isSpan, start, stop⟩
    exact ⟨span, isSpan, start.exact, stop.exact⟩
  · exact (List.pairwise_append.1 charted.ordered).1.imp fun before => ⟨before.start, before.stop⟩

/-- Nothing of a block with a comment behind its header is lost. -/
theorem commented_block_lossless :
    (tokenize "if a: # b\r\n\tc\n" none).failure = none ∧
      ∀ place < (Text.dropReturns "if a: # b\r\n\tc\n".toList).length,
        Text.Accounted (Text.dropReturns "if a: # b\r\n\tc\n".toList)
          (tokenize "if a: # b\r\n\tc\n" none).tokens
          (Text.dropReturns "if a: # b\r\n\tc\n".toList).length place := by
  have clean : (tokenize "if a: # b\r\n\tc\n" none).failure = none := by decide +kernel
  exact ⟨clean, (tokenize_lossless "if a: # b\r\n\tc\n" none).2.2 clean⟩

end LayoutScript
