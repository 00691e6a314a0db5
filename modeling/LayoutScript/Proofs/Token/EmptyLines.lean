import LayoutScript.Proofs.Token.Lockstep
import LayoutScript.Proofs.Token.SameLine

/-!
Empty lines. A line of blanks, with or without a comment, can be put in front of any line of a
source: the tokens before it stay where they are, the others move down with their line, and an
error that ends them has the same cause. Two lexers, one of each text, run in lockstep; they
differ by the empty line until both are behind it, and by their positions from there on.
-/

namespace LayoutScript

/-- The same column of the next line, `size` characters further on. -/
def Position.lowered (size : Nat) (position : Position) : Position :=
  ⟨position.line + 1, position.column, position.offset + size⟩

/-- A range when a line of `size` characters is put in at an offset. -/
def Span.lowered (place size : Nat) (span : Span) : Span :=
  if span.start.offset < place then span
  else ⟨span.file, span.start.lowered size, span.stop.lowered size⟩

/-- A token when a line is put in: its class, value and text stay. -/
def Token.lowered (place size : Nat) (token : Token) : Token :=
  { token with span := token.span.lowered place size }

theorem Position.lowered_next (size : Nat) (position : Position) (char : Char) :
    (position.lowered size).next char = (position.next char).lowered size := by
  unfold Position.next
  split
  · simp only [Position.lowered]
    rw [Nat.add_right_comm position.offset]
  · simp only [Position.lowered]
    rw [Nat.add_right_comm position.offset]

theorem Position.lowered_foldl (size : Nat) (position : Position) (passed : List Char) :
    passed.foldl Position.next (position.lowered size) =
      (passed.foldl Position.next position).lowered size := by
  induction passed generalizing position with
  | nil => rfl
  | cons char passed induction =>
      rw [List.foldl_cons, List.foldl_cons, Position.lowered_next, induction]

/-- A line of blanks that may end in a comment. -/
inductive Text.EmptyLine : List Char → Prop where
  | bare {blanks : List Char} (blank : ∀ char ∈ blanks, Lexer.isBlank char = true) :
      EmptyLine (blanks ++ ['\n'])
  | comment {blanks text : List Char} (blank : ∀ char ∈ blanks, Lexer.isBlank char = true)
      (single : '\n' ∉ text) (noReturn : '\r' ∉ text) : EmptyLine (blanks ++ '#' :: text ++ ['\n'])

/-- A text without the two characters that end a line together. -/
def Text.Normal (text : List Char) : Prop := ¬ ['\r', '\n'] <:+: text

namespace Text

theorem blanks_plain {blanks : List Char} (blank : ∀ char ∈ blanks, Lexer.isBlank char = true)
    {char : Char} (solid : Lexer.isBlank char = false) : char ∉ blanks := by
  intro member
  rw [blank char member] at solid
  cases solid

theorem EmptyLine.no_return {line : List Char} (empty : EmptyLine line) : '\r' ∉ line := by
  cases empty with
  | bare blank => simp [blanks_plain blank (show Lexer.isBlank '\r' = false by decide)]
  | comment blank _ noReturn =>
      simp [blanks_plain blank (show Lexer.isBlank '\r' = false by decide), noReturn]

theorem EmptyLine.ends_line {line : List Char} (empty : EmptyLine line) : Lexer.EndsLine line := by
  cases empty <;> exact .inr List.getLast?_concat

theorem Normal.of_no_return {text : List Char} (none : '\r' ∉ text) : Normal text :=
  fun pair => none (pair.subset List.mem_cons_self)

theorem Normal.drop_returns {text : List Char} (normal : Normal text) :
    dropReturns text = text := by
  fun_induction dropReturns text with
  | case1 rest => exact absurd ⟨[], rest, rfl⟩ normal
  | case2 char rest _ induction =>
      rw [induction fun pair => normal (pair.trans (List.suffix_cons char rest).isInfix)]
  | case3 => rfl

/-- Behind whole lines no pair of line ends is made. -/
theorem Normal.append {front back : List Char} (normal : Normal front) (ends : Lexer.EndsLine front)
    (normal' : Normal back) : Normal (front ++ back) := by
  rintro ⟨before, after, pair⟩
  rw [List.append_assoc, List.append_eq_append_iff] at pair
  rcases pair with ⟨inside, rfl, rest⟩ | ⟨inside, rfl, rfl⟩
  · match inside with
    | [] => exact normal' ⟨[], after, rest⟩
    | [char] =>
        cases rest
        rcases ends with none | last
        · simp at none
        · simp at last
    | first :: second :: others =>
        cases rest
        exact normal ⟨before, others, by simp⟩
  · exact normal' ⟨inside, after, by simp⟩

end Text

namespace Cursor

/-- Two cursors when an empty line is put in at an offset: both are before it, in lines of the
same text, or both behind it, the second one lower. -/
inductive Apart (line tail : List Char) (place : Nat) : Cursor → Cursor → Prop where
  | before {front : List Char} (position : Position) (ends : front.getLast? = some '\n')
      (ahead : position.offset + front.length = place) :
      Apart line tail place ⟨front ++ tail, position⟩ ⟨front ++ (line ++ tail), position⟩
  | behind (rest : List Char) (position : Position) (passed : place ≤ position.offset) :
      Apart line tail place ⟨rest, position⟩ ⟨rest, position.lowered line.length⟩

/-- Two cursors at the start of a line, the second one in front of the empty line. -/
inductive Meets (line tail : List Char) (place : Nat) : Cursor → Cursor → Prop where
  | intro (position : Position) (first : position.column = 1) (here : position.offset = place) :
      Meets line tail place ⟨tail, position⟩ ⟨line ++ tail, position⟩

variable {line tail : List Char} {place : Nat} {cursor other stop stop' : Cursor}

theorem Apart.same_line (apart : Apart line tail place cursor other) :
    Text.SameLine cursor.rest other.rest := by
  cases apart with
  | before _ ends => exact .of_common _ _ (List.mem_of_getLast? ends)
  | behind rest => exact .refl rest

/-- The part of a line that is passed leaves the end of the line ahead. -/
theorem line_end_ahead {front passed rest : List Char} (ends : front.getLast? = some '\n')
    (parts : front ++ tail = passed ++ rest) (single : '\n' ∉ passed) :
    ∃ ahead, front = passed ++ ahead ∧ ahead.getLast? = some '\n' ∧ rest = ahead ++ tail := by
  rcases List.append_eq_append_iff.1 parts with ⟨more, rfl, rfl⟩ | ⟨ahead, rfl, rfl⟩
  · exact absurd (List.mem_append_left more (List.mem_of_getLast? ends)) single
  · refine ⟨ahead, rfl, ?_, rfl⟩
    rcases List.eq_nil_or_concat ahead with rfl | ⟨others, last, rfl⟩
    · rw [List.append_nil] at ends
      exact absurd (List.mem_of_getLast? ends) single
    · simpa using ends

/-- Cursors stay apart while they move over a line. -/
theorem Apart.move (apart : Apart line tail place cursor other)
    (abreast : Abreast cursor other stop stop') : Apart line tail place stop stop' := by
  obtain ⟨passed, passes, passes', single⟩ := abreast
  obtain ⟨rest, position⟩ := stop
  obtain ⟨rest', position'⟩ := stop'
  cases apart with
  | behind _ start passedPlace =>
      have sameRest := List.append_cancel_left (passes.rest.symm.trans passes'.rest)
      have lower := passes'.position
      rw [Position.lowered_foldl, ← passes.position] at lower
      dsimp only at sameRest lower
      have offset := Passes.offset_foldl passed start
      rw [← passes.position] at offset
      dsimp only at offset
      rw [← sameRest, lower]
      exact .behind rest position (by omega)
  | before start ends ahead =>
      obtain ⟨front, rfl, stillEnds, isRest⟩ := line_end_ahead ends passes.rest single
      have isRest' := passes'.rest
      dsimp only at isRest isRest'
      rw [List.append_assoc, List.append_cancel_left_eq] at isRest'
      have samePosition : position' = position := passes'.position.trans passes.position.symm
      have offset := Passes.offset_foldl passed start
      rw [← passes.position] at offset
      dsimp only at offset
      rw [List.length_append] at ahead
      rw [isRest, ← isRest', samePosition]
      exact .before position stillEnds (by omega)

/-- Ranges from cursors that are apart. -/
theorem Apart.span (apart : Apart line tail place cursor other)
    (together : Together cursor other stop stop') (file : Option String) :
    other.spanTo stop' file = (cursor.spanTo stop file).lowered place line.length := by
  obtain ⟨passed, passes, passes'⟩ := together
  unfold spanTo Span.lowered
  rw [passes.position, passes'.position]
  cases apart with
  | before position ends ahead =>
      have front := List.length_pos_of_mem (List.mem_of_getLast? ends)
      rw [if_pos (show position.offset < place by omega)]
  | behind _ position passedPlace =>
      rw [if_neg (show ¬ position.offset < place by omega), Position.lowered_foldl]

/-- Behind a line feed the cursors are still apart, or they meet the empty line. -/
theorem Apart.feed (apart : Apart line tail place cursor other) (ahead : cursor.peek? = some '\n') :
    Apart line tail place cursor.advance other.advance ∨
      Meets line tail place cursor.advance other.advance := by
  cases apart with
  | behind rest position passed =>
      cases rest with
      | nil => cases ahead
      | cons char rest =>
          cases ahead
          left
          simp only [advance, Position.lowered_next]
          exact .behind rest _ (Nat.le_succ_of_le passed)
  | @before front position ends reach =>
      cases front with
      | nil => cases ends
      | cons char others =>
          cases ahead
          cases others with
          | nil => exact .inr (.intro (position.next '\n') rfl reach)
          | cons second others =>
              rw [List.getLast?_cons_cons] at ends
              refine .inl (.before (position.next '\n') ends ?_)
              rw [← reach]
              change position.offset + 1 + _ = _
              simp only [List.length_cons]
              omega

end Cursor

namespace Lexer

open Cursor

variable {line tail : List Char} {place : Nat} {cursor other : Cursor}

theorem foldl_next_line {text : List Char} (single : '\n' ∉ text) (position : Position) :
    (text.foldl Position.next position).line = position.line := by
  induction text generalizing position with
  | nil => rfl
  | cons char text induction =>
      rw [List.mem_cons, not_or] at single
      rw [List.foldl_cons, induction single.2, Position.next, if_neg (Ne.symm single.1)]

/-- From the start of a line to the start of the next one. -/
theorem line_end_position {text : List Char} (single : '\n' ∉ text) {position : Position}
    (first : position.column = 1) :
    (text ++ ['\n']).foldl Position.next position = position.lowered (text ++ ['\n']).length := by
  have sameLine := foldl_next_line single position
  have offset := Passes.offset_foldl text position
  rw [List.foldl_append, List.foldl_cons, List.foldl_nil, Position.next, if_pos rfl, sameLine,
    offset, Position.lowered, first, List.length_append, List.length_singleton, Nat.add_assoc]

theorem skip_while_front {accepts : Char → Bool} {front rest : List Char} {position : Position}
    (accepted : ∀ char ∈ front, accepts char = true)
    (refused : ∀ char ∈ rest.head?, accepts char = false) :
    (⟨front ++ rest, position⟩ : Cursor).skipWhile accepts =
      ⟨rest, front.foldl Position.next position⟩ := by
  change skipFrom accepts (front ++ rest) position = _
  induction front generalizing position with
  | nil =>
      cases rest with
      | nil => rfl
      | cons char rest =>
          rw [List.nil_append, skipFrom, refused char rfl]
          rfl
  | cons char front induction =>
      rw [List.forall_mem_cons] at accepted
      rw [List.cons_append, skipFrom, if_pos accepted.1, induction accepted.2]
      rfl

/-- An empty line is read up to its line feed, behind which the next line starts. -/
theorem empty_line_read (empty : Text.EmptyLine line) (tail : List Char) {position : Position}
    (first : position.column = 1) :
    ∃ stop, (Margin.read ⟨line ++ tail, position⟩).stop = ⟨'\n' :: tail, stop⟩ ∧
      stop.next '\n' = position.lowered line.length := by
  unfold Margin.read
  cases empty with
  | @bare blanks blank =>
      refine ⟨blanks.foldl Position.next position, ?_, ?_⟩
      · rw [List.append_assoc, skip_while_front blank (by simp [isBlank])]
        rfl
      · rw [← line_end_position (Text.blanks_plain blank (by decide)) first, List.foldl_append]
        rfl
  | @comment blanks text blank single noReturn =>
      refine ⟨(blanks ++ '#' :: text).foldl Position.next position, ?_, ?_⟩
      · have solid : ∀ char ∈ '#' :: text, isNotLineFeed char = true := by
          intro char member
          refine bne_iff_ne.2 fun feed => ?_
          rw [feed] at member
          simp [single] at member
        rw [List.append_assoc, List.append_assoc, skip_while_front blank (by simp [isBlank])]
        change skipComment ⟨'#' :: text ++ ('\n' :: tail), blanks.foldl Position.next position⟩ = _
        rw [skipComment, if_pos (by rfl), skip_while_front solid (by simp [isNotLineFeed]),
          List.foldl_append]
      · have plain : '\n' ∉ blanks ++ '#' :: text := by
          simp [Text.blanks_plain blank (show isBlank '\n' = false by decide), single]
        rw [← line_end_position plain first]
        simp only [List.foldl_append, List.foldl_cons, List.foldl_nil]

/-- The margins of one line, when an empty line is put in. -/
structure Margin.Apart (line tail : List Char) (place : Nat) (margin margin' : Margin) : Prop where
  blanks : margin'.blanks = margin.blanks
  start : Cursor.Apart line tail place margin.start margin'.start
  way : Abreast margin.start margin'.start margin.stop margin'.stop

/-- The empty line is skipped. -/
theorem skip_empty_meets {fuel : Nat} (empty : Text.EmptyLine line)
    (meets : Meets line tail place cursor other) (enough : other.rest.length ≤ fuel) :
    ∃ less next, Margin.skipEmpty fuel other = Margin.skipEmpty less next ∧
      next.rest.length ≤ less ∧ Cursor.Apart line tail place cursor next := by
  obtain ⟨position, first, here⟩ := meets
  obtain ⟨stop, isStop, behind⟩ := empty_line_read empty tail first
  have feed : (Margin.read ⟨line ++ tail, position⟩).stop.peek? = some '\n' := by
    rw [isStop]
    rfl
  have next : (Margin.read ⟨line ++ tail, position⟩).stop.advance =
      ⟨tail, position.lowered line.length⟩ := by
    rw [isStop, ← behind]
    rfl
  obtain ⟨less, skips, room⟩ := skip_empty_feed enough feed
  rw [next] at skips room
  exact ⟨less, _, skips, room, .behind tail position (Nat.le_of_eq here.symm)⟩

/-- Empty lines are skipped alike, and the one that was put in with them. -/
theorem skip_empty_apart {fuel fuel' : Nat} (empty : Text.EmptyLine line)
    (near : Cursor.Apart line tail place cursor other ∨ Meets line tail place cursor other)
    (enough : cursor.rest.length ≤ fuel) (enough' : other.rest.length ≤ fuel') :
    Margin.Apart line tail place (Margin.skipEmpty fuel cursor) (Margin.skipEmpty fuel' other) := by
  induction size : cursor.rest.length using Nat.strong_induction_on
    generalizing fuel fuel' cursor other with
  | _ size induction =>
      have apartCase {fuel' : Nat} {other : Cursor}
          (apart : Cursor.Apart line tail place cursor other)
          (enough' : other.rest.length ≤ fuel') : Margin.Apart line tail place
            (Margin.skipEmpty fuel cursor) (Margin.skipEmpty fuel' other) := by
        obtain ⟨sameBlanks, way⟩ := margin_abreast apart.same_line
        have stops := apart.move way
        have samePeek := peek_same_line stops.same_line
        by_cases feed : (Margin.read cursor).stop.peek? = some '\n'
        · obtain ⟨less, skips, room⟩ := skip_empty_feed enough feed
          obtain ⟨less', skips', room'⟩ := skip_empty_feed enough' (samePeek.trans feed)
          have shorter := empty_line_shorter feed
          rw [skips, skips']
          exact induction _ (by omega) (stops.feed feed) room room' rfl
        · rw [skip_empty_solid feed, skip_empty_solid (by rwa [samePeek])]
          exact ⟨sameBlanks, apart, way⟩
      rcases near with apart | meets
      · exact apartCase apart enough'
      · obtain ⟨less, next, skips, room, apart⟩ := skip_empty_meets empty meets enough'
        rw [skips]
        exact apartCase apart room

theorem begin_line_shorter {lexer : Lexer} (sized : lexer.cursor.rest.length ≤ lexer.size) :
    lexer.beginLine.2.cursor.rest.length ≤ lexer.cursor.rest.length := by
  obtain ⟨_, passes⟩ := (skip_empty_ahead sized).passes
  have length := passes.length
  rw [begin_line_cursor]
  omega

theorem next_failed {lexer after : Lexer} {error : ScriptError} (idle : lexer.pending = [])
    (run : scanTokens (lexer.size + 1) lexer = (.error error, after)) :
    lexer.next = (.error error, after) := by
  rw [next, idle]
  dsimp only
  rw [run]

/-- What is delivered before an error is read if there is room for it. -/
theorem Delivers.read_within_failed {lexer after final : Lexer} {tokens : List Token}
    {error : ScriptError} (delivers : Delivers lexer tokens after)
    (fails : after.next = (.error error, final)) {fuel : Nat} (enough : tokens.length < fuel) :
    readWithin fuel lexer = ⟨tokens, some error, final⟩ := by
  induction delivers generalizing fuel with
  | none =>
      cases fuel with
      | zero => exact absurd enough (Nat.not_lt_zero _)
      | succ fuel => simp only [readWithin, fails]
  | more gives proper _ induction =>
      cases fuel with
      | zero => exact absurd enough (Nat.not_lt_zero _)
      | succ fuel =>
          simp only [readWithin, gives, if_neg proper,
            induction fails (Nat.lt_of_succ_lt_succ enough)]

/-- An answer when an empty line is put in: the same tokens with their ranges lowered, or an error
of the same cause. -/
inductive Answers (place size : Nat) :
    Except ScriptError (List Token) → Except ScriptError (List Token) → Prop where
  | made (tokens : List Token) :
      Answers place size (.ok tokens) (.ok (tokens.map (Token.lowered place size)))
  | failed {error error' : ScriptError} (cause : error'.cause = error.cause)
      (span : error'.span = error.span.map (Span.lowered place size)) :
      Answers place size (.error error) (.error error')

/-- A lexer of a text into which an empty line is put is where the lexer of the text is. -/
structure Spaced (line tail : List Char) (place : Nat) (lexer other : Lexer) : Prop where
  cursor : Cursor.Apart line tail place lexer.cursor other.cursor ∨
    lexer.atLineStart = true ∧ Meets line tail place lexer.cursor other.cursor
  sized : lexer.cursor.rest.length ≤ lexer.size
  sized' : other.cursor.rest.length ≤ other.size
  file : other.file = lexer.file
  indents : other.indents = lexer.indents
  indentChar : other.indentChar = lexer.indentChar
  atLineStart : other.atLineStart = lexer.atLineStart
  pending : other.pending = lexer.pending.map (Token.lowered place line.length)
  depth : other.depth = lexer.depth
  last : other.last = lexer.last

/-- Two outcomes of a step, one of each lexer. -/
def Pairs (line tail : List Char) (place : Nat)
    (outcome outcome' : Except ScriptError (List Token) × Lexer) : Prop :=
  Answers place line.length outcome.1 outcome'.1 ∧ Spaced line tail place outcome.2 outcome'.2

namespace Spaced

variable {lexer spaced : Lexer} {stop stop' : Cursor}

/-- Within a line the cursors are apart. -/
theorem apart (pair : Spaced line tail place lexer spaced) (within : lexer.atLineStart = false) :
    Cursor.Apart line tail place lexer.cursor spaced.cursor := by
  refine pair.cursor.resolve_right fun ⟨atStart, _⟩ => ?_
  rw [within] at atStart
  cases atStart

/-- Both lexers move to cursors that are apart. -/
theorem move (pair : Spaced line tail place lexer spaced)
    (way : ∃ passed, Passes lexer.cursor passed stop)
    (way' : ∃ passed, Passes spaced.cursor passed stop')
    (apart : Cursor.Apart line tail place stop stop') :
    Spaced line tail place { lexer with cursor := stop } { spaced with cursor := stop' } := by
  obtain ⟨_, passes⟩ := way
  obtain ⟨_, passes'⟩ := way'
  have length := passes.length
  have length' := passes'.length
  have sized := pair.sized
  have sized' := pair.sized'
  exact { pair with
    cursor := .inl apart
    sized := by dsimp only; omega
    sized' := by dsimp only; omega }

theorem trimmed (pair : Spaced line tail place lexer spaced) (within : lexer.atLineStart = false) :
    Spaced line tail place lexer.trimmed spaced.trimmed := by
  have apart := pair.apart within
  exact pair.move (trim_passes _) (trim_passes _) (apart.move (trim_abreast apart.same_line))

/-- An error between cursors that are apart. -/
theorem fail {lexer spaced : Lexer} {cause : Cause} {start start' stop stop' : Cursor}
    (sameFile : spaced.file = lexer.file) (apart : Cursor.Apart line tail place start start')
    (together : Together start start' stop stop') :
    Answers place line.length (.error (lexer.fail cause start stop))
      (.error (spaced.fail cause start' stop')) := by
  refine .failed rfl ?_
  rw [Lexer.fail, Lexer.fail]
  change some (start'.spanTo stop' spaced.file) = some ((start.spanTo stop lexer.file).lowered _ _)
  rw [sameFile, apart.span together]

theorem layout_token {lexer spaced : Lexer} {start start' stop stop' : Cursor}
    (sameFile : spaced.file = lexer.file) (apart : Cursor.Apart line tail place start start')
    (together : Together start start' stop stop') (kind : TokenClass) :
    spaced.layoutToken kind start' stop' =
      (lexer.layoutToken kind start stop).lowered place line.length := by
  unfold layoutToken
  rw [sameFile, apart.span together]
  rfl

theorem indent_tokens {margin margin' : Margin} (pair : Spaced line tail place lexer spaced)
    (margins : Margin.Apart line tail place margin margin') :
    Pairs line tail place (lexer.indentTokens margin) (spaced.indentTokens margin') := by
  have token := layout_token pair.file margins.start margins.way.together
  unfold indentTokens
  rw [margins.blanks, pair.indents]
  dsimp only
  split
  · rw [token]
    exact ⟨.made [_], { pair with indents := rfl }⟩
  · split
    · rw [token, ← List.map_replicate (f := Token.lowered place line.length)]
      exact ⟨.made _, { pair with indents := rfl }⟩
    · exact ⟨fail pair.file margins.start margins.way.together, { pair with indents := rfl }⟩

theorem begin_line (empty : Text.EmptyLine line) (pair : Spaced line tail place lexer spaced) :
    Pairs line tail place lexer.beginLine spaced.beginLine := by
  have near := pair.cursor.imp_right And.right
  have margins := skip_empty_apart empty near pair.sized pair.sized'
  have passes := (skip_empty_ahead pair.sized).passes
  have passes' := (skip_empty_ahead pair.sized').passes
  unfold beginLine
  dsimp only
  generalize Margin.skipEmpty lexer.size lexer.cursor = margin at *
  generalize Margin.skipEmpty spaced.size spaced.cursor = margin' at *
  have stops := margins.start.move margins.way
  have moved : Spaced line tail place (lexer.behind margin) (spaced.behind margin') :=
    { pair.move passes passes' stops with cursor := .inl stops, atLineStart := rfl }
  have sameBare : (margin'.stop.rest.isEmpty || decide (spaced.depth > 0)) =
      (margin.stop.rest.isEmpty || decide (lexer.depth > 0)) := by
    rw [stops.same_line.is_empty, pair.depth]
  rw [sameBare, margins.blanks]
  split
  · exact ⟨.made [], moved⟩
  · split
    · exact moved.indent_tokens margins
    · rw [pair.indentChar]
      split
      · exact indent_tokens { moved with indentChar := rfl } margins
      · exact ⟨fail pair.file margins.start margins.way.together, { moved with indentChar := rfl }⟩

theorem end_tokens (pair : Spaced line tail place lexer spaced)
    (apart : Cursor.Apart line tail place lexer.cursor spaced.cursor) :
    Pairs line tail place (.ok lexer.endTokens, lexer.endInput)
      (.ok spaced.endTokens, spaced.endInput) := by
  have token := layout_token pair.file apart (.refl lexer.cursor spaced.cursor)
  have sameOpen : spaced.lineIsOpen = lexer.lineIsOpen := by
    rw [lineIsOpen, lineIsOpen, pair.depth, pair.last]
  have sameTokens : spaced.endTokens = lexer.endTokens.map (Token.lowered place line.length) := by
    unfold endTokens
    simp only [token, pair.last, sameOpen, pair.indents]
    split
    · rfl
    · split <;> simp
  refine ⟨?_, ?_⟩
  · rw [sameTokens]
    exact .made _
  · unfold endInput
    by_cases spent : lexer.last = some .endOfInput
    · rw [if_pos spent, if_pos (pair.last.trans spent)]
      exact pair
    · rw [if_neg spent, if_neg (by rwa [pair.last])]
      exact { pair with indents := rfl }

theorem finish_scan {afterDot : Bool} {first : Char} (pair : Spaced line tail place lexer spaced)
    (apart : Cursor.Apart line tail place lexer.cursor spaced.cursor)
    (ahead : lexer.cursor.peek? = some first) (plain : first ≠ '\n') :
    Pairs line tail place (lexer.finishScan lexer.cursor (Scan.token afterDot lexer.cursor first))
      (spaced.finishScan spaced.cursor (Scan.token afterDot spaced.cursor first)) := by
  have alike := Scan.token_alike afterDot ahead plain apart.same_line
  generalize Scan.token afterDot lexer.cursor first = scan at alike
  generalize Scan.token afterDot spaced.cursor first = scan' at alike
  cases alike with
  | @found token stop stop' way =>
      obtain ⟨passed, passes, passes', _⟩ := id way
      have moved := pair.move ⟨_, passes⟩ ⟨_, passes'⟩ (apart.move way)
      refine ⟨?_, { moved with depth := congrArg (depthAfter · token.1) pair.depth }⟩
      unfold finishScan
      dsimp only
      rw [way.text_to, pair.file, apart.span way.together]
      exact .made [_]
  | failed toPlace onward =>
      obtain ⟨passed, passes, passes', _⟩ := toPlace.trans onward
      have placed := apart.move toPlace
      exact ⟨fail pair.file placed onward.together,
        pair.move ⟨_, passes⟩ ⟨_, passes'⟩ (placed.move onward)⟩

/-- Both lexers go on to the next line, in front of the empty one or not. -/
theorem fed (pair : Spaced line tail place lexer spaced)
    (apart : Cursor.Apart line tail place lexer.cursor spaced.cursor)
    (ahead : lexer.cursor.peek? = some '\n') :
    Spaced line tail place { lexer with cursor := lexer.cursor.advance, atLineStart := true }
      { spaced with cursor := spaced.cursor.advance, atLineStart := true } := by
  have ahead' := (peek_same_line apart.same_line).trans ahead
  have length := (advance_passes_front ahead).length
  have length' := (advance_passes_front ahead').length
  have sized := pair.sized
  have sized' := pair.sized'
  exact { pair with
    cursor := (apart.feed ahead).imp_right fun meets => ⟨rfl, meets⟩
    sized := by dsimp only; omega
    sized' := by dsimp only; omega
    atLineStart := rfl }

/-- A round behind the margin. -/
theorem scan_content {fuel fuel' : Nat}
    (continues : ∀ {next next' : Lexer}, Spaced line tail place next next' →
      next.cursor.rest.length < fuel → next'.cursor.rest.length < fuel' →
      Pairs line tail place (scanTokens fuel next) (scanTokens fuel' next'))
    (pair : Spaced line tail place lexer spaced) (within : lexer.atLineStart = false)
    (enough : lexer.cursor.rest.length ≤ fuel) (enough' : spaced.cursor.rest.length ≤ fuel') :
    Pairs line tail place (scanContent fuel lexer) (scanContent fuel' spaced) := by
  have trimmed := pair.trimmed within
  have apart := trimmed.apart within
  have samePeek := peek_same_line apart.same_line
  unfold scanContent
  cases front : lexer.trimmed.cursor.rest with
  | nil =>
      rw [Cursor.peek?, Cursor.peek?, front, List.head?_nil, List.head?_eq_none_iff] at samePeek
      rw [samePeek]
      exact trimmed.end_tokens apart
  | cons char rest =>
      have ahead : lexer.trimmed.cursor.peek? = some char := by
        rw [Cursor.peek?, front, List.head?_cons]
      have ahead' := samePeek.trans ahead
      obtain ⟨rest', front'⟩ := List.head?_eq_some_iff.1 ahead'
      rw [front']
      dsimp only
      by_cases feed : char = '\n'
      · cases feed
        have shorter := fed_shorter ahead
        have shorter' := fed_shorter ahead'
        have fed := trimmed.fed apart ahead
        rw [if_pos rfl, if_pos rfl, pair.depth]
        split
        · have together : Together lexer.trimmed.cursor spaced.trimmed.cursor lexer.fed.cursor
              spaced.fed.cursor :=
            ⟨['\n'], advance_passes_front ahead, advance_passes_front ahead'⟩
          rw [pair.file, apart.span together]
          exact ⟨.made [_], fed⟩
        · exact continues fed (by omega) (by omega)
      · rw [if_neg feed, if_neg feed, pair.last]
        exact trimmed.finish_scan apart ahead feed

/-- A call for tokens. -/
theorem scan_tokens {fuel fuel' : Nat} (empty : Text.EmptyLine line)
    (pair : Spaced line tail place lexer spaced) (enough : lexer.cursor.rest.length < fuel)
    (enough' : spaced.cursor.rest.length < fuel') :
    Pairs line tail place (scanTokens fuel lexer) (scanTokens fuel' spaced) := by
  induction fuel generalizing lexer spaced fuel' with
  | zero => exact absurd enough (Nat.not_lt_zero _)
  | succ fuel induction =>
      obtain ⟨fuel', rfl⟩ := Nat.exists_eq_succ_of_ne_zero (Nat.ne_zero_of_lt enough')
      cases atStart : lexer.atLineStart with
      | false =>
          rw [scan_tokens_within_line atStart,
            scan_tokens_within_line (pair.atLineStart.trans atStart)]
          exact scan_content induction pair atStart (Nat.le_of_lt_succ enough)
            (Nat.le_of_lt_succ enough')
      | true =>
          rw [scan_tokens_at_line_start atStart,
            scan_tokens_at_line_start (pair.atLineStart.trans atStart)]
          have begun := pair.begin_line empty
          have shorter := begin_line_shorter pair.sized
          have shorter' := begin_line_shorter pair.sized'
          have within := (begin_line_margin lexer).kept.2.2.1
          generalize lexer.beginLine = outcome at *
          generalize spaced.beginLine = outcome' at *
          obtain ⟨result, ready⟩ := outcome
          obtain ⟨result', ready'⟩ := outcome'
          obtain ⟨answers, moved⟩ := begun
          cases answers with
          | failed cause span => exact ⟨.failed cause span, moved⟩
          | made tokens =>
              cases tokens with
              | nil =>
                  exact scan_content induction moved within
                    (Nat.le_trans shorter (Nat.le_of_lt_succ enough))
                    (Nat.le_trans shorter' (Nat.le_of_lt_succ enough'))
              | cons token tokens => exact ⟨.made (token :: tokens), moved⟩

/-- The next token. -/
theorem next (empty : Text.EmptyLine line) (pair : Spaced line tail place lexer spaced) :
    (∃ token after after', lexer.next = (.ok token, after) ∧
      spaced.next = (.ok (token.lowered place line.length), after') ∧
      Spaced line tail place after after') ∨
    ∃ error error' after after', lexer.next = (.error error, after) ∧
      spaced.next = (.error error', after') ∧
      Answers place line.length (.error error) (.error error') := by
  have waiting := pair.pending
  cases pending : lexer.pending with
  | cons token tokens =>
      rw [pending, List.map_cons] at waiting
      exact .inl ⟨token, _, _, next_waiting pending, next_waiting waiting,
        { pair with pending := rfl, last := rfl }⟩
  | nil =>
      rw [pending, List.map_nil] at waiting
      have scans := scan_tokens_scans (Nat.lt_succ_of_le pair.sized) pair.sized
      have scanned := pair.scan_tokens empty (Nat.lt_succ_of_le pair.sized)
        (Nat.lt_succ_of_le pair.sized')
      cases run : scanTokens (lexer.size + 1) lexer with
      | mk result made =>
          cases run' : scanTokens (spaced.size + 1) spaced with
          | mk result' made' =>
              rw [run] at scans
              rw [run, run'] at scanned
              obtain ⟨answers, moved⟩ := scanned
              dsimp only at answers
              cases answers with
              | failed cause span =>
                  exact .inr ⟨_, _, _, _, next_failed pending run, next_failed waiting run',
                    .failed cause span⟩
              | made tokens =>
                  cases tokens with
                  | nil => exact absurd rfl scans.made
                  | cons token tokens =>
                      exact .inl ⟨token, _, _, next_made pending run, next_made waiting run',
                        { moved with pending := rfl, last := rfl }⟩

/-- The tokens before an error or the end of input. -/
theorem delivers (empty : Text.EmptyLine line) {after : Lexer} {tokens : List Token}
    (delivers : Delivers lexer tokens after) (pair : Spaced line tail place lexer spaced) :
    ∃ after', Delivers spaced (tokens.map (Token.lowered place line.length)) after' ∧
      Spaced line tail place after after' := by
  induction delivers generalizing spaced with
  | none => exact ⟨spaced, .none, pair⟩
  | @more lexer middle after token tokens gives proper others induction =>
      rcases pair.next empty with ⟨found, _, middle', gives', spacedGives, moved⟩ |
        ⟨_, _, _, _, fails, _⟩
      · rw [gives] at gives'
        cases gives'
        obtain ⟨after', further, final⟩ := induction moved
        exact ⟨after', .more spacedGives proper further, final⟩
      · rw [gives] at fails
        cases fails

end Spaced

/-- A lexer of a text and one of the text with an empty line put in. -/
theorem Spaced.of_text {source spaced : String} (file : Option String)
    (normal : Text.Normal source.toList) (normal' : Text.Normal spaced.toList) {front : List Char}
    (ends : EndsLine front) (parts : source.toList = front ++ tail)
    (parts' : spaced.toList = front ++ (line ++ tail)) :
    Spaced line tail front.length (ofText source file) (ofText spaced file) where
  cursor := by
    unfold ofText
    dsimp only
    rw [normal.drop_returns, normal'.drop_returns, parts, parts']
    rcases ends with rfl | last
    · exact .inr ⟨rfl, .intro .start rfl rfl⟩
    · exact .inl (.before .start last (Nat.zero_add _))
  sized := Nat.le_refl _
  sized' := Nat.le_refl _
  file := rfl
  indents := rfl
  indentChar := rfl
  atLineStart := rfl
  pending := rfl
  depth := rfl
  last := rfl

end Lexer

/-- The tokens of a source before its error, from what its lexer delivers. -/
theorem tokenize_of_fails {source : String} {file : Option String} {tokens : List Token}
    {after final : Lexer} {error : ScriptError}
    (delivers : Lexer.Delivers (.ofText source file) tokens after)
    (fails : after.next = (.error error, final)) :
    tokenize source file = ⟨tokens, some error, final⟩ := by
  rw [tokenize_eq]
  exact delivers.read_within_failed fails (Lexer.room_for_delivered delivers)

/-- A source with a line put in at an offset. -/
def Text.insertLine (source : String) (place : Nat) (line : List Char) : String :=
  String.ofList (source.toList.take place ++ line ++ source.toList.drop place)

theorem Text.ends_line_take {text : List Char} {place : Nat}
    (boundary : place = 0 ∨ text[place - 1]? = some '\n') :
    Lexer.EndsLine (text.take place) ∧ (text.take place).length = place := by
  cases place with
  | zero => exact ⟨.inl rfl, rfl⟩
  | succ place =>
      have feed := boundary.resolve_left (Nat.succ_ne_zero place)
      rw [Nat.add_sub_cancel] at feed
      obtain ⟨inside, _⟩ := List.getElem?_eq_some_iff.1 feed
      refine ⟨.inr ?_, List.length_take_of_le inside⟩
      rw [List.take_add_one, feed]
      exact List.getLast?_concat

/-- Empty lines are not seen: in front of any line of a source, they leave the tokens and the cause
of an error as they are, and only lower what starts behind them. -/
theorem tokenize_insert_line (source : String) (file : Option String) (place : Nat)
    (line : List Char) (normal : Text.Normal source.toList)
    (boundary : place = 0 ∨ source.toList[place - 1]? = some '\n') (empty : Text.EmptyLine line) :
    (tokenize (Text.insertLine source place line) file).tokens =
        (tokenize source file).tokens.map (Token.lowered place line.length) ∧
      (tokenize (Text.insertLine source place line) file).failure.map
          (fun error => (error.cause, error.span)) =
        (tokenize source file).failure.map
          fun error => (error.cause, error.span.map (Span.lowered place line.length)) := by
  obtain ⟨ends, length⟩ := Text.ends_line_take boundary
  have parts := (List.take_append_drop place source.toList).symm
  have parts' : (Text.insertLine source place line).toList =
      source.toList.take place ++ (line ++ source.toList.drop place) := by
    rw [Text.insertLine, String.toList_ofList, List.append_assoc]
  have piece {text : List Char} (inside : text <:+: source.toList) : Text.Normal text :=
    fun pair => normal (pair.trans inside)
  have normal' : Text.Normal (Text.insertLine source place line).toList := by
    rw [parts']
    exact (piece (List.take_prefix _ _).isInfix).append ends
      ((Text.Normal.of_no_return empty.no_return).append empty.ends_line
        (piece (List.drop_suffix _ _).isInfix))
  have pair := Lexer.Spaced.of_text file normal normal' ends parts parts'
  rw [length] at pair
  cases failure : (tokenize source file).failure with
  | none =>
      obtain ⟨tokens, after, ending, final, delivers, endsHere, isEnd, whole⟩ :=
        tokenize_delivers failure
      obtain ⟨after', delivers', moved⟩ := pair.delivers empty delivers
      rcases moved.next empty with ⟨token, _, final', gives, gives', _⟩ | ⟨_, _, _, _, fails, _⟩
      · rw [endsHere] at gives
        cases gives
        rw [whole, tokenize_of_delivers delivers' gives' isEnd, List.map_append]
        exact ⟨rfl, rfl⟩
      · rw [endsHere] at fails
        cases fails
  | some error =>
      obtain ⟨after, final, delivers, fails⟩ := tokenize_fails failure
      obtain ⟨after', delivers', moved⟩ := pair.delivers empty delivers
      rcases moved.next empty with ⟨_, _, _, gives, _⟩ |
        ⟨_, error', _, final', fails', spacedFails, same⟩
      · rw [fails] at gives
        cases gives
      · rw [fails] at fails'
        cases fails'
        rw [tokenize_of_fails delivers' spacedFails]
        cases same with
        | failed cause span =>
            refine ⟨rfl, ?_⟩
            rw [Option.map_some, Option.map_some, cause, span]

/-- A comment behind a tab, between parentheses in a block: the tokens are the same up
to a line whose width fits no open block, and the error about it is a line lower. -/
theorem comment_between_parentheses :
    let source := "a\n  (1,\n2)\n $"
    let line := ['\t', ' ', '#', '?', '\n']
    Text.Normal source.toList ∧ source.toList[8 - 1]? = some '\n' ∧ Text.EmptyLine line ∧
    (tokenize source none).tokens.map Token.kind = [.identifier, .newline, .indent, .openParen,
      .intLiteral, .comma, .intLiteral, .closeParen, .newline] ∧
    (tokenize (Text.insertLine source 8 line) none).tokens =
      (tokenize source none).tokens.map (Token.lowered 8 5) ∧
    (tokenize (Text.insertLine source 8 line) none).failure.map
        (fun error => (error.cause, error.span)) =
      some (.inconsistentIndentation, some ⟨none, ⟨5, 1, 16⟩, ⟨5, 2, 17⟩⟩) := by
  intro source line
  have normal : Text.Normal source.toList := by
    unfold Text.Normal
    decide +kernel
  have boundary : source.toList[8 - 1]? = some '\n' := by decide +kernel
  have blank : ∀ char ∈ ['\t', ' '], Lexer.isBlank char = true := by simp [Lexer.isBlank]
  have empty : Text.EmptyLine (['\t', ' '] ++ '#' :: ['?'] ++ ['\n']) :=
    .comment blank (by decide) (by decide)
  have same := tokenize_insert_line source none 8 line normal (.inr boundary) empty
  have failure : (tokenize source none).failure.map
      (fun error => (error.cause, error.span.map (Span.lowered 8 line.length))) =
      some (.inconsistentIndentation, some ⟨none, ⟨5, 1, 16⟩, ⟨5, 2, 17⟩⟩) := by decide +kernel
  exact ⟨normal, boundary, empty, by decide +kernel, same.1, same.2.trans failure⟩

end LayoutScript
