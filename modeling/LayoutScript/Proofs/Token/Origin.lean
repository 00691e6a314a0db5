import LayoutScript.Proofs.Number.Rounding
import LayoutScript.Proofs.Token.Delivery

/-!
Where tokens come from. Every token and every error of a lexer starts at a position of its
source, and every float that a token carries is rounded and in range. Steps of the lexer are looked at
once; what holds of the tokens of one call holds of all tokens of a source.
-/

namespace LayoutScript

/-- The position behind some characters from the start of a text. -/
def Position.behind (front : List Char) : Position := front.foldl Position.next .start

/-- A position that some place of a text has. -/
def Position.In (text : List Char) (position : Position) : Prop :=
  ∃ front back, text = front ++ back ∧ position = .behind front

/-- A token starts in a text, and a float that it carries is rounded and in range. -/
structure Token.Origin (text : List Char) (file : Option String) (token : Token) : Prop where
  file : token.span.file = file
  start : token.span.start.In text
  numeral : ∀ number, token.payload = .float number → number.InRange
  rounded : ∀ number, token.payload = .float number → number.Representable

/-- An error starts in a text and quotes the line that its lines have there. -/
structure ScriptError.Origin (text : List Char) (file : Option String) (error : ScriptError) :
    Prop where
  place : ∃ span, error.span = some span ∧ span.file = file ∧ span.start.In text ∧
    error.sourceLine = (Text.lines text)[span.start.line - 1]?

theorem Position.line_next (position : Position) (char : Char) :
    (position.next char).line = position.line + if char = '\n' then 1 else 0 := by
  unfold Position.next
  split <;> rfl

/-- The line of a position counts the line feeds before it. -/
theorem Position.line_behind (front : List Char) :
    (Position.behind front).line = front.count '\n' + 1 := by
  suffices counts : ∀ position : Position,
      (front.foldl Position.next position).line = front.count '\n' + position.line by
    exact counts .start
  intro position
  induction front generalizing position with
  | nil => simp
  | cons char front induction =>
      rw [List.foldl_cons, induction, Position.line_next, List.count_cons]
      by_cases feed : char = '\n'
      · rw [if_pos feed, if_pos (by simpa using feed)]
        omega
      · rw [if_neg feed, if_neg (by simpa using feed)]
        omega

theorem Position.In.line_pos {text : List Char} {position : Position} (inText : position.In text) :
    position.line ≠ 0 := by
  obtain ⟨front, back, _, rfl⟩ := inText
  rw [Position.line_behind]
  exact Nat.succ_ne_zero _

/-- An error without a source line gets the line in which its range starts. -/
theorem ScriptError.located_attach {cause : Cause} {span : Span} (positive : span.start.line ≠ 0)
    (lines : List String) :
    (ScriptError.located cause span).attachSource lines =
      ⟨cause, some span, lines[span.start.line - 1]?⟩ := by
  unfold ScriptError.attachSource ScriptError.located ScriptError.diagnostic Diagnostic.attachSource
  simp only [if_neg positive]

namespace Lexer

variable {lexer after : Lexer}

theorem Placed.position_in (placed : lexer.Placed) {cursor : Cursor} {more : List Char}
    (passes : Passes lexer.cursor more cursor) : cursor.position.In lexer.source := by
  obtain ⟨passed, first, _⟩ := placed.passed
  have whole := first.trans passes
  exact ⟨_, _, whole.rest, whole.position⟩

/-- What a call for tokens gives comes from the source. -/
def Yields (text : List Char) (file : Option String) : Except ScriptError (List Token) → Prop
  | .ok tokens => ∀ token ∈ tokens, token.Origin text file
  | .error error => error.Origin text file

theorem layout_token_origin {start : Cursor} (inText : start.position.In lexer.source)
    (kind : TokenClass) (stop : Cursor) :
    (lexer.layoutToken kind start stop).Origin lexer.source lexer.file :=
  ⟨rfl, inText, fun _ carried => (nomatch carried), fun _ carried => (nomatch carried)⟩

theorem fail_origin {start : Cursor} (inText : start.position.In lexer.source) (cause : Cause)
    (stop : Cursor) : (lexer.fail cause start stop).Origin lexer.source lexer.file := by
  refine ⟨start.spanTo stop lexer.file, rfl, rfl, inText, ?_⟩
  rw [fail, ScriptError.located_attach inText.line_pos]
  rfl

theorem Begins.yields {margin : Margin} {result : Except ScriptError (List Token)}
    (begins : Begins lexer margin result after)
    (inText : margin.start.position.In lexer.source) : Yields lexer.source lexer.file result := by
  cases begins with
  | bare => exact List.forall_mem_nil _
  | mixed | inconsistent => exact fail_origin inText _ _
  | wider => exact List.forall_mem_singleton.2 (layout_token_origin inText _ _)
  | closes =>
      intro token member
      rw [(List.mem_replicate.1 member).2]
      exact layout_token_origin inText _ _

theorem end_tokens_origin (inText : lexer.cursor.position.In lexer.source) :
    ∀ token ∈ lexer.endTokens, token.Origin lexer.source lexer.file := by
  have made (kind : TokenClass) := layout_token_origin inText kind lexer.cursor
  unfold endTokens
  extract_lets make
  split
  · exact List.forall_mem_singleton.2 (made _)
  · simp only [List.forall_mem_append]
    refine ⟨⟨?_, ?_⟩, List.forall_mem_singleton.2 (made _)⟩
    · split
      · exact List.forall_mem_singleton.2 (made _)
      · exact List.forall_mem_nil _
    · intro token member
      rw [(List.mem_replicate.1 member).2]
      exact made _

theorem finish_scan_yields {scan : Scan} (placed : lexer.Placed)
    (spelled : scan.Spelled lexer.cursor) :
    Yields lexer.source lexer.file (lexer.finishScan lexer.cursor scan).1 := by
  unfold finishScan
  split
  · rename_i kind payload found
    refine List.forall_mem_singleton.2 ⟨rfl, placed.position_in (.none _), ?_, ?_⟩
    · rintro number rfl
      obtain ⟨isFinite, whole, fraction, rfl⟩ := spelled.numeral kind number found
      exact (Binary64.of_decimal_defined _ _ _).of_is_finite isFinite
    · rintro number rfl
      obtain ⟨isFinite, whole, fraction, rfl⟩ := spelled.numeral kind number found
      exact Binary64.of_decimal_representable isFinite
  · rename_i cause place found
    obtain ⟨passed, passes⟩ := spelled.place cause place found
    exact fail_origin (placed.position_in passes) _ _

/-- One call for tokens. -/
theorem Scans.yields {result : Except ScriptError (List Token)} (scans : Scans lexer result after)
    (placed : lexer.Placed) : Yields lexer.source lexer.file result := by
  have trimmedPlaced {ready : Lexer} (opens : ready.Placed) :
      ready.trimmed.cursor.position.In ready.source := by
    obtain ⟨_, trims⟩ := trim_passes ready.cursor
    exact opens.position_in trims
  induction scans with
  | margin _ ahead begins _ =>
      obtain ⟨_, line, passes, _, rfl⟩ := ahead.line
      exact begins.yields (placed.position_in passes)
  | @finish lexer ready opens _ =>
      obtain ⟨kept, _⟩ := opens.kept
      rw [← kept.source, ← kept.file]
      exact @end_tokens_origin ready.trimmed (trimmedPlaced (placed.opened opens))
  | @lineFeed lexer ready opens _ _ =>
      obtain ⟨kept, _⟩ := opens.kept
      rw [← kept.source, ← kept.file]
      exact List.forall_mem_singleton.2
        ⟨rfl, trimmedPlaced (placed.opened opens), fun _ carried => (nomatch carried),
          fun _ carried => (nomatch carried)⟩
  | @continued lexer ready after result opens ahead _ _ induction =>
      obtain ⟨kept, _⟩ := opens.kept
      rw [← kept.source, ← kept.file]
      exact induction ((placed.opened opens).fed ahead)
  | @token lexer ready scan opens spelled =>
      obtain ⟨kept, _⟩ := opens.kept
      rw [← kept.source, ← kept.file]
      have trimmed : ready.trimmed.Placed := by
        obtain ⟨_, trims⟩ := trim_passes ready.cursor
        refine (placed.opened opens).moved ⟨rfl, rfl, rfl, rfl⟩ trims fun atStart => ?_
        rw [show ready.trimmed.atLineStart = ready.atLineStart from rfl,
          opens.kept.2.2.1] at atStart
        cases atStart
      exact finish_scan_yields trimmed spelled

/-- A lexer in its source, all of whose waiting tokens come from there. -/
structure Grounded (text : List Char) (name : Option String) (lexer : Lexer) : Prop where
  placed : lexer.Placed
  source : lexer.source = text
  file : lexer.file = name
  pending : ∀ token ∈ lexer.pending, token.Origin text name

variable {text : List Char} {file : Option String}

/-- One token. -/
theorem Grounded.next (grounded : lexer.Grounded text file) :
    lexer.next.2.source = text ∧
    match lexer.next.1 with
    | .ok token => token.Origin text file ∧ lexer.next.2.Grounded text file
    | .error error => error.Origin text file := by
  obtain ⟨placed, rfl, rfl, pending⟩ := grounded
  have gives := next_gives placed.enough
  generalize lexer.next = given at gives
  obtain ⟨result, after⟩ := given
  cases gives with
  | @waiting token tokens waits =>
      rw [waits] at pending
      obtain ⟨first, others⟩ := List.forall_mem_cons.1 pending
      exact ⟨rfl, first, ⟨placed.sized, placed.passed⟩, rfl, rfl, others⟩
  | @made token tokens made _ scans =>
      obtain ⟨madePlaced, kept⟩ := placed.scanned scans
      obtain ⟨first, others⟩ := List.forall_mem_cons.1 (scans.yields placed)
      exact ⟨kept.source, first, ⟨madePlaced.sized, madePlaced.passed⟩, kept.source, kept.file,
        others⟩
  | failed _ scans => exact ⟨(placed.scanned scans).2.source, scans.yields placed⟩

/-- All tokens. -/
theorem Grounded.read_within (grounded : lexer.Grounded text file) (fuel : Nat) :
    (readWithin fuel lexer).lexer.source = text ∧
    (∀ token ∈ (readWithin fuel lexer).tokens, token.Origin text file) ∧
    ∀ error, (readWithin fuel lexer).failure = some error → error.Origin text file := by
  induction fuel generalizing lexer with
  | zero => exact ⟨grounded.source, List.forall_mem_nil _, fun error failed => by cases failed⟩
  | succ fuel induction =>
      obtain ⟨source, given⟩ := grounded.next
      cases run : lexer.next with
      | mk result after =>
          rw [run] at source given
          cases result with
          | error error =>
              simp only [readWithin, run]
              refine ⟨source, List.forall_mem_nil _, fun other failed => ?_⟩
              cases failed
              exact given
          | ok token =>
              obtain ⟨first, behind⟩ := given
              simp only [readWithin, run]
              split
              · refine ⟨source, List.forall_mem_singleton.2 first, ?_⟩
                exact fun error failed => by cases failed
              · obtain ⟨laterSource, later, failure⟩ := induction behind
                exact ⟨laterSource, List.forall_mem_cons.2 ⟨first, later⟩, failure⟩

end Lexer

/-- The tokens of a source and the error that may end them come from its text. -/
theorem tokenize_origin (source : String) (file : Option String) :
    (tokenize source file).lexer.source = Text.dropReturns source.toList ∧
    (∀ token ∈ (tokenize source file).tokens,
      token.Origin (Text.dropReturns source.toList) file) ∧
    ∀ error, (tokenize source file).failure = some error →
      error.Origin (Text.dropReturns source.toList) file := by
  have grounded : (Lexer.ofText source file).Grounded (Text.dropReturns source.toList) file :=
    ⟨.of_text source file, rfl, rfl, List.forall_mem_nil _⟩
  rw [tokenize_eq]
  exact grounded.read_within _

end LayoutScript
