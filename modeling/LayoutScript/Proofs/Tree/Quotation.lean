import LayoutScript.Proofs.Text.Lines
import LayoutScript.Proofs.Tree.OnDemand

/-!
The line that an error of a source quotes. The error starts at a place of the text, and that
place is in the line that its position counts. The line that is quoted is found by the same
number among lines that end at more characters, so it is the right one only if no such
character comes before the end of the line.
-/

namespace LayoutScript

section Source

variable {source : String} {file : Option String} {limits : Limits} {error : ScriptError}

/-- Every error of reading a source starts in its text and quotes the line with its number. -/
theorem Program.of_source_error_origin
    (fails : Program.ofSource source file limits = .error (.error error)) :
    error.Origin (Text.dropReturns source.toList) file := by
  have origins := tokenize_origin source file
  cases Program.outcome source file limits with
  | lexical found failed _ gives =>
      rw [gives] at fails
      cases fails
      exact origins.2.2 error failed
  | @grammatical cause span _ starts _ gives =>
      rw [gives] at fails
      cases fails
      rcases starts with ⟨token, member, sameFile, sameStart⟩
      have origin := origins.2.1 token member
      have inText : span.start.In (Text.dropReturns source.toList) := by
        rw [← sameStart]
        exact origin.start
      rw [ScriptError.located_attach inText.line_pos]
      exact ⟨span, rfl, by rw [← sameFile, origin.file], inText, rfl⟩
  | read program _ _ gives =>
      rw [gives] at fails
      cases fails

end Source

/-- A position of a text is in the line that it counts: the line goes on from its column as the
text does from its offset. -/
theorem Position.line_at (front back : List Char) :
    ∃ line, (List.splitOn '\n' (front ++ back))[(Position.behind front).line - 1]? = some line ∧
      line = Text.openLine front ++ back.takeWhile (· != '\n') ∧
      (Position.behind front).column - 1 ≤ line.length ∧
      line.drop ((Position.behind front).column - 1) = back.takeWhile (· != '\n') := by
  refine ⟨_, ?_, rfl, ?_, ?_⟩
  · rw [Position.line_behind, Nat.add_sub_cancel]
    exact Text.split_on_at List.not_mem_nil front back
  · rw [Position.column_behind, Nat.add_sub_cancel, List.length_append]
    exact Nat.le_add_right _ _
  · rw [Position.column_behind, Nat.add_sub_cancel, List.drop_left]

/-- Every error of reading a source lies at a place of its text, without the returns in front of
line feeds. The line that has its number, with line feeds between the lines, reaches to its
column and goes on there as the text does at its offset. A line that the error quotes is that
line if no character but a line feed ends a line up to there; it is another one if such a
character is in the line. -/
theorem Program.of_source_quotes_line {source : String} {file : Option String} {limits : Limits}
    {error : ScriptError} (fails : Program.ofSource source file limits = .error (.error error)) :
    ∃ span front back line, error.span = some span ∧ span.file = file ∧
      Text.dropReturns source.toList = front ++ back ∧ span.start.offset = front.length ∧
      (List.splitOn '\n' (Text.dropReturns source.toList))[span.start.line - 1]? = some line ∧
      span.start.column - 1 ≤ line.length ∧
      line.drop (span.start.column - 1) = back.takeWhile (· != '\n') ∧
      ∀ quoted, error.sourceLine = some quoted →
        (Text.FeedsOnly (front ++ line) → quoted.toList = line) ∧
        ((∃ char ∈ line, Text.isLineEnd char = true) → quoted.toList ≠ line) := by
  rcases (Program.of_source_error_origin fails).place with ⟨span, isSpan, inFile, inText, isLine⟩
  rcases inText with ⟨front, back, parts, isStart⟩
  rcases Position.line_at front back with ⟨line, found, isOpen, within, goesOn⟩
  rw [← isStart, ← parts] at found
  rw [← isStart] at within goesOn
  refine ⟨span, front, back, line, isSpan, inFile, parts, ?_, found, within, goesOn, ?_⟩
  · rw [isStart, Position.behind, Passes.offset_foldl]
    exact Nat.zero_add _
  · intro quoted isQuoted
    rw [isLine, parts, isStart, Position.line_behind, Nat.add_sub_cancel] at isQuoted
    rcases Text.lines_at front back isQuoted with ⟨same, plain⟩
    constructor
    · intro feeds
      have whole := feeds.append_right
      rw [isOpen] at whole ⊢
      exact same (feeds.append_left.append whole.append_right)
    · rintro ⟨char, member, ends⟩ equal
      have notEnd := plain char (by rwa [equal])
      rw [ends] at notEnd
      cases notEnd

/-- A text with a form feed is closed on one line, and a parenthesis behind it is refused. What is
quoted ends at the form feed, in front of the column of the error. -/
theorem form_feed_cuts_quoted_line :
    ∃ error span line, Program.ofSource "\"\x0c\" )" none {} = .error (.error error) ∧
      error.span = some span ∧ error.sourceLine = some "\"" ∧
      "\"".length < span.start.column - 1 ∧
      (List.splitOn '\n' (Text.dropReturns "\"\x0c\" )".toList))[span.start.line - 1]? = some line ∧
      span.start.column - 1 ≤ line.length ∧ "\"".toList ≠ line := by
  have evaluated : (match Program.ofSource "\"\x0c\" )" none {} with
      | .error (.error error) => (error.span.map (·.start), error.sourceLine)
      | _ => (none, none)) = (some ⟨1, 5, 4⟩, some "\"") := by decide +kernel
  split at evaluated
  · rename_i error fails
    rcases Prod.mk.inj evaluated with ⟨place, quoted⟩
    rcases Program.of_source_quotes_line fails with
      ⟨span, _, _, line, isSpan, _, _, _, found, within, _, quotes⟩
    rw [isSpan] at place
    have isStart : span.start = ⟨1, 5, 4⟩ := Option.some.inj place
    have whole : ['"', '\x0c', '"', ' ', ')'] = line := by
      rw [isStart] at found
      exact Option.some.inj found
    refine ⟨error, span, line, fails, isSpan, quoted, ?_, found, within, ?_⟩
    · rw [isStart]
      decide
    · exact (quotes _ quoted).2 ⟨'\x0c', by simp [← whole], by decide⟩
  · cases evaluated

end LayoutScript
