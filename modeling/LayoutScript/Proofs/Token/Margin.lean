import LayoutScript.Proofs.Token.Delivery
import Mathlib.Data.List.TakeWhile

/-!
An indent opens a block, so something other than a dedent should come behind it. It does,
save for one kind of source: the last line has blanks, then carriage returns, then blanks
again, and at most a comment. Its first blanks are an indentation, but the margin ends at
the returns and not at the end of the line, so that the line does not count as blank.
-/

namespace LayoutScript

/-- The text behind the last line feed. -/
def Text.lastLine (text : List Char) : List Char := (text.reverse.takeWhile (· != '\n')).reverse

theorem Text.last_line_append {before line : List Char} (ends : Lexer.EndsLine before)
    (single : ∀ char ∈ line, char ≠ '\n') : Text.lastLine (before ++ line) = line := by
  have stops : before.reverse.takeWhile (· != '\n') = [] := by
    obtain rfl | last := ends
    · rfl
    · obtain ⟨front, rfl⟩ := List.getLast?_eq_some_iff.mp last
      rw [List.reverse_append]
      rfl
  have passes : ∀ char ∈ line.reverse, (char != '\n') = true := by
    intro char member
    simpa using single char (List.mem_reverse.mp member)
  rw [Text.lastLine, List.reverse_append, List.takeWhile_append_of_pos passes, stops,
    List.append_nil, List.reverse_reverse]

namespace Lexer

/-- Spaces and at most a comment. -/
def isBare (text : List Char) : Bool :=
  match text.dropWhile isSpace with
  | [] => true
  | char :: _ => char == '#'

/-- A line whose leading blanks are torn apart by carriage returns, with nothing behind but
more spaces and a comment. -/
def isTorn (line : List Char) : Bool :=
  let behindBlanks := line.dropWhile isBlank
  let behindReturns := behindBlanks.dropWhile (· == '\r')
  line.head?.any isBlank && behindBlanks.head? == some '\r' &&
    behindReturns.head?.any isBlank && isBare behindReturns

/-- A line feed can only be behind what a class without line feeds takes. -/
theorem single_line_of_drop_while (accepts : Char → Bool) {text : List Char}
    (stops : accepts '\n' = false) (single : ∀ char ∈ text.dropWhile accepts, char ≠ '\n') :
    ∀ char ∈ text, char ≠ '\n' := by
  intro char member
  rw [← List.takeWhile_append_dropWhile (p := accepts) (l := text), List.mem_append] at member
  obtain taken | dropped := member
  · rintro rfl
    have accepted := List.mem_takeWhile_imp taken
    rw [stops] at accepted
    cases accepted
  · exact single char dropped

theorem skip_comment_rest (cursor : Cursor) :
    (skipComment cursor).rest =
      if cursor.peek? = some '#' then cursor.rest.dropWhile isNotLineFeed else cursor.rest := by
  unfold skipComment
  split
  · exact Cursor.skip_while_rest _ _
  · rfl

/-- When nothing is left behind spaces and a comment, there was nothing else. -/
theorem bare_of_trim {cursor : Cursor} (atEnd : (trim cursor).rest = []) :
    isBare cursor.rest = true ∧ ∀ char ∈ cursor.rest, char ≠ '\n' := by
  rw [trim, skip_comment_rest, Cursor.peek?, Cursor.skip_while_rest] at atEnd
  unfold isBare
  cases behind : cursor.rest.dropWhile isSpace with
  | nil =>
      refine ⟨rfl, single_line_of_drop_while isSpace rfl ?_⟩
      rw [behind]
      simp
  | cons char others =>
      rw [behind] at atEnd
      split at atEnd
      · rename_i comment
        rw [List.head?_cons, Option.some.injEq] at comment
        refine ⟨beq_iff_eq.mpr comment, single_line_of_drop_while isSpace rfl ?_⟩
        rw [behind]
        intro other member
        simpa [isNotLineFeed] using List.dropWhile_eq_nil_iff.mp atEnd other member
      · cases atEnd

theorem margin_stop_rest (line : Cursor) :
    (Margin.read line).stop.rest =
      let behind := (line.rest.dropWhile isBlank).dropWhile (· == '\r')
      if behind.head? = some '#' then behind.dropWhile isNotLineFeed else behind := by
  simp only [Margin.read, skip_comment_rest, Cursor.peek?, Cursor.skip_while_rest]

/-- What is left behind carriage returns starts with a blank if it is bare but no comment. -/
theorem head_blank_of_bare {text : List Char} (more : text.dropWhile (· == '\r') ≠ [])
    (noComment : (text.dropWhile (· == '\r')).head? ≠ some '#')
    (bare : isBare (text.dropWhile (· == '\r')) = true) :
    ((text.dropWhile (· == '\r')).head?.any isBlank) = true := by
  have noReturn := List.head_dropWhile_not (· == '\r') more
  cases behind : text.dropWhile (· == '\r') with
  | nil => exact absurd behind more
  | cons char others =>
      simp only [behind, List.head_cons] at noReturn
      rw [behind] at noComment bare
      by_cases space : isSpace char = true
      · simpa [isSpace, noReturn] using space
      · rw [isBare, List.dropWhile_cons_of_neg space] at bare
        exact absurd (congrArg some (beq_iff_eq.mp bare)) noComment

theorem head_blank_of_blanks {line : Cursor} (blanks : (Margin.read line).blanks ≠ []) :
    line.rest.head?.any isBlank = true := by
  rw [margin_blanks] at blanks
  cases text : line.rest with
  | nil => simp [text] at blanks
  | cons char others =>
      by_cases blank : isBlank char = true
      · exact blank
      · rw [text, List.takeWhile_cons_of_neg blank] at blanks
        exact absurd rfl blanks

/-- A blank that is not part of the leading blanks stands behind a carriage return. -/
theorem returns_behind_blanks {text : List Char}
    (blank : (((text.dropWhile isBlank).dropWhile (· == '\r')).head?.any isBlank) = true) :
    ((text.dropWhile isBlank).head? == some '\r') = true := by
  by_contra other
  have kept := List.dropWhile_beq_eq_self_of_head?_ne (fun same => other (beq_iff_eq.mpr same))
  rw [kept] at blank
  have noBlank := List.head?_dropWhile_not isBlank text
  cases front : (text.dropWhile isBlank).head? with
  | none =>
      rw [front] at blank
      cases blank
  | some char =>
      simp only [front, Option.any_some] at blank noBlank
      rw [blank] at noBlank
      cases noBlank

/-- A margin that ends neither the line nor the source, with nothing behind it, belongs to a
torn line. -/
theorem torn_of_margin {line : Cursor} (blanks : (Margin.read line).blanks ≠ [])
    (more : (Margin.read line).stop.rest ≠ [])
    (solid : (Margin.read line).stop.peek? ≠ some '\n')
    (atEnd : (trim (Margin.read line).stop).rest = []) :
    isTorn line.rest = true ∧ ∀ char ∈ line.rest, char ≠ '\n' := by
  obtain ⟨bare, single⟩ := bare_of_trim atEnd
  have found := margin_stop_rest line
  dsimp only at found
  rw [Cursor.peek?] at solid
  split at found
  · -- A comment reaches to the end of its line, and an empty line has no margin.
    rw [found] at more solid
    have feed := List.head_dropWhile_not isNotLineFeed more
    rw [List.head?_eq_some_head more] at solid
    simp only [isNotLineFeed, bne_eq_false_iff_eq] at feed
    exact absurd (congrArg some feed) solid
  · rename_i noComment
    rw [found] at more bare single
    have blank := head_blank_of_bare more noComment bare
    refine ⟨?_, single_line_of_drop_while isBlank rfl (single_line_of_drop_while _ rfl single)⟩
    rw [isTorn, returns_behind_blanks blank, head_blank_of_blanks blanks, blank, bare]
    rfl

/-- The classes of tokens that wait behind another one. -/
def IsClosing (kind : TokenClass) : Prop := kind = .dedent ∨ kind = .endOfInput

theorem IsClosing.hidden {kind : TokenClass} (closing : IsClosing kind) :
    kind.isVisible = false := by
  rcases closing with rfl | rfl <;> rfl

theorem IsClosing.ne_indent {kind : TokenClass} (closing : IsClosing kind) : kind ≠ .indent := by
  rcases closing with rfl | rfl <;> decide

theorem end_tokens_parts (lexer : Lexer) :
    ∃ line closing : List Token, lexer.endTokens = line ++ closing ∧
      (line = [] ∨ lexer.lineIsOpen = true ∧ ∃ token, line = [token] ∧ token.kind = .newline) ∧
      (∀ token ∈ closing, IsClosing token.kind) ∧ ∃ token ∈ closing, token.kind = .endOfInput := by
  unfold endTokens
  extract_lets make
  split
  · refine ⟨[], [make .endOfInput], rfl, .inl rfl, ?_, ⟨_, List.mem_singleton_self _, rfl⟩⟩
    intro token member
    cases List.mem_singleton.mp member
    exact .inr rfl
  · refine ⟨_, List.replicate lexer.indents.length (make .dedent) ++ [make .endOfInput],
      List.append_assoc _ _ _, ?_, ?_, ?_⟩
    · split
      · rename_i isOpen
        exact .inr ⟨isOpen, _, rfl, rfl⟩
      · exact .inl rfl
    · intro token member
      rw [List.mem_append, List.mem_replicate, List.mem_singleton] at member
      obtain ⟨_, rfl⟩ | rfl := member
      · exact .inl rfl
      · exact .inr rfl
    · exact ⟨_, List.mem_append_right _ (List.mem_singleton_self _), rfl⟩

/-- The end of input makes dedents and the end, behind at most one newline. -/
theorem end_tokens_closing {lexer : Lexer} {token : Token} {tokens : List Token}
    (made : .ok (token :: tokens) = (.ok lexer.endTokens : Except ScriptError (List Token))) :
    (lexer.lineIsOpen = true ∧ token.kind = .newline ∨ IsClosing token.kind) ∧
      (∀ other ∈ tokens, IsClosing other.kind) ∧
      ∃ other ∈ token :: tokens, other.kind = .endOfInput := by
  obtain ⟨line, closing, parts, first, closes, ending⟩ := end_tokens_parts lexer
  rw [parts] at made
  obtain rfl | ⟨isOpen, newline, rfl, isNewline⟩ := first
  · cases made
    exact ⟨.inr (closes token List.mem_cons_self),
      fun other member => closes other (List.mem_cons_of_mem token member), ending⟩
  · cases made
    obtain ⟨other, member, isEnd⟩ := ending
    exact ⟨.inl ⟨isOpen, isNewline⟩, closes, other, List.mem_cons_of_mem token member, isEnd⟩

theorem finish_scan_tokens {lexer : Lexer} {start : Cursor} {scan : Scan} {token : Token}
    {tokens : List Token} (spelled : scan.Spelled start)
    (made : .ok (token :: tokens) = (lexer.finishScan start scan).1) :
    tokens = [] ∧ token.kind.isVisible = true := by
  unfold finishScan at made
  split at made
  · rename_i kind payload found
    cases made
    exact ⟨rfl, spelled.visible kind payload found⟩
  · cases made

/-- Behind the first token of a call only dedents and the end of input wait. -/
theorem Scans.others_closing {lexer after : Lexer} {token : Token} {tokens : List Token}
    (scans : Scans lexer (.ok (token :: tokens)) after) :
    ∀ other ∈ tokens, IsClosing other.kind := by
  generalize made : Except.ok (token :: tokens) = result at scans
  induction scans with
  | margin atStart ahead begins _ =>
      cases begins with
      | bare => cases made
      | mixed => cases made
      | wider =>
          cases made
          simp
      | closes =>
          intro other member
          have all := List.mem_cons_of_mem token member
          rw [Except.ok.inj made, List.mem_replicate] at all
          obtain ⟨_, rfl⟩ := all
          exact .inl rfl
      | inconsistent => cases made
  | finish opens atEnd => exact (end_tokens_closing made).2.1
  | lineFeed =>
      cases made
      simp
  | continued _ _ _ _ induction => exact induction made
  | token opens spelled =>
      obtain ⟨rfl, _⟩ := finish_scan_tokens spelled made
      simp

/-- The lexer has just made an indent out of the margin of a line. -/
structure Indented (lexer : Lexer) : Prop where
  line : ∃ before line, Passes (.ofText lexer.source) before line ∧ EndsLine before ∧
    (Margin.read line).blanks ≠ [] ∧ lexer.cursor = (Margin.read line).stop
  more : lexer.cursor.rest ≠ []
  solid : lexer.cursor.peek? ≠ some '\n'
  within : lexer.atLineStart = false
  outside : lexer.depth = 0

theorem Scans.indented {lexer after : Lexer} {token : Token} {tokens : List Token}
    (placed : lexer.Placed) (scans : Scans lexer (.ok (token :: tokens)) after)
    (isIndent : token.kind = .indent) : after.Indented ∧ tokens = [] := by
  generalize made : Except.ok (token :: tokens) = result at scans
  induction scans with
  | @margin lexer after margin result atStart ahead begins _ =>
      cases begins with
      | bare => cases made
      | mixed => cases made
      | wider more outside unmixed wide =>
          cases made
          obtain ⟨before, passes, ends⟩ := placed.passed
          obtain ⟨passed, line, further, endsToo, rfl⟩ := ahead.line
          have blanks : (Margin.read line).blanks ≠ [] := by
            intro none
            rw [none] at wide
            exact absurd wide (Nat.not_lt_zero _)
          exact ⟨⟨⟨_, line, passes.trans further, ends_line_append (ends atStart) endsToo, blanks,
            rfl⟩, more, ahead.solid, rfl, outside⟩, rfl⟩
      | closes =>
          have first : token ∈ token :: tokens := List.mem_cons_self
          rw [Except.ok.inj made, List.mem_replicate] at first
          obtain ⟨_, rfl⟩ := first
          cases isIndent
      | inconsistent => cases made
  | finish opens atEnd =>
      obtain ⟨⟨_, isNewline⟩ | closing, _⟩ := end_tokens_closing made
      · rw [isIndent] at isNewline
        cases isNewline
      · exact absurd isIndent closing.ne_indent
  | lineFeed =>
      cases made
      cases isIndent
  | continued opens ahead _ _ induction => exact induction ((placed.opened opens).fed ahead) made
  | token opens spelled =>
      obtain ⟨_, visible⟩ := finish_scan_tokens spelled made
      rw [isIndent] at visible
      cases visible

/-- What holds of a lexer between two tokens. -/
structure Orderly (lexer : Lexer) : Prop where
  placed : lexer.Placed
  waiting : ∀ token ∈ lexer.pending, IsClosing token.kind
  fresh : lexer.last = some .indent → lexer.Indented ∧ lexer.pending = []

theorem of_text_orderly (source : String) (file : Option String) :
    (ofText source file).Orderly := by
  refine ⟨.of_text source file, ?_, ?_⟩
  · rintro token ⟨⟩
  · rintro ⟨⟩

theorem next_gives_token {lexer after : Lexer} {token : Token} (placed : lexer.Placed)
    (next : lexer.next = (.ok token, after)) : Gives lexer (.ok token) after := by
  have gives := next_gives placed.enough
  rw [next] at gives
  exact gives

theorem Orderly.next {lexer after : Lexer} {token : Token} (orderly : lexer.Orderly)
    (next : lexer.next = (.ok token, after)) :
    after.Orderly ∧ after.last = some token.kind ∧ after.source = lexer.source := by
  cases next_gives_token orderly.placed next with
  | @waiting _ tokens pending =>
      have closing := orderly.waiting
      rw [pending] at closing
      refine ⟨⟨⟨orderly.placed.sized, orderly.placed.passed⟩, ?_, ?_⟩, rfl, rfl⟩
      · intro other member
        exact closing other (List.mem_cons_of_mem token member)
      · intro isIndent
        exact absurd (Option.some.inj isIndent) (closing token List.mem_cons_self).ne_indent
  | made idle scans =>
      obtain ⟨placed, kept⟩ := orderly.placed.scanned scans
      refine ⟨⟨⟨placed.sized, placed.passed⟩, scans.others_closing, ?_⟩, rfl, kept.source⟩
      intro isIndent
      obtain ⟨indented, rfl⟩ := scans.indented orderly.placed (Option.some.inj isIndent)
      exact ⟨⟨indented.line, indented.more, indented.solid, indented.within, indented.outside⟩, rfl⟩

/-- Only dedents and the end of input are left. -/
structure Closing (lexer : Lexer) : Prop where
  waiting : ∀ token ∈ lexer.pending, IsClosing token.kind
  ending : ∃ token ∈ lexer.pending, token.kind = .endOfInput

theorem Indented.torn {lexer : Lexer} (indented : lexer.Indented)
    (atEnd : (trim lexer.cursor).rest = []) : isTorn (Text.lastLine lexer.source) = true := by
  obtain ⟨before, line, passes, ends, blanks, cursor⟩ := indented.line
  have more := indented.more
  have solid := indented.solid
  rw [cursor] at more solid atEnd
  obtain ⟨torn, single⟩ := torn_of_margin blanks more solid atEnd
  have source : lexer.source = before ++ line.rest := passes.rest
  rw [source, Text.last_line_append ends single]
  exact torn

/-- A dedent right behind an indent is made at the end of a source with a torn last line. -/
theorem Orderly.dedent_behind_indent {lexer after : Lexer} {token : Token}
    (orderly : lexer.Orderly) (last : lexer.last = some .indent)
    (next : lexer.next = (.ok token, after)) (isDedent : token.kind = .dedent) :
    isTorn (Text.lastLine lexer.source) = true ∧ after.Closing := by
  obtain ⟨indented, idle⟩ := orderly.fresh last
  cases next_gives_token orderly.placed next with
  | waiting pending =>
      rw [idle] at pending
      cases pending
  | @made _ tokens after _ scans =>
      generalize made : Except.ok (token :: tokens) = result at scans
      cases scans with
      | margin atStart =>
          rw [indented.within] at atStart
          cases atStart
      | finish opens atEnd =>
          cases opens with
          | margin atStart =>
              rw [indented.within] at atStart
              cases atStart
          | inside =>
              obtain ⟨_, closing, other, member, isEnd⟩ := end_tokens_closing made
              refine ⟨indented.torn atEnd, closing, ?_⟩
              obtain rfl | inside := List.mem_cons.mp member
              · rw [isDedent] at isEnd
                cases isEnd
              · exact ⟨other, inside, isEnd⟩
      | lineFeed =>
          cases made
          cases isDedent
      | continued opens ahead within =>
          rw [opens.kept.2.2.2, indented.outside] at within
          exact absurd within (Nat.lt_irrefl 0)
      | token opens spelled =>
          obtain ⟨_, visible⟩ := finish_scan_tokens spelled made
          rw [isDedent] at visible
          cases visible

/-- The tokens of a reading: none, only the end of input, or a token with a further reading
behind it. -/
theorem read_within_cases (fuel : Nat) (lexer : Lexer) :
    (readWithin fuel lexer).tokens = [] ∨
      (∃ token after, lexer.next = (.ok token, after) ∧ token.kind = .endOfInput ∧
        (readWithin fuel lexer).tokens = [token]) ∨
      ∃ smaller token after, fuel = smaller + 1 ∧ lexer.next = (.ok token, after) ∧
        token.kind ≠ .endOfInput ∧
        (readWithin fuel lexer).tokens = token :: (readWithin smaller after).tokens := by
  cases fuel with
  | zero => exact .inl rfl
  | succ fuel =>
      rw [readWithin]
      cases next : lexer.next with
      | mk result after =>
          cases result with
          | error error => exact .inl rfl
          | ok token =>
              by_cases isEnd : token.kind = .endOfInput
              · refine .inr (.inl ⟨token, after, rfl, isEnd, ?_⟩)
                simp only [if_pos isEnd]
              · refine .inr (.inr ⟨fuel, token, after, rfl, rfl, isEnd, ?_⟩)
                simp only [if_neg isEnd]

/-- The end of input is read last. -/
theorem end_read_last {fuel : Nat} {lexer : Lexer} {before behind : List Token} {token : Token}
    (read : (readWithin fuel lexer).tokens = before ++ token :: behind)
    (isEnd : token.kind = .endOfInput) : behind = [] := by
  induction fuel generalizing lexer before with
  | zero => simp [readWithin] at read
  | succ fuel induction =>
      rcases read_within_cases (fuel + 1) lexer with
        none | ⟨first, after, _, _, only⟩ | ⟨smaller, first, after, same, _, notEnd, more⟩
      · simp [none] at read
      · rw [only] at read
        cases before with
        | nil =>
            cases read
            rfl
        | cons => simp at read
      · cases same
        rw [more] at read
        cases before with
        | nil =>
            cases read
            exact absurd isEnd notEnd
        | cons _ before =>
            rw [List.cons_append, List.cons.injEq] at read
            exact induction read.2

theorem Closing.next {lexer after : Lexer} {token : Token} (closing : lexer.Closing)
    (next : lexer.next = (.ok token, after)) :
    IsClosing token.kind ∧ (token.kind ≠ .endOfInput → after.Closing) := by
  obtain ⟨ending, member, isEnd⟩ := closing.ending
  have waiting := closing.waiting
  unfold Lexer.next at next
  cases pending : lexer.pending with
  | nil =>
      rw [pending] at member
      cases member
  | cons first others =>
      rw [pending] at next member waiting
      cases next
      refine ⟨waiting token List.mem_cons_self, fun notEnd => ⟨?_, ending, ?_, isEnd⟩⟩
      · exact fun other inside => waiting other (List.mem_cons_of_mem _ inside)
      · obtain rfl | inside := List.mem_cons.mp member
        · exact absurd isEnd notEnd
        · exact inside

theorem Closing.read {fuel : Nat} {lexer : Lexer} (closing : lexer.Closing) :
    ∀ token ∈ (readWithin fuel lexer).tokens, IsClosing token.kind := by
  induction fuel generalizing lexer with
  | zero => simp [readWithin]
  | succ fuel induction =>
      rcases read_within_cases (fuel + 1) lexer with
        none | ⟨first, after, _, isEnd, only⟩ | ⟨smaller, first, after, same, next, notEnd, more⟩
      · simp [none]
      · rw [only]
        intro token member
        cases List.mem_singleton.mp member
        exact .inr isEnd
      · cases same
        obtain ⟨first, others⟩ := closing.next next
        rw [more]
        intro token member
        obtain rfl | inside := List.mem_cons.mp member
        · exact first
        · exact induction (others notEnd) token inside

/-- In every reading a dedent follows an indent only at the end of a source with a torn last
line. -/
theorem Orderly.read {fuel : Nat} {lexer : Lexer} (orderly : lexer.Orderly) :
    (lexer.last = some .indent → ∀ token behind, (readWithin fuel lexer).tokens = token :: behind →
      token.kind = .dedent →
      isTorn (Text.lastLine lexer.source) = true ∧ ∀ other ∈ behind, IsClosing other.kind) ∧
    ∀ before first token behind,
      (readWithin fuel lexer).tokens = before ++ first :: token :: behind →
      first.kind = .indent → token.kind = .dedent →
      isTorn (Text.lastLine lexer.source) = true ∧ ∀ other ∈ behind, IsClosing other.kind := by
  induction fuel generalizing lexer with
  | zero => simp [readWithin]
  | succ fuel induction =>
      rcases read_within_cases (fuel + 1) lexer with
        none | ⟨front, after, _, isEnd, only⟩ | ⟨smaller, front, after, same, next, _, more⟩
      · simp [none]
      · rw [only]
        constructor
        · intro last token behind read isDedent
          cases read
          rw [isEnd] at isDedent
          cases isDedent
        · intro before first token behind read
          have length := congrArg List.length read
          simp only [List.length_append, List.length_cons, List.length_nil] at length
          omega
      · cases same
        rw [more]
        obtain ⟨afterOrderly, afterLast, source⟩ := orderly.next next
        obtain ⟨behindFront, further⟩ := induction afterOrderly
        rw [source] at behindFront further
        constructor
        · intro last token behind read isDedent
          cases read
          obtain ⟨torn, closing⟩ := orderly.dedent_behind_indent last next isDedent
          exact ⟨torn, closing.read⟩
        · intro before first token behind read isIndent isDedent
          cases before with
          | nil =>
              rw [List.nil_append, List.cons.injEq] at read
              obtain ⟨rfl, read⟩ := read
              exact behindFront (by rw [afterLast, isIndent]) token behind read isDedent
          | cons _ before =>
              rw [List.cons_append, List.cons.injEq] at read
              exact further before first token behind read.2 isIndent isDedent

end Lexer

/-- A dedent follows an indent only at the end of a source with a torn last line. -/
theorem tokenize_dedent_behind_indent {source : String} {file : Option String}
    {before behind : List Token} {first token : Token}
    (read : (tokenize source file).tokens = before ++ first :: token :: behind)
    (isIndent : first.kind = .indent) (isDedent : token.kind = .dedent) :
    Lexer.isTorn (Text.lastLine (Text.dropReturns source.toList)) = true ∧
      ∀ other ∈ behind, Lexer.IsClosing other.kind := by
  rw [tokenize_eq] at read
  exact (Lexer.of_text_orderly source file).read.2 before first token behind read isIndent isDedent

theorem tokenize_end_last {source : String} {file : Option String} {before behind : List Token}
    {token : Token} (read : (tokenize source file).tokens = before ++ token :: behind)
    (isEnd : token.kind = .endOfInput) : behind = [] := by
  rw [tokenize_eq] at read
  exact Lexer.end_read_last read isEnd

end LayoutScript
