import LayoutScript.Machine.Evaluator
import LayoutScript.Proofs.Token.Junction
import LayoutScript.Proofs.Tree.Continuation

/-!
Programs one after the other. Two source texts that are read as programs are read, with a line
feed between them, as one program: the statements of the first and then those of the second. What
a program must be for that, the grammar gives: all of its parentheses are closed, and it does not
begin with an indentation.
-/

namespace LayoutScript

open Lexer (depthAfter)

/-- The depth of parentheses behind tokens is that in front of them. -/
def Balanced (tokens : List Token) : Prop :=
  ∀ depth, (tokens.map Token.kind).foldl depthAfter depth = depth

section Balanced

variable {tokens others : List Token} {token start stop : Token}

theorem balanced_nil : Balanced [] := fun _ => rfl

theorem Balanced.append (first : Balanced tokens) (second : Balanced others) :
    Balanced (tokens ++ others) := by
  intro depth
  rw [List.map_append, List.foldl_append, first, second]

theorem balanced_plain
    (plain : ∀ token ∈ tokens, token.kind ≠ .openParen ∧ token.kind ≠ .closeParen) :
    Balanced tokens :=
  Lexer.foldl_depth (List.forall_mem_map.2 plain)

theorem Balanced.cons (noOpen : token.kind ≠ .openParen) (noClose : token.kind ≠ .closeParen)
    (rest : Balanced tokens) : Balanced (token :: tokens) :=
  (balanced_plain (List.forall_mem_singleton.2 ⟨noOpen, noClose⟩)).append rest

theorem Balanced.enclosed (inner : Balanced tokens) (isOpen : start.kind = .openParen)
    (isClose : stop.kind = .closeParen) : Balanced (start :: tokens ++ [stop]) := by
  intro depth
  rw [List.map_append, List.map_cons, List.foldl_append, List.foldl_cons, inner, isOpen]
  simp [isClose, depthAfter]

theorem Balanced.enclosed_list (inner : Balanced tokens) (more : Balanced others)
    (isOpen : start.kind = .openParen) (isClose : stop.kind = .closeParen) :
    Balanced (start :: tokens ++ others ++ [stop]) :=
  (inner.append more).enclosed isOpen isClose

theorem balanced_pair (isOpen : start.kind = .openParen) (isClose : stop.kind = .closeParen) :
    Balanced [start, stop] :=
  balanced_nil.enclosed isOpen isClose

theorem balanced_newlines (newlines : ∀ token ∈ tokens, token.kind = .newline) :
    Balanced tokens := by
  apply balanced_plain
  intro token member
  rw [newlines token member]
  decide

end Balanced

theorem Token.literal_kind {token : Token} {value : Literal}
    (denotes : token.literal? = some value) : token.kind = value.tokenClass := by
  unfold Token.literal? at denotes
  split at denotes
  · cases denotes
    exact Eq.symm ‹_›
  · cases denotes

theorem Token.index_kind {token : Token} {index : Nat} (denotes : token.index? = some index) :
    token.kind = .intLiteral := by
  unfold Token.index? at denotes
  split at denotes
  · assumption
  · cases denotes

/-- All parentheses of a phrase are closed in it. -/
theorem Derives.balanced {feed after : Feed} {phrase : Phrase} {tokens : List Token}
    (derives : Derives feed phrase tokens after) : Balanced tokens := by
  have literal (value : Literal) :
      value.tokenClass ≠ .openParen ∧ value.tokenClass ≠ .closeParen := by
    cases value <;> simp [Literal.tokenClass]
  have unary (operator : UnaryOperator) :
      operator.tokenClass ≠ .openParen ∧ operator.tokenClass ≠ .closeParen := by
    cases operator <;> decide
  have binary (operator : BinaryOperator) :
      operator.tokenClass ≠ .openParen ∧ operator.tokenClass ≠ .closeParen := by
    cases operator <;> decide
  have skipped {feed after : Feed} {tokens : List Token} (skips : Skips feed tokens after) :
      Balanced tokens := balanced_newlines skips.newlines
  have ended {feed after : Feed} {tokens : List Token} (ends : Ends feed tokens after) :
      Balanced tokens := balanced_newlines ends.newlines
  induction derives <;> grind -linarith [→ Token.literal_kind, → Token.name_some,
    → Token.index_kind, balanced_nil, Balanced.cons, Balanced.append, Balanced.enclosed,
    Balanced.enclosed_list, balanced_pair]

/-- Tokens that do not begin with an indent. -/
def Flat (tokens : List Token) : Prop := ∀ token ∈ tokens.head?, token.kind ≠ .indent

theorem flat_nil : Flat [] := by simp [Flat]

theorem flat_cons {token : Token} (other : token.kind ≠ .indent) (tokens : List Token) :
    Flat (token :: tokens) := by
  rintro first ⟨⟩
  exact other

theorem Flat.append {tokens others : List Token} (first : Flat tokens) (second : Flat others) :
    Flat (tokens ++ others) := by
  cases tokens with
  | nil => exact second
  | cons token tokens => exact flat_cons (first token rfl) _

theorem flat_newlines {tokens : List Token} (newlines : ∀ token ∈ tokens, token.kind = .newline) :
    Flat tokens := by
  intro token first
  rw [newlines token (List.mem_of_mem_head? first)]
  decide

theorem Flat.no_indent_sign {tokens : List Token} (flat : Flat tokens) :
    (tokens.map Token.sign).head? ≠ some (.mark .indent) := by
  rw [List.head?_map]
  intro first
  obtain ⟨token, isFirst, sign⟩ := Option.map_eq_some_iff.1 first
  apply flat token isFirst
  rw [← Token.sign_kind, sign]
  rfl

/-- No phrase begins with an indent. -/
theorem Derives.flat {feed after : Feed} {phrase : Phrase} {tokens : List Token}
    (derives : Derives feed phrase tokens after) : Flat tokens := by
  have literal (value : Literal) : value.tokenClass ≠ .indent := by
    cases value <;> simp [Literal.tokenClass]
  have unary (operator : UnaryOperator) : operator.tokenClass ≠ .indent := by
    cases operator <;> decide
  have binary (operator : BinaryOperator) : operator.tokenClass ≠ .indent := by
    cases operator <;> decide
  have skipped {feed after : Feed} {tokens : List Token} (skips : Skips feed tokens after) :
      Flat tokens := flat_newlines skips.newlines
  have ended {feed after : Feed} {tokens : List Token} (ends : Ends feed tokens after) :
      Flat tokens := flat_newlines ends.newlines
  induction derives <;> grind -linarith [→ Token.literal_kind, → Token.name_some, flat_nil,
    flat_cons, Flat.append]

section Accepted

theorem Takes.ending_eq {feed after : Feed} {token : Token} (takes : Takes feed token after) :
    after.ending = feed.ending := by
  cases takes
  rfl

theorem Skips.ending_eq {feed after : Feed} {tokens : List Token}
    (skips : Skips feed tokens after) : after.ending = feed.ending := by
  induction skips with
  | none => rfl
  | one takes _ _ induction => rw [induction, takes.ending_eq]

theorem Ends.ending_eq {feed after : Feed} {tokens : List Token} (ends : Ends feed tokens after) :
    after.ending = feed.ending := by
  cases ends with
  | here => rfl
  | line takes _ => exact takes.ending_eq

/-- What stands behind the last token is not changed by reading. -/
theorem Derives.ending_eq {feed after : Feed} {phrase : Phrase} {tokens : List Token}
    (derives : Derives feed phrase tokens after) : after.ending = feed.ending := by
  induction derives <;> grind -linarith [→ Takes.ending_eq, → Skips.ending_eq, → Ends.ending_eq]

/-- Where reading tokens ends with an error, there is no end of input. -/
theorem tokenize_failed {source : String} {file : Option String} {error : ScriptError}
    (failed : (tokenize source file).failure = some error) :
    ∀ token ∈ (tokenize source file).tokens, token.kind ≠ .endOfInput := by
  obtain ⟨_, _, delivers, _⟩ := tokenize_fails failed
  exact delivers.not_end

/-- A program is read only from a source without lexical errors. -/
theorem Program.of_source_clean {source : String} {file : Option String} {limits : Limits}
    {program : Program} (read : Program.ofSource source file limits = .ok program) :
    (tokenize source file).failure = none ∧
      Program.ofTokens (tokenize source file).tokens file limits = .ok program := by
  have fed : Program.ofFeed (.ofTokens (tokenize source file).tokens (tokenize source file).failure
      file) limits = .ok program := by
    unfold Program.ofSource at read
    dsimp only at read
    split at read
    · rename_i accepted
      rw [accepted]
      exact read
    · cases read
    · cases read
  obtain ⟨front, after, newlines, tokens, skips, derives, _, last, isCurrent, isEnd⟩ :=
    Program.of_feed_derives (Feed.of_tokens_proper _ _ _) fed
  have clean : (tokenize source file).failure = none := by
    cases failure : (tokenize source file).failure with
    | none => rfl
    | some error =>
        have rest : (tokenize source file).tokens = newlines ++ (tokens ++ after.rest) := by
          rw [← derives.rest_eq, ← skips.rest_eq]
          rfl
        have ending := derives.ending_eq.trans skips.ending_eq
        rw [failure] at ending
        cases behind : after.rest with
        | nil =>
            rw [Feed.current, behind] at isCurrent
            dsimp only at isCurrent
            rw [ending] at isCurrent
            cases isCurrent
        | cons first others =>
            rw [Feed.current, behind] at isCurrent
            cases isCurrent
            refine absurd isEnd (tokenize_failed failure last ?_)
            rw [rest, behind]
            simp
  refine ⟨clean, ?_⟩
  rw [clean] at fed
  exact fed

end Accepted

/-- The character that the indented lines of a source begin with, if it has some. Empty lines and
lines in parentheses do not count. -/
def indentation? (source : String) (file : Option String) : Option Char :=
  (tokenize source file).lexer.indentChar

/-- The tokens of a source that is read as a program, in front of the end of input. -/
structure Transcript (source : String) (file : Option String) (limits : Limits) (program : Program)
    (tokens : List Token) : Prop where
  lines : Lines tokens
  balanced : Balanced tokens
  flat : Flat tokens
  speaks : ∃ final, Lexer.Speaks (.ofText source file) (tokens.map Token.sign) final ∧
    final.indentChar = indentation? source file
  read : ∃ ending, ending.kind = .endOfInput ∧
    Program.ofTokens (tokens ++ [ending]) file limits = .ok program

/-- The tokens of a program are complete lines. -/
theorem Program.of_source_transcript {source : String} {file : Option String} {limits : Limits}
    {program : Program} (plain : '\r' ∉ Text.dropReturns source.toList)
    (read : Program.ofSource source file limits = .ok program) :
    ∃ tokens, Transcript source file limits program tokens := by
  obtain ⟨clean, ofTokens⟩ := Program.of_source_clean read
  obtain ⟨tokens, after, ending, final, delivers, ends, isEnd, whole⟩ := tokenize_delivers clean
  obtain ⟨_, _, newlines, phrase, others, parts, areNewlines, areEnds, derives⟩ :=
    Program.of_source_derives read
  have outcome : tokens ++ [ending] = newlines ++ phrase ++ others := by
    rw [← parts, whole]
  have endsToo : ∀ token ∈ others.head?, token.kind = .endOfInput :=
    fun token first => areEnds token (List.mem_of_mem_head? first)
  have properToo : ∀ token ∈ newlines ++ phrase, token.kind ≠ .endOfInput := by
    intro token member
    rcases List.mem_append.1 member with inside | inside
    · rw [areNewlines token inside]
      decide
    · exact derives.not_end token inside
  have same : tokens = newlines ++ phrase := by
    rw [← before_end_append properToo endsToo, ← outcome]
    exact (before_end_append delivers.proper (by simpa using isEnd)).symm
  have balanced : Balanced tokens := by
    rw [same]
    exact (balanced_newlines areNewlines).append derives.balanced
  have flat : Flat tokens := by
    rw [same]
    exact (flat_newlines areNewlines).append derives.flat
  have poised := Lexer.Poised.of_text file plain
  obtain ⟨last, before, call⟩ := poised.last_call delivers ends isEnd
  refine ⟨tokens, ⟨delivers.proper, ?_, poised.begins_line rfl rfl delivers⟩, balanced, flat, ?_,
    ?_⟩
  · intro token isLast
    rcases call.settled (balanced 0) token isLast with newline | dedent
    · rw [newline]
      rfl
    · rw [dedent]
      rfl
  · refine ⟨final, ⟨tokens, after, ending, delivers, ends, isEnd, rfl⟩, ?_⟩
    rw [indentation?, whole]
  · refine ⟨ending, isEnd, ?_⟩
    rw [whole] at ofTokens
    exact ofTokens

/-- Statements one after another are executed one after another. -/
theorem execute_program_append (context : Context) (fuel : Nat) (first second : List Statement)
    (value : Value) :
    executeProgram context fuel (first ++ second) value = (do
      let value ← executeProgram context fuel first value
      executeProgram context fuel second value) := by
  induction first generalizing value with
  | nil => simp [executeProgram]
  | cons statement first induction =>
      simp only [List.cons_append, executeProgram, bind_assoc, induction]

/-- Reading is compositional over lines. Two sources that are read as programs are read as one
program with a line feed between them, which has the statements of both, spans aside, and executes
them one after the other. No carriage return stands outside a pair with a line feed, and the
indented lines of both begin with the same character. -/
theorem Program.of_source_append {first second : String} {file : Option String} {limits : Limits}
    {program program' : Program} (paired : '\r' ∉ Text.dropReturns first.toList)
    (paired' : '\r' ∉ Text.dropReturns second.toList)
    (sameIndentation : ∀ char ∈ indentation? first file, ∀ char' ∈ indentation? second file,
      char = char')
    (read : Program.ofSource first file limits = .ok program)
    (read' : Program.ofSource second file limits = .ok program') :
    ∃ joined, Program.ofSource (first ++ "\n" ++ second) file limits = .ok joined ∧
      Statement.unplacedAll joined.statements =
        Statement.unplacedAll (program.statements ++ program'.statements) ∧
      ∀ context fuel value,
        executeProgram context fuel (program.statements ++ program'.statements) value = (do
          let value ← executeProgram context fuel program.statements value
          executeProgram context fuel program'.statements value) := by
  obtain ⟨tokens, transcript⟩ := Program.of_source_transcript paired read
  obtain ⟨tokens', transcript'⟩ := Program.of_source_transcript paired' read'
  obtain ⟨final, speaks, isChar⟩ := transcript.speaks
  obtain ⟨final', speaks', isChar'⟩ := transcript'.speaks
  have balanced : ((tokens.map Token.sign).map Sign.kind).foldl depthAfter 0 = 0 := by
    rw [Token.map_sign_kind]
    exact transcript.balanced 0
  have fits : ∀ char' ∈ final'.indentChar, ∀ char ∈ final.indentChar, char = char' := by
    rw [isChar, isChar']
    exact fun char' isKnown' char isKnown => sameIndentation char isKnown char' isKnown'
  obtain ⟨_, both, after, ending, delivers, ends, isEnd, same⟩ :=
    speaks.join paired speaks' balanced transcript'.flat.no_indent_sign fits
  have whole := tokenize_of_delivers delivers ends isEnd
  obtain ⟨end₁, isEnd₁, read₁⟩ := transcript.read
  obtain ⟨end₂, isEnd₂, read₂⟩ := transcript'.read
  obtain ⟨joined, readBoth, statements⟩ := Program.of_tokens_append transcript.lines
    transcript'.lines isEnd₁ isEnd₂ isEnd same read₁ read₂
  refine ⟨joined, Program.of_source_of_tokens ?_ ?_, statements, ?_⟩
  · rw [whole]
  · rw [whole]
    exact readBoth
  · exact fun context fuel => execute_program_append context fuel _ _

/-- A source that ends with a comment in an open block. It indents with a tab; the blanks in
parentheses are no indentation. -/
def openBlock : String := "while a:\r\n\tf(b, # c\n  )\r\n\tif d: e # g"

/-- A source that begins and ends with empty lines. -/
def paddedFunction : String := "\n# h\nlet i = fn(j):\n\tj;\n\tk\n "

theorem open_block_append :
    ∃ program program' joined,
      Program.ofSource openBlock none {} = .ok program ∧
      Program.ofSource paddedFunction none {} = .ok program' ∧
      Program.ofSource (openBlock ++ "\n" ++ paddedFunction) none {} = .ok joined ∧
      Statement.unplacedAll joined.statements =
        Statement.unplacedAll (program.statements ++ program'.statements) := by
  have accepts {source : String} (accepted : (Program.ofSource source none {}).toBool = true) :
      ∃ program, Program.ofSource source none {} = .ok program := by
    cases read : Program.ofSource source none {} with
    | error halt =>
        rw [read] at accepted
        cases accepted
    | ok program => exact ⟨program, rfl⟩
  obtain ⟨program, read⟩ := @accepts openBlock (by decide +kernel)
  obtain ⟨program', read'⟩ := @accepts paddedFunction (by decide +kernel)
  have tab : indentation? openBlock none = some '\t' := by decide +kernel
  have tab' : indentation? paddedFunction none = some '\t' := by decide +kernel
  obtain ⟨joined, readBoth, same, _⟩ := Program.of_source_append (by decide +kernel)
    (by decide +kernel) (by simp [tab, tab']) read read'
  exact ⟨program, program', joined, read, read', readBoth, same⟩

end LayoutScript
