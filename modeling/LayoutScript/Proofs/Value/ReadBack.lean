import LayoutScript.Proofs.Machine.Fuel
import LayoutScript.Proofs.Number.Conversion
import LayoutScript.Proofs.Token.Delivery
import LayoutScript.Proofs.Token.Margin
import LayoutScript.Proofs.Tree.LayoutRoundTrip
import LayoutScript.Session

/-!
Values read back. The text that a value is written as is a script that denotes it: each part of
the text is the spelling of a token, the tokens are those of an expression, and the expression
evaluates to the value. Floats are left out, for which texts are rounded, and functions, which
have no spelling.
-/

namespace LayoutScript

namespace Value

mutual

/-- Values without floats and functions. -/
def isData : Value → Bool
  | .nothing | .int _ | .bool _ | .string _ => true
  | .float _ | .function _ => false
  | .tuple elements => areData elements

def areData : List Value → Bool
  | [] => true
  | value :: values => value.isData && areData values

end

mutual

/-- How many tuples are nested in each other. -/
def tupleDepth : Value → Nat
  | .tuple elements => tupleDepths elements + 1
  | _ => 0

def tupleDepths : List Value → Nat
  | [] => 0
  | value :: values => max value.tupleDepth (tupleDepths values)

end

mutual

/-- The expression that a value is written as. There are no negative literals. -/
def tree : Value → Expression
  | .int (.ofNat number) => .literal default (.int number)
  | .int (.negSucc number) => .unary default .minus (.literal default (.int (number + 1)))
  | .bool value => .literal default (.bool value)
  | .string value => .literal default (.text value)
  | .tuple elements => .tuple default (trees elements)
  | .nothing | .float _ | .function _ => .literal default .nothing

def trees : List Value → List Expression
  | [] => []
  | value :: values => value.tree :: trees values

end

end Value

/-- A character that begins a token, whatever stands before it. -/
def Text.isSolid (char : Char) : Bool := !Lexer.isSpace char && char != '#' && char != '\n'

/-- A text that ends what stands before it: nothing follows, or a comma or parenthesis. -/
def Text.Delimits (text : List Char) : Prop := ∀ char ∈ text.head?, char = ',' ∨ char = ')'

namespace Scan

open Cursor

/-- The spelling of a token stands in front of a text. -/
def Reads (text : List Char) (kind : TokenClass) (payload : Literal) (rest : List Char) : Prop :=
  ∃ first others, text = first :: others ∧ Text.isSolid first = true ∧
    ∀ start : Cursor, start.rest = text →
      ∃ stop, token false start first = found kind payload stop ∧ stop.rest = rest

/-- A character of a literal stands for itself, or an escape that denotes it stands for it. -/
theorem script_char_cases {quote : Char} (isQuote : quote = '"' ∨ quote = '\'') (char : Char) :
    Text.scriptChar quote char = [char] ∧ char ≠ quote ∧ char ≠ '\\' ∧ char ≠ '\n' ∧
      char ≠ '\r' ∨
    ∃ mark, Text.scriptChar quote char = ['\\', mark] ∧ mark ≠ '\n' ∧ mark ≠ '\r' ∧
      escape? mark = some char := by
  unfold Text.scriptChar
  split
  · rename_i same
    subst same
    rcases isQuote with rfl | rfl <;> exact .inr ⟨_, rfl, by decide, by decide, rfl⟩
  split
  · rename_i same
    exact .inr ⟨'\\', rfl, by decide, by decide, by rw [same]; rfl⟩
  split
  · rename_i same
    exact .inr ⟨'n', rfl, by decide, by decide, by rw [same]; rfl⟩
  split
  · rename_i same
    exact .inr ⟨'t', rfl, by decide, by decide, by rw [same]; rfl⟩
  split
  · rename_i same
    exact .inr ⟨'r', rfl, by decide, by decide, by rw [same]; rfl⟩
  split
  · rename_i same
    exact .inr ⟨'0', rfl, by decide, by decide, by rw [same]; rfl⟩
  · exact .inl ⟨rfl, by assumption, by assumption, by assumption, by assumption⟩

theorem string_body_script {quote : Char} (isQuote : quote = '"' ∨ quote = '\'')
    (text rest : List Char) (start : Cursor) (position : Position) (contents : List Char) :
    ∃ stop, stringBody start quote (text.flatMap (Text.scriptChar quote) ++ quote :: rest) position
      contents = found .stringLiteral (.text (String.ofList (contents.reverse ++ text))) stop ∧
      stop.rest = rest := by
  induction text generalizing position contents with
  | nil =>
      refine ⟨⟨rest, position.next quote⟩, ?_, rfl⟩
      simp [stringBody]
  | cons char text induction =>
      have others (position : Position) := induction position (char :: contents)
      simp only [List.reverse_cons, List.append_assoc, List.singleton_append] at others
      rw [List.flatMap_cons, List.append_assoc]
      rcases script_char_cases isQuote char with
        ⟨written, apart, plain, sameLine, _⟩ | ⟨mark, written, sameLine, _, denotes⟩
      · rw [written, List.singleton_append, stringBody, if_neg apart, if_neg sameLine, if_neg plain]
        exact others _
      · have open' : '\\' ≠ quote := by rcases isQuote with rfl | rfl <;> decide
        rw [written, List.cons_append, List.singleton_append, stringBody, if_neg open',
          if_neg (by decide), if_pos rfl]
        simp only [if_neg sameLine, denotes]
        exact others _

theorem preferred_quote_cases (text : List Char) :
    Text.preferredQuote text = '"' ∨ Text.preferredQuote text = '\'' := by
  unfold Text.preferredQuote
  split
  · exact .inl rfl
  · exact .inr rfl

/-- A script literal is read as the text it was made from. -/
theorem reads_script_literal (text : String) (rest : List Char) :
    Reads ((Text.scriptLiteral text).toList ++ rest) .stringLiteral (.text text) rest := by
  have isQuote := preferred_quote_cases text.toList
  have spelled : (Text.scriptLiteral text).toList ++ rest = Text.preferredQuote text.toList ::
      (text.toList.flatMap (Text.scriptChar (Text.preferredQuote text.toList)) ++
        Text.preferredQuote text.toList :: rest) := by
    rw [Text.scriptLiteral, String.toList_ofList]
    simp
  refine ⟨_, _, spelled, by rcases isQuote with same | same <;> rw [same] <;> decide, ?_⟩
  intro start ahead
  rw [spelled] at ahead
  obtain ⟨stop, body, behind⟩ := string_body_script isQuote text.toList rest start
    (start.position.next (Text.preferredQuote text.toList)) []
  refine ⟨stop, ?_, behind⟩
  have opens : (Text.preferredQuote text.toList = '"' || Text.preferredQuote text.toList = '\'') =
      true := by
    rcases isQuote with same | same <;> rw [same] <;> decide
  rw [token, if_pos opens, string, ahead]
  simpa using body

theorem take_while_delimited {accepts : Char → Bool} {text rest : List Char}
    (accepted : ∀ char ∈ text, accepts char = true) (delimits : Text.Delimits rest)
    (comma : accepts ',' = false) (paren : accepts ')' = false) :
    (text ++ rest).takeWhile accepts = text ∧ (text ++ rest).dropWhile accepts = rest := by
  rw [List.takeWhile_append_of_pos accepted, List.dropWhile_append_of_pos accepted]
  cases rest with
  | nil => simp
  | cons char rest =>
      have stops : accepts char = false := by
        rcases delimits char rfl with rfl | rfl <;> assumption
      simp [stops]

theorem peek_delimited {cursor : Cursor} (delimits : Text.Delimits cursor.rest) {char : Char}
    (comma : char ≠ ',') (paren : char ≠ ')') : cursor.peek? ≠ some char := by
  intro ahead
  rcases delimits char ahead with same | same
  · exact comma same
  · exact paren same

theorem name_ends {cursor : Cursor} (delimits : Text.Delimits cursor.rest) :
    isNameCharNext cursor.peek? = false := by
  unfold isNameCharNext
  cases ahead : cursor.peek? with
  | none => rfl
  | some char => rcases delimits char ahead with rfl | rfl <;> decide

theorem solid_of_digit {char : Char} (digit : Text.isDigit char = true) :
    Text.isSolid char = true ∧ char ≠ '"' ∧ char ≠ '\'' := by
  have apart (other : Char) (none : Text.isDigit other = false) : char ≠ other := by
    rintro rfl
    rw [digit] at none
    cases none
  have space := apart ' ' rfl
  have tab := apart '\t' rfl
  have ret := apart '\r' rfl
  have comment := apart '#' rfl
  have feed := apart '\n' rfl
  refine ⟨?_, apart '"' rfl, apart '\'' rfl⟩
  simp [Text.isSolid, Lexer.isSpace, Lexer.isBlank, space, tab, ret, comment, feed]

/-- The digits of a number are read as the number. -/
theorem reads_digits (amount : Nat) {rest : List Char} (delimits : Text.Delimits rest) :
    Reads (Numeral.digits amount ++ rest) .intLiteral (.int amount) rest := by
  have digits := Numeral.digits_digits amount
  cases split : Numeral.digits amount with
  | nil => exact absurd split (Numeral.digits_nonempty amount)
  | cons first others =>
      have digit : Text.isDigit first = true := digits first (by rw [split]; exact List.mem_cons_self)
      obtain ⟨solid, noDouble, noSingle⟩ := solid_of_digit digit
      refine ⟨first, others ++ rest, rfl, solid, ?_⟩
      intro start ahead
      rw [← split] at ahead
      obtain ⟨taken, dropped⟩ := take_while_delimited digits delimits rfl rfl
      have wholeRest : (start.skipWhile Text.isDigit).rest = rest := by
        rw [skip_while_rest, ahead, dropped]
      have whole : start.textTo (start.skipWhile Text.isDigit) = Numeral.digits amount := by
        rw [(skip_while_passes start Text.isDigit).text_to, ahead, taken]
      have behind : Text.Delimits (start.skipWhile Text.isDigit).rest := by rwa [wholeRest]
      have noFraction : fraction? (start.skipWhile Text.isDigit) = none := by
        rw [fraction?, if_neg (peek_delimited behind (by decide) (by decide))]
      have noMark : floatMark? (start.skipWhile Text.isDigit) = none := by
        rw [floatMark?, if_neg]
        simp [peek_delimited behind (show 'f' ≠ ',' by decide) (by decide)]
      refine ⟨start.skipWhile Text.isDigit, ?_, wholeRest⟩
      rw [token, if_neg (by simp [noDouble, noSingle]), if_pos digit, number]
      simp [noFraction, noMark, name_ends behind, whole, Numeral.parse_eq_value, Numeral.digits_value]

/-- A word is read whole. -/
theorem reads_word {word : List Char} {first : Char} {others : List Char}
    (split : word = first :: others) (solid : Text.isSolid first = true)
    (starts : Text.isNameStart first = true) (plain : first ≠ '"' ∧ first ≠ '\'')
    (noDigit : Text.isDigit first = false) (name : ∀ char ∈ word, Text.isNameChar char = true)
    {rest : List Char} (delimits : Text.Delimits rest) :
    Reads (word ++ rest) (wordToken (String.ofList word)).1 (wordToken (String.ofList word)).2
      rest := by
  refine ⟨first, others ++ rest, by rw [split, List.cons_append], solid, ?_⟩
  intro start ahead
  obtain ⟨taken, dropped⟩ := take_while_delimited name delimits (by decide) (by decide)
  refine ⟨start.skipWhile Text.isNameChar, ?_, by rw [skip_while_rest, ahead, dropped]⟩
  have text : start.textTo (start.skipWhile Text.isNameChar) = word := by
    rw [(skip_while_passes start Text.isNameChar).text_to, ahead, taken]
  rw [token, if_neg (by simp [plain]), if_neg (by simp [noDigit]), if_pos starts, Scan.word, text]
  rfl

/-- The signs of one character that values are written with. -/
def sign? : Char → Option TokenClass
  | '(' => some .openParen
  | ')' => some .closeParen
  | ',' => some .comma
  | '-' => some .minus
  | _ => none

/-- A sign is read whatever follows. -/
theorem reads_sign {char : Char} {kind : TokenClass} (isSign : sign? char = some kind)
    (rest : List Char) : Reads (char :: rest) kind (.text (String.ofList [char])) rest := by
  have plain : Text.isSolid char = true ∧ char ≠ '"' ∧ char ≠ '\'' ∧ Text.isDigit char = false ∧
      Text.isNameStart char = false ∧ ∀ second, operator? char second = some (kind, false) := by
    unfold sign? at isSign
    split at isSign <;> cases isSign <;>
      exact ⟨rfl, by decide, by decide, rfl, rfl, fun _ => rfl⟩
  obtain ⟨solid, noDouble, noSingle, noDigit, noName, spells⟩ := plain
  refine ⟨char, rest, rfl, solid, ?_⟩
  intro start ahead
  have passes : Passes start [char] start.advance :=
    advance_passes_front (by simp [Cursor.peek?, ahead])
  refine ⟨start.advance, ?_, by rw [Cursor.advance, ahead]⟩
  rw [token, if_neg (by simp [noDouble, noSingle]), if_neg (by simp [noDigit]),
    if_neg (by simp [noName]), operator, spells]
  simp [passes.text_to]

end Scan

namespace Lexer

open Cursor

/-- A lexer in the middle of a line, outside of all blocks, in front of a text. -/
structure Amid (lexer : Lexer) (depth : Nat) (text : List Char) : Prop where
  idle : lexer.pending = []
  within : lexer.atLineStart = false
  level : lexer.indents = []
  inside : lexer.depth = depth
  ahead : lexer.cursor.rest = text
  noDot : lexer.last ≠ some .dot

/-- The lexer delivers signs and is then in front of the rest of the text. -/
def Spells (lexer : Lexer) (signs : List Sign) (depth : Nat) (rest : List Char) : Prop :=
  ∃ tokens after, Delivers lexer tokens after ∧ tokens.map Token.sign = signs ∧
    after.Amid depth rest

theorem Spells.trans {lexer : Lexer} {signs more : List Sign} {depth later : Nat}
    {text rest : List Char} (first : lexer.Spells signs depth text)
    (second : ∀ {middle : Lexer}, middle.Amid depth text → middle.Spells more later rest) :
    lexer.Spells (signs ++ more) later rest := by
  obtain ⟨tokens, middle, delivers, same, amid⟩ := first
  obtain ⟨others, after, further, sameToo, amidToo⟩ := second amid
  exact ⟨tokens ++ others, after, delivers.trans further, by rw [List.map_append, same, sameToo],
    amidToo⟩

/-- Spaces in front of a token are passed. -/
theorem trim_to_solid {cursor : Cursor} {spaces text : List Char} {first : Char} {others : List Char}
    (ahead : cursor.rest = spaces ++ text) (blank : ∀ char ∈ spaces, isSpace char = true)
    (split : text = first :: others) (solid : Text.isSolid first = true) :
    (trim cursor).rest = text := by
  simp only [Text.isSolid, Bool.and_eq_true, Bool.not_eq_true', bne_iff_ne] at solid
  have behind : (cursor.skipWhile isSpace).rest = text := by
    rw [skip_while_rest, ahead, List.dropWhile_append_of_pos blank, split,
      List.dropWhile_cons_of_neg (by simp [solid.1.1])]
  rw [trim, skip_comment_rest, Cursor.peek?, behind, if_neg]
  rw [split, List.head?_cons, Option.some.injEq]
  exact solid.1.2

/-- The token that a text is read as is the next one. -/
theorem Amid.spells {lexer : Lexer} {depth : Nat} {text rest : List Char} {kind : TokenClass}
    {payload : Literal} (spaces : List Char) (amid : lexer.Amid depth (spaces ++ text))
    (blank : ∀ char ∈ spaces, isSpace char = true) (reads : Scan.Reads text kind payload rest)
    (proper : kind ≠ .endOfInput ∧ kind ≠ .dot) {sign : Sign}
    (signed : ∀ lexeme span, (⟨kind, payload, lexeme, span⟩ : Token).sign = sign) :
    lexer.Spells [sign] (depthAfter depth kind) rest := by
  obtain ⟨first, others, split, solid, found⟩ := reads
  have front : lexer.trimmed.cursor.rest = text := trim_to_solid amid.ahead blank split solid
  obtain ⟨stop, scanned, behind⟩ := found lexer.trimmed.cursor front
  have noFeed : first ≠ '\n' := by
    rintro rfl
    cases solid
  have noDot : (lexer.last == some .dot) = false := by simp [amid.noDot]
  have run : scanTokens (lexer.size + 1) lexer =
      lexer.trimmed.finishScan lexer.trimmed.cursor (.found kind payload stop) := by
    rw [scan_tokens_within_line amid.within, scanContent, front, split]
    simp only [if_neg noFeed, noDot]
    rw [scanned]
  refine ⟨_, _, .one (next_made amid.idle run) proper.1, ?_, ?_⟩
  · simpa using signed _ _
  · refine ⟨rfl, amid.within, amid.level, ?_, behind, ?_⟩
    · change depthAfter lexer.depth kind = _
      rw [amid.inside]
    · simpa using proper.2

/-- A sign of one character is delivered as the mark of its class. -/
theorem Amid.spells_mark {lexer : Lexer} {depth : Nat} {rest : List Char} {char : Char}
    {kind : TokenClass} (spaces : List Char) (amid : lexer.Amid depth (spaces ++ char :: rest))
    (blank : ∀ space ∈ spaces, isSpace space = true) (isSign : Scan.sign? char = some kind) :
    lexer.Spells [.mark kind] (depthAfter depth kind) rest := by
  have marks : (kind ≠ .endOfInput ∧ kind ≠ .dot) ∧ ∀ lexeme span,
      (⟨kind, .text (String.ofList [char]), lexeme, span⟩ : Token).sign = .mark kind := by
    unfold Scan.sign? at isSign
    split at isSign <;> cases isSign <;> exact ⟨by decide, fun _ _ => rfl⟩
  exact amid.spells spaces blank (Scan.reads_sign isSign rest) marks.1 marks.2

/-- A line that begins with a token has no margin. -/
theorem next_at_solid_line {lexer : Lexer} {first : Char} {others : List Char}
    (idle : lexer.pending = []) (atStart : lexer.atLineStart = true) (level : lexer.indents = [])
    (ahead : lexer.cursor.rest = first :: others) (solid : Text.isSolid first = true) :
    lexer.next = { lexer with atLineStart := false }.next := by
  simp only [Text.isSolid, Bool.and_eq_true, Bool.not_eq_true', bne_iff_ne, isSpace,
    Bool.or_eq_false_iff] at solid
  obtain ⟨⟨⟨blank, ret⟩, comment⟩, feed⟩ := solid
  have stays (accepts : Char → Bool) (refused : accepts first = false) :
      lexer.cursor.skipWhile accepts = lexer.cursor := by
    rw [Cursor.skipWhile, ahead, Cursor.skipFrom, refused, if_neg Bool.false_ne_true, ← ahead]
  have margin : Margin.read lexer.cursor = ⟨lexer.cursor, [], lexer.cursor⟩ := by
    have noComment : skipComment lexer.cursor = lexer.cursor := by
      rw [skipComment, Cursor.peek?, ahead, if_neg (by simpa using comment)]
    have noText : lexer.cursor.textTo lexer.cursor = [] := by simp [Cursor.textTo]
    simp only [Margin.read, stays _ blank, stays (· == '\r') ret, noComment, noText]
  have noFeed : lexer.cursor.peek? ≠ some '\n' := by
    rw [Cursor.peek?, ahead]
    simpa using feed
  have skipped : Margin.skipEmpty lexer.size lexer.cursor = ⟨lexer.cursor, [], lexer.cursor⟩ := by
    cases lexer.size with
    | zero => exact margin
    | succ fuel => rw [Margin.skipEmpty, margin, if_neg noFeed]
  have begun : lexer.beginLine = (.ok [], { lexer with atLineStart := false }) := by
    rw [beginLine, skipped]
    simp [ahead, indentTokens, level, closeBlocks]
  rw [next, next, idle]
  dsimp only
  rw [scan_tokens_at_line_start atStart, begun, scan_tokens_within_line rfl, idle]

/-- At the end of the text, the line ends and then the input. -/
theorem Amid.ends {lexer : Lexer} (amid : lexer.Amid 0 []) {kind : TokenClass}
    (last : lexer.last = some kind) (visible : kind.isVisible = true) :
    ∃ newline middle ending final, lexer.next = (.ok newline, middle) ∧
      newline.sign = .mark .newline ∧ middle.next = (.ok ending, final) ∧
      ending.sign = .mark .endOfInput := by
  have atEnd : lexer.trimmed.cursor.rest = [] := by
    rw [trimmed, trim, skip_comment_rest, Cursor.peek?, skip_while_rest, amid.ahead]
    rfl
  have opened : lexer.trimmed.lineIsOpen = true := by
    change (lexer.depth == 0 && _) = true
    rw [amid.inside, trimmed, last]
    cases kind <;> first | rfl | cases visible
  have going : lexer.trimmed.last ≠ some .endOfInput := by
    rw [trimmed, last]
    rintro ⟨⟩
    cases visible
  have tokens : lexer.trimmed.endTokens =
      [lexer.trimmed.layoutToken .newline lexer.trimmed.cursor lexer.trimmed.cursor,
        lexer.trimmed.layoutToken .endOfInput lexer.trimmed.cursor lexer.trimmed.cursor] := by
    rw [endTokens, if_neg going, opened, show lexer.trimmed.indents = [] from amid.level]
    rfl
  have run : scanTokens (lexer.size + 1) lexer =
      (.ok lexer.trimmed.endTokens, lexer.trimmed.endInput) := by
    rw [scan_tokens_within_line amid.within, scanContent, atEnd]
  rw [tokens] at run
  exact ⟨_, _, _, _, next_made amid.idle run, rfl, next_waiting rfl, rfl⟩

end Lexer

namespace Value

open Lexer

/-- The characters of further elements behind the first one of a tuple. -/
def moreChars (texts : List String) : List Char :=
  texts.flatMap fun text => ',' :: ' ' :: text.toList

theorem intercalate_chars (first : List Char) (others : List String) :
    [',', ' '].intercalate (first :: others.map String.toList) = first ++ moreChars others := by
  induction others generalizing first with
  | nil => simp [moreChars]
  | cons second others induction =>
      rw [List.map_cons, List.intercalate_cons_cons, induction]
      simp [moreChars]

theorem parenthesised_chars (first : String) (others : List String) :
    (parenthesised (first :: others)).toList = '(' :: first.toList ++
      (if others = [] then [','] else moreChars others) ++ [')'] := by
  cases others with
  | nil => simp [parenthesised]
  | cons second others =>
      have joined := intercalate_chars second.toList others
      simp [parenthesised, String.toList_intercalate, joined, moreChars]

theorem delimits_more (texts : List String) {rest : List Char} (delimits : Text.Delimits rest) :
    Text.Delimits (moreChars texts ++ rest) := by
  cases texts with
  | nil => exact delimits
  | cons text texts =>
      intro char ahead
      cases ahead
      exact .inl rfl

mutual

/-- The text of a value is read as the signs of its expression. -/
theorem written_spells : ∀ (value : Value), value.isData = true →
    ∀ {lexer : Lexer} {depth : Nat} {rest : List Char} (spaces : List Char),
      lexer.Amid depth (spaces ++ (value.written.toList ++ rest)) →
      (∀ char ∈ spaces, isSpace char = true) → Text.Delimits rest →
      lexer.Spells value.tree.signs depth rest
  | .nothing, _, _, _, _, spaces, amid, blank, delimits =>
      amid.spells spaces blank
        (Scan.reads_word rfl rfl rfl (by decide) rfl (List.all_eq_true.1 rfl) delimits)
        (by decide) fun _ _ => rfl
  | .bool true, _, _, _, _, spaces, amid, blank, delimits =>
      amid.spells spaces blank
        (Scan.reads_word rfl rfl rfl (by decide) rfl (List.all_eq_true.1 rfl) delimits)
        (by decide) fun _ _ => rfl
  | .bool false, _, _, _, _, spaces, amid, blank, delimits =>
      amid.spells spaces blank
        (Scan.reads_word rfl rfl rfl (by decide) rfl (List.all_eq_true.1 rfl) delimits)
        (by decide) fun _ _ => rfl
  | .int (.ofNat number), _, _, _, _, spaces, amid, blank, delimits => by
      have text : (Value.int (.ofNat number)).written.toList = Numeral.digits number :=
        Numeral.decimal_of_nat number
      rw [text] at amid
      exact amid.spells spaces blank (Scan.reads_digits number delimits) (by decide) fun _ _ => rfl
  | .int (.negSucc number), _, _, depth, rest, spaces, amid, blank, delimits => by
      have text : (Value.int (.negSucc number)).written.toList =
          '-' :: Numeral.digits (number + 1) := Numeral.decimal_neg_succ number
      rw [text, List.cons_append] at amid
      refine (amid.spells_mark spaces blank rfl).trans fun amid => ?_
      exact Amid.spells [] amid (List.forall_mem_nil _) (Scan.reads_digits (number + 1) delimits)
        (by decide) fun _ _ => rfl
  | .string text, _, _, _, rest, spaces, amid, blank, _ =>
      amid.spells spaces blank (Scan.reads_script_literal text rest) (by decide) fun _ _ => rfl
  | .tuple [], _, lexer, depth, rest, spaces, amid, blank, _ => by
      have opened : lexer.Spells [.mark .openParen] (depth + 1) (')' :: rest) :=
        amid.spells_mark spaces blank rfl
      exact opened.trans fun amid => amid.spells_mark [] (List.forall_mem_nil _) rfl
  | .tuple [value], data, lexer, depth, rest, spaces, amid, blank, _ => by
      rw [isData, areData, Bool.and_eq_true] at data
      simp only [written, writtenAll, parenthesised_chars, if_pos, List.cons_append,
        List.append_assoc, List.nil_append] at amid
      have opened : lexer.Spells [.mark .openParen] (depth + 1)
          (value.written.toList ++ ',' :: ')' :: rest) := amid.spells_mark spaces blank rfl
      have delimits : Text.Delimits (',' :: ')' :: rest) := by simp [Text.Delimits]
      have first := opened.trans fun amid =>
        written_spells value data.1 [] amid (List.forall_mem_nil _) delimits
      have comma := first.trans fun amid => amid.spells_mark [] (List.forall_mem_nil _) rfl
      have closed := comma.trans fun amid => amid.spells_mark [] (List.forall_mem_nil _) rfl
      simpa [tree, trees, Expression.signs, depthAfter] using closed
  | .tuple (value :: second :: values), data, lexer, depth, rest, spaces, amid, blank, _ => by
      rw [isData, areData, Bool.and_eq_true] at data
      rw [written, writtenAll, parenthesised_chars, if_neg (by simp [writtenAll])] at amid
      simp only [List.cons_append, List.append_assoc, List.nil_append] at amid
      have opened : lexer.Spells [.mark .openParen] (depth + 1) (value.written.toList ++
          (moreChars (writtenAll (second :: values)) ++ ')' :: rest)) :=
        amid.spells_mark spaces blank rfl
      have delimits : Text.Delimits (')' :: rest) := by simp [Text.Delimits]
      have first := opened.trans fun amid =>
        written_spells value data.1 [] amid (List.forall_mem_nil _) (delimits_more _ delimits)
      have others := first.trans fun amid => more_written_spells (second :: values) data.2 amid delimits
      have closed := others.trans fun amid => amid.spells_mark [] (List.forall_mem_nil _) rfl
      simpa [tree, trees, Expression.signs, depthAfter] using closed

theorem more_written_spells : ∀ (values : List Value), areData values = true →
    ∀ {lexer : Lexer} {depth : Nat} {rest : List Char},
      lexer.Amid depth (moreChars (writtenAll values) ++ rest) → Text.Delimits rest →
      lexer.Spells (Expression.moreSigns (trees values)) depth rest
  | [], _, lexer, _, _, amid, _ => ⟨[], lexer, .none, rfl, amid⟩
  | value :: values, data, lexer, depth, rest, amid, delimits => by
      rw [areData, Bool.and_eq_true] at data
      simp only [moreChars, writtenAll, List.flatMap_cons, List.cons_append, List.append_assoc]
        at amid
      have comma : lexer.Spells [.mark .comma] depth
          (' ' :: (value.written.toList ++ (moreChars (writtenAll values) ++ rest))) :=
        amid.spells_mark [] (List.forall_mem_nil _) rfl
      have first := comma.trans fun amid => written_spells value data.1 [' '] amid
        (by simp [isSpace, isBlank]) (delimits_more _ delimits)
      exact first.trans fun amid => more_written_spells values data.2 amid delimits

end

/-- The text of a value begins with a token. -/
theorem written_solid : ∀ value : Value, value.isData = true →
    ∃ first others, value.written.toList = first :: others ∧ Text.isSolid first = true
  | .nothing, _ => ⟨_, _, rfl, rfl⟩
  | .bool true, _ => ⟨_, _, rfl, rfl⟩
  | .bool false, _ => ⟨_, _, rfl, rfl⟩
  | .int (.ofNat number), _ => by
      have nothing : Text.Delimits [] := by simp [Text.Delimits]
      obtain ⟨first, others, split, solid, _⟩ := Scan.reads_digits number nothing
      rw [List.append_nil] at split
      exact ⟨first, others, (Numeral.decimal_of_nat number).trans split, solid⟩
  | .int (.negSucc number), _ => ⟨_, _, Numeral.decimal_neg_succ number, rfl⟩
  | .string text, _ => by
      obtain ⟨first, others, split, solid, _⟩ := Scan.reads_script_literal text []
      rw [List.append_nil] at split
      exact ⟨first, others, split, solid⟩
  | .tuple [], _ => ⟨_, _, rfl, rfl⟩
  | .tuple (value :: values), _ => by
      rw [written, writtenAll, parenthesised_chars, List.append_assoc, List.cons_append]
      exact ⟨_, _, rfl, rfl⟩

theorem digits_no_return (number : Nat) : '\r' ∉ Numeral.digits number := by
  intro member
  have digit := Numeral.digits_digits number _ member
  cases digit

mutual

theorem written_no_return : ∀ value : Value, value.isData = true → '\r' ∉ value.written.toList
  | .nothing, _ => by decide
  | .bool true, _ => by decide
  | .bool false, _ => by decide
  | .int (.ofNat number), _ => by
      rw [show (Value.int (.ofNat number)).written.toList = _ from Numeral.decimal_of_nat number]
      exact digits_no_return number
  | .int (.negSucc number), _ => by
      rw [show (Value.int (.negSucc number)).written.toList = _ from Numeral.decimal_neg_succ number]
      simpa using digits_no_return (number + 1)
  | .string text, _ => by
      intro member
      have isQuote := Scan.preferred_quote_cases text.toList
      rw [written, Text.scriptLiteral, String.toList_ofList] at member
      simp only [List.cons_append, List.mem_cons, List.mem_append, List.mem_flatMap,
        List.not_mem_nil, or_false] at member
      have plain : Text.preferredQuote text.toList ≠ '\r' := by
        rcases isQuote with same | same <;> rw [same] <;> decide
      rcases member with same | ⟨char, _, inside⟩ | same
      · exact plain same.symm
      · rcases Scan.script_char_cases isQuote char with
          ⟨spelled, _, _, _, other⟩ | ⟨mark, spelled, _, other, _⟩
        · rw [spelled, List.mem_singleton] at inside
          exact other inside.symm
        · rw [spelled] at inside
          simp only [List.mem_cons, List.not_mem_nil, or_false] at inside
          rcases inside with slash | same
          · cases slash
          · exact other same.symm
      · exact plain same.symm
  | .tuple [], _ => by decide
  | .tuple (value :: values), data => by
      rw [isData, areData, Bool.and_eq_true] at data
      have first := written_no_return value data.1
      have others := more_written_no_return values data.2
      rw [written, writtenAll, parenthesised_chars]
      simp only [List.cons_append, List.mem_cons, List.mem_append, List.not_mem_nil, or_false,
        not_or]
      refine ⟨by decide, ⟨first, ?_⟩, by decide⟩
      split
      · decide
      · exact others

theorem more_written_no_return : ∀ values : List Value, areData values = true →
    '\r' ∉ moreChars (writtenAll values)
  | [], _ => by decide
  | value :: values, data => by
      rw [areData, Bool.and_eq_true] at data
      have first := written_no_return value data.1
      have others := more_written_no_return values data.2
      simp only [writtenAll, moreChars, List.flatMap_cons, List.cons_append, List.mem_cons,
        List.mem_append, not_or]
      exact ⟨by decide, by decide, first, others⟩

end

mutual

/-- A value is written as an expression without functions. -/
theorem tree_inline : ∀ value : Value, value.tree.isInline = true
  | .int (.ofNat _) | .int (.negSucc _) | .bool _ | .string _ | .nothing | .float _
  | .function _ => rfl
  | .tuple elements => trees_inline elements

theorem trees_inline : ∀ values : List Value, Expression.areInline (trees values) = true
  | [] => rfl
  | value :: values => by
      rw [trees, Expression.areInline, tree_inline value, trees_inline values]
      rfl

end

mutual

/-- The minus of a number nests once more than its tuples do. -/
theorem tree_nesting : ∀ value : Value, value.tree.nesting ≤ value.tupleDepth + 1
  | .int (.ofNat _) | .int (.negSucc _) | .bool _ | .string _ | .nothing | .float _
  | .function _ => by simp [tree, Expression.nesting, enclosedNesting, Expression.rank]
  | .tuple elements => by
      have inner := trees_nesting elements
      rw [tree, Expression.nesting, tupleDepth]
      omega

theorem trees_nesting : ∀ values : List Value,
    Expression.moreNesting (trees values) ≤ tupleDepths values + 2
  | [] => Nat.zero_le _
  | value :: values => by
      have first := tree_nesting value
      have others := trees_nesting values
      rw [trees, Expression.moreNesting, tupleDepths]
      omega

end

end Value

/-- The tokens of a text on one line: those of the text, then the ends of line and input. -/
theorem tokenize_line {text : String} {signs : List Sign} {last : Sign} (file : Option String)
    {first : Char} {others : List Char} (split : text.toList = first :: others)
    (solid : Text.isSolid first = true) (noReturn : '\r' ∉ text.toList)
    (spells : ∀ {lexer : Lexer}, lexer.Amid 0 text.toList → lexer.Spells (signs ++ [last]) 0 [])
    (visible : last.kind.isVisible = true) :
    ∃ tokens newline ending, (tokenize text file).tokens = tokens ++ [newline] ++ [ending] ∧
      (tokenize text file).failure = none ∧ tokens.map Token.sign = signs ++ [last] ∧
      newline.sign = .mark .newline ∧ ending.sign = .mark .endOfInput := by
  let start := Lexer.ofText text file
  have ahead : start.cursor.rest = text.toList := Text.drop_returns_of_none noReturn
  have same : start.next = { start with atLineStart := false }.next :=
    Lexer.next_at_solid_line rfl rfl rfl (ahead.trans split) solid
  have amid : { start with atLineStart := false }.Amid 0 text.toList :=
    ⟨rfl, rfl, rfl, rfl, ahead, by simp [start, Lexer.ofText]⟩
  obtain ⟨tokens, after, delivers, spelled, amidEnd⟩ := spells amid
  have delivered : Lexer.Delivers start tokens after := by
    cases delivers with
    | none => simp at spelled
    | more gives proper others => exact .more (same.trans gives) proper others
  obtain ⟨front, back, rfl, _, isLast⟩ := List.map_eq_append_iff.1 spelled
  obtain ⟨final, rfl, signed⟩ := List.map_eq_singleton_iff.1 isLast
  have isVisible : final.kind.isVisible = true := by rwa [← Token.sign_kind, signed]
  obtain ⟨newline, middle, ending, stop, lineEnds, isNewline, inputEnds, isEnd⟩ :=
    amidEnd.ends delivered.last isVisible
  have proper : newline.kind ≠ .endOfInput := by
    rw [(Token.mark_of_sign isNewline).2.2]
    decide
  have read := tokenize_of_delivers (delivered.trans (.one lineEnds proper)) inputEnds
    (Token.mark_of_sign isEnd).2.2
  exact ⟨front ++ [final], newline, ending, by rw [read], by rw [read], spelled, isNewline, isEnd⟩

namespace Value

/-- The expression of a value ends with a visible sign. -/
theorem tree_last (value : Value) : ∃ signs last, value.tree.signs = signs ++ [last] ∧
    last.kind.isVisible = true := by
  have literal (denoted : Literal) : ∃ signs last, [Sign.literal denoted] = signs ++ [last] ∧
      last.kind.isVisible = true := ⟨[], _, rfl, by cases denoted <;> rfl⟩
  match value with
  | .nothing | .bool _ | .string _ | .int (.ofNat _) | .float _ | .function _ => exact literal _
  | .int (.negSucc number) => exact ⟨[.mark .minus], _, rfl, rfl⟩
  | .tuple [] => exact ⟨[.mark .openParen], _, rfl, rfl⟩
  | .tuple [element] =>
      exact ⟨.mark .openParen :: element.tree.signs ++ [.mark .comma], .mark .closeParen,
        by simp [tree, trees, Expression.signs], rfl⟩
  | .tuple (first :: second :: others) => exact ⟨_, _, rfl, rfl⟩

/-- The tokens of a written value are those of its expression. -/
theorem tokenize_written {value : Value} (data : value.isData = true) (file : Option String) :
    ∃ tokens newline ending,
      (tokenize value.written file).tokens = tokens ++ [newline] ++ [ending] ∧
      (tokenize value.written file).failure = none ∧ tokens.map Token.sign = value.tree.signs ∧
      newline.sign = .mark .newline ∧ ending.sign = .mark .endOfInput := by
  obtain ⟨signs, last, spelled, visible⟩ := value.tree_last
  obtain ⟨first, others, split, solid⟩ := value.written_solid data
  have spells {lexer : Lexer} (amid : lexer.Amid 0 value.written.toList) :
      lexer.Spells value.tree.signs 0 [] :=
    value.written_spells data [] (by simpa using amid) (List.forall_mem_nil _)
      (by simp [Text.Delimits])
  rw [spelled] at spells ⊢
  exact tokenize_line file split solid (value.written_no_return data) spells visible

/-- The text of a value is a program of its expression. -/
theorem written_program {value : Value} (data : value.isData = true) {limits : Limits}
    (within : value.tupleDepth + 2 ≤ limits.nesting) (file : Option String) :
    ∃ program, Program.ofSource value.written file limits = .ok program ∧
      ∃ span found, program.statements = [.evaluate span found false] ∧ value.tree.Like found := by
  obtain ⟨tokens, newline, ending, made, clean, same, isNewline, isEnd⟩ :=
    tokenize_written data file
  have laid : Laid (.lines [.evaluate default value.tree false])
      (value.tree.signs ++ [.mark .newline] ++ []) (max (value.tree.nesting + 1) 0) :=
    .oneLine (.openExpression (.line (Expression.plain_written value.tree_inline))) .noLines
  have room := value.tree_nesting
  have written : (tokens ++ [newline]).map Token.sign = value.tree.signs ++ [.mark .newline] ++ [] := by
    rw [List.map_append, same, List.map_singleton, isNewline, List.append_nil]
  have ends : ∀ token ∈ [ending].head?, token.kind = .endOfInput := by
    simpa using (Token.mark_of_sign isEnd).2.2
  obtain ⟨program, run, alike⟩ := laid.read_within written ends file limits (by omega)
  rw [← made] at run
  refine ⟨program, Program.of_source_of_tokens clean run, ?_⟩
  rw [Statement.unplaced_all_eq_map, Statement.unplaced_all_eq_map, List.map_singleton] at alike
  obtain ⟨statement, single, same⟩ := List.map_eq_singleton_iff.1 alike
  cases statement with
  | evaluate span found closed =>
      simp only [Statement.unplaced, Statement.evaluate.injEq, true_and] at same
      exact ⟨span, found, by rw [single, same.2], same.1⟩
  | _ => cases same

section Evaluate

variable (context : Context)

theorem evaluate_literal {value : Literal} {found : Expression}
    (like : (Expression.literal default value).Like found) (fuel : Nat) (machine : Machine) :
    (evaluate context (fuel + 1) found).run machine = (.ok (.ofLiteral value), machine) := by
  cases found with
  | literal span other =>
      cases like
      rfl
  | _ => cases like

mutual

/-- The expression of a value evaluates to the value and leaves the machine alone. -/
theorem evaluate_tree : ∀ value : Value, value.isData = true →
    ∀ {found : Expression}, value.tree.Like found → ∃ fuel, ∀ gap machine,
      (evaluate context (fuel + gap) found).run machine = (.ok value, machine)
  | .nothing, _, _, like => ⟨1, fun gap => Nat.add_comm 1 gap ▸ evaluate_literal context like gap⟩
  | .bool _, _, _, like => ⟨1, fun gap => Nat.add_comm 1 gap ▸ evaluate_literal context like gap⟩
  | .string _, _, _, like => ⟨1, fun gap => Nat.add_comm 1 gap ▸ evaluate_literal context like gap⟩
  | .int (.ofNat _), _, _, like =>
      ⟨1, fun gap => Nat.add_comm 1 gap ▸ evaluate_literal context like gap⟩
  | .int (.negSucc number), _, found, like => by
      cases found with
      | unary span operator operand =>
          simp only [tree, Expression.Like, Expression.unplaced, Expression.unary.injEq,
            true_and] at like
          obtain ⟨rfl, like⟩ := like
          refine ⟨2, fun gap machine => ?_⟩
          rw [Nat.add_comm, evaluate, Evaluation.run_bind_ok (evaluate_literal context like gap machine)]
          rfl
      | _ => cases like
  | .tuple elements, data, found, like => by
      cases found with
      | tuple span found =>
          simp only [tree, Expression.Like, Expression.unplaced, Expression.tuple.injEq,
            true_and] at like
          obtain ⟨fuel, runs⟩ := evaluate_trees elements data like
          refine ⟨fuel + 1, fun gap machine => ?_⟩
          rw [Nat.add_right_comm, evaluate, Evaluation.run_bind_ok (runs gap machine)]
          rfl
      | _ => cases like

theorem evaluate_trees : ∀ values : List Value, areData values = true →
    ∀ {found : List Expression},
      Expression.unplacedAll found = Expression.unplacedAll (trees values) → ∃ fuel, ∀ gap machine,
        (evaluateAll context (fuel + gap) found).run machine = (.ok values, machine)
  | [], _, found, like => by
      cases found with
      | nil => exact ⟨1, fun gap machine => by rw [Nat.add_comm, evaluateAll]; rfl⟩
      | cons => cases like
  | value :: values, data, found, like => by
      rw [areData, Bool.and_eq_true] at data
      cases found with
      | nil => cases like
      | cons first others =>
          simp only [trees, Expression.unplacedAll, List.cons.injEq] at like
          obtain ⟨fuel, runs⟩ := evaluate_tree value data.1 like.1
          obtain ⟨moreFuel, runsMore⟩ := evaluate_trees values data.2 like.2
          refine ⟨fuel + moreFuel + 1, fun gap machine => ?_⟩
          have runFirst := runs (moreFuel + gap) machine
          have runOthers := runsMore (fuel + gap) machine
          rw [← Nat.add_assoc] at runFirst
          rw [← Nat.add_assoc, Nat.add_comm moreFuel] at runOthers
          rw [Nat.add_right_comm, evaluateAll, Evaluation.run_bind_ok runFirst,
            Evaluation.run_bind_ok runOthers]
          rfl

end

end Evaluate

section Run

open Evaluation

/-- The first checkpoint of a run is within every budget but the empty one. -/
theorem run_first_checkpoint {limits : Limits} (budget : limits.steps ≠ some 0) (capacity : Nat)
    (kind : NodeKind) (span : Span) {machine : Machine} (fresh : machine.steps = 0) :
    (checkpoint ⟨limits, none, capacity⟩ kind span).run machine =
      (.ok (), counted span machine) := by
  have room : Limits.exceeds (machine.steps + 1) limits.steps = none := by
    cases steps : limits.steps with
    | none => rfl
    | some limit =>
        have positive : limit ≠ 0 := fun zero => budget (by rw [steps, zero])
        rw [Limits.exceeds, if_neg (by omega)]
  rw [run_checkpoint, room]

/-- A text that is a single open expression gives the value of the expression. -/
theorem run_single {limits : Limits} {capacity fuel : Nat} {source : String} {file : Option String}
    {program : Program} {span : Span} {expression : Expression} {value : Value}
    (read : Program.ofSource source file limits = .ok program)
    (single : program.statements = [.evaluate span expression false])
    (budget : limits.steps ≠ some 0) {machine : Machine}
    (runs : ∀ machine, (evaluate ⟨limits, none, capacity⟩ fuel expression).run machine =
      (.ok value, machine)) :
    (machine.runSource limits capacity (fuel + 1) source file).1 = .ok value := by
  have passes := run_first_checkpoint budget capacity .evaluate span
    (show machine.readied.steps = 0 from rfl)
  have executes : (execute ⟨limits, none, capacity⟩ (fuel + 1) (.evaluate span expression false)).run
      machine.readied = (.ok value, counted span machine.readied) := by
    rw [execute_eq_checkpoint, Statement.kind, Statement.span, run_bind_ok passes, afterCheckpoint,
      run_bind_ok (runs _)]
    rfl
  have ran : (machine.run ⟨limits, none, capacity⟩ (fuel + 1) program).1 = .ok value := by
    rw [Machine.run, Machine.run_guarded, single, executeProgram, run_bind_ok executes,
      executeProgram, run_pure]
  generalize fuel + 1 = total at ran ⊢
  unfold Machine.runSource
  rw [read]
  dsimp only
  split
  · rename_i result
    rwa [result] at ran
  · rename_i result
    rw [result] at ran
    cases ran

theorem run_written {value : Value} (data : value.isData = true) {limits : Limits}
    (within : value.tupleDepth + 2 ≤ limits.nesting) (budget : limits.steps ≠ some 0)
    (capacity : Nat) (file : Option String) : ∃ fuel, ∀ gap,
      (Machine.initial.runSource limits capacity (fuel + gap) value.written file).1 = .ok value := by
  obtain ⟨program, read, span, found, single, like⟩ := written_program data within file
  obtain ⟨fuel, runs⟩ := evaluate_tree ⟨limits, none, capacity⟩ value data like
  refine ⟨fuel + 1, fun gap => ?_⟩
  rw [Nat.add_right_comm]
  exact run_single read single budget (runs gap)

end Run

/-- Written values read back. A script that is the text of a value without floats and functions
gives this value, if its tuples and the sign of a number do not nest too deeply; the one step
that it takes is within every budget that settings allow. The text of a string is a single
literal token. -/
theorem written_reads_back (limits : Limits) (capacity : Nat) (file : Option String) :
    (∀ value : Value, value.isData = true → value.tupleDepth + 2 ≤ limits.nesting →
      limits.steps ≠ some 0 → ∃ fuel, ∀ gap,
        (Machine.initial.runSource limits capacity (fuel + gap) value.written file).1 =
          .ok value) ∧
    ∀ text : String, (tokenize (Text.scriptLiteral text) file).failure = none ∧
      ∃ literal newline ending,
        (tokenize (Text.scriptLiteral text) file).tokens = [literal, newline, ending] ∧
        literal.kind = .stringLiteral ∧ literal.payload = .text text ∧
        newline.kind = .newline ∧ ending.kind = .endOfInput := by
  refine ⟨fun value data within budget => run_written data within budget capacity file, fun text => ?_⟩
  obtain ⟨tokens, newline, ending, made, clean, same, isNewline, isEnd⟩ :=
    tokenize_written (show (Value.string text).isData = true from rfl) file
  obtain ⟨literal, rfl, signed⟩ := List.map_eq_singleton_iff.1 same
  refine ⟨clean, literal, newline, ending, made, ?_, ?_, (Token.mark_of_sign isNewline).2.2,
    (Token.mark_of_sign isEnd).2.2⟩
  · rw [← Token.sign_kind, signed]
    rfl
  · have denotes := Token.literal_of_sign signed
    unfold Token.literal? at denotes
    split at denotes
    · simpa using denotes
    · cases denotes

/-- A tuple with a number below zero, a text that needs escapes and a tuple of one element. -/
def mixedTuple : Value := .tuple [.int (-12), .string "it's \"so\\\n", .tuple [.nothing]]

theorem mixed_tuple_reads_back :
    mixedTuple.written = "(-12, 'it\\'s \"so\\\\\\n', (none,))" ∧ mixedTuple.isData = true ∧
    mixedTuple.tupleDepth + 2 ≤ ({} : Limits).nesting ∧ ∃ fuel, ∀ gap,
      (Machine.initial.runSource {} 100 (fuel + gap) mixedTuple.written none).1 = .ok mixedTuple :=
  ⟨by decide +kernel, rfl, by decide,
    (written_reads_back {} 100 none).1 mixedTuple rfl (by decide) (by decide)⟩

end Value

end LayoutScript
