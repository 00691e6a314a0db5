import LayoutScript.Proofs.Token.Extent

/-!
Layout tokens follow the indentation. Blocks are opened and closed where the widths of lines say
so, and nothing of this happens within parentheses. The widths of the open blocks are what a
lexer keeps in its stack, so that the first token of a line stands at the width on top of it.
-/

namespace LayoutScript

/-- The blanks that a line of a text starts with. Lines count from one. -/
def Text.leading (text : List Char) (line : Nat) : Nat :=
  (((List.splitOn '\n' text)[line - 1]?.getD []).takeWhile Lexer.isBlank).length

/-- Tokens in which every parenthesis has its partner. -/
inductive Enclosed : List Token → Prop where
  | none : Enclosed []
  | other {token : Token} {tokens : List Token} (noOpen : token.kind ≠ .openParen)
      (noClose : token.kind ≠ .closeParen) (others : Enclosed tokens) : Enclosed (token :: tokens)
  | pair {opening closing : Token} {inner tokens : List Token} (isOpen : opening.kind = .openParen)
      (inside : Enclosed inner) (isClose : closing.kind = .closeParen) (others : Enclosed tokens) :
      Enclosed (opening :: inner ++ closing :: tokens)

/-- Behind some tokens no parenthesis is open: each of them is closed by its partner. -/
def Outside (tokens : List Token) : Prop :=
  ∀ before opening rest, tokens = before ++ opening :: rest → opening.kind = .openParen →
    ∃ inner closing behind, rest = inner ++ closing :: behind ∧ Enclosed inner ∧
      closing.kind = .closeParen

/-- The indents that are open behind one more token. -/
def stepIndents (opened : List Token) (token : Token) : List Token :=
  match token.kind with
  | .indent => token :: opened
  | .dedent => opened.tail
  | _ => opened

/-- The indents that are open behind some tokens, innermost first. -/
def openIndents (tokens : List Token) : List Token := tokens.foldl stepIndents []

/-- A token of a line that has no other token that is spelled by characters before it. -/
def Token.LeadsLine (before : List Token) (token : Token) : Prop :=
  token.kind.isVisible = true ∧ ∀ other ∈ before, other.kind.isVisible = true →
    other.span.start.line ≠ token.span.start.line

/-- Some tokens end in a newline, or there are none. -/
def EndInNewline (tokens : List Token) : Prop :=
  tokens = [] ∨ ∃ front newline, tokens = front ++ [newline] ∧ newline.kind = .newline

/-- The layout tokens among the tokens of a text follow its indentation. The end of input is one
of them: it may stand anywhere in a last line of blanks. -/
structure FollowsIndentation (text : List Char) (tokens : List Token) : Prop where
  ending : ∃ front last, tokens = front ++ [last] ∧ last.kind = .endOfInput ∧
    ∀ token ∈ front, token.kind ≠ .endOfInput
  opened : ∀ front, front <+: tokens →
    front.countP (·.kind = .dedent) ≤ front.countP (·.kind = .indent)
  closed : tokens.countP (·.kind = .dedent) = tokens.countP (·.kind = .indent)
  enclosed : ∀ before opening inner closing behind,
    tokens = before ++ opening :: inner ++ closing :: behind → opening.kind = .openParen →
    Enclosed inner → closing.kind = .closeParen → ∀ token ∈ inner, token.kind.isLayout = false
  indents : ∀ before token behind, tokens = before ++ token :: behind → token.kind = .indent →
    EndInNewline before
  level : ∀ before token behind, tokens = before ++ token :: behind → token.LeadsLine before →
    Outside before → Text.leading text token.span.start.line =
      ((openIndents before).head?.map fun indent => Text.leading text indent.span.start.line).getD 0

/-- The parentheses that are open behind some tokens, if some were open in front of them. -/
def parenDepth (depth : Nat) (tokens : List Token) : Nat :=
  tokens.foldl (fun depth token => Lexer.depthAfter depth token.kind) depth

section Parentheses

variable {tokens : List Token}

theorem paren_depth_cons (depth : Nat) (token : Token) (tokens : List Token) :
    parenDepth depth (token :: tokens) =
      parenDepth (Lexer.depthAfter depth token.kind) tokens := rfl

theorem paren_depth_append (depth : Nat) (tokens others : List Token) :
    parenDepth depth (tokens ++ others) = parenDepth (parenDepth depth tokens) others :=
  List.foldl_append

theorem depth_after_open {token : Token} (isOpen : token.kind = .openParen) (depth : Nat) :
    Lexer.depthAfter depth token.kind = depth + 1 := by
  rw [isOpen, Lexer.depthAfter]

theorem depth_after_close {token : Token} (isClose : token.kind = .closeParen) (depth : Nat) :
    Lexer.depthAfter depth token.kind = depth - 1 := by
  rw [isClose, Lexer.depthAfter]

theorem depth_after_other {token : Token} (noOpen : token.kind ≠ .openParen)
    (noClose : token.kind ≠ .closeParen) (depth : Nat) :
    Lexer.depthAfter depth token.kind = depth := by
  unfold Lexer.depthAfter
  split
  · contradiction
  · contradiction
  · rfl

theorem paren_depth_plain {others : List Token}
    (plain : ∀ token ∈ others, token.kind ≠ .openParen ∧ token.kind ≠ .closeParen) (depth : Nat) :
    parenDepth depth others = depth := by
  induction others with
  | nil => rfl
  | cons token others induction =>
      rw [List.forall_mem_cons] at plain
      rw [paren_depth_cons, depth_after_other plain.1.1 plain.1.2, induction plain.2]

/-- A parenthesis and its partner leave the depth as it was. -/
theorem paren_depth_pair {opening closing : Token} {inner : List Token}
    (isOpen : opening.kind = .openParen) (isClose : closing.kind = .closeParen)
    (inside : ∀ depth, parenDepth depth inner = depth) (depth : Nat) (others : List Token) :
    parenDepth depth (opening :: inner ++ closing :: others) = parenDepth depth others := by
  rw [List.cons_append, paren_depth_cons, paren_depth_append, inside, paren_depth_cons,
    depth_after_close isClose, depth_after_open isOpen, Nat.add_sub_cancel]

/-- Tokens that are enclosed close what they open, and nothing else. -/
theorem Enclosed.depth_eq (enclosed : Enclosed tokens) (depth : Nat) :
    parenDepth depth tokens = depth := by
  induction enclosed generalizing depth with
  | none => rfl
  | other noOpen noClose _ induction =>
      rw [paren_depth_cons, depth_after_other noOpen noClose, induction]
  | pair isOpen _ isClose _ inside others =>
      rw [paren_depth_pair isOpen isClose inside, others]

/-- No part of enclosed tokens closes a parenthesis in front of them. -/
theorem Enclosed.depth_le (enclosed : Enclosed tokens) {front back : List Token}
    (parts : tokens = front ++ back) (depth : Nat) : depth ≤ parenDepth depth front := by
  induction enclosed generalizing front back depth with
  | none =>
      rw [(List.append_eq_nil_iff.1 parts.symm).1]
      exact Nat.le_refl _
  | other noOpen noClose _ induction =>
      cases front with
      | nil => exact Nat.le_refl _
      | cons token front =>
          cases parts
          rw [paren_depth_cons, depth_after_other noOpen noClose]
          exact induction rfl depth
  | @pair opening closing inner tokens isOpen inside isClose _ inner_le others_le =>
      cases front with
      | nil => exact Nat.le_refl _
      | cons token front =>
          rw [List.cons_append, List.cons_append, List.cons.injEq] at parts
          rcases parts with ⟨rfl, parts⟩
          rw [paren_depth_cons, depth_after_open isOpen]
          rcases List.append_eq_append_iff.1 parts with ⟨more, rfl, rest⟩ | ⟨more, rfl, _⟩
          · cases more with
            | nil =>
                rw [List.append_nil, inside.depth_eq]
                exact Nat.le_succ _
            | cons first more =>
                cases rest
                have same := paren_depth_pair isOpen isClose inside.depth_eq depth more
                rw [List.cons_append, paren_depth_cons, depth_after_open isOpen] at same
                rw [same]
                exact others_le rfl depth
          · exact Nat.le_trans (Nat.le_succ _) (inner_le rfl (depth + 1))

theorem Outside.suffix (before : List Token) (outside : Outside (before ++ tokens)) :
    Outside tokens := by
  intro front opening rest parts isOpen
  apply outside (before ++ front) opening rest _ isOpen
  rw [parts, List.append_assoc]

/-- Where no parenthesis is open, the depth has not grown. -/
theorem Outside.depth_le (outside : Outside tokens) (depth : Nat) :
    parenDepth depth tokens ≤ depth := by
  induction size : tokens.length using Nat.strong_induction_on generalizing tokens depth with
  | _ size induction =>
      subst size
      cases tokens with
      | nil => exact Nat.le_refl _
      | cons token tokens =>
          have others : Outside tokens := outside.suffix [token]
          by_cases isOpen : token.kind = .openParen
          · rcases outside [] token tokens rfl isOpen with
              ⟨inner, closing, behind, rfl, enclosed, isClose⟩
            rw [List.append_cons] at others
            rw [← List.cons_append, paren_depth_pair isOpen isClose enclosed.depth_eq]
            exact induction behind.length (by simp; omega) (others.suffix _) depth rfl
          · have later := induction tokens.length (Nat.lt_succ_self _) others
              (Lexer.depthAfter depth token.kind) rfl
            have once : Lexer.depthAfter depth token.kind ≤ depth := by
              unfold Lexer.depthAfter
              split
              · contradiction
              · exact Nat.sub_le _ _
              · exact Nat.le_refl _
            exact Nat.le_trans later once

end Parentheses

/-- Something holds of every token of a list and of the tokens before it. -/
def AtEach (holds : List Token → Token → Prop) (tokens : List Token) : Prop :=
  ∀ before token behind, tokens = before ++ token :: behind → holds before token

section AtEach

variable {holds : List Token → Token → Prop} {tokens : List Token}

theorem at_each_nil : AtEach holds [] := by
  intro before token behind parts
  cases before <;> cases parts

theorem AtEach.front {more : List Token} (all : AtEach holds (tokens ++ more)) :
    AtEach holds tokens := by
  intro before token behind parts
  apply all before token (behind ++ more)
  rw [parts, List.append_assoc, List.cons_append]

theorem AtEach.snoc {token : Token} (first : AtEach holds tokens) (last : holds tokens token) :
    AtEach holds (tokens ++ [token]) := by
  intro before other behind parts
  rcases List.eq_nil_or_concat behind with rfl | ⟨middle, final, rfl⟩
  · rcases List.append_inj' parts rfl with ⟨rfl, same⟩
    cases same
    exact last
  · rw [List.concat_eq_append, ← List.cons_append, ← List.append_assoc] at parts
    exact first before other middle (List.append_inj' parts rfl).1

/-- Copies of a token. -/
theorem AtEach.copies {count : Nat} {token : Token} (first : AtEach holds tokens)
    (all : ∀ smaller < count, holds (tokens ++ List.replicate smaller token) token) :
    AtEach holds (tokens ++ List.replicate count token) := by
  induction count with
  | zero =>
      rw [List.replicate_zero, List.append_nil]
      exact first
  | succ count induction =>
      rw [List.replicate_succ', ← List.append_assoc]
      apply (induction fun smaller less => all smaller (Nat.lt_succ_of_lt less)).snoc
      exact all count (Nat.lt_succ_self _)

end AtEach

section Blocks

variable {tokens : List Token} {token : Token}

theorem open_indents_snoc (tokens : List Token) (token : Token) :
    openIndents (tokens ++ [token]) = stepIndents (openIndents tokens) token := by
  rw [openIndents, List.foldl_append]
  rfl

theorem open_indents_other (noIndent : token.kind ≠ .indent) (noDedent : token.kind ≠ .dedent)
    (tokens : List Token) : openIndents (tokens ++ [token]) = openIndents tokens := by
  rw [open_indents_snoc, stepIndents]
  split
  · contradiction
  · contradiction
  · rfl

theorem open_indents_indent (isIndent : token.kind = .indent) (tokens : List Token) :
    openIndents (tokens ++ [token]) = token :: openIndents tokens := by
  rw [open_indents_snoc, stepIndents, isIndent]

theorem open_indents_dedents (isDedent : token.kind = .dedent) (tokens : List Token)
    (count : Nat) :
    openIndents (tokens ++ List.replicate count token) = (openIndents tokens).drop count := by
  induction count with
  | zero => rw [List.replicate_zero, List.append_nil, List.drop_zero]
  | succ count induction =>
      rw [List.replicate_succ', ← List.append_assoc, open_indents_snoc, induction, stepIndents,
        isDedent, List.tail_drop]

/-- Where every dedent closes an indent, the indents are the dedents and what is open. -/
theorem indents_eq (closes : AtEach (fun before token => token.kind = .dedent →
      openIndents before ≠ []) tokens) :
    tokens.countP (·.kind = .indent) =
      tokens.countP (·.kind = .dedent) + (openIndents tokens).length := by
  induction tokens using List.reverseRecOn with
  | nil => rfl
  | append_singleton tokens token induction =>
      have before := induction closes.front
      have last := closes tokens token [] rfl
      simp only [List.countP_append, List.countP_singleton]
      by_cases isIndent : token.kind = .indent
      · rw [open_indents_indent isIndent, List.length_cons]
        simp only [isIndent, decide_true, if_true, reduceCtorEq, decide_false, Bool.false_eq_true,
          if_false]
        omega
      · by_cases isDedent : token.kind = .dedent
        · have opened := List.length_pos_iff.2 (last isDedent)
          rw [open_indents_snoc, stepIndents, isDedent, List.length_tail]
          simp only [decide_true, if_true, reduceCtorEq, decide_false, Bool.false_eq_true, if_false]
          omega
        · rw [open_indents_other isIndent isDedent]
          simp only [isIndent, isDedent, decide_false, Bool.false_eq_true, if_false]
          omega

end Blocks

namespace Text

/-- A line that starts behind a line feed starts with the blanks that are ahead there. -/
theorem leading_at {front back : List Char} (ends : Lexer.EndsLine front) :
    leading (front ++ back) (Position.behind front).line =
      (back.takeWhile Lexer.isBlank).length := by
  have fresh : openLine front = [] := by
    rw [open_line_eq, ← List.append_nil front]
    exact last_line_append ends (List.forall_mem_nil _)
  have found := split_on_at List.not_mem_nil front back
  rw [List.nil_append] at found
  change _ = some (openLine front ++ _) at found
  rw [fresh, List.nil_append] at found
  rw [leading, Position.line_behind, Nat.add_sub_cancel, found, Option.getD_some,
    List.takeWhile_takeWhile]
  congr 2
  funext char
  by_cases blank : Lexer.isBlank char = true
  · have other : char ≠ '\n' := by
      rintro rfl
      cases blank
    simp [blank, other]
  · simp [blank]

end Text

namespace Lexer

open Cursor

variable {lexer after : Lexer} {text : List Char} {tokens : List Token}

/-- What a token needs to have in front of it. Layout comes outside parentheses, dedents close an
open indent, an indent is behind a newline, and the first token of a line is at its level. -/
structure Fits (text : List Char) (before : List Token) (token : Token) : Prop where
  proper : token.kind ≠ .endOfInput
  layout : token.kind.isLayout = true → parenDepth 0 before = 0
  dedent : token.kind = .dedent → openIndents before ≠ []
  indent : token.kind = .indent → EndInNewline before
  level : token.LeadsLine before → parenDepth 0 before = 0 →
    Text.leading text token.span.start.line =
      ((openIndents before).map fun indent => Text.leading text indent.span.start.line).headD 0

/-- A lexer that has made tokens, up to some place before the end of input. -/
structure Aligned (text : List Char) (tokens : List Token) (lexer : Lexer) : Prop where
  placed : lexer.Placed
  source : lexer.source = text
  fits : AtEach (Fits text) tokens
  depth : parenDepth 0 tokens = lexer.depth
  stack : (openIndents tokens).map (fun indent => Text.leading text indent.span.start.line) =
    lexer.indents
  going : lexer.last ≠ some .endOfInput
  fresh : lexer.atLineStart = true → lexer.depth = 0 → EndInNewline tokens
  level : lexer.atLineStart = false → lexer.depth = 0 → lexer.cursor.rest ≠ [] →
    (∀ token ∈ tokens, token.kind.isVisible = true →
      token.span.start.line ≠ lexer.cursor.position.line) →
    Text.leading text lexer.cursor.position.line = lexer.indents.headD 0

theorem aligned_of_text (source : String) (file : Option String) :
    (ofText source file).Aligned (Text.dropReturns source.toList) [] :=
  ⟨.of_text source file, rfl, at_each_nil, rfl, rfl, by simp [ofText], fun _ _ => .inl rfl,
    fun within => by cases within⟩

theorem close_blocks_drop (width : Nat) (indents : List Nat) :
    (closeBlocks width indents).2 = indents.drop (closeBlocks width indents).1 := by
  induction indents with
  | nil => rfl
  | cons innermost outer induction =>
      rw [closeBlocks]
      split
      · exact induction
      · rfl

/-- What is passed has no line feed. -/
theorem skip_comment_inline (cursor : Cursor) : Scan.Inline cursor (skipComment cursor) := by
  unfold skipComment
  split
  · exact Scan.inline_skip_while cursor rfl
  · exact .none cursor

theorem trim_inline (cursor : Cursor) : Scan.Inline cursor (trim cursor) :=
  (Scan.inline_skip_while cursor rfl).trans (skip_comment_inline _)

theorem margin_inline (line : Cursor) : Scan.Inline line (Margin.read line).stop :=
  ((Scan.inline_skip_while line rfl).trans (Scan.inline_skip_while _ rfl)).trans
    (skip_comment_inline _)

/-- The width of a margin is that of its line. -/
theorem Margin.Ahead.leading {margin : Margin} (ahead : margin.Ahead lexer.cursor)
    (placed : lexer.Placed) (atStart : lexer.atLineStart = true) :
    Text.leading lexer.source margin.start.position.line = margin.blanks.length ∧
      margin.stop.position.line = margin.start.position.line := by
  rcases placed.passed with ⟨passed, passes, ends⟩
  rcases ahead.line with ⟨more, line, further, endsToo, rfl⟩
  have whole := passes.trans further
  have position : line.position = Position.behind (passed ++ more) := whole.position
  rcases margin_inline line with ⟨margin, toStop, single⟩
  constructor
  · have source : lexer.source = passed ++ more ++ line.rest := whole.rest
    rw [margin_blanks, source]
    change Text.leading _ line.position.line = _
    rw [position, Text.leading_at (ends_line_append (ends atStart) endsToo)]
  · exact toStop.same_line single

/-- A dedent closes an indent outside parentheses. -/
theorem fits_dedent {before : List Token} {token : Token} (isDedent : token.kind = .dedent)
    (outside : parenDepth 0 before = 0) (opened : openIndents before ≠ []) :
    Fits text before token := by
  refine ⟨by simp [isDedent], fun _ => outside, fun _ => opened, by simp [isDedent], ?_⟩
  intro leads
  have visible := leads.1
  rw [isDedent] at visible
  cases visible

theorem Begins.aligned {margin : Margin} {made : List Token} (aligned : lexer.Aligned text tokens)
    (atStart : lexer.atLineStart = true) (ahead : margin.Ahead lexer.cursor)
    (begins : Begins lexer margin (.ok made) after) : after.Aligned text (tokens ++ made) := by
  rcases begins.kept with ⟨kept, cursor, within, _⟩
  rcases aligned with ⟨placed, rfl, fits, depth, stack, going, fresh, _⟩
  rcases ahead.passes with ⟨passed, passes⟩
  rcases ahead.leading placed atStart with ⟨leading, sameLine⟩
  rw [← cursor] at passes sameLine
  have goneOn : ¬after.atLineStart = true := by
    rw [within]
    exact Bool.false_ne_true
  have afterPlaced : after.Placed := placed.moved kept passes fun again => absurd again goneOn
  rw [← sameLine] at leading
  generalize isMade : (Except.ok made : Except ScriptError (List Token)) = result at begins
  cases begins with
  | bare nothing =>
      cases isMade
      rw [List.append_nil]
      refine ⟨afterPlaced, rfl, fits, depth, stack, going, fun again => absurd again goneOn,
        fun _ outside more => ?_⟩
      rcases nothing with atEnd | inside
      · exact absurd atEnd more
      · exact absurd outside (Nat.ne_of_gt inside)
  | wider more outside unmixed wide =>
      cases isMade
      refine ⟨afterPlaced, rfl, fits.snoc ?_, ?_, ?_, going, fun again => absurd again goneOn,
        fun _ _ _ _ => leading⟩
      · refine ⟨by simp [layoutToken], fun _ => depth.trans outside, by simp [layoutToken],
          fun _ => fresh atStart outside, fun leads => ?_⟩
        cases leads.1
      · rw [paren_depth_append, depth]
        rfl
      · rw [open_indents_indent rfl, List.map_cons, stack]
        change Text.leading lexer.source margin.start.position.line :: _ = _
        rw [← sameLine, leading]
  | @closes _ closed remaining more outside unmixed narrow blocks level =>
      cases isMade
      have count := close_blocks_count margin.blanks.length lexer.indents
      have dropped := close_blocks_drop margin.blanks.length lexer.indents
      rw [blocks] at count dropped
      have plain (count : Nat) : parenDepth 0 (tokens ++ List.replicate count
          (lexer.layoutToken .dedent margin.start margin.stop)) = lexer.depth := by
        rw [paren_depth_append, depth]
        apply paren_depth_plain
        intro token member
        rw [(List.mem_replicate.1 member).2]
        simp [layoutToken]
      refine ⟨afterPlaced, rfl, fits.copies fun smaller less => ?_, plain closed, ?_, going,
        fun again => absurd again goneOn, fun _ _ _ _ => leading.trans level.symm⟩
      · apply fits_dedent rfl ((plain smaller).trans outside)
        rw [open_indents_dedents rfl]
        have size := congrArg List.length stack
        rw [List.length_map] at size
        apply List.ne_nil_of_length_pos
        rw [List.length_drop]
        dsimp only at count
        omega
      · rw [open_indents_dedents rfl, List.map_drop, stack]
        exact dropped.symm
  | mixed | inconsistent => cases isMade

theorem Opens.aligned {ready : Lexer} (opens : Opens lexer ready)
    (aligned : lexer.Aligned text tokens) : ready.Aligned text tokens := by
  cases opens with
  | inside => exact aligned
  | margin atStart ahead begins =>
      have made := begins.aligned aligned atStart ahead
      rw [List.append_nil] at made
      exact made

/-- Spaces and a comment change nothing. -/
theorem Aligned.trimmed (aligned : lexer.Aligned text tokens)
    (within : lexer.atLineStart = false) : lexer.trimmed.Aligned text tokens := by
  rcases aligned with ⟨placed, source, fits, depth, stack, going, fresh, level⟩
  rcases trim_inline lexer.cursor with ⟨passed, passes, single⟩
  have sameLine : lexer.trimmed.cursor.position.line = lexer.cursor.position.line :=
    passes.same_line single
  have trimmedPlaced : lexer.trimmed.Placed := by
    refine placed.moved ⟨rfl, rfl, rfl, rfl⟩ passes fun atStart => ?_
    rw [show lexer.trimmed.atLineStart = false from within] at atStart
    cases atStart
  refine ⟨trimmedPlaced, source, fits, depth, stack, going, fresh, fun _ outside more none => ?_⟩
  rw [sameLine] at none ⊢
  refine level within outside ?_ none
  rw [passes.rest]
  exact List.append_ne_nil_of_right_ne_nil _ more

/-- What the end of input makes. -/
structure Ended (text : List Char) (tokens : List Token) : Prop where
  parts : ∃ (before : List Token) (ready : Lexer), ready.Aligned text before ∧
    tokens = before ++ ready.endTokens

theorem fed_aligned {ready : Lexer} (aligned : ready.Aligned text tokens)
    (ahead : ready.trimmed.cursor.peek? = some '\n') (within : 0 < ready.depth) :
    ready.fed.Aligned text tokens := by
  rcases aligned with ⟨placed, source, fits, depth, stack, going, _, _⟩
  refine ⟨placed.fed ahead, source, fits, depth, stack, going, fun _ outside => ?_, nofun⟩
  exact absurd outside (Nat.ne_of_gt within)

/-- A token that is spelled by characters. -/
theorem Aligned.spelled {kind : TokenClass} {token : Token} {stop : Cursor} {lexeme : List Char}
    (aligned : lexer.Aligned text tokens) (within : lexer.atLineStart = false)
    (more : lexer.cursor.rest ≠ []) (passes : Passes lexer.cursor lexeme stop)
    (single : '\n' ∉ lexeme) (visible : kind.isVisible = true) (isKind : token.kind = kind)
    (starts : token.span.start = lexer.cursor.position) :
    Aligned text (tokens ++ [token])
      { lexer with cursor := stop, depth := depthAfter lexer.depth kind } := by
  subst isKind
  rcases aligned with ⟨placed, source, fits, depth, stack, going, _, level⟩
  have proper : token.kind ≠ .endOfInput ∧ token.kind.isLayout = false := by
    rw [TokenClass.isVisible, Bool.and_eq_true, bne_iff_ne, Bool.not_eq_true'] at visible
    exact ⟨visible.2, visible.1⟩
  have noIndent : token.kind ≠ .indent := fun same => by
    rw [same] at visible
    cases visible
  have noDedent : token.kind ≠ .dedent := fun same => by
    rw [same] at visible
    cases visible
  have noStart (again : lexer.atLineStart = true) : False := by
    rw [within] at again
    cases again
  refine ⟨placed.moved ⟨rfl, rfl, rfl, rfl⟩ passes fun again => absurd again noStart, source,
    fits.snoc ?_, ?_, ?_, going, fun again => absurd again noStart, fun _ _ _ none => ?_⟩
  · refine ⟨proper.1, fun layout => ?_, fun same => absurd same noDedent,
      fun same => absurd same noIndent, fun leads outside => ?_⟩
    · rw [proper.2] at layout
      cases layout
    · rw [starts, stack]
      refine level within (depth.symm.trans outside) more fun other member otherVisible => ?_
      rw [← starts]
      exact leads.2 other member otherVisible
  · rw [paren_depth_append, depth]
    rfl
  · rw [open_indents_other noIndent noDedent]
    exact stack
  · have sameLine := passes.same_line single
    refine absurd ?_ (none token (by simp) visible)
    rw [starts]
    exact sameLine.symm

/-- One call for tokens. -/
theorem Scans.aligned {made : List Token} (scans : Scans lexer (.ok made) after)
    (aligned : lexer.Aligned text tokens) :
    after.Aligned text (tokens ++ made) ∨ Ended text (tokens ++ made) := by
  generalize isMade : (Except.ok made : Except ScriptError (List Token)) = result at scans
  induction scans with
  | margin atStart ahead begins _ =>
      subst isMade
      exact .inl (begins.aligned aligned atStart ahead)
  | finish opens _ =>
      cases isMade
      have opened := (opens.aligned aligned).trimmed opens.kept.2.2.1
      exact .inr ⟨tokens, _, opened, rfl⟩
  | @lineFeed lexer ready opens ahead outside =>
      cases isMade
      rcases opens.aligned aligned with ⟨placed, source, fits, depth, stack, going, _, _⟩
      refine .inl ⟨placed.fed ahead, source, fits.snoc ?_, ?_, ?_, going,
        fun _ _ => .inr ⟨tokens, _, rfl, rfl⟩, nofun⟩
      · refine ⟨by simp, fun _ => depth.trans outside, by simp, by simp, fun leads => ?_⟩
        cases leads.1
      · rw [paren_depth_append, depth]
        rfl
      · rw [open_indents_other (by simp) (by simp)]
        exact stack
  | continued opens ahead within _ induction =>
      exact induction (fed_aligned (opens.aligned aligned) ahead within) isMade
  | @token lexer ready scan opens spelled begun =>
      rcases begun with ⟨afterDot, first, others, front, other, rfl⟩
      have within := opens.kept.2.2.1
      have opened := (opens.aligned aligned).trimmed within
      unfold finishScan at isMade ⊢
      split at isMade
      · rename_i kind payload found
        rcases Scan.token_lexeme front other found with ⟨lexeme, passes, _, single⟩
        cases isMade
        exact .inl (opened.spelled within (by simp [front]) passes single
          (spelled.visible _ _ found) rfl rfl)
      · cases isMade

/-- What is known of the tokens that a lexer has given and of those that wait behind them. -/
def Settled (text : List Char) (tokens : List Token) (lexer : Lexer) : Prop :=
  lexer.Aligned text (tokens ++ lexer.pending) ∨ Ended text (tokens ++ lexer.pending) ∧ lexer.Placed

theorem Aligned.no_end (aligned : lexer.Aligned text tokens) :
    ∀ token ∈ tokens, token.kind ≠ .endOfInput := by
  intro token member
  rcases List.append_of_mem member with ⟨before, behind, parts⟩
  exact (aligned.fits before token behind parts).proper

/-- Giving a token that was made changes nothing else. -/
theorem Aligned.given {token : Token} (aligned : lexer.Aligned text tokens)
    (member : token ∈ tokens) (others : List Token) :
    Aligned text tokens { lexer with pending := others, last := some token.kind } := by
  have proper := aligned.no_end token member
  rcases aligned with ⟨placed, source, fits, depth, stack, _, fresh, level⟩
  exact ⟨⟨placed.sized, placed.passed⟩, source, fits, depth, stack,
    fun same => proper (Option.some.inj same), fresh, level⟩

theorem Ended.has_end (ended : Ended text tokens) :
    ∃ token ∈ tokens, token.kind = .endOfInput := by
  rcases ended.parts with ⟨before, ready, _, rfl⟩
  rcases (end_tokens_count ready).1 with ⟨token, member, isEnd⟩
  exact ⟨token, List.mem_append_right _ member, isEnd⟩

theorem Settled.next {token : Token} (settled : lexer.Settled text tokens)
    (none : ∀ token ∈ tokens, token.kind ≠ .endOfInput) (given : lexer.next = (.ok token, after)) :
    after.Settled text (tokens ++ [token]) := by
  have placed : lexer.Placed := by
    rcases settled with aligned | ⟨_, placed⟩
    · exact aligned.placed
    · exact placed
  have gives := next_gives placed.enough
  rw [given] at gives
  cases gives with
  | @waiting _ others pending =>
      unfold Settled at settled ⊢
      rw [pending, List.append_cons] at settled
      rcases settled with aligned | ⟨ended, _⟩
      · exact .inl (aligned.given (by simp) others)
      · exact .inr ⟨ended, ⟨placed.sized, placed.passed⟩⟩
  | @made _ others made idle scans =>
      have madePlaced := (placed.scanned scans).1
      unfold Settled at settled ⊢
      rw [idle, List.append_nil] at settled
      rcases settled with aligned | ⟨ended, _⟩
      · have step := scans.aligned aligned
        rw [List.append_cons] at step
        rcases step with aligned | ended
        · exact .inl (aligned.given (by simp) others)
        · exact .inr ⟨ended, ⟨madePlaced.sized, madePlaced.passed⟩⟩
      · rcases ended.has_end with ⟨ending, member, isEnd⟩
        exact absurd isEnd (none ending member)

theorem Delivers.settled {more : List Token} (delivers : Delivers lexer more after)
    (settled : lexer.Settled text tokens) (none : ∀ token ∈ tokens, token.kind ≠ .endOfInput) :
    after.Settled text (tokens ++ more) := by
  induction delivers generalizing tokens with
  | none =>
      rw [List.append_nil]
      exact settled
  | more gives proper _ induction =>
      rw [List.append_cons]
      apply induction (settled.next none gives)
      rw [List.forall_mem_append, List.forall_mem_singleton]
      exact ⟨none, proper⟩

/-- The end of input is made last. -/
theorem Ended.last (ended : Ended text tokens) :
    ∃ front last, tokens = front ++ [last] ∧ last.kind = .endOfInput ∧
      ∀ token ∈ front, token.kind ≠ .endOfInput := by
  rcases ended.parts with ⟨before, ready, aligned, rfl⟩
  rw [endTokens, if_neg aligned.going, ← List.append_assoc]
  refine ⟨_, _, rfl, rfl, ?_⟩
  simp only [List.forall_mem_append]
  refine ⟨aligned.no_end, ?_, fun token member => ?_⟩
  · split
    · exact List.forall_mem_singleton.2 (by simp [layoutToken])
    · exact List.forall_mem_nil _
  · rw [(List.mem_replicate.1 member).2]
    simp [layoutToken]

/-- Every dedent closes an indent, and all indents are closed. -/
theorem Ended.blocks (ended : Ended text tokens) :
    AtEach (fun before token => token.kind = .dedent → openIndents before ≠ []) tokens ∧
      openIndents tokens = [] := by
  rcases ended.parts with ⟨before, ready, aligned, rfl⟩
  have size : (openIndents before).length = ready.indents.length := by
    rw [← aligned.stack, List.length_map]
  have first : AtEach (fun before token => token.kind = .dedent → openIndents before ≠ []) before :=
    fun front token behind parts => (aligned.fits front token behind parts).dedent
  -- A newline in front of the dedents opens and closes nothing.
  have line : ∀ newline : Token, newline.kind = .newline →
      AtEach (fun before token => token.kind = .dedent → openIndents before ≠ [])
          (before ++ if ready.lineIsOpen then [newline] else []) ∧
        openIndents (before ++ if ready.lineIsOpen then [newline] else []) =
          openIndents before := by
    intro newline isNewline
    split
    · exact ⟨first.snoc (by simp [isNewline]),
        open_indents_other (by simp [isNewline]) (by simp [isNewline]) _⟩
    · rw [List.append_nil]
      exact ⟨first, rfl⟩
  rcases line (ready.layoutToken .newline ready.cursor ready.cursor) rfl with ⟨each, same⟩
  rw [endTokens, if_neg aligned.going, ← List.append_assoc, ← List.append_assoc]
  constructor
  · apply AtEach.snoc
    · apply each.copies
      intro smaller less _
      rw [open_indents_dedents rfl, same]
      apply List.ne_nil_of_length_pos
      rw [List.length_drop]
      omega
    · simp [layoutToken]
  · rw [open_indents_other (by simp [layoutToken]) (by simp [layoutToken]),
      open_indents_dedents rfl, same, ← size, List.drop_length]

end Lexer

/-- The tokens of a source that is read to its end are those of its lines and what the end of input
makes behind them. -/
theorem tokenize_ended {source : String} {file : Option String}
    (clean : (tokenize source file).failure = none) :
    Lexer.Ended (Text.dropReturns source.toList) (tokenize source file).tokens := by
  rcases tokenize_delivers clean with ⟨tokens, after, ending, final, delivers, ends, isEnd, read⟩
  have start : (Lexer.ofText source file).Settled (Text.dropReturns source.toList) [] :=
    .inl (Lexer.aligned_of_text source file)
  have settled := (delivers.settled start (List.forall_mem_nil _)).next delivers.not_end ends
  rw [List.nil_append] at settled
  rcases settled with aligned | ⟨ended, _⟩
  · exact absurd isEnd (aligned.no_end ending (by simp))
  · rcases ended.last with ⟨front, last, parts, _, none⟩
    rcases List.eq_nil_or_concat final.pending with idle | ⟨others, other, waiting⟩
    · rw [idle, List.append_nil] at ended
      rw [read]
      exact ended
    · rw [waiting, List.concat_eq_append, ← List.append_assoc] at parts
      have same := (List.append_inj' parts rfl).1
      exact absurd isEnd (none ending (by simp [← same]))

theorem split_front {tokens ends before behind : List Token} {token : Token}
    (parts : tokens ++ ends = before ++ token :: behind) (notEnd : token ∉ ends) :
    ∃ rest, tokens = before ++ token :: rest := by
  rcases List.append_eq_append_iff.1 parts with ⟨more, rfl, rest⟩ | ⟨more, rfl, rest⟩
  · have member : token ∈ ends := by simp [rest]
    contradiction
  · cases more with
    | nil =>
        have member : token ∈ ends := by simp [← show token :: behind = ends from rest]
        contradiction
    | cons first more =>
        cases rest
        exact ⟨more, rfl⟩

namespace Lexer

theorem end_tokens_kinds (lexer : Lexer) :
    ∀ token ∈ lexer.endTokens, token.kind = .newline ∨ IsClosing token.kind := by
  rcases end_tokens_parts lexer with ⟨line, closing, parts, first, closes, _⟩
  rw [parts, List.forall_mem_append]
  refine ⟨?_, fun token member => .inr (closes token member)⟩
  rcases first with rfl | ⟨_, token, rfl, isNewline⟩
  · exact List.forall_mem_nil _
  · exact List.forall_mem_singleton.2 (.inl isNewline)

theorem Ended.follows {text : List Char} {tokens : List Token} (ended : Ended text tokens) :
    FollowsIndentation text tokens := by
  rcases ended.blocks with ⟨closes, allClosed⟩
  have last := ended.last
  rcases ended.parts with ⟨proper, ready, aligned, rfl⟩
  have notEnd {token : Token} (noNewline : token.kind ≠ .newline) (noDedent : token.kind ≠ .dedent)
      (noEnd : token.kind ≠ .endOfInput) : token ∉ ready.endTokens := by
    intro member
    rcases end_tokens_kinds ready token member with isNewline | isDedent | isEnd <;> contradiction
  refine ⟨last, ?_, ?_, ?_, ?_, ?_⟩
  · rintro front ⟨more, parts⟩
    rw [← parts] at closes
    have count := indents_eq closes.front
    omega
  · have count := indents_eq closes
    rw [allClosed, List.length_nil] at count
    exact count.symm
  · intro before opening inner closing behind parts isOpen enclosed isClose token member
    rcases split_front parts (notEnd (by simp [isClose]) (by simp [isClose]) (by simp [isClose]))
      with ⟨rest, isProper⟩
    rcases List.append_of_mem member with ⟨front, back, isInner⟩
    by_contra layout
    have outside := (aligned.fits (before ++ opening :: front) token (back ++ closing :: rest)
      (by rw [isProper, isInner]; simp)).layout (by simpa using layout)
    rw [paren_depth_append, paren_depth_cons, depth_after_open isOpen] at outside
    have inside := enclosed.depth_le isInner (parenDepth 0 before + 1)
    omega
  · intro before token behind parts isIndent
    rcases split_front parts (notEnd (by simp [isIndent]) (by simp [isIndent]) (by simp [isIndent]))
      with ⟨rest, isProper⟩
    exact (aligned.fits before token rest isProper).indent isIndent
  · intro before token behind parts leads outside
    have visible := leads.1
    have hidden (kind : TokenClass) (isHidden : kind.isVisible = false) : token.kind ≠ kind := by
      rintro rfl
      rw [isHidden] at visible
      cases visible
    rcases split_front parts (notEnd (hidden _ rfl) (hidden _ rfl) (hidden _ rfl)) with
      ⟨rest, isProper⟩
    rw [(aligned.fits before token rest isProper).level leads (Nat.le_zero.1 (outside.depth_le 0)),
      List.headD_eq_head?_getD, List.head?_map]

/-- The lexers that a source can be read with: a new one, and every one that is left by asking for
a token, with an error or without, or by reading on to the end. -/
inductive Reached (source : String) (file : Option String) : Lexer → Prop where
  | start : Reached source file (ofText source file)
  | next {lexer : Lexer} (reached : Reached source file lexer) : Reached source file lexer.next.2
  | read {lexer : Lexer} (reached : Reached source file lexer) :
      Reached source file lexer.readAll.lexer

/-- Widths of blocks decrease from the innermost one to the outermost level. -/
def Descending (indents : List Nat) : Prop := (indents ++ [0]).Pairwise (· > ·)

/-- A lexer whose open blocks are wider the further inside they are. -/
structure Stacked (lexer : Lexer) : Prop where
  placed : lexer.Placed
  sorted : Descending lexer.indents

variable {lexer after : Lexer} {result : Except ScriptError (List Token)}

/-- A block that is wider than the innermost one is wider than all. -/
theorem sorted_cons {width : Nat} {indents : List Nat} (wide : indents.headD 0 < width)
    (sorted : Descending indents) : Descending (width :: indents) := by
  refine List.pairwise_cons.2 ⟨fun other member => ?_, sorted⟩
  cases indents with
  | nil =>
      rw [List.mem_singleton.1 member]
      exact wide
  | cons innermost outer =>
      rcases List.mem_cons.1 member with rfl | outside
      · exact wide
      · have less := (List.pairwise_cons.1 sorted).1 other outside
        exact Nat.lt_trans less wide

theorem close_blocks_sorted {width closed : Nat} {indents remaining : List Nat}
    (blocks : closeBlocks width indents = (closed, remaining))
    (sorted : Descending indents) : Descending remaining := by
  have dropped := close_blocks_drop width indents
  rw [blocks] at dropped
  have part : remaining.Sublist indents := by
    rw [show remaining = indents.drop closed from dropped]
    exact List.drop_sublist _ _
  exact List.Pairwise.sublist (part.append (.refl _)) sorted

theorem Begins.sorted {margin : Margin} (begins : Begins lexer margin result after)
    (sorted : Descending lexer.indents) : Descending after.indents := by
  cases begins with
  | bare | mixed => exact sorted
  | wider _ _ _ wide => exact sorted_cons wide sorted
  | closes _ _ _ _ blocks _ | inconsistent _ _ _ _ blocks _ =>
      exact close_blocks_sorted blocks sorted

theorem Opens.sorted {ready : Lexer} (opens : Opens lexer ready)
    (sorted : Descending lexer.indents) : Descending ready.indents := by
  cases opens with
  | inside => exact sorted
  | margin _ _ begins => exact begins.sorted sorted

theorem Scans.sorted (scans : Scans lexer result after)
    (sorted : Descending lexer.indents) : Descending after.indents := by
  induction scans with
  | margin _ _ begins _ => exact begins.sorted sorted
  | finish opens _ =>
      rw [endInput]
      split
      · exact opens.sorted sorted
      · exact List.pairwise_singleton _ _
  | lineFeed opens _ _ => exact opens.sorted sorted
  | continued opens _ _ _ induction => exact induction (opens.sorted sorted)
  | token opens _ _ =>
      rw [finishScan]
      split <;> exact opens.sorted sorted

theorem Stacked.next (stacked : lexer.Stacked) : lexer.next.2.Stacked := by
  have gives := next_gives stacked.placed.enough
  generalize lexer.next = given at gives
  rcases given with ⟨result, after⟩
  cases gives with
  | waiting _ => exact ⟨⟨stacked.placed.sized, stacked.placed.passed⟩, stacked.sorted⟩
  | made _ scans =>
      have placed := (stacked.placed.scanned scans).1
      exact ⟨⟨placed.sized, placed.passed⟩, scans.sorted stacked.sorted⟩
  | failed _ scans => exact ⟨(stacked.placed.scanned scans).1, scans.sorted stacked.sorted⟩

theorem Stacked.read_within (stacked : lexer.Stacked) (fuel : Nat) :
    (readWithin fuel lexer).lexer.Stacked := by
  induction fuel generalizing lexer with
  | zero => exact stacked
  | succ fuel induction =>
      have once := stacked.next
      cases given : lexer.next with
      | mk result after =>
          rw [given] at once
          cases result with
          | error error =>
              simp only [readWithin, given]
              exact once
          | ok token =>
              by_cases isEnd : token.kind = .endOfInput
              · simp only [readWithin, given, if_pos isEnd]
                exact ⟨⟨once.placed.sized, once.placed.passed⟩, once.sorted⟩
              · simp only [readWithin, given, if_neg isEnd]
                exact induction once

theorem Reached.stacked {source : String} {file : Option String}
    (reached : Reached source file lexer) : lexer.Stacked := by
  induction reached with
  | start => exact ⟨.of_text source file, List.pairwise_singleton _ _⟩
  | next _ induction => exact induction.next
  | @read lexer _ induction =>
      cases fresh : lexer.finished with
      | true =>
          rw [read_all_finished fresh]
          exact induction
      | false =>
          rw [induction.placed.read_all fresh]
          exact induction.read_within _

end Lexer

/-- Layout tokens follow the indentation of every source that is read without an error, and in
every lexer, also behind errors, the stack of widths starts at zero and increases. -/
theorem tokenize_follows_indentation (source : String) (file : Option String) :
    ((tokenize source file).failure = none →
      FollowsIndentation (Text.dropReturns source.toList) (tokenize source file).tokens) ∧
    ∀ lexer, Lexer.Reached source file lexer →
      (0 :: lexer.indents.reverse).Pairwise (· < ·) := by
  refine ⟨fun clean => (tokenize_ended clean).follows, fun lexer reached => ?_⟩
  have sorted := reached.stacked.sorted
  rw [Lexer.Descending, ← List.pairwise_reverse, List.reverse_append] at sorted
  exact sorted

/-- A block in a block, with a blank line and a tuple over two lines. -/
theorem nested_blocks_follow_indentation :
    (tokenize "if a:\n while b:\n\n    c = (d,\n e)\nf" none).failure = none ∧
      FollowsIndentation (Text.dropReturns "if a:\n while b:\n\n    c = (d,\n e)\nf".toList)
        (tokenize "if a:\n while b:\n\n    c = (d,\n e)\nf" none).tokens := by
  have clean : (tokenize "if a:\n while b:\n\n    c = (d,\n e)\nf" none).failure = none := by
    decide +kernel
  exact ⟨clean, (tokenize_follows_indentation _ _).1 clean⟩

end LayoutScript
