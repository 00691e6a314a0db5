import LayoutScript.Proofs.Token.Delivery
import LayoutScript.Proofs.Token.Margin

/-!
Text behind a line. What is scanned in a line does not depend on what stands behind its end:
two cursors in front of one line, the second with more text behind a line feed, move over the
same characters and find the same token.
-/

namespace LayoutScript

/-- A text that begins with a line feed, or nothing. -/
def Text.Breaks (text : List Char) : Prop := ∀ char ∈ text.head?, char = '\n'

theorem Text.Breaks.nil : Text.Breaks [] := by simp [Text.Breaks]

theorem Text.Breaks.feed (text : List Char) : Text.Breaks ('\n' :: text) := by simp [Text.Breaks]

namespace Cursor

/-- Two cursors move over the same characters. -/
def Together (start other stop stop' : Cursor) : Prop :=
  ∃ passed, Passes start passed stop ∧ Passes other passed stop'

/-- A cursor has the text of another one ahead, and more behind it. -/
def Trails (suffix : List Char) (cursor other : Cursor) : Prop := other.rest = cursor.rest ++ suffix

section Together

variable {suffix : List Char} {cursor other middle middle' stop stop' : Cursor}

theorem Together.refl (cursor other : Cursor) : Together cursor other cursor other :=
  ⟨[], .none _, .none _⟩

theorem Together.trans (first : Together cursor other middle middle')
    (second : Together middle middle' stop stop') : Together cursor other stop stop' := by
  obtain ⟨passed, passes, passes'⟩ := first
  obtain ⟨more, further, further'⟩ := second
  exact ⟨passed ++ more, passes.trans further, passes'.trans further'⟩

theorem Together.trails (together : Together cursor other stop stop')
    (trails : Trails suffix cursor other) : Trails suffix stop stop' := by
  obtain ⟨passed, passes, passes'⟩ := together
  unfold Trails at trails ⊢
  rw [passes.rest, passes'.rest, List.append_assoc] at trails
  exact List.append_cancel_left trails

theorem Together.text_to (together : Together cursor other stop stop') :
    other.textTo stop' = cursor.textTo stop := by
  obtain ⟨passed, passes, passes'⟩ := together
  rw [passes.text_to, passes'.text_to]

end Together

section Trails

variable {suffix : List Char} {cursor other : Cursor}

/-- A class without line feeds takes nothing of what follows a line. -/
theorem take_while_breaks {accepts : Char → Bool} (refuses : accepts '\n' = false)
    (breaks : Text.Breaks suffix) (text : List Char) :
    (text ++ suffix).takeWhile accepts = text.takeWhile accepts := by
  induction text with
  | nil =>
      cases suffix with
      | nil => rfl
      | cons char suffix =>
          cases breaks char rfl
          simp [refuses]
  | cons char text induction =>
      rw [List.cons_append, List.takeWhile_cons, List.takeWhile_cons, induction]

theorem Trails.skip_while (trails : Trails suffix cursor other) (breaks : Text.Breaks suffix)
    {accepts : Char → Bool} (refuses : accepts '\n' = false) :
    Together cursor other (cursor.skipWhile accepts) (other.skipWhile accepts) := by
  refine ⟨cursor.rest.takeWhile accepts, skip_while_passes cursor accepts, ?_⟩
  rw [← take_while_breaks refuses breaks, ← trails]
  exact skip_while_passes other accepts

/-- The same character is next, or the line ends. -/
theorem Trails.peek (trails : Trails suffix cursor other) (breaks : Text.Breaks suffix) :
    other.peek? = cursor.peek? ∨ cursor.peek? = none ∧ other.peek? = some '\n' := by
  rw [Cursor.peek?, Cursor.peek?, trails]
  cases cursor.rest with
  | cons char rest => exact .inl rfl
  | nil =>
      cases suffix with
      | nil => exact .inl rfl
      | cons char suffix =>
          cases breaks char rfl
          exact .inr ⟨rfl, rfl⟩

theorem Trails.any_peek (trails : Trails suffix cursor other) (breaks : Text.Breaks suffix)
    {accepts : Char → Bool} (refuses : accepts '\n' = false) :
    other.peek?.any accepts = cursor.peek?.any accepts := by
  rcases trails.peek breaks with same | ⟨none, feed⟩
  · rw [same]
  · rw [none, feed]
    exact refuses

theorem Trails.peek_iff (trails : Trails suffix cursor other) (breaks : Text.Breaks suffix)
    {char : Char} (plain : char ≠ '\n') : other.peek? = some char ↔ cursor.peek? = some char := by
  rcases trails.peek breaks with same | ⟨none, feed⟩
  · rw [same]
  · rw [none, feed]
    simp [plain.symm]

theorem Trails.peek_ahead (trails : Trails suffix cursor other) {char : Char}
    (ahead : cursor.peek? = some char) : other.peek? = some char := by
  rw [Cursor.peek?, trails, List.head?_append, ← Cursor.peek?, ahead, Option.some_or]

theorem Trails.rest_behind (trails : Trails suffix cursor other) (ended : cursor.rest = []) :
    other.rest = suffix := by
  rw [trails, ended, List.nil_append]

/-- Both cursors move over one character. -/
theorem Trails.advance (trails : Trails suffix cursor other) {char : Char}
    (ahead : cursor.peek? = some char) : Together cursor other cursor.advance other.advance :=
  ⟨[char], advance_passes_front ahead, advance_passes_front (trails.peek_ahead ahead)⟩

theorem peek_second_eq (cursor : Cursor) : cursor.peekSecond? = cursor.advance.peek? := by
  obtain ⟨rest, position⟩ := cursor
  cases rest <;> rfl

end Trails

/-- Two optional places are both missing, or the way to them is the same. -/
def TogetherIf (cursor other : Cursor) : Option Cursor → Option Cursor → Prop
  | none, none => True
  | some stop, some stop' => Together cursor other stop stop'
  | _, _ => False

theorem TogetherIf.getD {cursor other : Cursor} {stop? stop'? : Option Cursor}
    (together : TogetherIf cursor other stop? stop'?) :
    Together cursor other (stop?.getD cursor) (stop'?.getD other) := by
  cases stop? <;> cases stop'? <;> simp_all [TogetherIf, Together.refl]

theorem TogetherIf.isSome {cursor other : Cursor} {stop? stop'? : Option Cursor}
    (together : TogetherIf cursor other stop? stop'?) : stop'?.isSome = stop?.isSome := by
  cases stop? <;> cases stop'? <;> simp_all [TogetherIf]

end Cursor

namespace Scan

open Cursor

variable {suffix : List Char} {start other : Cursor}

/-- A token that is found ahead of one cursor is found ahead of the other. -/
def FoundToo (start other : Cursor) (scan scan' : Scan) : Prop :=
  ∀ found, scan.outcome = .ok found → scan'.outcome = .ok found ∧
    Together start other scan.stop scan'.stop

theorem string_body_found_too (start start' : Cursor) (quote : Char) (text : List Char)
    (position position' : Position) (contents : List Char) :
    FoundToo ⟨text, position⟩ ⟨text ++ suffix, position'⟩
      (stringBody start quote text position contents)
      (stringBody start' quote (text ++ suffix) position' contents) := by
  have step (char : Char) (rest : List Char) (position position' : Position) :
      Together ⟨char :: rest, position⟩ ⟨char :: (rest ++ suffix), position'⟩
        ⟨rest, position.next char⟩ ⟨rest ++ suffix, position'.next char⟩ :=
    ⟨[char], .one _ _ _, .one _ _ _⟩
  fun_induction stringBody start quote text position contents generalizing position' with
  | case1 => rintro found ⟨⟩
  | case2 =>
      rintro found ⟨⟩
      rw [List.cons_append, stringBody, if_pos rfl]
      exact ⟨rfl, step _ _ _ _⟩
  | case3 => rintro found ⟨⟩
  | case4 => rintro found ⟨⟩
  | case5 => rintro found ⟨⟩
  | case6 position contents escaped after noFeed denoted denotes plain feed behind induction =>
      intro found isFound
      obtain ⟨same, together⟩ := induction (position'.next '\\' |>.next escaped) found isFound
      rw [List.cons_append, List.cons_append, stringBody, if_neg plain, if_neg feed, if_pos rfl]
      simp only [if_neg noFeed, denotes]
      exact ⟨same, ((step _ _ _ _).trans (step _ _ _ _)).trans together⟩
  | case7 => rintro found ⟨⟩
  | case8 char rest position contents open' feed slash induction =>
      intro found isFound
      obtain ⟨same, together⟩ := induction (position'.next char) found isFound
      rw [List.cons_append, stringBody, if_neg open', if_neg feed, if_neg slash]
      exact ⟨same, (step _ _ _ _).trans together⟩

theorem string_found_too (trails : Trails suffix start other) :
    FoundToo start other (string start) (string other) := by
  obtain ⟨rest, position⟩ := start
  obtain ⟨rest', position'⟩ := other
  cases trails
  cases rest with
  | nil => rintro found ⟨⟩
  | cons quote rest =>
      intro found isFound
      obtain ⟨same, together⟩ := string_body_found_too ⟨quote :: rest, position⟩
        ⟨quote :: (rest ++ suffix), position'⟩ quote rest (position.next quote)
        (position'.next quote) [] found isFound
      exact ⟨same, Together.trans ⟨[quote], .one _ _ _, .one _ _ _⟩ together⟩

theorem Trails.name_next (trails : Trails suffix start other) (breaks : Text.Breaks suffix) :
    isNameCharNext other.peek? = isNameCharNext start.peek? :=
  trails.any_peek breaks (by decide)

theorem fraction_together (trails : Trails suffix start other) (breaks : Text.Breaks suffix) :
    TogetherIf start other (fraction? start) (fraction? other) := by
  unfold fraction?
  by_cases point : start.peek? = some '.'
  · have point' := (trails.peek_iff breaks (by decide)).2 point
    have behind := trails.advance point
    have next := behind.trails trails
    rw [if_pos point, if_pos point']
    simp only [peek_second_eq, next.any_peek breaks (show Text.isDigit '\n' = false by decide),
      Trails.name_next next breaks, next.peek_iff breaks (show '.' ≠ '\n' by decide)]
    split
    · exact behind.trans (next.skip_while breaks (by decide))
    · split
      · trivial
      · exact behind
  · rw [if_neg point, if_neg (mt (trails.peek_iff breaks (by decide)).1 point)]
    trivial

theorem float_mark_together (trails : Trails suffix start other) (breaks : Text.Breaks suffix) :
    TogetherIf start other (floatMark? start) (floatMark? other) := by
  unfold floatMark?
  by_cases mark : start.peek? = some 'f'
  · have mark' := (trails.peek_iff breaks (by decide)).2 mark
    have behind := trails.advance mark
    have next := behind.trails trails
    simp only [mark, mark', peek_second_eq, Trails.name_next next breaks]
    split
    · exact behind
    · trivial
  · have mark' := mt (trails.peek_iff breaks (by decide)).1 mark
    simp only [mark, mark', decide_false, Bool.false_and, Bool.false_eq_true, if_false]
    trivial

theorem number_found_too (afterDot : Bool) (trails : Trails suffix start other)
    (breaks : Text.Breaks suffix) :
    FoundToo start other (number afterDot start) (number afterDot other) := by
  have whole := trails.skip_while breaks (show Text.isDigit '\n' = false by decide)
  have wholeTrails := whole.trails trails
  have fraction : TogetherIf (start.skipWhile Text.isDigit) (other.skipWhile Text.isDigit)
      (if afterDot then none else fraction? (start.skipWhile Text.isDigit))
      (if afterDot then none else fraction? (other.skipWhile Text.isDigit)) := by
    cases afterDot with
    | true => trivial
    | false => exact fraction_together wholeTrails breaks
  unfold number
  generalize start.skipWhile Text.isDigit = wholeEnd at whole wholeTrails fraction ⊢
  generalize other.skipWhile Text.isDigit = wholeEnd' at whole wholeTrails fraction ⊢
  dsimp only
  generalize (if afterDot then none else fraction? wholeEnd) = fractionEnd at fraction ⊢
  generalize (if afterDot then none else fraction? wholeEnd') = fractionEnd' at fraction ⊢
  have before := fraction.getD
  have beforeTrails := before.trails wholeTrails
  have mark : TogetherIf (fractionEnd.getD wholeEnd) (fractionEnd'.getD wholeEnd')
      (if afterDot then none else floatMark? (fractionEnd.getD wholeEnd))
      (if afterDot then none else floatMark? (fractionEnd'.getD wholeEnd')) := by
    cases afterDot with
    | true => trivial
    | false => exact float_mark_together beforeTrails breaks
  generalize (if afterDot then none else floatMark? (fractionEnd.getD wholeEnd)) = markEnd
    at mark ⊢
  generalize (if afterDot then none else floatMark? (fractionEnd'.getD wholeEnd')) = markEnd'
    at mark ⊢
  have way := (whole.trans before).trans mark.getD
  rw [Trails.name_next (way.trails trails) breaks, fraction.isSome, mark.isSome, whole.text_to,
    before.text_to]
  intro found isFound
  split at isFound
  · cases isFound
  · rename_i ends
    simp only [if_neg ends]
    split at isFound
    · rename_i isFloat
      simp only [if_pos isFloat]
      split at isFound
      · rename_i finite
        simp only [if_pos finite]
        exact ⟨isFound, way⟩
      · cases isFound
    · rename_i isInt
      simp only [if_neg isInt]
      exact ⟨isFound, way⟩

theorem word_found_too (trails : Trails suffix start other) (breaks : Text.Breaks suffix) :
    FoundToo start other (word start) (word other) := by
  have whole := trails.skip_while breaks (show Text.isNameChar '\n' = false by decide)
  intro found isFound
  refine ⟨?_, whole⟩
  rw [← isFound]
  simp only [word, whole.text_to]

/-- An operator is not continued behind a line. -/
theorem operator_second {first : Char} {second : Option Char}
    (other : second = none ∨ second = some '\n') :
    operator? first second = operator? first none := by
  rcases other with rfl | rfl <;> (unfold operator?; split <;> rfl)

/-- An operator of two characters needs the second one. -/
theorem operator_double {first : Char} {second : Option Char} {kind : TokenClass}
    (found : operator? first second = some (kind, true)) : ∃ char, second = some char := by
  cases second with
  | some char => exact ⟨char, rfl⟩
  | none =>
      unfold operator? at found
      split at found <;> cases found

theorem operator_found_too {first : Char} (ahead : start.peek? = some first)
    (trails : Trails suffix start other) (breaks : Text.Breaks suffix) :
    FoundToo start other (operator start first) (operator other first) := by
  have once := trails.advance ahead
  have next := once.trails trails
  have same : operator? first other.peekSecond? = operator? first start.peekSecond? := by
    rw [peek_second_eq, peek_second_eq]
    rcases next.peek breaks with same | ⟨none, feed⟩
    · rw [same]
    · rw [operator_second (.inl none), operator_second (.inr feed)]
  unfold operator
  rw [same]
  cases spelled : operator? first start.peekSecond? with
  | none => rintro found ⟨⟩
  | some operator =>
      obtain ⟨kind, double⟩ := operator
      have way : Together start other (if double then start.advance.advance else start.advance)
          (if double then other.advance.advance else other.advance) := by
        cases double with
        | false => exact once
        | true =>
            obtain ⟨second, isSecond⟩ := operator_double spelled
            rw [peek_second_eq] at isSecond
            exact once.trans (next.advance isSecond)
      rintro found ⟨⟩
      dsimp only
      exact ⟨by rw [Scan.found, way.text_to], way⟩

/-- What is scanned from a line does not depend on what stands behind it. -/
theorem token_found_too (afterDot : Bool) {first : Char} (ahead : start.peek? = some first)
    (trails : Trails suffix start other) (breaks : Text.Breaks suffix) :
    FoundToo start other (token afterDot start first) (token afterDot other first) := by
  unfold token
  split
  · exact string_found_too trails
  · split
    · exact number_found_too afterDot trails breaks
    · split
      · exact word_found_too trails breaks
      · exact operator_found_too ahead trails breaks

end Scan

namespace Lexer

open Cursor

variable {suffix : List Char} {cursor other : Cursor}

theorem skip_comment_together (trails : Trails suffix cursor other) (breaks : Text.Breaks suffix) :
    Together cursor other (skipComment cursor) (skipComment other) := by
  unfold skipComment
  rw [if_congr (trails.peek_iff breaks (show '#' ≠ '\n' by decide)) rfl rfl]
  split
  · exact trails.skip_while breaks (by decide)
  · exact .refl cursor other

theorem trim_together (trails : Trails suffix cursor other) (breaks : Text.Breaks suffix) :
    Together cursor other (trim cursor) (trim other) := by
  have spaces := trails.skip_while breaks (show isSpace '\n' = false by decide)
  exact spaces.trans (skip_comment_together (spaces.trails trails) breaks)

/-- Two cursors are in front of margins with the same blanks. -/
theorem margin_together (trails : Trails suffix cursor other) (breaks : Text.Breaks suffix) :
    (Margin.read other).blanks = (Margin.read cursor).blanks ∧
      Together cursor other (Margin.read cursor).stop (Margin.read other).stop := by
  have blanks := trails.skip_while breaks (show isBlank '\n' = false by decide)
  have returns : Together _ _ ((cursor.skipWhile isBlank).skipWhile (· == '\r'))
      ((other.skipWhile isBlank).skipWhile (· == '\r')) :=
    (blanks.trails trails).skip_while breaks (by decide)
  have comment := skip_comment_together (returns.trails (blanks.trails trails)) breaks
  exact ⟨blanks.text_to, (blanks.trans returns).trans comment⟩

theorem skip_empty_solid {start : Cursor} (solid : (Margin.read start).stop.peek? ≠ some '\n')
    (fuel : Nat) : Margin.skipEmpty fuel start = Margin.read start := by
  cases fuel with
  | zero => rfl
  | succ fuel => rw [Margin.skipEmpty, if_neg solid]

/-- The text behind an empty line. -/
theorem empty_line_shorter {start : Cursor} (feed : (Margin.read start).stop.peek? = some '\n') :
    (Margin.read start).stop.advance.rest.length < start.rest.length := by
  obtain ⟨passed, passes⟩ := margin_passes start
  have shorter := (passes.trans (advance_passes_front feed)).length
  rw [List.length_append, List.length_singleton] at shorter
  omega

/-- An empty line is skipped. -/
theorem skip_empty_feed {fuel : Nat} {start : Cursor} (enough : start.rest.length ≤ fuel)
    (feed : (Margin.read start).stop.peek? = some '\n') :
    ∃ less, Margin.skipEmpty fuel start = Margin.skipEmpty less (Margin.read start).stop.advance ∧
      (Margin.read start).stop.advance.rest.length ≤ less := by
  have shorter := empty_line_shorter feed
  cases fuel with
  | zero => omega
  | succ fuel => exact ⟨fuel, by rw [Margin.skipEmpty, if_pos feed], by omega⟩

/-- Empty lines are skipped alike, up to the same margin, if there is a line that is not empty. -/
theorem skip_empty_together {fuel fuel' : Nat} (trails : Trails suffix cursor other)
    (breaks : Text.Breaks suffix) (enough : cursor.rest.length ≤ fuel)
    (enough' : other.rest.length ≤ fuel')
    (goesOn : suffix = [] ∨ (Margin.skipEmpty fuel cursor).stop.rest ≠ []) :
    (Margin.skipEmpty fuel' other).blanks = (Margin.skipEmpty fuel cursor).blanks ∧
      Trails suffix (Margin.skipEmpty fuel cursor).stop (Margin.skipEmpty fuel' other).stop := by
  induction size : cursor.rest.length using Nat.strong_induction_on
    generalizing fuel fuel' cursor other with
  | _ size induction =>
      obtain ⟨sameBlanks, together⟩ := margin_together trails breaks
      have stops := together.trails trails
      by_cases feed : (Margin.read cursor).stop.peek? = some '\n'
      · obtain ⟨less, skips, room⟩ := skip_empty_feed enough feed
        obtain ⟨less', skips', room'⟩ := skip_empty_feed enough' (stops.peek_ahead feed)
        rw [skips] at goesOn ⊢
        rw [skips']
        have shorter := empty_line_shorter feed
        exact induction _ (by omega) ((stops.advance feed).trails stops) room room' goesOn rfl
      · have solid' : (Margin.read other).stop.peek? ≠ some '\n' := by
          rcases stops.peek breaks with same | ⟨none, _⟩
          · rwa [same]
          · have ended := List.head?_eq_none_iff.1 none
            rw [skip_empty_solid feed] at goesOn
            cases goesOn.resolve_right (absurd ended)
            rw [Cursor.peek?, stops.rest_behind ended]
            simp
        rw [skip_empty_solid feed, skip_empty_solid solid']
        exact ⟨sameBlanks, stops⟩

/-- The bound on empty lines does not matter if there is room for all of them. -/
theorem skip_empty_fuel {start : Cursor} {fuel fuel' : Nat} (enough : start.rest.length ≤ fuel)
    (enough' : start.rest.length ≤ fuel') :
    Margin.skipEmpty fuel start = Margin.skipEmpty fuel' start := by
  induction size : start.rest.length using Nat.strong_induction_on
    generalizing fuel fuel' start with
  | _ size induction =>
      by_cases feed : (Margin.read start).stop.peek? = some '\n'
      · obtain ⟨less, skips, room⟩ := skip_empty_feed enough feed
        obtain ⟨less', skips', room'⟩ := skip_empty_feed enough' feed
        have shorter := empty_line_shorter feed
        rw [skips, skips']
        exact induction _ (by omega) room room' rfl
      · rw [skip_empty_solid feed, skip_empty_solid feed]

/-- Where only empty lines are left, the lines behind them come next. -/
theorem skip_empty_behind {fuel fuel' : Nat} {text : List Char}
    (trails : Trails ('\n' :: text) cursor other) (enough : cursor.rest.length ≤ fuel)
    (enough' : other.rest.length ≤ fuel')
    (ended : (Margin.skipEmpty fuel cursor).stop.rest = []) :
    ∃ position, ∀ room, text.length ≤ room →
      Margin.skipEmpty fuel' other = Margin.skipEmpty room ⟨text, position⟩ := by
  induction size : cursor.rest.length using Nat.strong_induction_on
    generalizing fuel fuel' cursor other with
  | _ size induction =>
      obtain ⟨_, together⟩ := margin_together trails (.feed text)
      have stops := together.trails trails
      by_cases feed : (Margin.read cursor).stop.peek? = some '\n'
      · obtain ⟨less, skips, room⟩ := skip_empty_feed enough feed
        obtain ⟨less', skips', room'⟩ := skip_empty_feed enough' (stops.peek_ahead feed)
        rw [skips] at ended
        rw [skips']
        have shorter := empty_line_shorter feed
        exact induction _ (by omega) ((stops.advance feed).trails stops) room room' ended rfl
      · rw [skip_empty_solid feed] at ended
        have rest := stops.rest_behind ended
        have feed' : (Margin.read other).stop.peek? = some '\n' := by
          rw [Cursor.peek?, rest, List.head?_cons]
        have behind : (Margin.read other).stop.advance.rest = text := by
          rw [Cursor.advance, rest]
        obtain ⟨less', skips', room'⟩ := skip_empty_feed enough' feed'
        refine ⟨(Margin.read other).stop.advance.position, fun room fits => ?_⟩
        rw [skips', ← behind]
        exact skip_empty_fuel room' (by rw [behind]; exact fits)

end Lexer

end LayoutScript
