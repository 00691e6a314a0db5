import LayoutScript.Proofs.Token.Trailing

/-!
Scanning within a line. Two cursors in front of texts that agree up to the end of the first line
scan alike: they pass the same characters, and find the same token or fail for the same cause at
the same place of the line.
-/

namespace LayoutScript

/-- Two texts agree up to the end of the first line, and on whether there is one. -/
inductive Text.SameLine : List Char → List Char → Prop where
  | none : SameLine [] []
  | feed (rest rest' : List Char) : SameLine ('\n' :: rest) ('\n' :: rest')
  | next {char : Char} {rest rest' : List Char} (plain : char ≠ '\n')
      (others : SameLine rest rest') : SameLine (char :: rest) (char :: rest')

namespace Text.SameLine

variable {text text' : List Char}

theorem refl (text : List Char) : SameLine text text := by
  induction text with
  | nil => exact .none
  | cons char rest induction =>
      by_cases feed : char = '\n'
      · rw [feed]
        exact .feed rest rest
      · exact .next feed induction

theorem head (same : SameLine text text') : text'.head? = text.head? := by
  cases same <;> rfl

theorem is_empty (same : SameLine text text') : text'.isEmpty = text.isEmpty := by
  cases same <;> rfl

theorem take_while (same : SameLine text text') {accepts : Char → Bool}
    (refuses : accepts '\n' = false) : text'.takeWhile accepts = text.takeWhile accepts := by
  induction same with
  | none => rfl
  | feed => simp [refuses]
  | next _ _ induction => rw [List.takeWhile_cons, List.takeWhile_cons, induction]

/-- What was passed within the line does not matter. -/
theorem behind {passed rest rest' : List Char}
    (same : SameLine (passed ++ rest) (passed ++ rest')) (single : '\n' ∉ passed) :
    SameLine rest rest' := by
  induction passed with
  | nil => exact same
  | cons char passed induction =>
      rw [List.mem_cons, not_or] at single
      cases same with
      | feed => exact absurd rfl single.1
      | next _ others => exact induction others single.2

/-- Texts agree as far as they have a line in common. -/
theorem of_common {front : List Char} (rest rest' : List Char) (ends : '\n' ∈ front) :
    SameLine (front ++ rest) (front ++ rest') := by
  induction front with
  | nil => cases ends
  | cons char front induction =>
      by_cases feed : char = '\n'
      · rw [feed]
        exact .feed _ _
      · exact .next feed (induction ((List.mem_cons.1 ends).resolve_left (Ne.symm feed)))

end Text.SameLine

open Text (SameLine)

namespace Cursor

/-- Two cursors move over the same characters of a line. -/
def Abreast (cursor other stop stop' : Cursor) : Prop :=
  ∃ passed, Passes cursor passed stop ∧ Passes other passed stop' ∧ '\n' ∉ passed

variable {cursor other middle middle' stop stop' : Cursor}

theorem Abreast.refl (cursor other : Cursor) : Abreast cursor other cursor other :=
  ⟨[], .none _, .none _, List.not_mem_nil⟩

theorem Abreast.trans (first : Abreast cursor other middle middle')
    (second : Abreast middle middle' stop stop') : Abreast cursor other stop stop' := by
  obtain ⟨passed, passes, passes', single⟩ := first
  obtain ⟨more, further, further', moreSingle⟩ := second
  exact ⟨passed ++ more, passes.trans further, passes'.trans further', by simp [single, moreSingle]⟩

theorem Abreast.together (abreast : Abreast cursor other stop stop') :
    Together cursor other stop stop' := by
  obtain ⟨passed, passes, passes', _⟩ := abreast
  exact ⟨passed, passes, passes'⟩

theorem Abreast.text_to (abreast : Abreast cursor other stop stop') :
    other.textTo stop' = cursor.textTo stop := abreast.together.text_to

/-- The rest of the line is still the same. -/
theorem Abreast.same_line (abreast : Abreast cursor other stop stop')
    (same : SameLine cursor.rest other.rest) : SameLine stop.rest stop'.rest := by
  obtain ⟨passed, passes, passes', single⟩ := abreast
  rw [passes.rest, passes'.rest] at same
  exact same.behind single

theorem abreast_one {char : Char} (plain : char ≠ '\n') (rest rest' : List Char)
    (position position' : Position) :
    Abreast ⟨char :: rest, position⟩ ⟨char :: rest', position'⟩
      ⟨rest, position.next char⟩ ⟨rest', position'.next char⟩ :=
  ⟨[char], .one _ _ _, .one _ _ _, by simpa using plain.symm⟩

theorem peek_same_line (same : SameLine cursor.rest other.rest) : other.peek? = cursor.peek? :=
  same.head

theorem abreast_skip_while (same : SameLine cursor.rest other.rest) {accepts : Char → Bool}
    (refuses : accepts '\n' = false) :
    Abreast cursor other (cursor.skipWhile accepts) (other.skipWhile accepts) := by
  refine ⟨cursor.rest.takeWhile accepts, skip_while_passes cursor accepts, ?_, fun member => ?_⟩
  · rw [← same.take_while refuses]
    exact skip_while_passes other accepts
  · have accepted := List.mem_takeWhile_imp member
    rw [refuses] at accepted
    cases accepted

theorem abreast_advance (same : SameLine cursor.rest other.rest) {char : Char}
    (ahead : cursor.peek? = some char) (plain : char ≠ '\n') :
    Abreast cursor other cursor.advance other.advance :=
  ⟨[char], advance_passes_front ahead, advance_passes_front ((peek_same_line same).trans ahead),
    by simpa using plain.symm⟩

/-- Two optional places are both missing, or they are the same places of the line. -/
def AbreastIf (cursor other : Cursor) : Option Cursor → Option Cursor → Prop
  | none, none => True
  | some stop, some stop' => Abreast cursor other stop stop'
  | _, _ => False

theorem AbreastIf.getD {stop? stop'? : Option Cursor}
    (abreast : AbreastIf cursor other stop? stop'?) :
    Abreast cursor other (stop?.getD cursor) (stop'?.getD other) := by
  cases stop? <;> cases stop'? <;> simp_all [AbreastIf, Abreast.refl]

theorem AbreastIf.isSome {stop? stop'? : Option Cursor}
    (abreast : AbreastIf cursor other stop? stop'?) : stop'?.isSome = stop?.isSome := by
  cases stop? <;> cases stop'? <;> simp_all [AbreastIf]

end Cursor

namespace Scan

open Cursor

/-- Two scans pass the same characters of a line. They find the same token, or fail for the same
cause at the same place of the line. -/
inductive Alike (cursor other : Cursor) : Scan → Scan → Prop where
  | found {token : TokenClass × Literal} {stop stop' : Cursor}
      (way : Abreast cursor other stop stop') :
      Alike cursor other ⟨.ok token, stop⟩ ⟨.ok token, stop'⟩
  | failed {cause : Cause} {place place' stop stop' : Cursor}
      (toPlace : Abreast cursor other place place') (onward : Abreast place place' stop stop') :
      Alike cursor other ⟨.error (cause, place), stop⟩ ⟨.error (cause, place'), stop'⟩

variable {start other : Cursor}

theorem string_body_alike {quote : Char} (quotes : quote ≠ '\n') {text text' : List Char}
    {position position' : Position} {contents : List Char}
    (way : Abreast start other ⟨text, position⟩ ⟨text', position'⟩) (same : SameLine text text') :
    Alike start other (stringBody start quote text position contents)
      (stringBody other quote text' position' contents) := by
  fun_induction stringBody start quote text position contents generalizing text' position' with
  | case1 =>
      cases same
      exact .failed (.refl start other) way
  | case2 rest position contents =>
      cases same with
      | feed => exact absurd rfl quotes
      | next plain others =>
          rw [stringBody, if_pos rfl]
          exact .found (way.trans (abreast_one plain _ _ _ _))
  | case3 rest position contents open' =>
      cases same with
      | feed =>
          rw [stringBody, if_neg open', if_pos rfl]
          exact .failed (.refl start other) way
      | next plain => exact absurd rfl plain
  | case4 position contents open' slash =>
      cases same with
      | next plain others =>
          cases others
          have behind := way.trans (abreast_one plain [] [] position position')
          rw [stringBody, if_neg open', if_neg plain, if_pos rfl]
          exact .failed behind (.refl _ _)
  | case5 position contents after open' slash =>
      cases same with
      | next plain others =>
          cases others with
          | feed _ after' =>
              have behind := way.trans
                (abreast_one plain ('\n' :: after) ('\n' :: after') position position')
              rw [stringBody, if_neg open', if_neg plain, if_pos rfl]
              exact .failed behind (.refl _ _)
          | next unbroken => exact absurd rfl unbroken
  | case6 position contents escaped after noFeed denoted denotes open' slash behind =>
      rename_i induction
      cases same with
      | next plain others =>
          cases others with
          | feed => exact absurd rfl noFeed
          | next _ others =>
              have further := (way.trans (abreast_one plain _ _ _ _)).trans
                (abreast_one noFeed _ _ _ _)
              rw [stringBody, if_neg open', if_neg plain, if_pos rfl]
              simp only [if_neg noFeed, denotes]
              exact induction further others
  | case7 position contents escaped after noFeed unknown open' slash =>
      cases same with
      | next plain others =>
          cases others with
          | feed => exact absurd rfl noFeed
          | next _ others =>
              have place := way.trans (abreast_one plain _ _ position position')
              rw [stringBody, if_neg open', if_neg plain, if_pos rfl]
              simp only [if_neg noFeed, unknown]
              exact .failed place (abreast_one noFeed _ _ _ _)
  | case8 char rest position contents open' feed slash induction =>
      cases same with
      | feed => exact absurd rfl feed
      | next plain others =>
          rw [stringBody, if_neg open', if_neg feed, if_neg slash]
          exact induction (way.trans (abreast_one plain _ _ _ _)) others

theorem string_alike (same : SameLine start.rest other.rest)
    (quotes : ∀ quote ∈ start.peek?, quote ≠ '\n') :
    Alike start other (string start) (string other) := by
  obtain ⟨rest, position⟩ := start
  obtain ⟨rest', position'⟩ := other
  change SameLine rest rest' at same
  cases same with
  | none => exact .failed (.refl _ _) (.refl _ _)
  | feed => exact absurd rfl (quotes '\n' rfl)
  | next plain others => exact string_body_alike plain (abreast_one plain _ _ _ _) others

theorem fraction_abreast (same : SameLine start.rest other.rest) :
    AbreastIf start other (fraction? start) (fraction? other) := by
  unfold fraction?
  rw [peek_same_line same]
  split
  · rename_i point
    have behind := abreast_advance same point (by decide)
    have next := behind.same_line same
    simp only [peek_second_eq, peek_same_line next]
    split
    · exact behind.trans (abreast_skip_while next (by decide))
    · split
      · trivial
      · exact behind
  · trivial

theorem float_mark_abreast (same : SameLine start.rest other.rest) :
    AbreastIf start other (floatMark? start) (floatMark? other) := by
  unfold floatMark?
  rw [peek_same_line same]
  by_cases mark : start.peek? = some 'f'
  · have behind := abreast_advance same mark (by decide)
    simp only [peek_second_eq, peek_same_line (behind.same_line same)]
    split
    · exact behind
    · trivial
  · simp only [mark, decide_false, Bool.false_and, Bool.false_eq_true, if_false]
    trivial

/-- What is left out behind a dot is left out alike. -/
theorem abreast_if_ite {cursor cursor' : Cursor} (skip : Bool) {stop? stop'? : Option Cursor}
    (abreast : AbreastIf cursor cursor' stop? stop'?) :
    AbreastIf cursor cursor' (if skip then none else stop?) (if skip then none else stop'?) := by
  cases skip with
  | true => trivial
  | false => exact abreast

theorem number_alike (afterDot : Bool) (same : SameLine start.rest other.rest) :
    Alike start other (number afterDot start) (number afterDot other) := by
  have whole := abreast_skip_while same (show Text.isDigit '\n' = false by decide)
  have wholeSame := whole.same_line same
  have fraction := abreast_if_ite afterDot (fraction_abreast wholeSame)
  unfold number
  generalize start.skipWhile Text.isDigit = wholeEnd at whole wholeSame fraction ⊢
  generalize other.skipWhile Text.isDigit = wholeEnd' at whole wholeSame fraction ⊢
  dsimp only
  generalize (if afterDot then none else fraction? wholeEnd) = fractionEnd at fraction ⊢
  generalize (if afterDot then none else fraction? wholeEnd') = fractionEnd' at fraction ⊢
  have before := fraction.getD
  have mark := abreast_if_ite afterDot (float_mark_abreast (before.same_line wholeSame))
  generalize (if afterDot then none else floatMark? (fractionEnd.getD wholeEnd)) = markEnd
    at mark ⊢
  generalize (if afterDot then none else floatMark? (fractionEnd'.getD wholeEnd')) = markEnd'
    at mark ⊢
  have way := (whole.trans before).trans mark.getD
  have waySame := way.same_line same
  have bad := abreast_skip_while waySame (show Text.isNameChar '\n' = false by decide)
  rw [peek_same_line waySame, fraction.isSome, mark.isSome, whole.text_to, before.text_to,
    way.text_to, (way.trans bad).text_to]
  split
  · exact .failed (.refl _ _) (way.trans bad)
  · split
    · split
      · exact .found way
      · exact .failed (.refl _ _) way
    · exact .found way

theorem word_alike (same : SameLine start.rest other.rest) :
    Alike start other (word start) (word other) := by
  have whole := abreast_skip_while same (show Text.isNameChar '\n' = false by decide)
  unfold word
  dsimp only
  rw [whole.text_to]
  exact .found whole

theorem operator_double_equal {first second : Char} {kind : TokenClass}
    (found : operator? first (some second) = some (kind, true)) : second ≠ '\n' := by
  rintro rfl
  rw [operator_second (.inr rfl)] at found
  obtain ⟨_, none⟩ := operator_double found
  cases none

theorem operator_alike {first : Char} (ahead : start.peek? = some first) (plain : first ≠ '\n')
    (same : SameLine start.rest other.rest) :
    Alike start other (operator start first) (operator other first) := by
  have once := abreast_advance same ahead plain
  have next := once.same_line same
  unfold operator
  rw [peek_second_eq, peek_second_eq, peek_same_line next]
  cases spelled : operator? first start.advance.peek? with
  | none => exact .failed (.refl _ _) once
  | some operator =>
      obtain ⟨kind, double⟩ := operator
      have way : Abreast start other (if double then start.advance.advance else start.advance)
          (if double then other.advance.advance else other.advance) := by
        cases double with
        | false => exact once
        | true =>
            obtain ⟨second, isSecond⟩ := operator_double spelled
            rw [isSecond] at spelled
            exact once.trans (abreast_advance next isSecond (operator_double_equal spelled))
      dsimp only
      rw [way.text_to]
      exact .found way

/-- A token is scanned alike in front of the same line. -/
theorem token_alike (afterDot : Bool) {first : Char} (ahead : start.peek? = some first)
    (plain : first ≠ '\n') (same : SameLine start.rest other.rest) :
    Alike start other (token afterDot start first) (token afterDot other first) := by
  unfold token
  split
  · refine string_alike same fun quote isQuote => ?_
    rw [ahead] at isQuote
    cases isQuote
    exact plain
  · split
    · exact number_alike afterDot same
    · split
      · exact word_alike same
      · exact operator_alike ahead plain same

end Scan

namespace Lexer

open Cursor

variable {cursor other : Cursor}

theorem skip_comment_abreast (same : SameLine cursor.rest other.rest) :
    Abreast cursor other (skipComment cursor) (skipComment other) := by
  unfold skipComment
  rw [peek_same_line same]
  split
  · exact abreast_skip_while same (by decide)
  · exact .refl cursor other

theorem trim_abreast (same : SameLine cursor.rest other.rest) :
    Abreast cursor other (trim cursor) (trim other) := by
  have spaces := abreast_skip_while same (show isSpace '\n' = false by decide)
  exact spaces.trans (skip_comment_abreast (spaces.same_line same))

/-- Margins of the same line. -/
theorem margin_abreast (same : SameLine cursor.rest other.rest) :
    (Margin.read other).blanks = (Margin.read cursor).blanks ∧
      Abreast cursor other (Margin.read cursor).stop (Margin.read other).stop := by
  have blanks := abreast_skip_while same (show isBlank '\n' = false by decide)
  have behind := blanks.same_line same
  have returns : Abreast _ _ ((cursor.skipWhile isBlank).skipWhile (· == '\r'))
      ((other.skipWhile isBlank).skipWhile (· == '\r')) := abreast_skip_while behind (by decide)
  exact ⟨blanks.text_to,
    (blanks.trans returns).trans (skip_comment_abreast (returns.same_line behind))⟩

end Lexer

end LayoutScript
