import LayoutScript.Proofs.Token.Origin
import LayoutScript.Text.Lines

/-!
Two ways to count lines. Positions count line feeds, while quoted lines end at every character
that ends a line. Up to a place, both agree as long as no other character ends a line there;
a line that has such a character is never quoted whole.
-/

namespace LayoutScript

namespace Text

/-- The unfinished line behind one more character. -/
def grow (line : List Char) (char : Char) : List Char := if char = '\n' then [] else line ++ [char]

/-- The unfinished line behind some characters. -/
def openLine (front : List Char) : List Char := front.foldl grow []

/-- Only line feeds end lines. -/
def FeedsOnly (text : List Char) : Prop := ∀ char ∈ text, isLineEnd char = true → char = '\n'

-- The instance is named so that no search runs through all characters there are.
instance (text : List Char) : Decidable (FeedsOnly text) :=
  List.decidableBAll (fun char => isLineEnd char = true → char = '\n') text

variable {front back line : List Char}

theorem FeedsOnly.append_left (feeds : FeedsOnly (front ++ back)) : FeedsOnly front :=
  fun char member => feeds char (List.mem_append_left back member)

theorem FeedsOnly.append_right (feeds : FeedsOnly (front ++ back)) : FeedsOnly back :=
  fun char member => feeds char (List.mem_append_right front member)

theorem FeedsOnly.append (first : FeedsOnly front) (second : FeedsOnly back) :
    FeedsOnly (front ++ back) := List.forall_mem_append.2 ⟨first, second⟩

theorem FeedsOnly.no_return (feeds : FeedsOnly front) : '\r' ∉ front := by
  intro member
  cases feeds '\r' member rfl

/-- What stands in front of the first line feed is the first line. -/
theorem split_on_first (single : '\n' ∉ line) (back : List Char) :
    (List.splitOn '\n' (line ++ back))[0]? = some (line ++ back.takeWhile (· != '\n')) := by
  induction back generalizing line with
  | nil => simp [List.splitOn_eq_singleton single]
  | cons char back induction =>
      by_cases isFeed : char = '\n'
      · subst isFeed
        simp [List.splitOn_append_cons_self_of_not_mem single]
      · have longer : '\n' ∉ line ++ [char] := by simp [single, Ne.symm isFeed]
        have first := induction longer
        rw [List.append_assoc, List.append_assoc] at first
        rw [List.takeWhile_cons_of_pos (by simpa using isFeed)]
        exact first

theorem grow_single (single : '\n' ∉ line) (char : Char) : '\n' ∉ grow line char := by
  unfold grow
  split
  · exact List.not_mem_nil
  · rename_i other
    simp [single, Ne.symm other]

/-- The line of a place is found by the number of line feeds in front of it. -/
theorem split_on_at (single : '\n' ∉ line) (front back : List Char) :
    (List.splitOn '\n' (line ++ (front ++ back)))[front.count '\n']? =
      some (front.foldl grow line ++ back.takeWhile (· != '\n')) := by
  induction front generalizing line with
  | nil => exact split_on_first single back
  | cons char front induction =>
      have later := induction (grow_single single char)
      by_cases isFeed : char = '\n'
      · subst isFeed
        rw [List.cons_append, List.splitOn_append_cons_self_of_not_mem single, List.count_cons_self,
          List.getElem?_cons_succ, List.foldl_cons]
        exact later
      · rw [List.count_cons_of_ne isFeed, List.foldl_cons, ← later]
        simp [grow, isFeed]

theorem split_lines_nil (current : List Char) (started : Bool) :
    splitLines [] current started =
      if started then [String.ofList current.reverse] else [] := rfl

theorem split_lines_feed (rest current : List Char) (started : Bool) :
    splitLines ('\n' :: rest) current started =
      String.ofList current.reverse :: splitLines rest [] false := rfl

theorem split_lines_plain {char : Char} (plain : isLineEnd char = false) (rest current : List Char)
    (started : Bool) :
    splitLines (char :: rest) current started = splitLines rest (char :: current) true := by
  rw [splitLines.eq_def]
  split
  · rename_i empty
    cases empty
  · rename_i pair
    cases pair
    cases plain
  · rename_i same
    cases same
    rw [plain]
    rfl

/-- A character that does not end a line, in a text where only line feeds do. -/
theorem FeedsOnly.plain {char : Char} (feeds : FeedsOnly (char :: back)) (other : char ≠ '\n') :
    isLineEnd char = false := by
  rw [← Bool.not_eq_true]
  exact fun ends => other (feeds char List.mem_cons_self ends)

theorem FeedsOnly.tail {char : Char} (feeds : FeedsOnly (char :: back)) : FeedsOnly back :=
  fun other member => feeds other (List.mem_cons_of_mem char member)

/-- Splitting goes on with the unfinished line. -/
theorem split_lines_behind (feeds : FeedsOnly front) (line back : List Char) (started : Bool) :
    ∃ closed started', closed.length = front.count '\n' ∧
      splitLines (front ++ back) line.reverse started =
        closed ++ splitLines back (front.foldl grow line).reverse started' := by
  induction front generalizing line started with
  | nil => exact ⟨[], started, rfl, rfl⟩
  | cons char front induction =>
      by_cases isFeed : char = '\n'
      · subst isFeed
        rcases induction feeds.tail [] false with ⟨closed, started', count, split⟩
        refine ⟨String.ofList line :: closed, started', by simp [count], ?_⟩
        rw [List.cons_append, split_lines_feed, List.reverse_reverse, List.cons_append,
          List.foldl_cons]
        exact congrArg _ split
      · rcases induction feeds.tail (line ++ [char]) true with ⟨closed, started', count, split⟩
        refine ⟨closed, started', by rw [count, List.count_cons_of_ne isFeed], ?_⟩
        rw [List.cons_append, split_lines_plain (feeds.plain isFeed), List.foldl_cons, grow,
          if_neg isFeed, ← split, List.reverse_append]
        rfl

/-- The first line that is quoted is the unfinished line with what completes it. -/
theorem split_lines_first {quoted : String} {started : Bool}
    (feeds : FeedsOnly (back.takeWhile (· != '\n')))
    (first : (splitLines back line.reverse started)[0]? = some quoted) :
    quoted.toList = line ++ back.takeWhile (· != '\n') := by
  induction back generalizing line started with
  | nil =>
      rw [split_lines_nil] at first
      split at first
      · cases first
        simp
      · cases first
  | cons char back induction =>
      by_cases isFeed : char = '\n'
      · subst isFeed
        rw [split_lines_feed] at first
        cases first
        simp
      · rw [List.takeWhile_cons_of_pos (by simpa using isFeed)] at feeds ⊢
        rw [split_lines_plain (feeds.plain isFeed)] at first
        have whole := @induction (line ++ [char]) true feeds.tail (by simpa using first)
        rw [whole, List.append_assoc]
        rfl

/-- No quoted line has a character that ends a line. -/
theorem split_lines_plain_lines {text current : List Char} {started : Bool}
    (plain : ∀ char ∈ current, isLineEnd char = false) :
    ∀ quoted ∈ splitLines text current started, ∀ char ∈ quoted.toList, isLineEnd char = false := by
  have whole {line : List Char} (plain : ∀ char ∈ line, isLineEnd char = false) :
      ∀ char ∈ (String.ofList line.reverse).toList, isLineEnd char = false := by
    simpa using plain
  fun_induction splitLines text current started with
  | case1 current => exact List.forall_mem_singleton.2 (whole plain)
  | case2 => exact List.forall_mem_nil _
  | case3 rest current _ induction =>
      exact List.forall_mem_cons.2 ⟨whole plain, induction (List.forall_mem_nil _)⟩
  | case4 char rest current _ _ _ induction =>
      exact List.forall_mem_cons.2 ⟨whole plain, induction (List.forall_mem_nil _)⟩
  | case5 char rest current _ _ other induction =>
      exact induction (List.forall_mem_cons.2 ⟨by simpa using other, plain⟩)

/-- Up to the end of its line, a place is in the line that is quoted there, if only line feeds
end lines; a line in which another character ends a line is never quoted whole. -/
theorem lines_at (front back : List Char) {quoted : String}
    (found : (lines (front ++ back))[front.count '\n']? = some quoted) :
    (FeedsOnly (front ++ back.takeWhile (· != '\n')) →
      quoted.toList = openLine front ++ back.takeWhile (· != '\n')) ∧
    ∀ char ∈ quoted.toList, isLineEnd char = false := by
  constructor
  · intro feeds
    rcases split_lines_behind feeds.append_left [] back false with ⟨closed, started, count, split⟩
    rw [lines, ← List.reverse_nil, split, ← count, List.getElem?_append_right (Nat.le_refl _),
      Nat.sub_self] at found
    exact split_lines_first feeds.append_right found
  · exact split_lines_plain_lines (List.forall_mem_nil _) quoted (List.mem_of_getElem? found)

/-- Where only line feeds end lines, the lines that are quoted are those between them. -/
theorem split_lines_split_on {text : List Char} {number : Nat} {quoted : String} {started : Bool}
    (feeds : FeedsOnly text) (single : '\n' ∉ line)
    (found : (splitLines text line.reverse started)[number]? = some quoted) :
    (List.splitOn '\n' (line ++ text))[number]? = some quoted.toList := by
  induction text generalizing line number started with
  | nil =>
      rw [List.append_nil, List.splitOn_eq_singleton single]
      rw [split_lines_nil] at found
      split at found
      · cases number with
        | zero =>
            cases found
            simp
        | succ number => cases found
      · cases found
  | cons char text induction =>
      by_cases isFeed : char = '\n'
      · subst isFeed
        rw [split_lines_feed] at found
        rw [List.splitOn_append_cons_self_of_not_mem single]
        cases number with
        | zero =>
            cases found
            simp
        | succ number => exact induction feeds.tail List.not_mem_nil found
      · rw [split_lines_plain (feeds.plain isFeed)] at found
        have longer : '\n' ∉ line ++ [char] := by simp [single, Ne.symm isFeed]
        have whole :=
          @induction (line ++ [char]) number true feeds.tail longer (by simpa using found)
        rwa [List.append_assoc] at whole

theorem lines_split_on {text : List Char} {number : Nat} {quoted : String} (feeds : FeedsOnly text)
    (found : (lines text)[number]? = some quoted) :
    (List.splitOn '\n' text)[number]? = some quoted.toList :=
  split_lines_split_on feeds List.not_mem_nil found

end Text

/-- The column of a position counts the characters of its unfinished line. -/
theorem Position.column_behind (front : List Char) :
    (Position.behind front).column = (Text.openLine front).length + 1 := by
  suffices counts : ∀ (position : Position) (line : List Char), position.column = line.length + 1 →
      (front.foldl Position.next position).column = (front.foldl Text.grow line).length + 1 by
    exact counts .start [] rfl
  induction front with
  | nil => exact fun position line same => same
  | cons char front induction =>
      intro position line same
      apply induction
      unfold Position.next Text.grow
      split
      · rfl
      · simp [same]

end LayoutScript
