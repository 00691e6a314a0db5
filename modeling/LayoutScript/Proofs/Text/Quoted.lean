import LayoutScript.Number.Numeral
import LayoutScript.Text.Quoted
import Mathlib.Algebra.Ring.Nat
import Mathlib.Tactic.SplitIfs

/-!
What can be read off the front of a text: the characters of a kind, and the character that a
listing stands for. So no two texts are listed in the same way. A listed text begins with its
quote and has no line feed.
-/

namespace LayoutScript.Text

section Front

variable {accepts : Char → Bool} {front rest other more : List Char}

/-- The characters of a kind in front of a text, up to one of another kind. -/
theorem take_front (accepted : ∀ char ∈ front, accepts char = true)
    (ends : ∀ char ∈ rest.head?, accepts char = false) :
    (front ++ rest).takeWhile accepts = front ∧ (front ++ rest).dropWhile accepts = rest := by
  rw [List.takeWhile_append_of_pos accepted, List.dropWhile_append_of_pos accepted]
  cases rest with
  | nil => simp
  | cons char rest => simp [ends char rfl]

theorem front_injective (accepted : ∀ char ∈ front, accepts char = true)
    (ends : ∀ char ∈ rest.head?, accepts char = false)
    (otherAccepted : ∀ char ∈ other, accepts char = true)
    (otherEnds : ∀ char ∈ more.head?, accepts char = false)
    (same : front ++ rest = other ++ more) : front = other ∧ rest = more := by
  obtain ⟨taken, dropped⟩ := take_front accepted ends
  obtain ⟨otherTaken, otherDropped⟩ := take_front otherAccepted otherEnds
  rw [same] at taken dropped
  exact ⟨taken.symm.trans otherTaken, dropped.symm.trans otherDropped⟩

end Front

/-- The character that is listed in front, and what follows it. -/
def readListed : List Char → Option (Char × List Char)
  | [] => none
  | '\\' :: 'n' :: rest => some ('\n', rest)
  | '\\' :: 'r' :: rest => some ('\r', rest)
  | '\\' :: 't' :: rest => some ('\t', rest)
  | '\\' :: 'x' :: rest => some (Char.ofNat (Numeral.valueIn 16 (rest.take 2)), rest.drop 2)
  | '\\' :: 'u' :: rest => some (Char.ofNat (Numeral.valueIn 16 (rest.take 4)), rest.drop 4)
  | '\\' :: 'U' :: rest => some (Char.ofNat (Numeral.valueIn 16 (rest.take 8)), rest.drop 8)
  | '\\' :: char :: rest => some (char, rest)
  | char :: rest => some (char, rest)

/-- The quotes of listed texts. -/
def IsQuote (char : Char) : Prop := char = '\'' ∨ char = '"'

theorem preferred_quote_is_quote (text : List Char) : IsQuote (preferredQuote text) := by
  unfold preferredQuote
  split
  · exact .inr rfl
  · exact .inl rfl

theorem length_hex_digits (width number : Nat) : (hexDigits width number).length = width := by
  induction width generalizing number with
  | zero => rfl
  | succ width induction => rw [hexDigits, List.length_append, induction, List.length_singleton]

theorem hex_digit_value_digit_char :
    ∀ digit < 16, Numeral.hexDigitValue (Nat.digitChar digit) = digit := by decide

theorem value_in_hex_digits (width number : Nat) :
    Numeral.valueIn 16 (hexDigits width number) = number % 16 ^ width := by
  induction width generalizing number with
  | zero => rw [Nat.pow_zero, Nat.mod_one]; rfl
  | succ width induction =>
      have last := hex_digit_value_digit_char (number % 16) (Nat.mod_lt _ (by decide))
      simp only [Numeral.valueIn] at induction ⊢
      rw [hexDigits, List.foldl_append, induction, List.foldl_cons, List.foldl_nil, last,
        Nat.pow_succ', Nat.mod_mul]
      exact Nat.add_comm _ _

theorem char_of_hex_digits {char : Char} {width : Nat} (small : char.toNat < 16 ^ width)
    (rest : List Char) :
    Char.ofNat (Numeral.valueIn 16 ((hexDigits width char.toNat ++ rest).take width)) = char ∧
      (hexDigits width char.toNat ++ rest).drop width = rest := by
  have length := length_hex_digits width char.toNat
  rw [List.take_left' length, List.drop_left' length, value_in_hex_digits, Nat.mod_eq_of_lt small,
    Char.ofNat_toNat]
  exact ⟨rfl, rfl⟩

/-- What is listed for a character is read as the character. -/
theorem read_listed_char {quote : Char} (isQuote : IsQuote quote) (char : Char)
    (rest : List Char) : readListed (listedChar quote char ++ rest) = some (char, rest) := by
  have valid : char.toNat < 16 ^ 8 := by
    have limit := char.valid
    simp only [UInt32.isValidChar, Nat.isValidChar] at limit
    rw [Char.toNat]
    omega
  have numbered (width : Nat) (small : char.toNat < 16 ^ width) :
      some (Char.ofNat (Numeral.valueIn 16 ((hexDigits width char.toNat ++ rest).take width)),
        (hexDigits width char.toNat ++ rest).drop width) = some (char, rest) := by
    obtain ⟨read, behind⟩ := char_of_hex_digits small rest
    rw [read, behind]
  unfold listedChar
  split_ifs with escaped feed back tab plain two four
  · rw [Bool.or_eq_true, decide_eq_true_eq, decide_eq_true_eq] at escaped
    rcases escaped with rfl | rfl
    · rcases isQuote with rfl | rfl <;> rfl
    · rfl
  · rw [feed]
    rfl
  · rw [back]
    rfl
  · rw [tab]
    rfl
  · have notSlash : char ≠ '\\' := by
      rintro rfl
      simp at escaped
    simp [readListed, notSlash]
  · exact numbered 2 two
  · exact numbered 4 four
  · exact numbered 8 valid

theorem listed_chars_injective {quote : Char} (isQuote : IsQuote quote) {text other : List Char}
    (same : text.flatMap (listedChar quote) = other.flatMap (listedChar quote)) : text = other := by
  induction text generalizing other with
  | nil =>
      cases other with
      | nil => rfl
      | cons char other =>
          have read := read_listed_char isQuote char (other.flatMap (listedChar quote))
          rw [← List.flatMap_cons, ← same] at read
          cases read
  | cons char text induction =>
      have read := read_listed_char isQuote char (text.flatMap (listedChar quote))
      rw [← List.flatMap_cons, same] at read
      cases other with
      | nil => cases read
      | cons char other =>
          rw [List.flatMap_cons, read_listed_char isQuote] at read
          obtain ⟨rfl, behind⟩ := Prod.mk.inj (Option.some.inj read)
          rw [induction behind.symm]

theorem listed_to_list (text : String) : (listed text).toList =
    preferredQuote text.toList :: (text.toList.flatMap (listedChar (preferredQuote text.toList)) ++
      [preferredQuote text.toList]) := String.toList_ofList

/-- No two texts are listed in the same way. -/
theorem listed_injective {text other : String} (same : listed text = listed other) :
    text = other := by
  have sameChars := congrArg String.toList same
  rw [listed_to_list, listed_to_list] at sameChars
  obtain ⟨quote, behind⟩ := List.cons.inj sameChars
  rw [← quote] at behind
  exact String.toList_inj.1
    (listed_chars_injective (preferred_quote_is_quote _) (List.append_cancel_right behind))

theorem feed_not_mem_hex_digits (width number : Nat) : '\n' ∉ hexDigits width number := by
  have digits : ∀ digit < 16, Nat.digitChar digit ≠ '\n' := by decide
  induction width generalizing number with
  | zero => exact List.not_mem_nil
  | succ width induction =>
      rw [hexDigits, List.mem_append, List.mem_singleton, not_or]
      exact ⟨induction _, (digits _ (Nat.mod_lt _ (by decide))).symm⟩

theorem feed_not_mem_listed_char {quote : Char} (isQuote : IsQuote quote) (char : Char) :
    '\n' ∉ listedChar quote char := by
  have numbered (width : Nat) : '\n' ∉ hexDigits width char.toNat := feed_not_mem_hex_digits _ _
  unfold listedChar
  split_ifs with escaped feed
  · rw [Bool.or_eq_true, decide_eq_true_eq, decide_eq_true_eq] at escaped
    rcases escaped with rfl | rfl
    · rcases isQuote with rfl | rfl <;> simp
    · simp
  · simp
  · simp
  · simp
  · simpa using Ne.symm feed
  · simp [numbered]
  · simp [numbered]
  · simp [numbered]

/-- A listed text begins with its quote and has no line feed. -/
theorem listed_quoted (text : String) :
    (∃ quote rest, (listed text).toList = quote :: rest ∧ IsQuote quote) ∧
      '\n' ∉ (listed text).toList := by
  have isQuote := preferred_quote_is_quote text.toList
  have notFeed : '\n' ≠ preferredQuote text.toList := by
    rcases isQuote with quote | quote <;> rw [quote] <;> decide
  rw [listed_to_list]
  refine ⟨⟨_, _, rfl, isQuote⟩, ?_⟩
  simp [notFeed, feed_not_mem_listed_char isQuote]

end LayoutScript.Text
