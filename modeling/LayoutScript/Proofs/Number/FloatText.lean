import LayoutScript.Proofs.Number.Decimal
import LayoutScript.Proofs.Text.Quoted

/-!
Texts of floats read back. A text has a point, an exponent or both, and denotes a decimal; the
layout of digits at a power of ten keeps the exact value, whichever form it takes. So the text of a
rounded number is read as that number, and no two of these have the same text.
-/

namespace LayoutScript.Binary64

open Numeral

/-- The digits of an exponent behind its sign. -/
def Signed (exponent : List Char) : Prop :=
  ∃ sign digits, exponent = sign :: digits ∧ (sign = '-' ∨ sign = '+') ∧
    ∀ digit ∈ digits, Text.isDigit digit = true

theorem Signed.ne_nil {exponent : List Char} (signed : Signed exponent) : exponent ≠ [] := by
  obtain ⟨sign, digits, rfl, _⟩ := signed
  exact List.cons_ne_nil sign digits

/-- Digits with a point, an exponent or both, and the decimal that they denote. -/
inductive Denotes : List Char → Nat → Int → Prop where
  | positional {whole fraction : List Char} (some : whole ≠ [])
      (wholeDecimal : ∀ digit ∈ whole, Text.isDigit digit = true)
      (decimal : ∀ digit ∈ fraction, Text.isDigit digit = true) :
      Denotes (whole ++ '.' :: fraction) (value (whole ++ fraction)) (0 - fraction.length)
  | scientific {whole exponent : List Char} (some : whole ≠ [])
      (wholeDecimal : ∀ digit ∈ whole, Text.isDigit digit = true) (signed : Signed exponent) :
      Denotes (whole ++ 'e' :: exponent) (value whole) (toInt (String.ofList exponent))
  | scientificFraction {whole fraction exponent : List Char} (some : whole ≠ [])
      (wholeDecimal : ∀ digit ∈ whole, Text.isDigit digit = true)
      (decimal : ∀ digit ∈ fraction, Text.isDigit digit = true) (signed : Signed exponent) :
      Denotes (whole ++ '.' :: (fraction ++ 'e' :: exponent)) (value (whole ++ fraction))
        (toInt (String.ofList exponent) - fraction.length)

/-- A text is read as the decimal that it denotes. -/
theorem Denotes.read {text : List Char} {coefficient : Nat} {exponent : Int}
    (denotes : Denotes text coefficient exponent) (negative : Bool) :
    ofUnsignedText? negative text = some (ofDecimal negative coefficient exponent) := by
  have isDigit : (fun char : Char => decide ('0' ≤ char) && decide (char ≤ '9')) =
      Text.isDigit := rfl
  cases denotes with
  | @positional whole fraction some wholeDecimal decimal =>
      obtain ⟨taken, dropped⟩ := Text.take_front wholeDecimal
        (show ∀ char ∈ ('.' :: fraction).head?, Text.isDigit char = false by simp [Text.isDigit])
      obtain ⟨takenToo, droppedToo⟩ := Text.take_front decimal
        (show ∀ char ∈ ([] : List Char).head?, Text.isDigit char = false by simp)
      rw [List.append_nil] at takenToo droppedToo
      simp only [ofUnsignedText?, isDigit, taken, dropped, takenToo, droppedToo]
      simp [some]
  | @scientific whole exponent some wholeDecimal signed =>
      obtain ⟨taken, dropped⟩ := Text.take_front wholeDecimal
        (show ∀ char ∈ ('e' :: exponent).head?, Text.isDigit char = false by simp [Text.isDigit])
      simp only [ofUnsignedText?, isDigit, taken, dropped]
      simp [some, signed.ne_nil]
  | @scientificFraction whole fraction exponent some wholeDecimal decimal signed =>
      obtain ⟨taken, dropped⟩ := Text.take_front wholeDecimal
        (show ∀ char ∈ ('.' :: (fraction ++ 'e' :: exponent)).head?, Text.isDigit char = false by
          simp [Text.isDigit])
      obtain ⟨takenToo, droppedToo⟩ := Text.take_front decimal
        (show ∀ char ∈ ('e' :: exponent).head?, Text.isDigit char = false by simp [Text.isDigit])
      simp only [ofUnsignedText?, isDigit, taken, dropped, takenToo, droppedToo]
      simp [some, signed.ne_nil]

theorem Denotes.head {text : List Char} {coefficient : Nat} {exponent : Int}
    (denotes : Denotes text coefficient exponent) :
    ∃ first others, text = first :: others ∧ Text.isDigit first = true := by
  have front {whole : List Char} (some : whole ≠ [])
      (wholeDecimal : ∀ digit ∈ whole, Text.isDigit digit = true) (rest : List Char) :
      ∃ first others, whole ++ rest = first :: others ∧ Text.isDigit first = true := by
    cases whole with
    | nil => exact absurd rfl some
    | cons first others => exact ⟨first, others ++ rest, rfl, wholeDecimal first List.mem_cons_self⟩
  cases denotes with
  | positional some wholeDecimal | scientific some wholeDecimal
  | scientificFraction some wholeDecimal => exact front some wholeDecimal _

/-- No other characters are in a text. -/
def IsNumeralChar (char : Char) : Prop := Text.isDigit char = true ∨ char ∈ ['.', 'e', '-', '+']

theorem Signed.characters {exponent : List Char} (signed : Signed exponent) :
    ∀ char ∈ exponent, IsNumeralChar char := by
  obtain ⟨sign, digits, rfl, mark, decimal⟩ := signed
  refine List.forall_mem_cons.2 ⟨.inr ?_, fun char member => .inl (decimal char member)⟩
  rcases mark with rfl | rfl <;> simp

theorem Denotes.characters {text : List Char} {coefficient : Nat} {exponent : Int}
    (denotes : Denotes text coefficient exponent) : ∀ char ∈ text, IsNumeralChar char := by
  have point : IsNumeralChar '.' := .inr (by simp)
  have mark : IsNumeralChar 'e' := .inr (by simp)
  cases denotes with
  | positional some wholeDecimal decimal =>
      exact List.forall_mem_append.2 ⟨fun char member => .inl (wholeDecimal char member),
        List.forall_mem_cons.2 ⟨point, fun char member => .inl (decimal char member)⟩⟩
  | scientific some wholeDecimal signed =>
      exact List.forall_mem_append.2 ⟨fun char member => .inl (wholeDecimal char member),
        List.forall_mem_cons.2 ⟨mark, signed.characters⟩⟩
  | scientificFraction some wholeDecimal decimal signed =>
      exact List.forall_mem_append.2 ⟨fun char member => .inl (wholeDecimal char member),
        List.forall_mem_cons.2 ⟨point, List.forall_mem_append.2
          ⟨fun char member => .inl (decimal char member),
            List.forall_mem_cons.2 ⟨mark, signed.characters⟩⟩⟩⟩

theorem to_int_signed (digits : List Char) :
    toInt (String.ofList ('-' :: digits)) = -(value digits : Int) ∧
    toInt (String.ofList ('+' :: digits)) = value digits := by
  simp [toInt]

/-- The text of an exponent, and the exponent that it denotes. -/
theorem exponent_text_reads (exponent : Int) :
    ∃ tail, (exponentText exponent).toList = 'e' :: tail ∧ Signed tail ∧
      toInt (String.ofList tail) = exponent := by
  unfold exponentText
  extract_lets numeral padded
  have decimal : ∀ digit ∈ padded, Text.isDigit digit = true := by
    unfold padded
    split
    · exact List.forall_mem_cons.2 ⟨rfl, digits_digits _⟩
    · exact digits_digits _
  have magnitude : value padded = exponent.natAbs := by
    have same : value numeral = exponent.natAbs := digits_value _
    unfold padded
    split
    · rw [value_cons, same]
      simp [digitValue]
    · exact same
  split
  · refine ⟨'-' :: padded, by simp, ⟨'-', padded, rfl, .inl rfl, decimal⟩, ?_⟩
    rw [(to_int_signed padded).1, magnitude]
    omega
  · refine ⟨'+' :: padded, by simp, ⟨'+', padded, rfl, .inr rfl, decimal⟩, ?_⟩
    rw [(to_int_signed padded).2, magnitude]
    omega

theorem value_zeros (digits : List Char) (count : Nat) :
    value (digits ++ List.replicate count '0') = value digits * 10 ^ count := by
  have none := value_replicate_zero count []
  rw [List.append_nil] at none
  rw [value_append, none, List.length_replicate, Nat.mul_comm]
  rfl

/-- Zeros behind digits move their power of ten. -/
theorem exact_zeros (digits : List Char) (count : Nat) {exponent total : Int}
    (moved : total = exponent + count) :
    ((value (digits ++ List.replicate count '0') : Nat) : ℚ) * 10 ^ exponent =
      value digits * 10 ^ total := by
  rw [value_zeros, moved, zpow_add₀ (by norm_num), zpow_natCast]
  push_cast
  ring

/-- The layout of digits denotes the digits, the first of them at the leading place. -/
theorem layout_denotes {digits : List Char} (some : digits ≠ [])
    (decimal : ∀ digit ∈ digits, Text.isDigit digit = true) (leading : Int) :
    ∃ coefficient exponent, Denotes (layout digits leading).toList coefficient exponent ∧
      (coefficient : ℚ) * 10 ^ exponent = value digits * 10 ^ (leading + 1 - digits.length) := by
  have zeros (count : Nat) : ∀ digit ∈ List.replicate count '0', Text.isDigit digit = true :=
    fun digit member => by rw [(List.mem_replicate.1 member).2]; rfl
  have someLength : 0 < digits.length := List.length_pos_iff.2 some
  unfold layout
  split
  · split
    · rename_i places _
      rw [String.toList_ofList, Int.ofNat_eq_natCast]
      split
      · -- All digits stand before the point.
        rename_i short
        have few : digits.length ≤ places + 1 := by simpa using short
        rw [List.take_of_length_le few]
        refine ⟨_, _, .positional (by simp [some]) ?_ (zeros 1), ?_⟩
        · exact List.forall_mem_append.2 ⟨decimal, zeros _⟩
        · rw [show (['0'] : List Char) = List.replicate 1 '0' from rfl, List.append_assoc,
            List.replicate_append_replicate, List.length_replicate]
          apply exact_zeros
          omega
      · rename_i long
        have many : places + 1 < digits.length := by simpa using long
        have full : (digits.take (places + 1)).length = places + 1 := by
          rw [List.length_take]
          omega
        rw [full, Nat.sub_self, List.replicate_zero, List.append_nil]
        refine ⟨_, _, .positional ?_ (fun digit member => decimal digit (List.mem_of_mem_take member))
          (fun digit member => decimal digit (List.mem_of_mem_drop member)), ?_⟩
        · exact List.ne_nil_of_length_eq_add_one full
        · rw [List.take_append_drop, List.length_drop]
          congr 2
          omega
    · rename_i places _
      rw [String.toList_ofList]
      refine ⟨_, _, .positional (List.cons_ne_nil '0' []) (zeros 1)
        (List.forall_mem_append.2 ⟨zeros places, decimal⟩), ?_⟩
      have leadingZeros := value_replicate_zero (places + 1) digits
      rw [List.replicate_succ, List.cons_append] at leadingZeros
      rw [List.singleton_append, List.append_eq, leadingZeros, List.length_append,
        List.length_replicate]
      congr 2
      omega
  · obtain ⟨tail, spelled, signed, reads⟩ := exponent_text_reads leading
    split
    · exact absurd rfl some
    · rename_i digit
      rw [String.toList_append, String.toList_ofList, spelled]
      refine ⟨_, _, .scientific some decimal signed, ?_⟩
      rw [reads, List.length_singleton, Nat.cast_one, Int.add_sub_cancel]
    · rename_i digit rest several
      obtain ⟨first, others⟩ := List.forall_mem_cons.1 decimal
      rw [String.toList_append, String.toList_ofList, spelled]
      refine ⟨_, _, .scientificFraction (List.cons_ne_nil digit [])
        (List.forall_mem_singleton.2 first) others signed, ?_⟩
      rw [reads, List.singleton_append, List.length_cons]
      congr 2
      omega

/-- Only zeros are dropped behind the digits. -/
theorem trim_trailing_append (digits : List Char) :
    ∃ count, digits = trimTrailing digits ++ List.replicate count '0' := by
  have split : digits.reverse.takeWhile (· == '0') ++ digits.reverse.dropWhile (· == '0') =
      digits.reverse := List.takeWhile_append_dropWhile
  have zeros : (digits.reverse.takeWhile (· == '0')).reverse =
      List.replicate (digits.reverse.takeWhile (· == '0')).reverse.length '0' := by
    apply List.eq_replicate_of_mem
    intro digit member
    simpa using List.mem_takeWhile_imp (List.mem_reverse.1 member)
  refine ⟨(digits.reverse.takeWhile (· == '0')).reverse.length, ?_⟩
  rw [← zeros, trimTrailing, ← List.reverse_append, split, List.reverse_reverse]

theorem of_decimal_zero (negative : Bool) (exponent : Int) :
    ofDecimal negative 0 exponent = finite negative 0 := by
  cases exponent with
  | ofNat places => rfl
  | negSucc places =>
      have none : roundUnits (0 * one) (tenTo (places + 1)) = 0 := by
        apply round_units_zero
        rw [Nat.zero_mul]
        exact ten_to_pos _
      rw [ofDecimal.eq_def]
      dsimp only
      split
      · rfl
      · exact of_quotient_eq_finite.2 ⟨rfl, none, two_to_pos _⟩

/-- The text of a magnitude denotes a decimal that is read as the number. -/
theorem magnitude_text_denotes {units : Nat} (rounded : Rounded units) (small : units < bound) :
    ∃ coefficient exponent, Denotes (magnitudeText units).toList coefficient exponent ∧
      ∀ negative, ofDecimal negative coefficient exponent = finite negative units := by
  unfold magnitudeText
  split
  · rename_i zero
    have decimal : ∀ digit ∈ ['0'], Text.isDigit digit = true := List.forall_mem_singleton.2 rfl
    rw [zero]
    exact ⟨0, _, .positional (List.cons_ne_nil '0' []) decimal decimal,
      fun negative => of_decimal_zero negative _⟩
  · rename_i nonzero
    have positive : 0 < units := Nat.pos_of_ne_zero nonzero
    have readsBack := (reads_back_iff positive small).1 (shortest_reads_back rounded positive small)
    have isNumeral := digits_value (shortest units).coefficient
    have decimal := digits_digits (shortest units).coefficient
    dsimp only
    generalize digits (shortest units).coefficient = numeral at isNumeral decimal ⊢
    obtain ⟨count, parts⟩ := trim_trailing_append numeral
    have some : trimTrailing numeral ≠ [] := by
      intro none
      rw [parts, none, value_zeros, show value [] = 0 from rfl, Nat.zero_mul] at isNumeral
      rw [← isNumeral, decimal_units_zero] at readsBack
      exact nonzero readsBack.symm
    have trimmedDecimal : ∀ digit ∈ trimTrailing numeral, Text.isDigit digit = true := by
      rw [parts] at decimal
      exact (List.forall_mem_append.1 decimal).1
    obtain ⟨coefficient, exponent, denotes, exact⟩ := layout_denotes some trimmedDecimal
      ((shortest units).exponent + (numeral.length : Int) - 1)
    refine ⟨coefficient, exponent, denotes, fun negative => ?_⟩
    rw [of_decimal_eq_finite positive]
    refine ⟨rfl, ?_, small⟩
    rw [← readsBack, ← isNumeral]
    apply decimal_units_congr
    rw [exact]
    have length := congrArg List.length parts
    rw [List.length_append, List.length_replicate] at length
    rw [show value numeral = value (trimTrailing numeral ++ List.replicate count '0') from
      congrArg value parts]
    refine (exact_zeros _ _ ?_).symm
    omega

/-- Digits have no other case. -/
theorem lower_digit {char : Char} (digit : Text.isDigit char = true) : char.toLower = char := by
  have upper : char.val ≤ '9'.val := by
    simp only [Text.isDigit, Bool.and_eq_true, decide_eq_true_eq] at digit
    exact digit.2
  unfold Char.toLower
  rw [dif_neg]
  rintro ⟨letter, _⟩
  exact absurd (UInt32.le_trans letter upper) (by decide)

/-- A text that starts with a digit is read as a number, and not as the word for a special one. -/
theorem of_text_digits {text : List Char} {first : Char} {others : List Char}
    (spelled : text = first :: others) (digit : Text.isDigit first = true) (negative : Bool) :
    ofText? (String.ofList (if negative then '-' :: text else text)) =
      ofUnsignedText? negative text := by
  have unsigned : first ≠ '-' ∧ first ≠ '+' := by
    constructor <;> rintro rfl <;> cases digit
  have lowered : (String.ofList text).toLower.toList = text.map Char.toLower := by
    change ((String.ofList text).map Char.toLower).toList = _
    rw [String.toList_map, String.toList_ofList]
  have noWord (word : String) (letter : Text.isDigit (word.toList.headD 'a') = false) :
      (String.ofList text).toLower ≠ word := by
    rintro rfl
    rw [lowered, spelled, List.map_cons, List.headD_cons, lower_digit digit, digit] at letter
    cases letter
  unfold ofText?
  rw [String.toList_ofList]
  split
  rename_i sign magnitude parts
  obtain ⟨rfl, rfl⟩ : sign = negative ∧ magnitude = text := by
    subst spelled
    cases negative with
    | true =>
        cases parts
        exact ⟨rfl, rfl⟩
    | false =>
        split at parts <;> simp_all
  split
  · exact absurd ‹_› (noWord _ rfl)
  · exact absurd ‹_› (noWord _ rfl)
  · exact absurd ‹_› (noWord _ rfl)
  · rfl

namespace Representable

variable {number other : Binary64}

/-- The text of a representable number is read as the number. -/
theorem reads_back (representable : number.Representable) : ofText? number.text = some number := by
  obtain ⟨negative, rounded, small⟩ := representable
  obtain ⟨coefficient, exponent, denotes, exact⟩ := magnitude_text_denotes rounded small
  obtain ⟨first, others, spelled, digit⟩ := denotes.head
  have read := of_text_digits spelled digit negative
  rw [denotes.read, exact] at read
  rw [← read, text]
  cases negative <;> simp

theorem text_injective (representable : number.Representable) (otherToo : other.Representable)
    (same : number.text = other.text) : number = other := by
  have read := representable.reads_back
  rw [same, otherToo.reads_back] at read
  exact (Option.some.inj read).symm

theorem text_characters (representable : number.Representable) :
    ∀ char ∈ number.text.toList, IsNumeralChar char := by
  obtain ⟨negative, rounded, small⟩ := representable
  obtain ⟨_, _, denotes, _⟩ := magnitude_text_denotes rounded small
  rw [text, String.toList_append]
  apply List.forall_mem_append.2 ⟨?_, denotes.characters⟩
  cases negative with
  | true => exact List.forall_mem_singleton.2 (.inr (by decide))
  | false => exact List.forall_mem_nil _

end Representable

end LayoutScript.Binary64
