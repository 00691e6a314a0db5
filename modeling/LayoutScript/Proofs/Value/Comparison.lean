import LayoutScript.Proofs.Number.Range
import LayoutScript.Proofs.Value.Finite
import Mathlib.Order.Compare

/-!
Comparisons of values agree with each other. Numbers of either kind stand at places of one line,
and places are linearly ordered. Two values are equal if they mean the same: the same place, text
or function, or tuples whose elements mean the same. NaN means nothing, so that no value that
holds it is equal to any.
-/

namespace LayoutScript

namespace Place

theorem compare_swap (left right : Place) : left.compare right = (right.compare left).swap := by
  cases left <;> cases right <;>
    first
      | rfl
      | exact Std.OrientedOrd.eq_swap

theorem compare_le_trans {first second third : Place}
    (lower : (first.compare second).isLE = true) (upper : (second.compare third).isLE = true) :
    (first.compare third).isLE = true := by
  cases first <;> cases second <;> cases third <;>
    first
      | rfl
      | exact absurd lower Bool.false_ne_true
      | exact absurd upper Bool.false_ne_true
      | exact Std.TransOrd.isLE_trans lower upper

theorem compare_eq_iff (left right : Place) : left.compare right = .eq ↔ left = right := by
  cases left <;> cases right <;> simp [compare]

instance : Std.TransCmp compare where
  eq_swap := compare_swap _ _
  isLE_trans := compare_le_trans

/-- Integers are in the order of their places. -/
theorem compare_of_int (left right : Int) :
    (ofInt left).compare (ofInt right) = Ord.compare left right := by
  have positive : (0 : Int) < Binary64.one := by exact_mod_cast Binary64.one_pos
  have scaled : StrictMono fun number : Int => number * (Binary64.one : Int) :=
    fun _ _ less => Int.mul_lt_mul_of_pos_right less positive
  have same := scaled.cmp_map_eq left right
  rwa [cmp_eq_compare, cmp_eq_compare] at same

end Place

/-- The pairs of kinds that have an order: two numbers, two texts or two truth values. -/
def ValueKind.ordersWith : ValueKind → ValueKind → Bool
  | .int, .int | .int, .float | .float, .int | .float, .float => true
  | .string, .string | .bool, .bool => true
  | _, _ => false

/-- What a value means to a comparison. -/
inductive Meaning where
  | nothing
  | number (place : Place)
  | bool (value : Bool)
  | string (value : String)
  | tuple (elements : List Meaning)
  | function (identity : Identity)

namespace Value

mutual

/-- What a value means, unless it holds NaN. -/
def meaning? : Value → Option Meaning
  | .nothing => some .nothing
  | .int value => some (.number (.ofInt value))
  | .float value => (Place.ofBinary64? value).map .number
  | .bool value => some (.bool value)
  | .string value => some (.string value)
  | .tuple elements => (meanings? elements).map .tuple
  | .function callable => some (.function callable.identity)

def meanings? : List Value → Option (List Meaning)
  | [] => some []
  | value :: values => do return (← value.meaning?) :: (← meanings? values)

end

/-- Numbers compare as their places do. -/
theorem compare_numbers_of_places {left right : Value} {first second : Place}
    (leftPlace : left.place? = some first) (rightPlace : right.place? = some second) :
    compareNumbers left right = some (first.compare second) := by
  cases left with
  | int left =>
      cases right with
      | int right =>
          cases leftPlace
          cases rightPlace
          exact congrArg some (Place.compare_of_int left right).symm
      | _ => simp [compareNumbers, leftPlace, rightPlace]
  | _ => simp [compareNumbers, leftPlace, rightPlace]

/-- Two numbers are only in an order if both have places. -/
theorem places_of_compare_numbers {left right : Value} {order : Ordering}
    (compared : compareNumbers left right = some order) :
    ∃ first second, left.place? = some first ∧ right.place? = some second ∧
      first.compare second = order := by
  have places : ∃ first second, left.place? = some first ∧ right.place? = some second := by
    unfold compareNumbers at compared
    split at compared
    · exact ⟨_, _, rfl, rfl⟩
    · split at compared
      · rename_i first second leftPlace rightPlace
        exact ⟨first, second, leftPlace, rightPlace⟩
      · cases compared
  obtain ⟨first, second, leftPlace, rightPlace⟩ := places
  rw [compare_numbers_of_places leftPlace rightPlace, Option.some.injEq] at compared
  exact ⟨first, second, leftPlace, rightPlace, compared⟩

theorem compare_numbers_eq_iff (left right : Value) :
    compareNumbers left right = some .eq ↔
      ∃ place, left.place? = some place ∧ right.place? = some place := by
  constructor
  · intro compared
    obtain ⟨first, second, leftPlace, rightPlace, same⟩ := places_of_compare_numbers compared
    rw [(Place.compare_eq_iff first second).1 same] at leftPlace
    exact ⟨second, leftPlace, rightPlace⟩
  · rintro ⟨place, leftPlace, rightPlace⟩
    rw [compare_numbers_of_places leftPlace rightPlace, (Place.compare_eq_iff place place).2 rfl]

/-- A value that is a number. -/
def IsNumber (value : Value) : Prop := value.kind = .int ∨ value.kind = .float

theorem meaning_of_number {value : Value} (number : value.IsNumber) :
    value.meaning? = value.place?.map .number := by
  cases value with
  | int | float => rfl
  | _ => exact absurd number (by simp [IsNumber, kind])

theorem equal_numbers {left right : Value} (leftNumber : left.IsNumber)
    (rightNumber : right.IsNumber) :
    left.equal right = true ↔ compareNumbers left right = some .eq := by
  cases left with
  | int | float =>
      cases right with
      | int | float => simp [equal, compareNumbers]
      | _ => exact absurd rightNumber (by simp [IsNumber, kind])
  | _ => exact absurd leftNumber (by simp [IsNumber, kind])

theorem equal_numbers_iff_meaning {left right : Value} (leftNumber : left.IsNumber)
    (rightNumber : right.IsNumber) : left.equal right = true ↔
      ∃ meaning, left.meaning? = some meaning ∧ right.meaning? = some meaning := by
  rw [equal_numbers leftNumber rightNumber, compare_numbers_eq_iff,
    meaning_of_number leftNumber, meaning_of_number rightNumber]
  constructor
  · rintro ⟨place, leftPlace, rightPlace⟩
    exact ⟨.number place, by rw [leftPlace, Option.map_some], by rw [rightPlace, Option.map_some]⟩
  · rintro ⟨meaning, leftMeans, rightMeans⟩
    obtain ⟨place, leftPlace, rfl⟩ := Option.map_eq_some_iff.1 leftMeans
    obtain ⟨_, rightPlace, same⟩ := Option.map_eq_some_iff.1 rightMeans
    cases same
    exact ⟨place, leftPlace, rightPlace⟩

theorem meanings_cons {value : Value} {values : List Value} {meanings : List Meaning} :
    meanings? (value :: values) = some meanings ↔ ∃ first others, value.meaning? = some first ∧
      meanings? values = some others ∧ meanings = first :: others := by
  rw [meanings?]
  cases value.meaning? with
  | none => simp
  | some first =>
      cases meanings? values with
      | none => simp
      | some others => simp [eq_comm]

mutual

/-- Values are equal exactly if both have a meaning, and the same one. -/
theorem equal_iff_meaning (left right : Value) : left.equal right = true ↔
    ∃ meaning, left.meaning? = some meaning ∧ right.meaning? = some meaning := by
  cases left with
  | tuple lefts =>
      cases right with
      | tuple rights =>
          rw [equal, equal_all_iff_meanings lefts rights]
          simp [meaning?]
      | _ => simp [equal, meaning?]
  | int left =>
      cases right with
      | int right => exact equal_numbers_iff_meaning (.inl rfl) (.inl rfl)
      | float right => exact equal_numbers_iff_meaning (.inl rfl) (.inr rfl)
      | _ => simp [equal, meaning?]
  | float left =>
      cases right with
      | int right => exact equal_numbers_iff_meaning (.inr rfl) (.inl rfl)
      | float right => exact equal_numbers_iff_meaning (.inr rfl) (.inr rfl)
      | _ => simp [equal, meaning?]
  | _ => cases right <;> simp [equal, meaning?]; try exact eq_comm

theorem equal_all_iff_meanings (lefts rights : List Value) : equalAll lefts rights = true ↔
    ∃ meanings, meanings? lefts = some meanings ∧ meanings? rights = some meanings := by
  cases lefts with
  | nil =>
      cases rights with
      | nil => simp [equalAll, meanings?]
      | cons right rights => simp [equalAll, meanings_cons, show meanings? [] = some [] from rfl]
  | cons left lefts =>
      cases rights with
      | nil => simp [equalAll, meanings_cons, show meanings? [] = some [] from rfl]
      | cons right rights =>
          rw [equalAll, Bool.and_eq_true, equal_iff_meaning left right,
            equal_all_iff_meanings lefts rights]
          simp only [meanings_cons]
          constructor
          · rintro ⟨⟨first, leftMeans, rightMeans⟩, others, leftsMean, rightsMean⟩
            exact ⟨_, ⟨first, others, leftMeans, leftsMean, rfl⟩,
              first, others, rightMeans, rightsMean, rfl⟩
          · rintro ⟨_, ⟨first, others, leftMeans, leftsMean, rfl⟩,
              _, _, rightMeans, rightsMean, same⟩
            cases same
            exact ⟨⟨first, leftMeans, rightMeans⟩, others, leftsMean, rightsMean⟩

end

theorem equal_comm (left right : Value) : left.equal right = right.equal left := by
  rw [Bool.eq_iff_iff, equal_iff_meaning, equal_iff_meaning]
  simp only [and_comm]

theorem equal_trans {first second third : Value} (lower : first.equal second = true)
    (upper : second.equal third = true) : first.equal third = true := by
  obtain ⟨meaning, firstMeans, means⟩ := (equal_iff_meaning first second).1 lower
  obtain ⟨other, same, thirdMeans⟩ := (equal_iff_meaning second third).1 upper
  rw [means, Option.some.injEq] at same
  subst same
  exact (equal_iff_meaning first third).2 ⟨meaning, firstMeans, thirdMeans⟩

mutual

/-- A value that holds no NaN has a meaning. -/
theorem meaning_of_no_nan (value : Value) (noNaN : .nan ∉ value.floats) :
    ∃ meaning, value.meaning? = some meaning := by
  cases value with
  | float number =>
      cases number with
      | nan => exact absurd (by simp [floats]) noNaN
      | finite => exact ⟨_, rfl⟩
      | infinite negative => cases negative <;> exact ⟨_, rfl⟩
  | tuple elements =>
      obtain ⟨meanings, mean⟩ := meanings_of_no_nan elements noNaN
      exact ⟨.tuple meanings, by rw [meaning?, mean, Option.map_some]⟩
  | _ => exact ⟨_, rfl⟩

theorem meanings_of_no_nan (values : List Value) (noNaN : .nan ∉ floatsAll values) :
    ∃ meanings, meanings? values = some meanings := by
  cases values with
  | nil => exact ⟨_, rfl⟩
  | cons value values =>
      rw [floatsAll, List.mem_append, not_or] at noNaN
      obtain ⟨first, means⟩ := meaning_of_no_nan value noNaN.1
      obtain ⟨others, mean⟩ := meanings_of_no_nan values noNaN.2
      exact ⟨_, meanings_cons.2 ⟨first, others, means, mean, rfl⟩⟩

end

theorem equal_refl {value : Value} (noNaN : .nan ∉ value.floats) : value.equal value = true := by
  obtain ⟨meaning, means⟩ := meaning_of_no_nan value noNaN
  exact (equal_iff_meaning value value).2 ⟨meaning, means, means⟩

theorem compare_numbers {left right : Value} (leftNumber : left.IsNumber)
    (rightNumber : right.IsNumber) : left.compare? right = some (compareNumbers left right) := by
  cases left with
  | int | float =>
      cases right with
      | int | float => rfl
      | _ => exact absurd rightNumber (by simp [IsNumber, kind])
  | _ => exact absurd leftNumber (by simp [IsNumber, kind])

theorem place_of_no_nan {value : Value} (number : value.IsNumber) (noNaN : .nan ∉ value.floats) :
    ∃ place, value.place? = some place := by
  obtain ⟨meaning, means⟩ := meaning_of_no_nan value noNaN
  rw [meaning_of_number number] at means
  obtain ⟨place, stands, _⟩ := Option.map_eq_some_iff.1 means
  exact ⟨place, stands⟩

/-- Numbers have an order, and it is the one that equality takes part in. -/
theorem order_of_numbers {left right : Value} (leftNumber : left.IsNumber)
    (rightNumber : right.IsNumber) (leftNoNaN : .nan ∉ left.floats)
    (rightNoNaN : .nan ∉ right.floats) : ∃ order, left.compare? right = some (some order) ∧
      (left.equal right = true ↔ order = .eq) := by
  obtain ⟨first, leftPlace⟩ := place_of_no_nan leftNumber leftNoNaN
  obtain ⟨second, rightPlace⟩ := place_of_no_nan rightNumber rightNoNaN
  have compared := compare_numbers_of_places leftPlace rightPlace
  refine ⟨first.compare second, by rw [compare_numbers leftNumber rightNumber, compared], ?_⟩
  rw [equal_numbers leftNumber rightNumber, compared, Option.some.injEq]

/-- Values of kinds that have an order are in one, unless NaN is involved. -/
theorem order_of_kinds {left right : Value} (ordered : left.kind.ordersWith right.kind = true)
    (leftNoNaN : .nan ∉ left.floats) (rightNoNaN : .nan ∉ right.floats) :
    ∃ order, left.compare? right = some (some order) ∧
      (left.equal right = true ↔ order = .eq) := by
  cases left with
  | int left =>
      cases right with
      | int right => exact order_of_numbers (.inl rfl) (.inl rfl) leftNoNaN rightNoNaN
      | float right => exact order_of_numbers (.inl rfl) (.inr rfl) leftNoNaN rightNoNaN
      | _ => cases ordered
  | float left =>
      cases right with
      | int right => exact order_of_numbers (.inr rfl) (.inl rfl) leftNoNaN rightNoNaN
      | float right => exact order_of_numbers (.inr rfl) (.inr rfl) leftNoNaN rightNoNaN
      | _ => cases ordered
  | string left =>
      cases right with
      | string right => exact ⟨_, rfl, by simp [equal]⟩
      | _ => cases ordered
  | bool left =>
      cases right with
      | bool right => exact ⟨_, rfl, by simp [equal]⟩
      | _ => cases ordered
  | _ => cases ordered

/-- Values in an order are two numbers, two texts or two truth values. -/
theorem compare_cases {left right : Value} {order : Ordering}
    (compared : left.compare? right = some (some order)) :
    (left.IsNumber ∧ right.IsNumber ∧ ∃ first second, left.place? = some first ∧
      right.place? = some second ∧ first.compare second = order) ∨
    (∃ first second, left = .string first ∧ right = .string second ∧
      Ord.compare first second = order) ∨
    ∃ first second, left = .bool first ∧ right = .bool second ∧
      Ord.compare first second = order := by
  unfold compare? at compared
  split at compared
  · exact .inl ⟨.inl rfl, .inl rfl, places_of_compare_numbers (Option.some.inj compared)⟩
  · exact .inl ⟨.inl rfl, .inr rfl, places_of_compare_numbers (Option.some.inj compared)⟩
  · exact .inl ⟨.inr rfl, .inl rfl, places_of_compare_numbers (Option.some.inj compared)⟩
  · exact .inl ⟨.inr rfl, .inr rfl, places_of_compare_numbers (Option.some.inj compared)⟩
  · exact .inr (.inl ⟨_, _, rfl, rfl, by simpa using compared⟩)
  · exact .inr (.inr ⟨_, _, rfl, rfl, by simpa using compared⟩)
  · cases compared

/-- What is below a value that is below a third one is below the third. -/
theorem compare_lt_trans {first second third : Value}
    (lower : first.compare? second = some (some .lt))
    (upper : second.compare? third = some (some .lt)) :
    first.compare? third = some (some .lt) := by
  rcases compare_cases lower with ⟨firstNumber, _, low, middle, lowPlace, middlePlace, below⟩ |
    ⟨low, middle, rfl, rfl, below⟩ | ⟨low, middle, rfl, rfl, below⟩
  · rcases compare_cases upper with ⟨_, thirdNumber, _, high, samePlace, highPlace, above⟩ |
      ⟨_, _, rfl, _, _⟩ | ⟨_, _, rfl, _, _⟩
    · rw [middlePlace, Option.some.injEq] at samePlace
      subst samePlace
      rw [compare_numbers firstNumber thirdNumber, compare_numbers_of_places lowPlace highPlace,
        Std.TransCmp.lt_trans below above]
    · cases middlePlace
    · cases middlePlace
  · rcases compare_cases upper with ⟨secondNumber, _⟩ | ⟨_, high, same, rfl, above⟩ |
      ⟨_, _, same, _⟩
    · exact absurd secondNumber (by simp [IsNumber, kind])
    · cases same
      exact congrArg (some ∘ some) (Std.TransCmp.lt_trans below above)
    · cases same
  · rcases compare_cases upper with ⟨secondNumber, _⟩ | ⟨_, _, same, _⟩ |
      ⟨_, high, same, rfl, above⟩
    · exact absurd secondNumber (by simp [IsNumber, kind])
    · cases same
    · cases same
      exact congrArg (some ∘ some) (Std.TransCmp.lt_trans below above)

theorem ordered_of_compare (operator : BinaryOperator) (holds : Ordering → Bool)
    {left right : Value} {order : Ordering} (compared : left.compare? right = some (some order)) :
    ordered operator holds left right = .ok (.bool (holds order)) := by
  rw [ordered, compared]
  rfl

/-- Only values in that order are below each other. -/
theorem less_iff {limits : Limits} {left right : Value} :
    BinaryOperator.less.apply limits left right = .ok (.bool true) ↔
      left.compare? right = some (some .lt) := by
  constructor
  · intro less
    change ordered .less Ordering.isLT left right = _ at less
    unfold ordered at less
    split at less
    · rename_i order compared
      cases order with
      | none => cases less
      | some order =>
          cases order with
          | lt => exact compared
          | _ => cases less
    · cases less
  · exact ordered_of_compare .less Ordering.isLT

/-- The comparison operators agree. Equality is symmetric and transitive, and it is reflexive on
values that hold no NaN; inequality is its negation. Of two values without NaN whose kinds have an
order, the first is below, equal to or above the second, and exactly one of these; at most is the
negation of above, and at least that of below. Below is transitive, whatever kinds of numbers are
compared. -/
theorem comparisons_agree (limits : Limits) :
    (∀ left right : Value,
      BinaryOperator.equal.apply limits left right = .ok (.bool (left.equal right)) ∧
      BinaryOperator.notEqual.apply limits left right = .ok (.bool (!left.equal right)) ∧
      left.equal right = right.equal left) ∧
    (∀ first second third : Value, first.equal second = true → second.equal third = true →
      first.equal third = true) ∧
    (∀ value : Value, .nan ∉ value.floats → value.equal value = true) ∧
    (∀ left right : Value, left.kind.ordersWith right.kind = true → .nan ∉ left.floats →
      .nan ∉ right.floats → ∃ below same above : Bool,
        BinaryOperator.less.apply limits left right = .ok (.bool below) ∧
        BinaryOperator.equal.apply limits left right = .ok (.bool same) ∧
        BinaryOperator.greater.apply limits left right = .ok (.bool above) ∧
        [below, same, above].count true = 1 ∧
        BinaryOperator.lessEqual.apply limits left right = .ok (.bool (!above)) ∧
        BinaryOperator.greaterEqual.apply limits left right = .ok (.bool (!below))) ∧
    ∀ first second third : Value,
      BinaryOperator.less.apply limits first second = .ok (.bool true) →
      BinaryOperator.less.apply limits second third = .ok (.bool true) →
      BinaryOperator.less.apply limits first third = .ok (.bool true) := by
  refine ⟨fun left right => ⟨rfl, rfl, equal_comm left right⟩, fun _ _ _ => equal_trans,
    fun _ => equal_refl, fun left right kinds leftNoNaN rightNoNaN => ?_,
    fun first second third lower upper => ?_⟩
  · obtain ⟨order, compared, same⟩ := order_of_kinds kinds leftNoNaN rightNoNaN
    have equality : left.equal right = (order == .eq) := by
      rw [Bool.eq_iff_iff, same, beq_iff_eq]
    refine ⟨order.isLT, order == .eq, order.isGT, ordered_of_compare _ _ compared,
      congrArg (Except.ok ∘ Value.bool) equality, ordered_of_compare _ _ compared, ?_, ?_, ?_⟩
    · cases order <;> rfl
    · have atMost := ordered_of_compare .lessEqual Ordering.isLE compared
      cases order <;> exact atMost
    · have atLeast := ordered_of_compare .greaterEqual Ordering.isGE compared
      cases order <;> exact atLeast
  · exact less_iff.2 (compare_lt_trans (less_iff.1 lower) (less_iff.1 upper))

/-- The float of an even integer below `2 ^ 54`, where not every integer is one. -/
def wholeFloat (number : Nat) : Value := .float (.finite false (number * Binary64.one))

/-- An integer between two neighbouring floats. -/
theorem between_floats_agree :
    BinaryOperator.less.apply {} (wholeFloat (2 ^ 53)) (.int (2 ^ 53 + 1)) = .ok (.bool true) ∧
    BinaryOperator.less.apply {} (.int (2 ^ 53 + 1)) (wholeFloat (2 ^ 53 + 2)) =
      .ok (.bool true) ∧
    BinaryOperator.less.apply {} (wholeFloat (2 ^ 53)) (wholeFloat (2 ^ 53 + 2)) =
      .ok (.bool true) ∧
    (Value.tuple [.int (2 ^ 53), .nothing]).equal (.tuple [wholeFloat (2 ^ 53), .nothing]) = true ∧
    (Value.tuple [wholeFloat (2 ^ 53), .nothing]).equal (.tuple [.int (2 ^ 53), .nothing]) = true ∧
    (Value.tuple [.int (2 ^ 53), .nothing]).equal (.tuple [.int (2 ^ 53), .nothing]) = true ∧
    .nan ∉ (Value.tuple [wholeFloat (2 ^ 53)]).floats ∧
    (Value.tuple [wholeFloat (2 ^ 53)]).equal (.tuple [wholeFloat (2 ^ 53)]) = true ∧
    ((Value.int (2 ^ 53 + 1)).kind.ordersWith (wholeFloat (2 ^ 53)).kind = true ∧
      .nan ∉ (Value.int (2 ^ 53 + 1)).floats ∧ .nan ∉ (wholeFloat (2 ^ 53)).floats ∧
      ∃ below same above : Bool, [below, same, above].count true = 1 ∧
        BinaryOperator.lessEqual.apply {} (.int (2 ^ 53 + 1)) (wholeFloat (2 ^ 53)) =
          .ok (.bool (!above))) := by
  obtain ⟨equality, transitive, reflexive, ordered, chains⟩ := comparisons_agree {}
  have lower : BinaryOperator.less.apply {} (wholeFloat (2 ^ 53)) (.int (2 ^ 53 + 1)) =
      .ok (.bool true) := less_iff.2 (by decide +kernel)
  have upper : BinaryOperator.less.apply {} (.int (2 ^ 53 + 1)) (wholeFloat (2 ^ 53 + 2)) =
      .ok (.bool true) := less_iff.2 (by decide +kernel)
  have mixed : (Value.tuple [.int (2 ^ 53), .nothing]).equal
      (.tuple [wholeFloat (2 ^ 53), .nothing]) = true := by decide +kernel
  have swapped := mixed
  rw [(equality _ _).2.2] at swapped
  have noNaN : .nan ∉ (Value.tuple [wholeFloat (2 ^ 53)]).floats := by
    simp [floats, floatsAll, wholeFloat]
  have floatNoNaN : .nan ∉ (wholeFloat (2 ^ 53)).floats := by simp [floats, wholeFloat]
  have intNoNaN : .nan ∉ (Value.int (2 ^ 53 + 1)).floats := by simp [floats]
  obtain ⟨below, same, above, _, _, _, one, atMost, _⟩ :=
    ordered (.int (2 ^ 53 + 1)) (wholeFloat (2 ^ 53)) rfl intNoNaN floatNoNaN
  exact ⟨lower, upper, chains _ _ _ lower upper, mixed, swapped, transitive _ _ _ mixed swapped,
    noNaN, reflexive _ noNaN, rfl, intNoNaN, floatNoNaN, below, same, above, one, atMost⟩

end Value

end LayoutScript
