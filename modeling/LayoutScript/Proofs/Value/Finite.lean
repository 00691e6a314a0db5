import LayoutScript.Proofs.Number.Range
import LayoutScript.Value.Operators

/-!
Operators on finite values. Each operator has its own way to refuse a float that is not
finite: sums, products and quotients are checked, conversions and powers are refused by the
host, and remainders and signs need no check. What they give is finite in all cases, and
remainders never leave their domain.
-/

namespace LayoutScript

mutual

/-- The floats that a value is or holds. -/
def Value.floats : Value → List Binary64
  | .float number => [number]
  | .tuple elements => Value.floatsAll elements
  | _ => []

def Value.floatsAll : List Value → List Binary64
  | [] => []
  | value :: values => value.floats ++ Value.floatsAll values

end

/-- Every float that a value is or holds is finite. -/
def Value.Finite (value : Value) : Prop := ∀ number ∈ value.floats, number.InRange

/-- A result is good, and it is no failure of remainders outside their domain. -/
structure InDomain {α : Type} (Good : α → Prop) (result : Except Failure α) : Prop where
  good : ∀ value, result = .ok value → Good value
  domain : result ≠ .error (.fault .mathDomain)

section InDomain

variable {α β : Type} {Good : α → Prop}

theorem in_domain_ok {value : α} (good : Good value) : InDomain Good (.ok value) := by
  refine ⟨fun given same => ?_, by simp⟩
  cases same
  exact good

theorem in_domain_cause (cause : Cause) : InDomain Good (.error (.cause cause)) :=
  ⟨fun _ same => (by cases same), by simp⟩

theorem in_domain_bind {Result : β → Prop} {start : Except Failure α}
    {next : α → Except Failure β} (first : InDomain Good start)
    (rest : ∀ value, start = .ok value → Good value → InDomain Result (next value)) :
    InDomain Result (start >>= next) := by
  cases start with
  | ok value => exact rest value rfl (first.good value rfl)
  | error failure =>
      refine ⟨fun _ same => (by cases same), fun same => first.domain ?_⟩
      cases same
      rfl

end InDomain

namespace Value

theorem floats_all_mem {number : Binary64} {values : List Value} :
    number ∈ floatsAll values ↔ ∃ value ∈ values, number ∈ value.floats := by
  induction values with
  | nil => simp [floatsAll]
  | cons first rest induction => simp [floatsAll, induction]

theorem finite_float {number : Binary64} : (Value.float number).Finite ↔ number.InRange := by
  simp only [Finite, floats, List.mem_singleton, forall_eq]

theorem finite_tuple {elements : List Value} :
    (Value.tuple elements).Finite ↔ ∀ element ∈ elements, element.Finite := by
  simp only [Finite, floats, floats_all_mem]
  constructor
  · intro finite element member number inside
    exact finite number ⟨element, member, inside⟩
  · rintro finite number ⟨element, member, inside⟩
    exact finite element member number inside

theorem finite_of_no_floats {value : Value} (noFloats : value.floats = []) : value.Finite := by
  simp [Finite, noFloats]

theorem finite_int (number : Int) : (Value.int number).Finite := finite_of_no_floats rfl

theorem finite_bool (holds : Bool) : (Value.bool holds).Finite := finite_of_no_floats rfl

theorem finite_string (text : String) : (Value.string text).Finite := finite_of_no_floats rfl

theorem finite_nothing : Value.nothing.Finite := finite_of_no_floats rfl

theorem finite_function (callable : Callable) : (Value.function callable).Finite :=
  finite_of_no_floats rfl

variable {left right : Value}

theorem require_finite_in_domain (cause : MathCause) {number : Binary64}
    (defined : number.Defined) : InDomain Binary64.InRange (requireFinite cause number) := by
  cases number with
  | finite => exact in_domain_ok (defined.of_is_finite rfl)
  | _ => exact in_domain_cause _

theorem int_to_float_in_domain (number : Int) : InDomain Binary64.InRange (intToFloat number) :=
  require_finite_in_domain _ (Binary64.of_int_defined number)

theorem int_to_float_nonzero {number : Int} (nonzero : number ≠ 0) {result : Binary64}
    (given : intToFloat number = .ok result) : result.isZero = false := by
  have original := Binary64.of_int_nonzero nonzero
  unfold intToFloat at given
  generalize Binary64.ofInt number = converted at original given
  cases converted with
  | finite =>
      cases given
      exact original
  | _ => cases given

theorem checked_float_in_domain {result first second : Binary64} (defined : result.Defined)
    (firstIn : first.InRange) (secondIn : second.InRange) :
    InDomain Finite (checkedFloat result first second) := by
  unfold checkedFloat
  rw [firstIn.is_finite, secondIn.is_finite, Bool.and_true, Bool.and_true]
  split
  · exact in_domain_cause _
  · rename_i finite
    exact in_domain_ok (finite_float.2 (defined.in_range (Bool.eq_false_iff.2 finite)))

/-- What two finite values give as floats: both are in range, and the second is not zero
unless it was zero before. -/
def Paired (right : Value) (pair : Binary64 × Binary64) : Prop :=
  pair.1.InRange ∧ pair.2.InRange ∧ (right.isZero = false → pair.2.isZero = false)

theorem float_pair_in_domain (leftFinite : left.Finite) (rightFinite : right.Finite)
    {pair : Except Failure (Binary64 × Binary64)} (found : floatPair? left right = some pair) :
    InDomain (Paired right) pair := by
  unfold floatPair? at found
  split at found
  · rw [← Option.some.inj found]
    apply in_domain_bind (int_to_float_in_domain _)
    intro _ _ inRange
    exact in_domain_ok ⟨inRange, finite_float.1 rightFinite, id⟩
  · rw [← Option.some.inj found]
    apply in_domain_bind (int_to_float_in_domain _)
    intro _ converted inRange
    refine in_domain_ok ⟨finite_float.1 leftFinite, inRange, fun nonzero => ?_⟩
    exact int_to_float_nonzero (ne_of_beq_false nonzero) converted
  · rw [← Option.some.inj found]
    exact in_domain_ok ⟨finite_float.1 leftFinite, finite_float.1 rightFinite, id⟩
  · cases found

theorem float_or_in_domain {operator : BinaryOperator}
    {operation : Except Failure (Binary64 × Binary64) → Except Failure Value}
    (leftFinite : left.Finite) (rightFinite : right.Finite)
    (kept : ∀ pair, InDomain (Paired right) pair → InDomain Finite (operation pair)) :
    InDomain Finite (floatOr operator left right operation) := by
  unfold floatOr
  split
  · rename_i pair found
    exact kept pair (float_pair_in_domain leftFinite rightFinite found)
  · exact in_domain_cause _

theorem lift_float_in_domain {operation : Binary64 → Binary64 → Binary64}
    (defined : ∀ pair, Paired right pair → (operation pair.1 pair.2).Defined)
    {pair : Except Failure (Binary64 × Binary64)} (inDomain : InDomain (Paired right) pair) :
    InDomain Finite (liftFloat operation pair) := by
  apply in_domain_bind inDomain
  intro numbers _ paired
  exact checked_float_in_domain (defined numbers paired) paired.1 paired.2.1

theorem check_length_in_domain (limits : Limits) (length : Nat) :
    InDomain (fun _ => True) (checkLength limits length) := by
  unfold checkLength
  split
  · exact in_domain_cause _
  · exact in_domain_ok trivial

theorem check_bits_in_domain (limits : Limits) (bits : Nat) :
    InDomain (fun _ => True) (checkBits limits bits) := by
  unfold checkBits
  split
  · exact in_domain_cause _
  · exact in_domain_ok trivial

theorem concat_in_domain (limits : Limits) (text : String) (value : Value) :
    InDomain Finite (concat limits text value) :=
  in_domain_bind (check_length_in_domain _ _) fun _ _ _ => in_domain_ok (finite_string _)

theorem host_repeat_in_domain (text : String) (count : Nat) :
    InDomain (fun _ => True) (hostRepeat text count) := by
  unfold hostRepeat
  split
  · exact ⟨fun _ _ => trivial, by simp⟩
  · split
    · exact ⟨fun _ _ => trivial, by simp⟩
    · exact in_domain_ok trivial

theorem repeat_text_in_domain (limits : Limits) (text : String) (count : Int) :
    InDomain Finite (repeatText limits text count) := by
  unfold repeatText
  split
  · exact in_domain_ok (finite_string _)
  · exact in_domain_bind (check_length_in_domain _ _) fun _ _ _ =>
      in_domain_bind (host_repeat_in_domain _ _) fun _ _ _ => in_domain_ok (finite_string _)

theorem add_in_domain (limits : Limits) (leftFinite : left.Finite) (rightFinite : right.Finite) :
    InDomain Finite (add limits left right) := by
  unfold add
  split
  · exact in_domain_ok (finite_int _)
  all_goals first
    | exact concat_in_domain _ _ _
    | exact float_or_in_domain leftFinite rightFinite fun _ =>
        lift_float_in_domain fun _ paired => paired.1.add paired.2.1

theorem subtract_in_domain (leftFinite : left.Finite) (rightFinite : right.Finite) :
    InDomain Finite (subtract left right) := by
  unfold subtract
  split
  · exact in_domain_ok (finite_int _)
  · exact float_or_in_domain leftFinite rightFinite fun _ =>
      lift_float_in_domain fun _ paired => paired.1.sub paired.2.1

theorem multiply_in_domain (limits : Limits) (leftFinite : left.Finite)
    (rightFinite : right.Finite) : InDomain Finite (multiply limits left right) := by
  unfold multiply
  split
  · exact in_domain_bind (check_bits_in_domain _ _) fun _ _ _ => in_domain_ok (finite_int _)
  · exact repeat_text_in_domain _ _ _
  · exact repeat_text_in_domain _ _ _
  · exact float_or_in_domain leftFinite rightFinite fun _ =>
      lift_float_in_domain fun _ paired => paired.1.mul paired.2.1

theorem divide_in_domain (leftFinite : left.Finite) (rightFinite : right.Finite) :
    InDomain Finite (divide left right) := by
  unfold divide
  split
  · split
    · exact in_domain_cause _
    · rename_i nonzero
      apply in_domain_bind
        (require_finite_in_domain _ (Binary64.of_int_quotient_defined _ nonzero))
      intro quotient _ inRange
      exact in_domain_ok (finite_float.2 inRange)
  · apply float_or_in_domain leftFinite rightFinite
    intro pair inDomain
    split
    · exact in_domain_cause _
    · rename_i nonzero
      refine lift_float_in_domain (fun numbers paired => ?_) inDomain
      exact paired.1.div paired.2.1 (paired.2.2 (Bool.eq_false_iff.2 nonzero))

/-- Finite floats have a remainder unless the divisor is zero. -/
theorem remainder_floats_in_domain {first second : Binary64} (firstIn : first.InRange)
    (secondIn : second.InRange) : InDomain Finite (remainderFloats first second) := by
  unfold remainderFloats
  split
  · exact in_domain_cause _
  · rename_i nonzero
    obtain ⟨remainder, isRemainder, inRange, moved⟩ :=
      firstIn.rem secondIn (Bool.eq_false_iff.2 nonzero)
    rw [isRemainder]
    dsimp only
    split
    · rename_i negative
      exact in_domain_ok (finite_float.2 (moved negative))
    · exact in_domain_ok (finite_float.2 inRange)

theorem modulo_in_domain (leftFinite : left.Finite) (rightFinite : right.Finite) :
    InDomain Finite (modulo left right) := by
  unfold modulo
  split
  · split
    · exact in_domain_cause _
    · exact in_domain_ok (finite_int _)
  · apply float_or_in_domain leftFinite rightFinite
    intro pair inDomain
    apply in_domain_bind inDomain
    intro numbers _ paired
    exact remainder_floats_in_domain paired.1 paired.2.1

theorem power_floats_in_domain (base exponent : Value) {first second : Binary64}
    (firstIn : first.InRange) (secondIn : second.InRange) :
    InDomain Finite (powerFloats base exponent first second) := by
  unfold powerFloats
  split
  · exact in_domain_cause _
  · split
    · rename_i result given
      exact in_domain_ok (finite_float.2 (firstIn.pow secondIn given))
    · exact in_domain_cause _
    · exact in_domain_cause _

theorem power_ints_in_domain (limits : Limits) (base exponent : Int) :
    InDomain Finite (powerInts limits base exponent) := by
  unfold powerInts
  split
  · apply in_domain_bind (int_to_float_in_domain base)
    intro first _ firstIn
    apply in_domain_bind (int_to_float_in_domain exponent)
    intro second _ secondIn
    exact power_floats_in_domain _ _ firstIn secondIn
  · split
    · exact in_domain_bind (check_bits_in_domain _ _) fun _ _ _ => in_domain_ok (finite_int _)
    · exact in_domain_ok (finite_int _)

theorem power_in_domain (limits : Limits) (leftFinite : left.Finite)
    (rightFinite : right.Finite) : InDomain Finite (power limits left right) := by
  unfold power
  split
  · exact power_ints_in_domain _ _ _
  · apply float_or_in_domain leftFinite rightFinite
    intro pair inDomain
    apply in_domain_bind inDomain
    intro numbers _ paired
    exact power_floats_in_domain _ _ paired.1 paired.2.1

theorem ordered_in_domain (operator : BinaryOperator) (holds : Ordering → Bool)
    (left right : Value) : InDomain Finite (ordered operator holds left right) := by
  unfold ordered
  split
  · exact in_domain_ok (finite_bool _)
  · exact in_domain_cause _

end Value

theorem BinaryOperator.apply_in_domain (operator : BinaryOperator) (limits : Limits)
    {left right : Value} (leftFinite : left.Finite) (rightFinite : right.Finite) :
    InDomain Value.Finite (operator.apply limits left right) := by
  cases operator with
  | add => exact Value.add_in_domain limits leftFinite rightFinite
  | subtract => exact Value.subtract_in_domain leftFinite rightFinite
  | multiply => exact Value.multiply_in_domain limits leftFinite rightFinite
  | divide => exact Value.divide_in_domain leftFinite rightFinite
  | modulo => exact Value.modulo_in_domain leftFinite rightFinite
  | power => exact Value.power_in_domain limits leftFinite rightFinite
  | less | greater | lessEqual | greaterEqual => exact Value.ordered_in_domain _ _ _ _
  | equal | notEqual => exact in_domain_ok (Value.finite_bool _)
  | conjunction | disjunction => exact ⟨fun _ same => (by cases same), by simp [apply]⟩

theorem UnaryOperator.apply_in_domain (operator : UnaryOperator) {operand : Value}
    (finite : operand.Finite) : InDomain Value.Finite (operator.apply operand) := by
  unfold UnaryOperator.apply
  split
  · exact in_domain_ok finite
  · exact in_domain_ok finite
  · exact in_domain_ok (Value.finite_int _)
  · exact in_domain_ok (Value.finite_float.2 (Value.finite_float.1 finite).neg)
  · exact in_domain_ok (Value.finite_bool _)
  · exact in_domain_cause _

end LayoutScript
