import LayoutScript.Value.Operators

/-!
What operators can give. No operator makes a tuple or a function, so what is known of
the functions in a store does not depend on operators.
-/

namespace LayoutScript

/-- A value without parts and without code. -/
def Value.Scalar : Value → Prop
  | .tuple _ | .function _ => False
  | _ => True

/-- Whatever an operation gives is a scalar. -/
def GivesScalar (result : Except Failure Value) : Prop :=
  ∀ value, result = .ok value → value.Scalar

theorem gives_scalar_ok {value : Value} (scalar : value.Scalar) : GivesScalar (.ok value) := by
  intro given same
  cases same
  exact scalar

theorem gives_scalar_error (failure : Failure) : GivesScalar (.error failure) := by
  intro given same
  cases same

theorem gives_scalar_bind {α : Type} {start : Except Failure α}
    {next : α → Except Failure Value} (rest : ∀ value, GivesScalar (next value)) :
    GivesScalar (start >>= next) := by
  cases start with
  | ok value => exact rest value
  | error failure => exact gives_scalar_error failure

namespace Value

theorem checked_float_scalar (result left right : Binary64) :
    GivesScalar (checkedFloat result left right) := by
  unfold checkedFloat
  split
  · exact gives_scalar_error _
  · exact gives_scalar_ok trivial

theorem lift_float_scalar (operation : Binary64 → Binary64 → Binary64)
    (pair : Except Failure (Binary64 × Binary64)) : GivesScalar (liftFloat operation pair) :=
  gives_scalar_bind fun _ => checked_float_scalar _ _ _

theorem float_or_scalar {operator : BinaryOperator} {left right : Value}
    {operation : Except Failure (Binary64 × Binary64) → Except Failure Value}
    (scalar : ∀ pair, GivesScalar (operation pair)) :
    GivesScalar (floatOr operator left right operation) := by
  unfold floatOr
  split
  · exact scalar _
  · exact gives_scalar_error _

theorem concat_scalar (limits : Limits) (left : String) (right : Value) :
    GivesScalar (concat limits left right) :=
  gives_scalar_bind fun _ => gives_scalar_ok trivial

theorem repeat_text_scalar (limits : Limits) (text : String) (count : Int) :
    GivesScalar (repeatText limits text count) := by
  unfold repeatText
  split
  · exact gives_scalar_ok trivial
  · exact gives_scalar_bind fun _ => gives_scalar_bind fun _ => gives_scalar_ok trivial

theorem add_scalar (limits : Limits) (left right : Value) : GivesScalar (add limits left right) := by
  unfold add
  split
  · exact gives_scalar_ok trivial
  all_goals first
    | exact concat_scalar _ _ _
    | exact float_or_scalar fun _ => lift_float_scalar _ _

theorem subtract_scalar (left right : Value) : GivesScalar (subtract left right) := by
  unfold subtract
  split
  · exact gives_scalar_ok trivial
  · exact float_or_scalar fun _ => lift_float_scalar _ _

theorem multiply_scalar (limits : Limits) (left right : Value) :
    GivesScalar (multiply limits left right) := by
  unfold multiply
  split
  · exact gives_scalar_bind fun _ => gives_scalar_ok trivial
  · exact repeat_text_scalar _ _ _
  · exact repeat_text_scalar _ _ _
  · exact float_or_scalar fun _ => lift_float_scalar _ _

theorem divide_scalar (left right : Value) : GivesScalar (divide left right) := by
  unfold divide
  split
  · split
    · exact gives_scalar_error _
    · exact gives_scalar_bind fun _ => gives_scalar_ok trivial
  · apply float_or_scalar
    intro pair
    split
    · exact gives_scalar_error _
    · exact lift_float_scalar _ _

theorem remainder_floats_scalar (left right : Binary64) :
    GivesScalar (remainderFloats left right) := by
  unfold remainderFloats
  split
  · exact gives_scalar_error _
  · split
    · exact gives_scalar_error _
    · split <;> exact gives_scalar_ok trivial

theorem modulo_scalar (left right : Value) : GivesScalar (modulo left right) := by
  unfold modulo
  split
  · split
    · exact gives_scalar_error _
    · exact gives_scalar_ok trivial
  · exact float_or_scalar fun _ => gives_scalar_bind fun _ => remainder_floats_scalar _ _

theorem power_floats_scalar (left right : Value) (base exponent : Binary64) :
    GivesScalar (powerFloats left right base exponent) := by
  unfold powerFloats
  split
  · exact gives_scalar_error _
  · split
    · exact gives_scalar_ok trivial
    · exact gives_scalar_error _
    · exact gives_scalar_error _

theorem power_ints_scalar (limits : Limits) (base exponent : Int) :
    GivesScalar (powerInts limits base exponent) := by
  unfold powerInts
  split
  · exact gives_scalar_bind fun _ => gives_scalar_bind fun _ => power_floats_scalar _ _ _ _
  · split
    · exact gives_scalar_bind fun _ => gives_scalar_ok trivial
    · exact gives_scalar_ok trivial

theorem power_scalar (limits : Limits) (left right : Value) :
    GivesScalar (power limits left right) := by
  unfold power
  split
  · exact power_ints_scalar _ _ _
  · exact float_or_scalar fun _ => gives_scalar_bind fun _ => power_floats_scalar _ _ _ _

theorem ordered_scalar (operator : BinaryOperator) (holds : Ordering → Bool) (left right : Value) :
    GivesScalar (ordered operator holds left right) := by
  unfold ordered
  split
  · exact gives_scalar_ok trivial
  · exact gives_scalar_error _

end Value

theorem BinaryOperator.apply_scalar (operator : BinaryOperator) (limits : Limits)
    (left right : Value) : GivesScalar (operator.apply limits left right) := by
  cases operator with
  | add => exact Value.add_scalar _ _ _
  | subtract => exact Value.subtract_scalar _ _
  | multiply => exact Value.multiply_scalar _ _ _
  | divide => exact Value.divide_scalar _ _
  | modulo => exact Value.modulo_scalar _ _
  | power => exact Value.power_scalar _ _ _
  | less | greater | lessEqual | greaterEqual => exact Value.ordered_scalar _ _ _ _
  | equal | notEqual => exact gives_scalar_ok trivial
  | conjunction | disjunction => exact gives_scalar_error _

theorem UnaryOperator.apply_scalar (operator : UnaryOperator) (operand : Value) :
    GivesScalar (operator.apply operand) := by
  unfold UnaryOperator.apply
  split
  all_goals first
    | exact gives_scalar_ok trivial
    | exact gives_scalar_error _

end LayoutScript
