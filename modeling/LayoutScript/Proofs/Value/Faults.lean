import LayoutScript.Value.Operators

/-!
Faults of operators. On values an operator can only raise the faults of the host: the one of
remainders of floats outside their domain, and those of repeated texts that are too long to be
indexed. The logical operators, which have no meaning on values, are never applied to them.
-/

namespace LayoutScript

/-- A fault that the host raises on the operands of an operator. -/
def Fault.OfOperands (fault : Fault) : Prop :=
  fault ∈ [Fault.mathDomain, .countBeyondIndex, .textBeyondIndex]

/-- Of all faults only those of operands are raised. -/
def FaultsInDomain {α : Type} (result : Except Failure α) : Prop :=
  ∀ fault, result = .error (.fault fault) → fault.OfOperands

section FaultsInDomain

variable {α β : Type}

theorem faults_ok (value : α) : FaultsInDomain (.ok value) := by
  intro fault raised
  cases raised

theorem faults_cause (cause : Cause) : FaultsInDomain (.error (.cause cause) : Except Failure α) := by
  intro fault raised
  cases raised

theorem faults_fault {fault : Fault} (ofOperands : fault.OfOperands) :
    FaultsInDomain (.error (.fault fault) : Except Failure α) := by
  intro raised same
  cases same
  exact ofOperands

theorem faults_bind {start : Except Failure α} {next : α → Except Failure β}
    (first : FaultsInDomain start) (rest : ∀ value, FaultsInDomain (next value)) :
    FaultsInDomain (start >>= next) := by
  cases start with
  | ok value => exact rest value
  | error failure =>
      intro fault raised
      cases raised
      exact first fault rfl

end FaultsInDomain

namespace Value

theorem require_finite_faults (cause : MathCause) (number : Binary64) :
    FaultsInDomain (requireFinite cause number) := by
  unfold requireFinite
  split
  · exact faults_ok _
  · exact faults_cause _

theorem int_to_float_faults (number : Int) : FaultsInDomain (intToFloat number) := by
  unfold intToFloat
  exact require_finite_faults _ _

theorem checked_float_faults (result left right : Binary64) :
    FaultsInDomain (checkedFloat result left right) := by
  unfold checkedFloat
  split
  · exact faults_cause _
  · exact faults_ok _

theorem float_pair_faults {left right : Value} {pair : Except Failure (Binary64 × Binary64)}
    (found : floatPair? left right = some pair) : FaultsInDomain pair := by
  unfold floatPair? at found
  split at found
  · rw [← Option.some.inj found]
    exact faults_bind (int_to_float_faults _) fun _ => faults_ok _
  · rw [← Option.some.inj found]
    exact faults_bind (int_to_float_faults _) fun _ => faults_ok _
  · rw [← Option.some.inj found]
    exact faults_ok _
  · cases found

theorem lift_float_faults (operation : Binary64 → Binary64 → Binary64)
    {pair : Except Failure (Binary64 × Binary64)} (first : FaultsInDomain pair) :
    FaultsInDomain (liftFloat operation pair) :=
  faults_bind first fun _ => checked_float_faults _ _ _

theorem float_or_faults {operator : BinaryOperator} {left right : Value}
    {operation : Except Failure (Binary64 × Binary64) → Except Failure Value}
    (kept : ∀ pair, FaultsInDomain pair → FaultsInDomain (operation pair)) :
    FaultsInDomain (floatOr operator left right operation) := by
  unfold floatOr
  split
  · rename_i pair found
    exact kept pair (float_pair_faults found)
  · exact faults_cause _

theorem check_length_faults (limits : Limits) (length : Nat) :
    FaultsInDomain (checkLength limits length) := by
  unfold checkLength
  split
  · exact faults_cause _
  · exact faults_ok _

theorem check_bits_faults (limits : Limits) (bits : Nat) :
    FaultsInDomain (checkBits limits bits) := by
  unfold checkBits
  split
  · exact faults_cause _
  · exact faults_ok _

theorem concat_faults (limits : Limits) (left : String) (right : Value) :
    FaultsInDomain (concat limits left right) :=
  faults_bind (check_length_faults _ _) fun _ => faults_ok _

theorem host_repeat_faults (text : String) (count : Nat) :
    FaultsInDomain (hostRepeat text count) := by
  unfold hostRepeat
  split
  · exact faults_fault (by simp [Fault.OfOperands])
  · split
    · exact faults_fault (by simp [Fault.OfOperands])
    · exact faults_ok _

theorem repeat_text_faults (limits : Limits) (text : String) (count : Int) :
    FaultsInDomain (repeatText limits text count) := by
  unfold repeatText
  split
  · exact faults_ok _
  · exact faults_bind (check_length_faults _ _) fun _ =>
      faults_bind (host_repeat_faults _ _) fun _ => faults_ok _

theorem add_faults (limits : Limits) (left right : Value) :
    FaultsInDomain (add limits left right) := by
  unfold add
  split
  · exact faults_ok _
  all_goals first
    | exact concat_faults _ _ _
    | exact float_or_faults fun _ => lift_float_faults _

theorem subtract_faults (left right : Value) : FaultsInDomain (subtract left right) := by
  unfold subtract
  split
  · exact faults_ok _
  · exact float_or_faults fun _ => lift_float_faults _

theorem multiply_faults (limits : Limits) (left right : Value) :
    FaultsInDomain (multiply limits left right) := by
  unfold multiply
  split
  · exact faults_bind (check_bits_faults _ _) fun _ => faults_ok _
  · exact repeat_text_faults _ _ _
  · exact repeat_text_faults _ _ _
  · exact float_or_faults fun _ => lift_float_faults _

theorem divide_faults (left right : Value) : FaultsInDomain (divide left right) := by
  unfold divide
  split
  · split
    · exact faults_cause _
    · exact faults_bind (require_finite_faults _ _) fun _ => faults_ok _
  · apply float_or_faults
    intro pair first
    split
    · exact faults_cause _
    · exact lift_float_faults _ first

theorem remainder_floats_faults (left right : Binary64) :
    FaultsInDomain (remainderFloats left right) := by
  unfold remainderFloats
  split
  · exact faults_cause _
  · split
    · exact faults_fault (by simp [Fault.OfOperands])
    · split <;> exact faults_ok _

theorem modulo_faults (left right : Value) : FaultsInDomain (modulo left right) := by
  unfold modulo
  split
  · split
    · exact faults_cause _
    · exact faults_ok _
  · exact float_or_faults fun _ first => faults_bind first fun _ => remainder_floats_faults _ _

theorem power_floats_faults (left right : Value) (base exponent : Binary64) :
    FaultsInDomain (powerFloats left right base exponent) := by
  unfold powerFloats
  split
  · exact faults_cause _
  · split
    · exact faults_ok _
    · exact faults_cause _
    · exact faults_cause _

theorem power_ints_faults (limits : Limits) (base exponent : Int) :
    FaultsInDomain (powerInts limits base exponent) := by
  unfold powerInts
  split
  · exact faults_bind (int_to_float_faults _) fun _ =>
      faults_bind (int_to_float_faults _) fun _ => power_floats_faults _ _ _ _
  · split
    · exact faults_bind (check_bits_faults _ _) fun _ => faults_ok _
    · exact faults_ok _

theorem power_faults (limits : Limits) (left right : Value) :
    FaultsInDomain (power limits left right) := by
  unfold power
  split
  · exact power_ints_faults _ _ _
  · exact float_or_faults fun _ first => faults_bind first fun _ => power_floats_faults _ _ _ _

theorem ordered_faults (operator : BinaryOperator) (holds : Ordering → Bool) (left right : Value) :
    FaultsInDomain (ordered operator holds left right) := by
  unfold ordered
  split
  · exact faults_ok _
  · exact faults_cause _

end Value

theorem BinaryOperator.apply_faults {operator : BinaryOperator}
    (strict : operator ≠ .conjunction ∧ operator ≠ .disjunction) (limits : Limits)
    (left right : Value) : FaultsInDomain (operator.apply limits left right) := by
  cases operator with
  | add => exact Value.add_faults _ _ _
  | subtract => exact Value.subtract_faults _ _
  | multiply => exact Value.multiply_faults _ _ _
  | divide => exact Value.divide_faults _ _
  | modulo => exact Value.modulo_faults _ _
  | power => exact Value.power_faults _ _ _
  | less | greater | lessEqual | greaterEqual => exact Value.ordered_faults _ _ _ _
  | equal | notEqual => exact faults_ok _
  | conjunction => exact absurd rfl strict.1
  | disjunction => exact absurd rfl strict.2

theorem UnaryOperator.apply_faults (operator : UnaryOperator) (operand : Value) :
    FaultsInDomain (operator.apply operand) := by
  unfold UnaryOperator.apply
  split
  all_goals first
    | exact faults_ok _
    | exact faults_cause _

end LayoutScript
