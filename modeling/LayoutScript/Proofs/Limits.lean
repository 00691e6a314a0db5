import LayoutScript.Session
import LayoutScript.Proofs.Machine.Fuel
import LayoutScript.Proofs.Tree.Correspondence

/-!
Limits refuse, they never change a meaning. A source text that runs under some limits
without meeting one of them runs in the same way under all larger limits. Reading,
operators, checkpoints and calls are compared one by one: with larger limits each of them
does the same or the smaller limits refuse it.
-/

namespace LayoutScript

open Evaluation

namespace Limits

/-- A limit that admits at least as much as another one; no limit admits everything. -/
def Admits (upper lower : Option Nat) : Prop :=
  ∀ large, upper = some large → ∃ small, lower = some small ∧ small ≤ large

/-- Limits that are nowhere larger than other ones. -/
structure Within (lower upper : Limits) : Prop where
  callDepth : Admits upper.callDepth lower.callDepth
  steps : Admits upper.steps lower.steps
  nesting : lower.nesting ≤ upper.nesting
  intBits : Admits upper.intBits lower.intBits
  stringLength : Admits upper.stringLength lower.stringLength

theorem Admits.refl (limit : Option Nat) : Admits limit limit :=
  fun large limited => ⟨large, limited, Nat.le_refl large⟩

/-- More nesting than before. -/
theorem within_deeper (limits : Limits) {nesting : Nat} (ordered : limits.nesting ≤ nesting) :
    limits.Within { limits with nesting := nesting } :=
  ⟨.refl _, .refl _, ordered, .refl _, .refl _⟩

theorem Admits.exceeds {upper lower : Option Nat} (admits : Admits upper lower) {quantity : Nat}
    (inside : Limits.exceeds quantity lower = none) : Limits.exceeds quantity upper = none := by
  cases upper with
  | none => rfl
  | some large =>
      obtain ⟨small, rfl, ordered⟩ := admits large rfl
      by_cases beyond : quantity > small
      · simp only [Limits.exceeds, if_pos beyond] at inside
        cases inside
      · have still : ¬quantity > large := by omega
        simp only [Limits.exceeds, if_neg still]

end Limits

/-- The causes that only arise from limits. -/
def Cause.isLimit : Cause → Bool
  | .nestingTooDeep _ | .interrupted (.stepBudget _) | .stackOverflow (some _)
  | .math (.intTooLong _) | .math (.stringTooLong _) => true
  | _ => false

def Stop.isLimit : Stop → Bool
  | .error found => found.cause.isLimit
  | _ => false

/-- The second result is the first one unless a limit refused that. -/
def Failure.Gated {α : Type} (first second : Except Failure α) : Prop :=
  (∃ cause, cause.isLimit = true ∧ first = .error (.cause cause)) ∨ second = first

section Operators

variable {lower upper : Limits}

open Failure

theorem gated_refl {α : Type} (result : Except Failure α) : Gated result result := .inr rfl

theorem gated_bind {α β : Type} {first second : Except Failure α}
    (gated : Gated first second) (next : α → Except Failure β) :
    Gated (first >>= next) (second >>= next) := by
  rcases gated with ⟨cause, isLimit, rfl⟩ | rfl
  · exact .inl ⟨cause, isLimit, rfl⟩
  · exact gated_refl _

theorem check_bits_gated (within : lower.Within upper) (bits : Nat) :
    Gated (Value.checkBits lower bits) (Value.checkBits upper bits) := by
  unfold Value.checkBits
  cases inside : Limits.exceeds bits lower.intBits with
  | some limit => exact .inl ⟨_, rfl, rfl⟩
  | none =>
      rw [within.intBits.exceeds inside]
      exact gated_refl _

theorem check_length_gated (within : lower.Within upper) (length : Nat) :
    Gated (Value.checkLength lower length) (Value.checkLength upper length) := by
  unfold Value.checkLength
  cases inside : Limits.exceeds length lower.stringLength with
  | some limit => exact .inl ⟨_, rfl, rfl⟩
  | none =>
      rw [within.stringLength.exceeds inside]
      exact gated_refl _

theorem repeat_text_gated (within : lower.Within upper) (text : String) (count : Int) :
    Gated (Value.repeatText lower text count) (Value.repeatText upper text count) := by
  unfold Value.repeatText
  split
  · exact gated_refl _
  · exact gated_bind (check_length_gated within _) _

theorem add_gated (within : lower.Within upper) (left right : Value) :
    Gated (Value.add lower left right) (Value.add upper left right) := by
  unfold Value.add
  split
  · exact gated_refl _
  all_goals first
    | exact gated_bind (check_length_gated within _) _
    | exact gated_refl _

theorem multiply_gated (within : lower.Within upper) (left right : Value) :
    Gated (Value.multiply lower left right) (Value.multiply upper left right) := by
  unfold Value.multiply
  split
  · exact gated_bind (check_bits_gated within _) _
  · exact repeat_text_gated within _ _
  · exact repeat_text_gated within _ _
  · exact gated_refl _

theorem power_gated (within : lower.Within upper) (left right : Value) :
    Gated (Value.power lower left right) (Value.power upper left right) := by
  unfold Value.power
  split
  · unfold Value.powerInts
    split
    · exact gated_refl _
    · split
      · exact gated_bind (check_bits_gated within _) _
      · exact gated_refl _
  · exact gated_refl _

/-- Larger limits change no result of an operator. -/
theorem apply_gated (within : lower.Within upper) (operator : BinaryOperator)
    (left right : Value) :
    Gated (operator.apply lower left right) (operator.apply upper left right) := by
  cases operator with
  | add => exact add_gated within left right
  | multiply => exact multiply_gated within left right
  | power => exact power_gated within left right
  | _ => exact gated_refl _

end Operators

/-- The second reading is the first one unless a limit refused that. -/
def ReadGated {α : Type} (reader reader' : Parse α) : Prop :=
  ∀ feed, (∃ error, error.cause.isLimit = true ∧ reader.run feed = .error (.error error)) ∨
    reader'.run feed = reader.run feed

section Reading

variable {α β : Type}

theorem read_gated_refl (reader : Parse α) : ReadGated reader reader := fun _ => .inr rfl

theorem read_gated_bind {reader reader' : Parse α} {next next' : α → Parse β}
    (start : ReadGated reader reader') (rest : ∀ value, ReadGated (next value) (next' value)) :
    ReadGated (reader >>= next) (reader' >>= next') := by
  intro feed
  rw [StateT.run_bind, StateT.run_bind]
  rcases start feed with ⟨error, isLimit, stopped⟩ | same
  · rw [stopped]
    exact .inl ⟨error, isLimit, rfl⟩
  · rw [same]
    cases result : reader.run feed with
    | error halt => exact .inr rfl
    | ok read => exact rest read.1 read.2

theorem read_gated_enter {lower upper : Nat} (ordered : lower ≤ upper) (depth : Nat)
    (token : Token) : ReadGated (Parse.enter lower depth token) (Parse.enter upper depth token) := by
  intro feed
  unfold Parse.enter
  by_cases beyond : depth + 1 > lower
  · rw [if_pos beyond]
    exact .inl ⟨_, rfl, rfl⟩
  · have still : ¬depth + 1 > upper := by omega
    rw [if_neg beyond, if_neg still]
    exact .inr rfl

theorem read_gated_correspondence {lower upper : Nat} (ordered : lower ≤ upper) :
    ReaderCorrespondence lower upper 0 ReadGated where
  pure _ := read_gated_refl _
  bind := read_gated_bind
  outOfFuel same := by
    rw [same rfl]
    exact read_gated_refl _
  fail _ := read_gated_refl _
  current := read_gated_refl _
  second := read_gated_refl _
  lastTaken := read_gated_refl _
  skipNewlines := read_gated_refl _
  step := read_gated_refl _
  enter := read_gated_enter ordered

theorem Program.of_feed_gated {lower upper : Limits} (within : lower.Within upper) (feed : Feed) :
    (∃ error, error.cause.isLimit = true ∧ Program.ofFeed feed lower = .error (.error error)) ∨
      Program.ofFeed feed upper = Program.ofFeed feed lower := by
  unfold Program.ofFeed
  rcases (read_gated_correspondence within.nesting).program _ feed with
    ⟨error, isLimit, stopped⟩ | same
  · rw [stopped]
    exact .inl ⟨error, isLimit, rfl⟩
  · rw [Nat.add_zero] at same
    exact .inr (by rw [same])

/-- Larger limits read the same program or fail in the same way, unless the nesting was
too deep. -/
theorem Program.of_source_gated {lower upper : Limits} (within : lower.Within upper)
    (source : String) (file : Option String) :
    (∃ error, error.cause.isLimit = true ∧
      Program.ofSource source file lower = .error (.error error)) ∨
      Program.ofSource source file upper = Program.ofSource source file lower := by
  unfold Program.ofSource
  generalize tokenize source file = reading
  dsimp only
  rcases Program.of_feed_gated within (.ofTokens reading.tokens reading.failure file) with
    ⟨error, isLimit, stopped⟩ | same
  · rw [stopped]
    exact .inl ⟨error.attachSource _, isLimit, rfl⟩
  · rw [same]
    exact .inr rfl

end Reading

/-- A reason that excuses an evaluation with smaller limits. -/
def Refused (stop : Stop) : Prop := stop = .outOfFuel ∨ stop.isLimit = true

section Evaluating

variable {lower upper : Limits}

theorem checkpoint_lockstep (within : lower.Within upper) (watch : Option Watch) (capacity : Nat)
    (kind : NodeKind) (span : Span) :
    Lockstep Refused (checkpoint ⟨lower, watch, capacity⟩ kind span)
      (checkpoint ⟨upper, watch, capacity⟩ kind span) := by
  intro machine
  rw [run_checkpoint, run_checkpoint]
  cases inside : Limits.exceeds (machine.steps + 1) lower.steps with
  | some limit => exact .inl ⟨_, .inr rfl, rfl⟩
  | none =>
      rw [within.steps.exceeds inside]
      exact .inr rfl

theorem operator_lockstep (within : lower.Within upper) (span : Span) (operator : BinaryOperator)
    (left right : Value) :
    Lockstep Refused (ofOperator span (operator.apply lower left right))
      (ofOperator span (operator.apply upper left right)) := by
  rcases apply_gated within operator left right with ⟨cause, isLimit, stopped⟩ | same
  · intro machine
    rw [stopped]
    exact .inl ⟨.error (.located cause span), .inr isLimit, rfl⟩
  · rw [same]
    exact lockstep_refl _

theorem admission_lockstep (within : lower.Within upper) (watch : Option Watch) (capacity : Nat)
    (span : Span) :
    Lockstep Refused (admitCall ⟨lower, watch, capacity⟩ span)
      (admitCall ⟨upper, watch, capacity⟩ span) := by
  intro machine
  rw [run_admit_call, run_admit_call]
  unfold admission
  cases inside : Limits.exceeds (machine.depth + 1) lower.callDepth with
  | some limit => exact .inl ⟨_, .inr rfl, rfl⟩
  | none =>
      rw [within.callDepth.exceeds inside]
      exact .inr rfl

theorem limits_correspondence (within : lower.Within upper) (watch : Option Watch)
    (capacity gap : Nat) :
    PlainCorrespondence ⟨lower, watch, capacity⟩ ⟨upper, watch, capacity⟩ gap (Lockstep Refused) :=
  lockstep_correspondence (.inl rfl) (checkpoint_lockstep within watch capacity)
    (operator_lockstep within) (admission_lockstep within watch capacity)

/-- A program that meets no limit runs in the same way with larger limits. -/
theorem Machine.run_with_larger_limits (within : lower.Within upper) (watch : Option Watch)
    (capacity : Nat) (machine : Machine) (fuel gap : Nat) (program : Program) :
    (∃ stop, Refused stop ∧ (machine.run ⟨lower, watch, capacity⟩ fuel program).1 = .error stop) ∨
      machine.run ⟨upper, watch, capacity⟩ (fuel + gap) program =
        machine.run ⟨lower, watch, capacity⟩ fuel program := by
  unfold Machine.run
  rw [Machine.run_guarded, Machine.run_guarded]
  rcases (limits_correspondence within watch capacity gap).execute_program fuel program.statements
    .nothing machine.readied with excuse | same
  · exact .inl excuse
  · exact .inr (by rw [same])

end Evaluating

theorem Stop.attach_source_is_limit (stop : Stop) (lines : List String) :
    (stop.attachSource lines).isLimit = stop.isLimit := by
  cases stop <;> rfl

/-- Limits only refuse. A source text that finishes without meeting a limit finishes under
all larger limits, with the same value or the same error, the same output and the same
store. -/
theorem Machine.run_source_with_larger_limits {lower upper : Limits} (within : lower.Within upper)
    (machine : Machine) (capacity fuel gap : Nat) (source : String) (file : Option String)
    (finished : (machine.runSource lower capacity fuel source file).1 ≠ .error .outOfFuel)
    (unlimited : ∀ stop, (machine.runSource lower capacity fuel source file).1 = .error stop →
      stop.isLimit = false) :
    machine.runSource upper capacity (fuel + gap) source file =
      machine.runSource lower capacity fuel source file := by
  unfold Machine.runSource at finished unlimited ⊢
  rcases Program.of_source_gated within source file with ⟨error, isLimit, stopped⟩ | same
  · rw [stopped] at unlimited
    have met : error.cause.isLimit = false := unlimited (.error error) rfl
    rw [isLimit] at met
    cases met
  · rw [same]
    cases read : Program.ofSource source file lower with
    | error halt => rfl
    | ok program =>
        simp only [read] at finished unlimited ⊢
        rcases Machine.run_with_larger_limits within none capacity machine fuel gap program with
          ⟨stop, refused, stopped⟩ | sameRun
        · rcases run : machine.run ⟨lower, none, capacity⟩ fuel program with ⟨outcome, after⟩
          rw [run] at finished unlimited stopped
          cases stopped
          rcases refused with rfl | isLimit
          · exact absurd rfl finished
          · have met := unlimited (stop.attachSource (sourceLines source)) rfl
            rw [Stop.attach_source_is_limit, isLimit] at met
            cases met
        · rw [sameRun]

def tightLimits : Limits where
  callDepth := some 2
  steps := some 5
  nesting := 10
  intBits := some 8
  stringLength := some 5

theorem doubling_with_larger_limits :
    Machine.initial.runSource {} 100 (20 + 7) "let f = fn(x): x * 2\nf(20)" none =
      Machine.initial.runSource tightLimits 100 20 "let f = fn(x): x * 2\nf(20)" none := by
  have within : tightLimits.Within {} := by
    constructor
    · intro large impossible
      cases impossible
    · intro large impossible
      cases impossible
    · decide
    · rintro large ⟨⟩
      exact ⟨8, rfl, by decide⟩
    · rintro large ⟨⟩
      exact ⟨5, rfl, by decide⟩
  have value : (Machine.initial.runSource tightLimits 100 20
      "let f = fn(x): x * 2\nf(20)" none).1.isOk = true := by decide +kernel
  apply Machine.run_source_with_larger_limits within
  · intro stopped
    rw [stopped] at value
    cases value
  · intro stop stopped
    rw [stopped] at value
    cases value

end LayoutScript
