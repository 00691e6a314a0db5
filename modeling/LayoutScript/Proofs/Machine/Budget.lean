import LayoutScript.Proofs.Machine.Preservation

/-!
A limit on steps bounds every evaluation of trees without empty bodies. Loops and calls
are the only ways to run a tree again. A loop runs its body and a call runs the body of
a function, both bodies pass a checkpoint unless they are empty, and a checkpoint beyond
the limit ends the evaluation. Hence the steps that are left, and the tree for as long
as none is used, decrease together. That an evaluation ends is stated without fuel: from
some amount on, fuel makes no difference.
-/

namespace LayoutScript

open Evaluation

/-- The code of a value has no empty bodies. -/
abbrev Value.Solid : Value → Prop := Value.Carries Node.Solid

/-- The outcome of an evaluation that went beyond the limit on steps. -/
def OverBudget {α : Type} (limit : Nat) (outcome : Except Stop α) : Prop :=
  ∃ span, outcome = .error (.error (.located (.interrupted (.stepBudget limit)) span))

/-- What an evaluation under a limit on steps does to the counters: it passes no
checkpoint beyond the limit, and a host sees no more checkpoints than are passed. -/
structure Counted {α : Type} (limit : Nat) (before : Machine)
    (result : Except Stop α × Machine) : Prop where
  forward : before.steps ≤ result.2.steps
  seen : result.2.trace.length + before.steps ≤ before.trace.length + min result.2.steps limit
  within : result.2.steps ≤ limit ∨ result.2.steps = limit + 1 ∧ OverBudget limit result.1

def Counts {α : Type} (limit : Nat) (body : Evaluation α) : Prop :=
  ∀ machine, machine.steps ≤ limit → Counted limit machine (body.run machine)

section Counts

variable {limit : Nat} {α β : Type}

theorem Counted.ok_within {before after : Machine} {value : α}
    (counted : Counted limit before (.ok value, after)) : after.steps ≤ limit := by
  rcases counted.within with within | ⟨_, span, same⟩
  · exact within
  · cases same

/-- An evaluation that touches neither the counter nor the trace. -/
theorem counted_same {before : Machine} {result : Except Stop α × Machine}
    (within : before.steps ≤ limit) (steps : result.2.steps = before.steps)
    (trace : result.2.trace = before.trace) : Counted limit before result where
  forward := by omega
  seen := by
    rw [steps, trace]
    omega
  within := .inl (by omega)

theorem counts_plain {body : Evaluation α} (isPlain : Plain body) : Counts limit body := by
  intro machine within
  obtain ⟨effect, _, run⟩ := isPlain
  rw [run]
  exact counted_same within rfl rfl

theorem counts_bind {body : Evaluation α} {next : α → Evaluation β} (start : Counts limit body)
    (rest : ∀ value, (∃ machine, (body.run machine).1 = .ok value) → Counts limit (next value)) :
    Counts limit (body >>= next) := by
  intro machine within
  have first := start machine within
  rcases run_cases body machine with ⟨value, after, run⟩ | ⟨stop, after, run⟩
  · rw [run] at first
    rw [run_bind_ok run]
    have second := rest value ⟨machine, by rw [run]⟩ after first.ok_within
    have forward := first.forward
    have seen := first.seen
    have reached := first.ok_within
    have forwardAgain := second.forward
    have seenAgain := second.seen
    simp only at forward seen
    exact ⟨by omega, by omega, second.within⟩
  · rw [run] at first
    rw [run_bind_error run]
    refine ⟨first.forward, first.seen, first.within.imp_right fun beyond => ?_⟩
    obtain ⟨steps, span, same⟩ := beyond
    cases same
    exact ⟨steps, span, rfl⟩

theorem counts_restoring {body : Evaluation α} (name : String) (parent : Store → FrameId)
    (calls : Nat) (counts : Counts limit body) :
    Counts limit (restoring (entering name parent calls) body) := by
  intro machine within
  rw [run_restoring]
  have inner := counts (entering name parent calls machine) within
  exact ⟨inner.forward, inner.seen, inner.within⟩

theorem counts_checkpoint {context : Context} (budget : context.limits.steps = some limit)
    (kind : NodeKind) (span : Span) : Counts limit (checkpoint context kind span) := by
  intro machine within
  rw [run_checkpoint, budget]
  by_cases beyond : machine.steps + 1 > limit
  · simp only [Limits.exceeds, if_pos beyond]
    have last : machine.steps = limit := by omega
    refine ⟨?_, ?_, .inr ⟨?_, span, rfl⟩⟩
    all_goals
      simp only [counted]
      omega
  · simp only [Limits.exceeds, if_neg beyond]
    cases context.watch with
    | none =>
        refine ⟨?_, ?_, .inl ?_⟩
        all_goals
          simp only [counted]
          omega
    | some watch =>
        have passed : ∀ outcome : Except Stop Unit,
            Counted limit machine (outcome, watched kind span machine) := by
          intro outcome
          refine ⟨?_, ?_, .inl ?_⟩
          all_goals
            simp only [watched, counted, List.length_cons]
            omega
        dsimp only
        split
        · exact passed _
        · exact passed _

end Counts

/-- Checkpoints are the only steps. -/
theorem counts_correspondence {context : Context} {limit : Nat}
    (budget : context.limits.steps = some limit) :
    PlainCorrespondence context context 0 (fun body _ => Counts limit body) where
  plain isPlain := counts_plain isPlain
  bind := counts_bind
  outOfFuel _ := fun _ within => counted_same within rfl rfl
  checkpoint := counts_checkpoint budget
  operator _ _ _ _ := counts_plain (plain_operator _ _)
  admission _ := fun _ within => counted_same within rfl rfl
  restoring := counts_restoring

/-- From a machine in good order an evaluation leaves one behind and gives a value that
satisfies a condition. -/
def Sound (limit : Nat) {α : Type} (post : α → Prop) (body : Evaluation α) : Prop :=
  Keeps Value.Solid post body ∧ Counts limit body

/-- Evaluators are sound. -/
theorem sound_evaluators {context : Context} {limit : Nat}
    (budget : context.limits.steps = some limit) (fuel : Nat) :
    EvaluatorsRelated context context 0 Node.Solid Value.Solid
      (fun _ _ post body _ => Sound limit post body) fuel := by
  have kept := (preservation_correspondence (code_class Node.Solid) context).related_at_every_fuel
    fuel
  have counts := (counts_correspondence budget).correspondence.related_at_every_fuel fuel
  constructor
  · intro tree every
    exact ⟨kept.evaluate tree every, (counts.evaluate tree fun _ _ => trivial).1⟩
  · intro trees every
    exact ⟨kept.evaluateAll trees every, (counts.evaluateAll trees fun _ _ _ _ => trivial).1⟩
  · intro left right operator decisive leftEvery rightEvery
    exact ⟨kept.evaluateLogical left right operator decisive leftEvery rightEvery,
      (counts.evaluateLogical left right operator decisive (fun _ _ => trivial)
        fun _ _ => trivial).1⟩
  · intro tree every
    exact ⟨kept.evaluateCondition tree every, (counts.evaluateCondition tree fun _ _ => trivial).1⟩
  · intro span callee trees every
    exact ⟨kept.evaluateCall span callee trees every,
      (counts.evaluateCall span callee trees fun _ _ => trivial).1⟩
  · intro tree every
    exact ⟨kept.executeBlock tree every, (counts.executeBlock tree fun _ _ => trivial).1⟩
  · intro trees every
    exact ⟨kept.executeAll trees every, (counts.executeAll trees fun _ _ _ _ => trivial).1⟩
  · intro tree every
    exact ⟨kept.execute tree every, (counts.execute tree fun _ _ => trivial).1⟩
  · intro condition body conditionEvery bodyEvery
    exact ⟨kept.repeatWhile condition body conditionEvery bodyEvery,
      (counts.repeatWhile condition body (fun _ _ => trivial) fun _ _ => trivial).1⟩

/-- From some amount of fuel on, an evaluation has one and the same result, and that is
not to be out of fuel. -/
def Settles {α : Type} (bodies : Nat → Evaluation α) (machine : Machine)
    (result : Except Stop α × Machine) : Prop :=
  result.1 ≠ .error .outOfFuel ∧ ∃ fuel, ∀ gap, (bodies (fuel + gap)).run machine = result

def Halts {α : Type} (bodies : Nat → Evaluation α) (machine : Machine) : Prop :=
  ∃ result, Settles bodies machine result

section Halts

variable {α β : Type} {machine : Machine}

theorem halts_constant {body : Evaluation α}
    (never : (body.run machine).1 ≠ .error .outOfFuel) : Halts (fun _ => body) machine :=
  ⟨body.run machine, never, 0, fun _ => rfl⟩

theorem halts_plain {body : Evaluation α} (isPlain : Plain body) :
    Halts (fun _ => body) machine := by
  apply halts_constant
  obtain ⟨effect, never, run⟩ := isPlain
  rw [run]
  exact never machine.store

/-- An evaluator hands its parts one unit of fuel less. -/
theorem halts_succ {bodies parts : Nat → Evaluation α}
    (same : ∀ fuel, bodies (fuel + 1) = parts fuel) (halts : Halts parts machine) :
    Halts bodies machine := by
  obtain ⟨result, never, fuel, settled⟩ := halts
  refine ⟨result, never, fuel + 1, fun gap => ?_⟩
  rw [Nat.add_right_comm, same]
  exact settled gap

theorem halts_bind {bodies : Nat → Evaluation α} {next : Nat → α → Evaluation β}
    (start : Halts bodies machine)
    (rest : ∀ fuel value after, (bodies fuel).run machine = (.ok value, after) →
      Halts (fun fuel => next fuel value) after) :
    Halts (fun fuel => bodies fuel >>= next fuel) machine := by
  obtain ⟨⟨outcome, after⟩, never, fuel, settled⟩ := start
  cases outcome with
  | ok value =>
      obtain ⟨result, neverAfter, more, settledAfter⟩ := rest fuel value after (settled 0)
      refine ⟨result, neverAfter, fuel + more, fun gap => ?_⟩
      have first : (bodies (fuel + more + gap)).run machine = (.ok value, after) := by
        rw [Nat.add_assoc]
        exact settled (more + gap)
      rw [run_bind_ok first, Nat.add_comm fuel more, Nat.add_assoc]
      exact settledAfter (fuel + gap)
  | error stop =>
      refine ⟨(.error stop, after), ?_, fuel, fun gap => run_bind_error (settled gap)⟩
      intro stopped
      cases stopped
      exact never rfl

theorem halts_restoring {bodies : Nat → Evaluation α} (change : Machine → Machine)
    (halts : Halts bodies (change machine)) :
    Halts (fun fuel => restoring change (bodies fuel)) machine := by
  obtain ⟨result, never, fuel, settled⟩ := halts
  refine ⟨(result.1, backTo machine result.2), never, fuel, fun gap => ?_⟩
  rw [run_restoring, settled gap]

end Halts

/-- A machine in good order that has at most some steps left. -/
structure Spare (limit left : Nat) (machine : Machine) : Prop where
  solid : machine.store.Holds Value.Solid
  within : machine.steps ≤ limit
  left : limit ≤ machine.steps + left

/-- An evaluation ends whenever at most some steps are left. -/
def HaltsWithin (limit left : Nat) {α : Type} (bodies : Nat → Evaluation α) : Prop :=
  ∀ machine, Spare limit left machine → Halts bodies machine

section HaltsWithin

variable {limit left : Nat} {α β : Type}

theorem Spare.after {post : α → Prop} {machine after : Machine} {body : Evaluation α} {value : α}
    (spare : Spare limit left machine) (sound : Sound limit post body)
    (run : body.run machine = (.ok value, after)) : Spare limit left after ∧ post value := by
  obtain ⟨solid, given⟩ := sound.1 machine spare.solid
  have counted := sound.2 machine spare.within
  rw [run] at solid given counted
  have forward : machine.steps ≤ after.steps := counted.forward
  have enough := spare.left
  exact ⟨⟨solid, counted.ok_within, by omega⟩, given value rfl⟩

theorem halts_within_mono {bodies : Nat → Evaluation α} {more : Nat} (ordered : left ≤ more)
    (halts : HaltsWithin limit more bodies) : HaltsWithin limit left bodies := by
  intro machine spare
  have enough := spare.left
  exact halts machine ⟨spare.solid, spare.within, by omega⟩

theorem halts_within_bind {post : α → Prop} {bodies : Nat → Evaluation α}
    {next : Nat → α → Evaluation β} (start : HaltsWithin limit left bodies)
    (sound : ∀ fuel, Sound limit post (bodies fuel))
    (rest : ∀ value, post value → HaltsWithin limit left (fun fuel => next fuel value)) :
    HaltsWithin limit left (fun fuel => bodies fuel >>= next fuel) := by
  intro machine spare
  apply halts_bind (start machine spare)
  intro fuel value after run
  obtain ⟨spareAfter, holds⟩ := spare.after (sound fuel) run
  exact rest value holds after spareAfter

theorem halts_within_succ {bodies parts : Nat → Evaluation α}
    (same : ∀ fuel, bodies (fuel + 1) = parts fuel) (halts : HaltsWithin limit left parts) :
    HaltsWithin limit left bodies :=
  fun machine spare => halts_succ same (halts machine spare)

theorem halts_within_plain {body : Evaluation α} (isPlain : Plain body) :
    HaltsWithin limit left fun _ => body :=
  fun _ _ => halts_plain isPlain

theorem halts_within_restoring {bodies : Nat → Evaluation α} (name : String)
    (parent : Store → FrameId) (calls : Nat) (halts : HaltsWithin limit left bodies) :
    HaltsWithin limit left fun fuel => restoring (entering name parent calls) (bodies fuel) := by
  intro machine spare
  apply halts_restoring
  exact halts _ ⟨Store.holds_enter spare.solid name _, spare.within, spare.left⟩

/-- What follows a checkpoint has a step less, and nothing follows the last one. -/
theorem halts_within_checkpoint {context : Context} (budget : context.limits.steps = some limit)
    (kind : NodeKind) (span : Span) {bodies : Nat → Evaluation α}
    (rest : ∀ fewer < left, HaltsWithin limit fewer bodies) :
    HaltsWithin limit left (fun fuel => checkpoint context kind span >>= fun _ => bodies fuel) := by
  intro machine spare
  have sound : Sound limit (fun _ => True) (checkpoint context kind span) :=
    ⟨keeps_checkpoint context kind span, counts_checkpoint budget kind span⟩
  apply halts_bind
  · exact halts_constant (checkpoint_not_out_of_fuel context kind span machine)
  · intro _ value after run
    obtain ⟨spareAfter, _⟩ := spare.after sound run
    have advanced : after.steps = machine.steps + 1 :=
      checkpoint_advances context kind span machine run
    have reached := spareAfter.within
    have enough := spare.left
    exact rest (left - 1) (by omega) after ⟨spareAfter.solid, spareAfter.within, by omega⟩

end HaltsWithin

section Evaluators

variable {context : Context} {limit left : Nat}

/-- The bodies of functions end whenever at most some steps are left. -/
def BlocksHalt (context : Context) (limit left : Nat) : Prop :=
  ∀ block : Block, block.Every Node.Solid →
    HaltsWithin limit left fun fuel => executeBlock context fuel block

theorem halts_call (blocks : BlocksHalt context limit left) (span : Span) (closure : Closure)
    (solid : closure.body.Every Node.Solid) {arguments : List Value}
    (good : ∀ value ∈ arguments, value.Solid) :
    HaltsWithin limit left fun fuel =>
      inCall context span closure arguments (executeBlock context fuel closure.body) := by
  simp only [in_call_eq]
  have admitted : HaltsWithin limit left fun _ => admitCall context span := by
    intro machine _
    apply halts_constant
    rw [run_admit_call]
    unfold admission
    split
    · simp
    · split <;> simp
  have admissionSound : Sound limit (fun _ => True) (admitCall context span) :=
    ⟨fun machine holds => ⟨holds, fun _ _ => trivial⟩,
      fun _ within => counted_same within rfl rfl⟩
  apply halts_within_bind admitted fun _ => admissionSound
  intro _ _
  apply halts_within_restoring
  have bound := plain_declare_parameters closure.parameters arguments
  apply halts_within_bind (halts_within_plain bound) fun _ =>
    ⟨keeps_declare_parameters _ good, counts_plain bound⟩
  intro _ _
  exact blocks closure.body solid

/-- A condition is an expression. -/
theorem halts_condition (budget : context.limits.steps = some limit) {tree : Expression}
    (every : tree.Every Node.Solid)
    (halts : HaltsWithin limit left fun fuel => evaluate context fuel tree) :
    HaltsWithin limit left fun fuel => evaluateCondition context fuel tree := by
  apply halts_within_succ fun fuel => by rw [evaluateCondition]
  apply halts_within_bind halts fun fuel => (sound_evaluators budget fuel).evaluate tree every
  intro value _
  cases value with
  | bool holds => exact halts_within_plain (plain_pure _)
  | _ => exact halts_within_plain (plain_fail _ _)

theorem halts_logical (budget : context.limits.steps = some limit) {leftTree rightTree : Expression}
    (leftEvery : leftTree.Every Node.Solid) (rightEvery : rightTree.Every Node.Solid)
    (leftHalts : HaltsWithin limit left fun fuel => evaluate context fuel leftTree)
    (rightHalts : HaltsWithin limit left fun fuel => evaluate context fuel rightTree)
    (operator : BinaryOperator) (decisive : Bool) :
    HaltsWithin limit left fun fuel =>
      evaluateLogical context fuel leftTree operator rightTree decisive := by
  apply halts_within_succ fun fuel => by rw [evaluateLogical]
  apply halts_within_bind leftHalts fun fuel =>
    (sound_evaluators budget fuel).evaluate leftTree leftEvery
  intro leftValue _
  cases leftValue with
  | bool leftHolds =>
      by_cases decided : leftHolds = decisive
      · simp only [if_pos decided]
        exact halts_within_plain (plain_pure _)
      · simp only [if_neg decided]
        apply halts_within_bind rightHalts fun fuel =>
          (sound_evaluators budget fuel).evaluate rightTree rightEvery
        intro rightValue _
        cases rightValue with
        | bool rightHolds => exact halts_within_plain (plain_pure _)
        | _ => exact halts_within_plain (plain_fail _ _)
  | _ => exact halts_within_plain (plain_fail _ _)

mutual

/-- An expression ends if the bodies of functions do. -/
theorem halts_evaluate (budget : context.limits.steps = some limit)
    (blocks : BlocksHalt context limit left) :
    ∀ tree : Expression, tree.Every Node.Solid →
      HaltsWithin limit left fun fuel => evaluate context fuel tree
  | .literal span value, _ => by
      apply halts_within_succ fun fuel => by rw [evaluate]
      exact halts_within_plain (plain_pure _)
  | .identifier span name, _ => by
      apply halts_within_succ fun fuel => by rw [evaluate]
      exact halts_within_plain (plain_lookup _ _)
  | .tuple span elements, every => by
      apply halts_within_succ fun fuel => by rw [evaluate]
      apply halts_within_bind (halts_evaluate_all budget blocks elements every.tuple) fun fuel =>
        (sound_evaluators budget fuel).evaluateAll elements every.tuple
      intro values _
      exact halts_within_plain (plain_pure _)
  | .binary span leftTree operator rightTree, every => by
      obtain ⟨leftEvery, rightEvery⟩ := every.binary
      have leftHalts := halts_evaluate budget blocks leftTree leftEvery
      have rightHalts := halts_evaluate budget blocks rightTree rightEvery
      by_cases conjunction : operator = .conjunction
      · subst conjunction
        apply halts_within_succ fun fuel => by rw [evaluate]
        exact halts_logical budget leftEvery rightEvery leftHalts rightHalts _ _
      by_cases disjunction : operator = .disjunction
      · subst disjunction
        apply halts_within_succ fun fuel => by rw [evaluate]
        exact halts_logical budget leftEvery rightEvery leftHalts rightHalts _ _
      apply halts_within_succ fun fuel =>
        evaluate_binary_strict context fuel span leftTree rightTree operator
          ⟨conjunction, disjunction⟩
      apply halts_within_bind leftHalts fun fuel =>
        (sound_evaluators budget fuel).evaluate leftTree leftEvery
      intro leftValue _
      apply halts_within_bind rightHalts fun fuel =>
        (sound_evaluators budget fuel).evaluate rightTree rightEvery
      intro rightValue _
      exact halts_within_plain (plain_operator _ _)
  | .unary span operator operand, every => by
      apply halts_within_succ fun fuel => by rw [evaluate]
      apply halts_within_bind (halts_evaluate budget blocks operand every.unary) fun fuel =>
        (sound_evaluators budget fuel).evaluate operand every.unary
      intro value _
      exact halts_within_plain (plain_operator _ _)
  | .call span callee arguments, every => by
      obtain ⟨calleeEvery, argumentsEvery⟩ := every.call
      apply halts_within_succ fun fuel => by rw [evaluate]
      apply halts_within_succ fun fuel => by rw [evaluateCall]
      apply halts_within_bind (halts_evaluate budget blocks callee calleeEvery) fun fuel =>
        (sound_evaluators budget fuel).evaluate callee calleeEvery
      intro value solid
      cases value with
      | function callable =>
          apply halts_within_bind (halts_evaluate_all budget blocks arguments argumentsEvery)
            fun fuel => (sound_evaluators budget fuel).evaluateAll arguments argumentsEvery
          intro values good
          by_cases arity : values.length ≠ callable.arity
          · simp only [if_pos arity]
            exact halts_within_plain (plain_fail _ _)
          · simp only [if_neg arity]
            cases callable with
            | native native => exact halts_within_plain (plain_call_native _ _)
            | closure closure =>
                exact halts_call blocks span closure (Value.carries_closure.1 solid) good
      | _ => exact halts_within_plain (plain_fail _ _)
  | .member span target index, every => by
      apply halts_within_succ fun fuel => by rw [evaluate]
      apply halts_within_bind (halts_evaluate budget blocks target every.member) fun fuel =>
        (sound_evaluators budget fuel).evaluate target every.member
      intro value _
      exact halts_within_plain (plain_member _ _ _)
  | .conditional span condition whenTrue whenFalse, every => by
      obtain ⟨conditionEvery, trueEvery, falseEvery⟩ := every.conditional
      apply halts_within_succ fun fuel => by rw [evaluate]
      apply halts_within_bind (halts_condition budget conditionEvery
        (halts_evaluate budget blocks condition conditionEvery)) fun fuel =>
        (sound_evaluators budget fuel).evaluateCondition condition conditionEvery
      intro holds _
      cases holds with
      | true => exact halts_evaluate budget blocks whenTrue trueEvery
      | false => exact halts_evaluate budget blocks whenFalse falseEvery
  | .rebind span name value, every => by
      apply halts_within_succ fun fuel => by rw [evaluate]
      apply halts_within_bind (halts_evaluate budget blocks value every.rebind) fun fuel =>
        (sound_evaluators budget fuel).evaluate value every.rebind
      intro result good
      have assigned := plain_assign span name result
      apply halts_within_bind (halts_within_plain assigned) fun _ =>
        ⟨keeps_assign span name good, counts_plain assigned⟩
      intro _ _
      exact halts_within_plain (plain_pure _)
  | .function span parameters body, _ => by
      apply halts_within_succ fun fuel => by rw [evaluate]
      exact halts_within_plain (plain_make_closure _ _ _)

theorem halts_evaluate_all (budget : context.limits.steps = some limit)
    (blocks : BlocksHalt context limit left) :
    ∀ trees : List Expression, (∀ tree ∈ trees, tree.Every Node.Solid) →
      HaltsWithin limit left fun fuel => evaluateAll context fuel trees
  | [], _ => by
      apply halts_within_succ fun fuel => by rw [evaluateAll]
      exact halts_within_plain (plain_pure _)
  | tree :: trees, every => by
      have firstEvery := every tree List.mem_cons_self
      have restEvery : ∀ other ∈ trees, other.Every Node.Solid :=
        fun other member => every other (List.mem_cons_of_mem _ member)
      apply halts_within_succ fun fuel => by rw [evaluateAll]
      apply halts_within_bind (halts_evaluate budget blocks tree firstEvery) fun fuel =>
        (sound_evaluators budget fuel).evaluate tree firstEvery
      intro value _
      apply halts_within_bind (halts_evaluate_all budget blocks trees restEvery) fun fuel =>
        (sound_evaluators budget fuel).evaluateAll trees restEvery
      intro values _
      exact halts_within_plain (plain_pure _)

end

/-- Whoever gets a value from an evaluation has passed a checkpoint. -/
def Advances (limit : Nat) {α : Type} (body : Evaluation α) : Prop :=
  ∀ machine value after, machine.steps ≤ limit → body.run machine = (.ok value, after) →
    machine.steps < after.steps

theorem advances_bind_first {α β : Type} {body : Evaluation α} {next : α → Evaluation β}
    (start : Advances limit body) (counts : Counts limit body)
    (rest : ∀ value, Counts limit (next value)) : Advances limit (body >>= next) := by
  intro machine result last within given
  rcases run_cases body machine with ⟨value, after, run⟩ | ⟨stop, after, run⟩
  · rw [run_bind_ok run] at given
    have advanced := start machine value after within run
    have counted := counts machine within
    rw [run] at counted
    have forward := (rest value after counted.ok_within).forward
    rw [given] at forward
    simp only at forward
    omega
  · rw [run_bind_error run] at given
    cases given

theorem advances_bind_second {α β : Type} {body : Evaluation α} {next : α → Evaluation β}
    (counts : Counts limit body) (rest : ∀ value, Advances limit (next value)) :
    Advances limit (body >>= next) := by
  intro machine result last within given
  rcases run_cases body machine with ⟨value, after, run⟩ | ⟨stop, after, run⟩
  · rw [run_bind_ok run] at given
    have counted := counts machine within
    rw [run] at counted
    have forward : machine.steps ≤ after.steps := counted.forward
    have advanced := rest value after result last counted.ok_within given
    omega
  · rw [run_bind_error run] at given
    cases given

theorem advances_checkpoint (kind : NodeKind) (span : Span) :
    Advances limit (checkpoint context kind span) := by
  intro machine _ after _ run
  have advanced := checkpoint_advances context kind span machine run
  omega

theorem advances_restoring {α : Type} {body : Evaluation α} (name : String)
    (parent : Store → FrameId) (calls : Nat) (advances : Advances limit body) :
    Advances limit (restoring (entering name parent calls) body) := by
  intro machine value after within run
  rw [run_restoring] at run
  obtain ⟨outcome, rfl⟩ := Prod.mk.inj run
  exact advances (entering name parent calls machine) value
    (body.run (entering name parent calls machine)).2 within (Prod.ext outcome rfl)

theorem advances_execute (budget : context.limits.steps = some limit) (fuel : Nat)
    (tree : Statement) : Advances limit (execute context fuel tree) := by
  have rules := (counts_correspondence budget).correspondence
  cases fuel with
  | zero =>
      intro machine value after _ run
      rw [execute, run_out_of_fuel] at run
      cases run
  | succ fuel =>
      rw [execute_eq_checkpoint]
      apply advances_bind_first (advances_checkpoint _ _) (counts_checkpoint budget _ _)
      intro _
      exact (rules.after_checkpoint_step (rules.related_at_every_fuel fuel) tree
        fun _ _ => trivial).1

theorem advances_all (budget : context.limits.steps = some limit) (fuel : Nat)
    (tree : Statement) (trees : List Statement) :
    Advances limit (executeAll context fuel (tree :: trees)) := by
  have counts := (counts_correspondence budget).correspondence.related_at_every_fuel
  cases fuel with
  | zero =>
      intro machine value after _ run
      rw [executeAll, run_out_of_fuel] at run
      cases run
  | succ fuel =>
      rw [executeAll]
      apply advances_bind_first (advances_execute budget fuel tree)
        ((counts fuel).execute tree fun _ _ => trivial).1
      intro _
      exact ((counts fuel).executeAll trees fun _ _ _ _ => trivial).1

/-- A body that is not empty passes a checkpoint. -/
theorem advances_block (budget : context.limits.steps = some limit) (fuel : Nat) {tree : Block}
    (solid : tree.isEmpty = false) : Advances limit (executeBlock context fuel tree) := by
  have counts := (counts_correspondence budget).correspondence.related_at_every_fuel
  cases fuel with
  | zero =>
      intro machine value after _ run
      rw [executeBlock, run_out_of_fuel] at run
      cases run
  | succ fuel =>
      cases tree with
      | valued span statements value =>
          rw [executeBlock]
          apply advances_bind_second ((counts fuel).executeAll statements fun _ _ _ _ => trivial).1
          intro _
          apply advances_bind_first (advances_checkpoint _ _) (counts_checkpoint budget _ _)
          intro _
          exact ((counts fuel).evaluate value fun _ _ => trivial).1
      | silent span statements =>
          cases statements with
          | nil => cases solid
          | cons statement statements =>
              rw [executeBlock]
              apply advances_bind_first (advances_all budget fuel statement statements)
                ((counts fuel).executeAll _ fun _ _ _ _ => trivial).1
              intro _
              exact counts_plain (plain_pure _)

/-- A loop ends, for each time it runs its body a step is used. -/
theorem halts_repeat (budget : context.limits.steps = some limit) {condition : Expression}
    {body : Block} (conditionEvery : condition.Every Node.Solid) (bodyEvery : body.Every Node.Solid)
    (blocks : BlocksHalt context limit left) :
    HaltsWithin limit left fun fuel => repeatWhile context fuel condition body := by
  induction left using Nat.strongRecOn with
  | ind left induction =>
      apply halts_within_succ fun fuel => by rw [repeatWhile]
      apply halts_within_bind (halts_condition budget conditionEvery
        (halts_evaluate budget blocks condition conditionEvery)) fun fuel =>
        (sound_evaluators budget fuel).evaluateCondition condition conditionEvery
      intro holds _
      cases holds with
      | false => exact halts_within_plain (plain_pure _)
      | true =>
          simp only [in_scope_eq_restoring, if_true]
          intro machine spare
          apply halts_bind
            (halts_within_restoring _ _ _ (blocks body bodyEvery) machine spare)
          intro fuel value after run
          obtain ⟨kept, counts⟩ := (sound_evaluators budget fuel).executeBlock body bodyEvery
          obtain ⟨spareAfter, _⟩ := spare.after
            ⟨keeps_restoring _ _ _ kept, counts_restoring _ _ _ counts⟩ run
          have advanced := advances_restoring _ _ _ (advances_block budget fuel bodyEvery.self)
            machine value after spare.within run
          have reached := spareAfter.within
          have enough := spare.left
          exact induction (left - 1) (by omega)
            (fun block every => halts_within_mono (by omega) (blocks block every)) after
            ⟨spareAfter.solid, spareAfter.within, by omega⟩

/-- A statement uses a step before it runs a body. -/
theorem halts_execute (budget : context.limits.steps = some limit)
    (blocks : ∀ fewer < left, BlocksHalt context limit fewer) {tree : Statement}
    (every : tree.Every Node.Solid) :
    HaltsWithin limit left fun fuel => execute context fuel tree := by
  apply halts_within_succ fun fuel => execute_eq_checkpoint context fuel tree
  apply halts_within_checkpoint budget
  intro fewer isFewer
  have expressions := halts_evaluate budget (blocks fewer isFewer)
  have sound := sound_evaluators budget
  cases tree with
  | evaluate span expression closed =>
      apply halts_within_bind (expressions expression every.evaluate) fun fuel =>
        (sound fuel).evaluate expression every.evaluate
      intro value _
      exact halts_within_plain (plain_pure _)
  | declare span pattern initial =>
      apply halts_within_bind (expressions initial every.declare) fun fuel =>
        (sound fuel).evaluate initial every.declare
      intro value good
      have declared := plain_declare_pattern pattern value
      apply halts_within_bind (halts_within_plain declared) fun _ =>
        ⟨keeps_declare_pattern (code_class Node.Solid) pattern good, counts_plain declared⟩
      intro _ _
      exact halts_within_plain (plain_pure _)
  | assign span target replacement =>
      apply halts_within_bind (expressions replacement every.assign) fun fuel =>
        (sound fuel).evaluate replacement every.assign
      intro value good
      have assigned := plain_assign_pattern target value
      apply halts_within_bind (halts_within_plain assigned) fun _ =>
        ⟨keeps_assign_pattern (code_class Node.Solid) target good, counts_plain assigned⟩
      intro _ _
      exact halts_within_plain (plain_pure _)
  | whileLoop span condition body =>
      obtain ⟨conditionEvery, bodyEvery⟩ := every.whileLoop
      apply halts_within_bind
        (halts_repeat budget conditionEvery bodyEvery (blocks fewer isFewer)) fun fuel =>
        (sound fuel).repeatWhile condition body conditionEvery bodyEvery
      intro _ _
      exact halts_within_plain (plain_pure _)
  | ifBlock span condition body =>
      obtain ⟨conditionEvery, bodyEvery⟩ := every.ifBlock
      apply halts_within_bind (halts_condition budget conditionEvery
        (expressions condition conditionEvery)) fun fuel =>
        (sound fuel).evaluateCondition condition conditionEvery
      intro holds _
      cases holds with
      | false => exact halts_within_plain (plain_pure _)
      | true =>
          simp only [in_scope_eq_restoring, if_true]
          apply halts_within_bind
            (halts_within_restoring _ _ _ (blocks fewer isFewer body bodyEvery)) fun fuel =>
            ((sound fuel).executeBlock body bodyEvery).imp (keeps_restoring _ _ _)
              (counts_restoring _ _ _)
          intro _ _
          exact halts_within_plain (plain_pure _)
  | define span name parameters body =>
      have made : Plain (makeClosure (some name) parameters body) := plain_make_closure _ _ _
      have kept : Keeps Value.Solid Value.Solid (makeClosure (some name) parameters body) :=
        keeps_make_closure fun _ _ => Value.carries_closure.2 every.define
      apply halts_within_bind (halts_within_plain made) fun _ => ⟨kept, counts_plain made⟩
      intro value good
      have declared := plain_declare_at (some span) name value
      apply halts_within_bind (halts_within_plain declared) fun _ =>
        ⟨keeps_declare_at (some span) name good, counts_plain declared⟩
      intro _ _
      exact halts_within_plain (plain_pure _)

theorem halts_execute_all (budget : context.limits.steps = some limit)
    (blocks : ∀ fewer < left, BlocksHalt context limit fewer) {trees : List Statement}
    (every : ∀ tree ∈ trees, tree.Every Node.Solid) :
    HaltsWithin limit left fun fuel => executeAll context fuel trees := by
  induction trees with
  | nil =>
      apply halts_within_succ fun fuel => by rw [executeAll]
      exact halts_within_plain (plain_pure _)
  | cons tree trees induction =>
      have firstEvery := every tree List.mem_cons_self
      apply halts_within_succ fun fuel => by rw [executeAll]
      apply halts_within_bind (halts_execute budget blocks firstEvery) fun fuel =>
        (sound_evaluators budget fuel).execute tree firstEvery
      intro _ _
      exact induction fun other member => every other (List.mem_cons_of_mem _ member)

/-- The steps that are left decrease whenever a body runs another body. -/
theorem blocks_halt (budget : context.limits.steps = some limit) (left : Nat) :
    BlocksHalt context limit left := by
  induction left using Nat.strongRecOn with
  | ind left fewer =>
      intro block every
      cases block with
      | valued span statements value =>
          obtain ⟨statementsEvery, valueEvery⟩ := every.valued
          apply halts_within_succ fun fuel => by rw [executeBlock]
          apply halts_within_bind (halts_execute_all budget fewer statementsEvery) fun fuel =>
            (sound_evaluators budget fuel).executeAll statements statementsEvery
          intro _ _
          apply halts_within_checkpoint budget
          intro less isLess
          exact halts_evaluate budget (fewer less isLess) value valueEvery
      | silent span statements =>
          apply halts_within_succ fun fuel => by rw [executeBlock]
          apply halts_within_bind (halts_execute_all budget fewer every.silent) fun fuel =>
            (sound_evaluators budget fuel).executeAll statements every.silent
          intro _ _
          exact halts_within_plain (plain_pure _)

theorem halts_program (budget : context.limits.steps = some limit) {statements : List Statement}
    (every : ∀ tree ∈ statements, tree.Every Node.Solid) (value : Value) :
    HaltsWithin limit left fun fuel => executeProgram context fuel statements value := by
  induction statements generalizing value with
  | nil => exact halts_within_plain (plain_pure _)
  | cons tree trees induction =>
      have firstEvery := every tree List.mem_cons_self
      apply halts_within_bind (halts_execute budget (fun fewer _ => blocks_halt budget fewer)
        firstEvery) fun fuel => (sound_evaluators budget fuel).execute tree firstEvery
      intro result _
      exact induction (fun other member => every other (List.mem_cons_of_mem _ member)) result

end Evaluators

/-- Whatever loops, calls and effects a program has, a limit on steps ends it: beyond
some amount of fuel the outcome is always the same and is a value or an error of the
script. No more checkpoints than the limit are passed, the next one ends the run, and a
host that watches sees no other checkpoints. The machine that is left behind is fit for
the next program. -/
theorem Machine.run_ends_within_step_limit {context : Context} {limit : Nat}
    (budget : context.limits.steps = some limit) {machine : Machine}
    (solid : machine.store.Holds Value.Solid) {program : Program}
    (every : program.Every Node.Solid) :
    ∃ (outcome : Except Stop Value) (after : Machine) (fuel : Nat),
      (∀ gap, machine.run context (fuel + gap) program = (outcome, after)) ∧
      outcome ≠ .error .outOfFuel ∧
      (after.steps ≤ limit ∨ after.steps = limit + 1 ∧ OverBudget limit outcome) ∧
      after.trace.length ≤ machine.trace.length + min after.steps limit ∧
      after.store.Holds Value.Solid := by
  have statements := every.statements
  have spare : Spare limit limit machine.readied :=
    ⟨Store.holds_of_same_frames rfl solid, Nat.zero_le _, Nat.le_add_left _ _⟩
  obtain ⟨⟨outcome, after⟩, never, fuel, settled⟩ :=
    halts_program budget statements .nothing machine.readied spare
  have kept := (preservation_correspondence (code_class Node.Solid)
    context).execute_program_related fuel program.statements .nothing statements
    (Value.Scalar.carries trivial) machine.readied spare.solid
  have counts := (counts_correspondence budget).execute_program fuel program.statements .nothing
    machine.readied spare.within
  have run : (executeProgram context fuel program.statements .nothing).run machine.readied =
      (outcome, after) := settled 0
  rw [run] at kept counts
  refine ⟨outcome, machine.settled after, fuel, fun gap => ?_, never, counts.within, ?_, ?_⟩
  · rw [Machine.run, Machine.run_guarded, settled gap]
  · have seen := counts.seen
    simpa [Machine.readied, Machine.settled] using seen
  · exact Store.holds_of_same_frames rfl kept.1

/-- A loop without end whose body only evaluates a value. -/
def endlessLoop : Program :=
  ⟨default, [.whileLoop default (.literal default (.bool true))
    (.silent default [.evaluate default (.literal default .nothing) true])]⟩

theorem endless_loop_ends_within_step_limit :
    ∃ (outcome : Except Stop Value) (after : Machine) (fuel : Nat),
      (∀ gap, Machine.initial.run ⟨{ steps := some 3 }, some ⟨none⟩, 100⟩ (fuel + gap) endlessLoop =
        (outcome, after)) ∧
      outcome ≠ .error .outOfFuel ∧
      (after.steps ≤ 3 ∨ after.steps = 3 + 1 ∧ OverBudget 3 outcome) ∧
      after.trace.length ≤ Machine.initial.trace.length + min after.steps 3 ∧
      after.store.Holds Value.Solid :=
  Machine.run_ends_within_step_limit rfl (Store.initial_carries Node.Solid) (by
    simp [Program.Every, Program.nodes, endlessLoop, Statement.nodesAll, Statement.nodes,
      Expression.nodes, Block.nodes, Node.Solid, Block.isEmpty])

end LayoutScript
