import LayoutScript.Machine.Evaluator

/-!
What an evaluation consists of. Everything that an evaluator does is put together
from plain steps, which know the store and the output alone, from checkpoints, from
the admission of calls, and from bodies that run in a frame of their own.
-/

namespace LayoutScript

namespace Evaluation

variable {α β : Type}

theorem run_pure (value : α) (machine : Machine) :
    (pure value : Evaluation α).run machine = (.ok value, machine) := rfl

theorem run_throw (stop : Stop) (machine : Machine) :
    (throw stop : Evaluation α).run machine = (.error stop, machine) := rfl

theorem run_out_of_fuel (machine : Machine) :
    (outOfFuel : Evaluation α).run machine = (.error .outOfFuel, machine) := rfl

theorem run_bind (body : Evaluation α) (next : α → Evaluation β) (machine : Machine) :
    (body >>= next).run machine =
      ExceptT.bindCont next (body.run machine).1 (body.run machine).2 := rfl

theorem run_bind_ok {body : Evaluation α} {next : α → Evaluation β} {machine after : Machine}
    {value : α} (run : body.run machine = (.ok value, after)) :
    (body >>= next).run machine = (next value).run after := by
  rw [run_bind, run]
  rfl

theorem run_bind_error {body : Evaluation α} {next : α → Evaluation β} {machine after : Machine}
    {stop : Stop} (run : body.run machine = (.error stop, after)) :
    (body >>= next).run machine = (.error stop, after) := by
  rw [run_bind, run]
  rfl

/-- Every run ends with a value or with a stop, and leaves a machine behind. -/
theorem run_cases (body : Evaluation α) (machine : Machine) :
    (∃ value after, body.run machine = (.ok value, after)) ∨
      ∃ stop after, body.run machine = (.error stop, after) := by
  rcases run : body.run machine with ⟨result, after⟩
  cases result with
  | ok value => exact .inl ⟨value, after, rfl⟩
  | error stop => exact .inr ⟨stop, after, rfl⟩

/-- The machine as a body leaves it, back in the frame and at the depth of another. -/
def backTo (machine after : Machine) : Machine :=
  { after with store := after.store.goTo machine.store.current, depth := machine.depth }

theorem run_restoring (change : Machine → Machine) (body : Evaluation α) (machine : Machine) :
    (restoring change body).run machine =
      ((body.run (change machine)).1, backTo machine (body.run (change machine)).2) := rfl

/-- The change that starts a body in a frame of its own; `calls` is one for the body
of a function. -/
def entering (name : String) (parent : Store → FrameId) (calls : Nat) (machine : Machine) :
    Machine :=
  { machine with
    store := machine.store.enter name (parent machine.store)
    depth := machine.depth + calls }

theorem in_scope_eq_restoring (name : String) (body : Evaluation α) :
    inScope name body = restoring (entering name Store.current 0) body := rfl

/-- Whether a call may begin: not if too many are in progress. -/
def admission (context : Context) (span : Span) (machine : Machine) : Except Stop Unit :=
  match Limits.exceeds (machine.depth + 1) context.limits.callDepth with
  | some limit => .error (.error (.located (.stackOverflow (some limit)) span))
  | none =>
      if machine.depth + 1 > context.callCapacity then
        .error (.error ⟨.stackOverflow none, machine.lastSpan, none⟩)
      else .ok ()

def admitCall (context : Context) (span : Span) : Evaluation Unit :=
  ExceptT.mk fun machine => (admission context span machine, machine)

/-- The change that starts the body of a function. -/
def enteringCall (closure : Closure) : Machine → Machine :=
  entering ("fn " ++ (Callable.closure closure).callName) (fun _ => closure.frame) 1

theorem run_admit_call (context : Context) (span : Span) (machine : Machine) :
    (admitCall context span).run machine = (admission context span machine, machine) := rfl

theorem in_call_eq (context : Context) (span : Span) (closure : Closure)
    (arguments : List Value) (body : Evaluation α) :
    inCall context span closure arguments body =
      (do admitCall context span
          restoring (enteringCall closure) do
            declareParameters closure.parameters arguments
            body) := by
  funext machine
  unfold inCall
  simp only [bind, ExceptT.bind, ExceptT.mk, StateT.bind, admitCall, admission, get, getThe,
    MonadStateOf.get, liftM, monadLift, MonadLift.monadLift, ExceptT.lift, Functor.map,
    StateT.map, StateT.get, pure, ExceptT.bindCont]
  cases Limits.exceeds (machine.depth + 1) context.limits.callDepth with
  | some limit => rfl
  | none =>
      by_cases full : machine.depth + 1 > context.callCapacity
      · simp only [if_pos full]
        rfl
      · simp only [if_neg full]
        rfl

/-- The machine as a checkpoint counts it. -/
def counted (span : Span) (machine : Machine) : Machine :=
  { machine with steps := machine.steps + 1, lastSpan := some span }

/-- The machine as a checkpoint counts it before a watching host. -/
def watched (kind : NodeKind) (span : Span) (machine : Machine) : Machine :=
  { counted span machine with
    trace := ⟨kind, span, machine.store.chain.map (·.name)⟩ :: machine.trace }

theorem run_checkpoint (context : Context) (kind : NodeKind) (span : Span) (machine : Machine) :
    (checkpoint context kind span).run machine =
      match Limits.exceeds (machine.steps + 1) context.limits.steps with
      | some limit =>
          (.error (.error (.located (.interrupted (.stepBudget limit)) span)),
            counted span machine)
      | none =>
          match context.watch with
          | none => (.ok (), counted span machine)
          | some watch =>
              if watch.stopAfter.any (· < machine.steps + 1) then
                (.error (.error (.located (.interrupted .stoppedByHost) span)),
                  watched kind span machine)
              else (.ok (), watched kind span machine) := by
  change ExceptT.run (match Limits.exceeds (machine.steps + 1) context.limits.steps with
    | some limit => fail (.interrupted (.stepBudget limit)) span
    | none => match context.watch with
        | none => pure ()
        | some watch => _) (counted span machine) = _
  cases Limits.exceeds (machine.steps + 1) context.limits.steps with
  | some limit => rfl
  | none =>
      cases context.watch with
      | none => rfl
      | some watch =>
          change ExceptT.run (if watch.stopAfter.any (· < machine.steps + 1) then
            fail (.interrupted .stoppedByHost) span else pure ()) (watched kind span machine) =
            if watch.stopAfter.any (· < machine.steps + 1) then _ else _
          split <;> rfl

theorem checkpoint_not_out_of_fuel (context : Context) (kind : NodeKind) (span : Span)
    (machine : Machine) :
    ((checkpoint context kind span).run machine).1 ≠ .error .outOfFuel := by
  rw [run_checkpoint]
  split
  · simp
  · split
    · simp
    · split <;> simp

theorem checkpoint_advances (context : Context) (kind : NodeKind) (span : Span)
    (machine : Machine) {outcome : Except Stop Unit} {after : Machine}
    (run : (checkpoint context kind span).run machine = (outcome, after)) :
    after.steps = machine.steps + 1 := by
  rw [run_checkpoint] at run
  split at run
  · cases run
    rfl
  · split at run
    · cases run
      rfl
    · split at run <;> cases run <;> rfl

/-- An evaluation that reads the store alone, changes nothing else, adds to the output,
and does not depend on fuel. -/
def Plain (body : Evaluation α) : Prop :=
  ∃ effect : Store → Except Stop α × Store × String,
    (∀ store, (effect store).1 ≠ .error .outOfFuel) ∧
    ∀ machine : Machine, body.run machine =
      ((effect machine.store).1,
        { machine with
          store := (effect machine.store).2.1
          output := machine.output ++ (effect machine.store).2.2 })

theorem plain_pure (value : α) : Plain (pure value : Evaluation α) := by
  refine ⟨fun store => (.ok value, store, ""), fun store => by simp, fun machine => ?_⟩
  rw [run_pure, String.append_empty]

theorem plain_throw {stop : Stop} (other : stop ≠ .outOfFuel) :
    Plain (throw stop : Evaluation α) := by
  refine ⟨fun store => (.error stop, store, ""), fun store => by simpa using other,
    fun machine => ?_⟩
  rw [run_throw, String.append_empty]

theorem plain_bind {body : Evaluation α} {next : α → Evaluation β} (start : Plain body)
    (rest : ∀ value, Plain (next value)) : Plain (body >>= next) := by
  obtain ⟨effect, ends, runs⟩ := start
  obtain ⟨later, holds⟩ := Classical.skolem.1 rest
  refine ⟨fun store => match effect store with
    | (.ok value, after, output) =>
        ((later value after).1, (later value after).2.1, output ++ (later value after).2.2)
    | (.error stop, after, output) => (.error stop, after, output), fun store => ?_,
    fun machine => ?_⟩
  · have started := ends store
    rcases given : effect store with ⟨stop | value, after, output⟩
    · rw [given] at started
      simpa only [given, ne_eq, Except.error.injEq] using started
    · simpa only [given] using (holds value).1 after
  · have ran := runs machine
    rcases given : effect machine.store with ⟨stop | value, after, output⟩
    · rw [given] at ran
      simp only [given]
      exact run_bind_error ran
    · rw [given] at ran
      rw [run_bind_ok ran, (holds value).2]
      simp only [given, String.append_assoc]

theorem plain_fail (cause : Cause) (span : Span) : Plain (fail cause span : Evaluation α) :=
  plain_throw (by simp)

theorem plain_operator (span : Span) (result : Except Failure α) :
    Plain (ofOperator span result) := by
  match result with
  | .ok value => exact plain_pure value
  | .error (.cause cause) => exact plain_fail cause span
  | .error (.fault fault) => exact plain_throw (by simp)

theorem plain_member (span : Span) (target : Value) (index : Nat) :
    Plain (member span target index) := by
  unfold member
  split
  · split
    · exact plain_pure _
    · exact plain_fail _ _
  · exact plain_fail _ _

theorem run_lookup (span : Span) (name : String) (machine : Machine) :
    (lookup span name).run machine =
      match machine.store.lookup? name with
      | some value => (.ok value, machine)
      | none => (.error (.error (.located (.undefinedVariable name) span)), machine) := by
  change (match machine.store.lookup? name with
    | some value => (pure value : Evaluation Value)
    | none => fail (.undefinedVariable name) span).run machine = _
  cases machine.store.lookup? name <;> rfl

theorem plain_lookup (span : Span) (name : String) : Plain (lookup span name) := by
  refine ⟨fun store => match store.lookup? name with
    | some value => (.ok value, store, "")
    | none => (.error (.error (.located (.undefinedVariable name) span)), store, ""),
    fun store => ?_, fun machine => ?_⟩
  · cases found : store.lookup? name <;> simp [found]
  rw [run_lookup]
  cases found : machine.store.lookup? name <;> simp only [found, String.append_empty]

theorem run_make_closure (name : Option String) (parameters : List String) (body : Block)
    (machine : Machine) :
    (makeClosure name parameters body).run machine =
      (.ok (.function (.closure
          ⟨.script machine.store.nextFunction, name, parameters, body, machine.store.current⟩)),
        { machine with store := machine.store.freshFunction.2 }) := rfl

theorem plain_make_closure (name : Option String) (parameters : List String) (body : Block) :
    Plain (makeClosure name parameters body) := by
  refine ⟨fun store => (.ok (.function (.closure
      ⟨.script store.nextFunction, name, parameters, body, store.current⟩)),
      store.freshFunction.2, ""), fun store => by simp, fun machine => ?_⟩
  rw [run_make_closure, String.append_empty]

theorem run_call_native (native : Native) (arguments : List Value) (machine : Machine) :
    (callNative native arguments).run machine =
      (.ok .nothing, if native.prints then
        { machine with output := machine.output ++
            String.join (arguments.map fun argument => argument.display ++ "\n") }
        else machine) := by
  unfold callNative
  cases native.prints <;> rfl

theorem plain_call_native (native : Native) (arguments : List Value) :
    Plain (callNative native arguments) := by
  refine ⟨fun store => (.ok .nothing, store, if native.prints then
    String.join (arguments.map fun argument => argument.display ++ "\n") else ""),
    fun store => by simp, fun machine => ?_⟩
  rw [run_call_native]
  cases native.prints <;> simp

end Evaluation

namespace Machine

open Evaluation

/-- A machine whose counters start anew. -/
def readied (machine : Machine) : Machine :=
  { machine with steps := 0, depth := 0, lastSpan := none }

/-- A machine that an evaluation left behind, with no call in progress and in the frame
that was current before. -/
def settled (machine after : Machine) : Machine :=
  { after with store := after.store.goTo machine.store.current, depth := 0 }

theorem run_guarded {α : Type} (machine : Machine) (body : Evaluation α) :
    machine.guarded body =
      ((body.run machine.readied).1, machine.settled (body.run machine.readied).2) := rfl

end Machine

end LayoutScript
