import LayoutScript.Proofs.Machine.Growth

/-!
Evaluations that lead from stage to stage. What is known of a machine may be known at a stage
alone; an evaluation that evolves leaves a machine behind of which as much is known at a later
stage, also when it stops early.
-/

namespace LayoutScript

open Evaluation

variable {Stage : Type} [Preorder Stage]

/-- From a machine at a stage an evaluation leads, whatever its outcome, to a machine at a later
stage, and its result satisfies a condition at that stage. -/
def Evolves (At : Stage → Machine → Prop) (stage : Stage) {α : Type} (post : Stage → α → Prop)
    (body : Evaluation α) : Prop :=
  ∀ machine, At stage machine → ∃ late, stage ≤ late ∧ At late (body.run machine).2 ∧
    ∀ value, (body.run machine).1 = .ok value → post late value

section Evolves

variable {At : Stage → Machine → Prop} {stage : Stage} {α β : Type}

theorem Evolves.after {post : Stage → α → Prop} {body : Evaluation α} {machine after : Machine}
    {value : α} (evolves : Evolves At stage post body)
    (ran : body.run machine = (.ok value, after)) (holds : At stage machine) :
    ∃ late, stage ≤ late ∧ At late after ∧ post late value := by
  have ⟨late, grows, lateHolds, given⟩ := evolves machine holds
  rw [ran] at lateHolds given
  exact ⟨late, grows, lateHolds, given value rfl⟩

theorem evolves_pure {post : Stage → α → Prop} {value : α} (holds : post stage value) :
    Evolves At stage post (pure value) := by
  intro machine here
  have given (result : α) (same : (Except.ok value : Except Stop α) = .ok result) : post stage result := by
    cases same
    exact holds
  exact ⟨stage, le_rfl, here, given⟩

theorem evolves_throw {post : Stage → α → Prop} (stop : Stop) :
    Evolves At stage post (throw stop) := by
  intro machine here
  exact ⟨stage, le_rfl, here, fun _ impossible => by cases impossible⟩

theorem evolves_bind {between : Stage → α → Prop} {post : Stage → β → Prop} {body : Evaluation α}
    {next : α → Evaluation β} (start : Evolves At stage between body)
    (rest : ∀ late value, stage ≤ late → between late value → Evolves At late post (next value)) :
    Evolves At stage post (body >>= next) := by
  intro machine here
  have ⟨middle, grows, middleHolds, given⟩ := start machine here
  cases run_cases body machine with
  | inl ended =>
      have ⟨value, after, run⟩ := ended
      rw [run] at middleHolds given
      rw [run_bind_ok run]
      have ⟨late, further, lateHolds, lateGiven⟩ :=
        rest middle value grows (given value rfl) after middleHolds
      exact ⟨late, grows.trans further, lateHolds, lateGiven⟩
  | inr stopped =>
      have ⟨stop, after, run⟩ := stopped
      rw [run] at middleHolds
      rw [run_bind_error run]
      exact ⟨middle, grows, middleHolds, fun _ impossible => by cases impossible⟩

end Evolves

/-- What is known of machines and values from stage to stage, if all parts of evaluators keep to
it, and so do the frames that bodies start in. -/
structure Evolution (context : Context) (Allowed : Node → Prop) (At : Stage → Machine → Prop)
    (Good : Stage → Value → Prop) : Prop where
  rules : GrowingCorrespondence context context 0 Allowed Good
    (fun _ stage _ post body _ => Evolves At stage post body)
  entered {stage : Stage} {machine : Machine} (holds : At stage machine) (name : String) :
    ∃ late, stage ≤ late ∧ At late (entering name Store.current 0 machine)
  bound {stage : Stage} {machine inside : Machine} {closure : Closure} {arguments : List Value}
    (holds : At stage machine) (closureGood : Good stage (.function (.closure closure)))
    (good : ∀ value ∈ arguments, Good stage value)
    (ran : (declareParameters closure.parameters arguments).run (enteringCall closure machine) =
      (.ok (), inside)) :
    ∃ late, stage ≤ late ∧ At late inside

theorem Evolution.in_scope {context : Context} {Allowed : Node → Prop}
    {At : Stage → Machine → Prop} {Good : Stage → Value → Prop}
    (evolution : Evolution context Allowed At Good) {stage : Stage} {α : Type}
    {post : Stage → α → Prop} {name : String} {body : Evaluation α}
    (related : ∀ late, stage ≤ late → Evolves At late post body) :
    Evolves At stage post (inScope name body) :=
  @GrowingCorrespondence.inScope _ _ _ _ _ _ _ _ evolution.rules stage α post name body body related

end LayoutScript
