import LayoutScript.Proofs.Machine.Correspondence

/-!
Fuel is nothing but a bound from outside: an evaluation that does not run out of it
gives the same result, on the same machine, with any larger amount. The comparison
behind this allows the first of two evaluations to stop early for an excused reason
and asks for equality otherwise.
-/

namespace LayoutScript

open Evaluation

/-- Two evaluations agree wherever the first one does not stop for an excused reason. -/
def Lockstep (Excused : Stop → Prop) {α : Type} (body body' : Evaluation α) : Prop :=
  ∀ machine, (∃ stop, Excused stop ∧ (body.run machine).1 = .error stop) ∨
    body'.run machine = body.run machine

section Lockstep

variable {Excused : Stop → Prop} {α β : Type}

theorem lockstep_refl (body : Evaluation α) : Lockstep Excused body body :=
  fun _ => .inr rfl

theorem lockstep_bind {body body' : Evaluation α} {next next' : α → Evaluation β}
    (start : Lockstep Excused body body')
    (rest : ∀ value, (∃ machine, (body.run machine).1 = .ok value) →
      Lockstep Excused (next value) (next' value)) :
    Lockstep Excused (body >>= next) (body' >>= next') := by
  intro machine
  rcases run_cases body machine with ⟨value, after, run⟩ | ⟨stop, after, run⟩
  · rcases start machine with ⟨stop, _, stopped⟩ | same
    · rw [run] at stopped
      cases stopped
    · rw [run_bind_ok run, run_bind_ok (same.trans run)]
      exact rest value ⟨machine, by rw [run]⟩ after
  · rcases start machine with ⟨excuse, excused, stopped⟩ | same
    · rw [run] at stopped
      cases stopped
      rw [run_bind_error run]
      exact .inl ⟨stop, excused, rfl⟩
    · rw [run_bind_error run, run_bind_error (same.trans run)]
      exact .inr rfl

theorem lockstep_restoring (change : Machine → Machine) {body body' : Evaluation α}
    (related : Lockstep Excused body body') :
    Lockstep Excused (restoring change body) (restoring change body') := by
  intro machine
  rw [run_restoring, run_restoring]
  rcases related (change machine) with excuse | same
  · exact .inl excuse
  · exact .inr (by rw [same])

/-- Only checkpoints, operators and the admission of calls refer to the context. -/
theorem lockstep_correspondence {first second : Context} {gap : Nat}
    (outOfFuel : Excused .outOfFuel)
    (checkpoint : ∀ kind span, Lockstep Excused (checkpoint first kind span)
      (checkpoint second kind span))
    (operator : ∀ span operator left right,
      Lockstep Excused (ofOperator span (BinaryOperator.apply operator first.limits left right))
        (ofOperator span (operator.apply second.limits left right)))
    (admission : ∀ span, Lockstep Excused (admitCall first span) (admitCall second span)) :
    PlainCorrespondence first second gap (Lockstep Excused) where
  plain _ := lockstep_refl _
  bind := lockstep_bind
  outOfFuel _ := fun _ => .inl ⟨_, outOfFuel, rfl⟩
  checkpoint := checkpoint
  operator := operator
  admission := admission
  restoring _ _ _ related := lockstep_restoring _ related

end Lockstep

theorem fuel_correspondence (context : Context) (gap : Nat) :
    PlainCorrespondence context context gap (Lockstep (· = .outOfFuel)) :=
  lockstep_correspondence rfl (fun _ _ => lockstep_refl _) (fun _ _ _ _ => lockstep_refl _)
    fun _ => lockstep_refl _

/-- An evaluation for each amount of fuel, of which a larger one keeps what a smaller
one has finished. -/
def Steady {α : Type} (bodies : Nat → Evaluation α) : Prop :=
  ∀ fuel gap, Lockstep (· = .outOfFuel) (bodies fuel) (bodies (fuel + gap))

section Steady

variable {α β : Type}

theorem Steady.same_run {bodies : Nat → Evaluation α} (steady : Steady bodies) {fuel : Nat}
    {machine : Machine} (finished : ((bodies fuel).run machine).1 ≠ .error .outOfFuel) (gap : Nat) :
    (bodies (fuel + gap)).run machine = (bodies fuel).run machine := by
  rcases steady fuel gap machine with ⟨stop, rfl, stopped⟩ | same
  · exact absurd stopped finished
  · exact same

theorem steady_execute_program (context : Context) (statements : List Statement) (value : Value) :
    Steady fun fuel => executeProgram context fuel statements value :=
  fun fuel gap => (fuel_correspondence context gap).execute_program fuel statements value

end Steady

/-- A program that finishes does so in the same way with more fuel. -/
theorem Machine.run_more_fuel {machine : Machine} {context : Context} {fuel : Nat}
    {program : Program} (finished : (machine.run context fuel program).1 ≠ .error .outOfFuel)
    (gap : Nat) :
    machine.run context (fuel + gap) program = machine.run context fuel program := by
  unfold Machine.run at finished ⊢
  rw [Machine.run_guarded] at finished
  rw [Machine.run_guarded, Machine.run_guarded,
    (steady_execute_program context program.statements .nothing).same_run finished gap]

end LayoutScript
