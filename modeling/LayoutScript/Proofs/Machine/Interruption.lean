import LayoutScript.Proofs.Machine.Correspondence

/-!
Interrupted runs. A host that stops at some checkpoint sees an exact prefix of what a
host that stops later sees, and a limit on steps stops at the same place in the same
state as such a host. Both are relations between two evaluations that agree up to the
checkpoint at which one of them is cut off.
-/

namespace LayoutScript

open Evaluation

/-- The stop of a host that interrupts at a checkpoint. -/
def stoppedByHost (span : Span) : Stop := .error (.located (.interrupted .stoppedByHost) span)

/-- The stop of a limit on steps at a checkpoint. -/
def overSteps (limit : Nat) (span : Span) : Stop :=
  .error (.located (.interrupted (.stepBudget limit)) span)

/-- A machine has seen and written what another one had, and possibly more. -/
def Machine.Extends (before after : Machine) : Prop :=
  before.trace <:+ after.trace ∧ ∃ text, after.output = before.output ++ text

theorem Machine.Extends.refl (machine : Machine) : machine.Extends machine :=
  ⟨List.suffix_refl _, "", by rw [String.append_empty]⟩

theorem Machine.Extends.trans {first second third : Machine} (early : first.Extends second)
    (late : second.Extends third) : first.Extends third := by
  obtain ⟨earlyTrace, earlyText, earlyOutput⟩ := early
  obtain ⟨lateTrace, lateText, lateOutput⟩ := late
  refine ⟨earlyTrace.trans lateTrace, earlyText ++ lateText, ?_⟩
  rw [lateOutput, earlyOutput, String.append_assoc]

/-- Nothing that was seen or written is taken back. -/
def Grows {α : Type} (body : Evaluation α) : Prop :=
  ∀ machine : Machine, machine.Extends (body.run machine).2

section Grows

variable {α β : Type}

theorem grows_plain {body : Evaluation α} (isPlain : Plain body) : Grows body := by
  intro machine
  obtain ⟨effect, _, run⟩ := isPlain
  rw [run]
  exact ⟨List.suffix_refl _, _, rfl⟩

theorem grows_bind {body : Evaluation α} {next : α → Evaluation β} (start : Grows body)
    (rest : ∀ value, (∃ machine, (body.run machine).1 = .ok value) → Grows (next value)) :
    Grows (body >>= next) := by
  intro machine
  have early := start machine
  rcases run_cases body machine with ⟨value, after, run⟩ | ⟨stop, after, run⟩
  · rw [run] at early
    rw [run_bind_ok run]
    exact early.trans (rest value ⟨machine, by rw [run]⟩ after)
  · rw [run] at early
    rw [run_bind_error run]
    exact early

theorem grows_restoring {body : Evaluation α} (name : String) (parent : Store → FrameId)
    (calls : Nat) (grows : Grows body) : Grows (restoring (entering name parent calls) body) := by
  intro machine
  rw [run_restoring]
  exact grows (entering name parent calls machine)

theorem grows_checkpoint (context : Context) (kind : NodeKind) (span : Span) :
    Grows (checkpoint context kind span) := by
  intro machine
  have same : machine.Extends (counted span machine) := Machine.Extends.refl machine
  have one : machine.Extends (watched kind span machine) :=
    ⟨List.suffix_cons _ _, "", by simp [watched, counted]⟩
  rw [run_checkpoint]
  split
  · exact same
  · split
    · exact same
    · split
      · exact one
      · exact one

end Grows

/-- An evaluation passed as many checkpoints as the host saw. -/
def InStep {α : Type} (before : Machine) (result : Except Stop α × Machine) : Prop :=
  ∀ value, result.1 = .ok value →
    result.2.trace.length + before.steps = before.trace.length + result.2.steps

/-- Fewer checkpoints than the one at which a host stops were seen. -/
def Unstopped {α : Type} (bound : Nat) (before : Machine)
    (result : Except Stop α × Machine) : Prop :=
  result.2.trace.length + before.steps ≤ before.trace.length + bound ∧ InStep before result

/-- The host stopped at its checkpoint. -/
def Stopped {α : Type} (bound : Nat) (before : Machine) (span : Span)
    (result : Except Stop α × Machine) : Prop :=
  result.1 = .error (stoppedByHost span) ∧
    result.2.trace.length + before.steps = before.trace.length + bound + 1

section Stopped

variable {α β : Type} {bound : Nat} {before after last : Machine} {value : α} {span : Span}

theorem Unstopped.steps_le (unstopped : Unstopped bound before (.ok value, after)) :
    after.steps ≤ bound := by
  have few := unstopped.1
  have inStep := unstopped.2 value rfl
  simp only at few inStep
  omega

theorem Unstopped.trans {outcome : Except Stop β}
    (early : Unstopped bound before (.ok value, after))
    (late : Unstopped bound after (outcome, last)) : Unstopped bound before (outcome, last) := by
  have inStep := early.2 value rfl
  obtain ⟨few, lateStep⟩ := late
  simp only at few inStep
  refine ⟨by simp only; omega, fun result given => ?_⟩
  have passed := lateStep result given
  simp only at passed ⊢
  omega

theorem Unstopped.then_stopped {outcome : Except Stop β}
    (early : Unstopped bound before (.ok value, after))
    (late : Stopped bound after span (outcome, last)) :
    Stopped bound before span (outcome, last) := by
  have inStep := early.2 value rfl
  obtain ⟨stopped, many⟩ := late
  simp only at inStep many
  exact ⟨stopped, by simp only; omega⟩

end Stopped

/-- Two hosts watch the same evaluation. The one that stops earlier sees the same as the
other up to its checkpoint. -/
def CutShort (bound : Nat) {α : Type} (long short : Evaluation α) : Prop :=
  Grows long ∧ ∀ machine, machine.steps ≤ bound →
    (short.run machine = long.run machine ∧ Unstopped bound machine (short.run machine)) ∨
    ((∃ span, Stopped bound machine span (short.run machine)) ∧
      (short.run machine).2.Extends (long.run machine).2)

section CutShort

variable {bound : Nat} {α β : Type}

theorem cut_short_same {body : Evaluation α} (grows : Grows body)
    (unseen : ∀ machine, (body.run machine).2.trace = machine.trace ∧
      (body.run machine).2.steps = machine.steps) : CutShort bound body body := by
  refine ⟨grows, fun machine within => .inl ⟨rfl, ?_, ?_⟩⟩
  · rw [(unseen machine).1]
    omega
  · intro value _
    rw [(unseen machine).1, (unseen machine).2]

theorem cut_short_plain {body : Evaluation α} (isPlain : Plain body) :
    CutShort bound body body := by
  refine cut_short_same (grows_plain isPlain) fun machine => ?_
  obtain ⟨effect, _, run⟩ := isPlain
  rw [run]
  exact ⟨rfl, rfl⟩

theorem cut_short_bind {long short : Evaluation α} {next next' : α → Evaluation β}
    (start : CutShort bound long short)
    (rest : ∀ value, (∃ machine, (long.run machine).1 = .ok value) →
      CutShort bound (next value) (next' value)) :
    CutShort bound (long >>= next) (short >>= next') := by
  refine ⟨grows_bind start.1 fun value given => (rest value given).1, fun machine within => ?_⟩
  have whole := run_cases long machine
  rcases start.2 machine within with ⟨same, unstopped⟩ | ⟨⟨span, stopped, many⟩, longer⟩
  · rcases whole with ⟨value, after, run⟩ | ⟨stop, after, run⟩
    · rw [same, run] at unstopped
      rw [run_bind_ok run, run_bind_ok (same.trans run)]
      obtain ⟨_, related⟩ := rest value ⟨machine, by rw [run]⟩
      rcases related after unstopped.steps_le with ⟨again, still⟩ | ⟨⟨span, cut⟩, longer⟩
      · exact .inl ⟨again, unstopped.trans still⟩
      · exact .inr ⟨⟨span, unstopped.then_stopped cut⟩, longer⟩
    · rw [same, run] at unstopped
      rw [run_bind_error run, run_bind_error (same.trans run)]
      exact .inl ⟨rfl, unstopped.1, fun value impossible => by cases impossible⟩
  · rcases run_cases short machine with ⟨value, after, run⟩ | ⟨stop, after, run⟩
    · rw [run] at stopped
      cases stopped
    · rw [run] at stopped many longer
      cases stopped
      rw [run_bind_error run]
      refine .inr ⟨⟨span, rfl, many⟩, ?_⟩
      rcases whole with ⟨value, late, longRun⟩ | ⟨stop, late, longRun⟩
      · rw [longRun] at longer
        rw [run_bind_ok longRun]
        exact longer.trans ((rest value ⟨machine, by rw [longRun]⟩).1 late)
      · rw [longRun] at longer
        rw [run_bind_error longRun]
        exact longer

theorem cut_short_restoring {long short : Evaluation α} (name : String)
    (parent : Store → FrameId) (calls : Nat) (related : CutShort bound long short) :
    CutShort bound (restoring (entering name parent calls) long)
      (restoring (entering name parent calls) short) := by
  refine ⟨grows_restoring _ _ _ related.1, fun machine within => ?_⟩
  rw [run_restoring, run_restoring]
  rcases related.2 (entering name parent calls machine) within with ⟨same, unstopped⟩ | cut
  · rw [same] at unstopped ⊢
    exact .inl ⟨rfl, unstopped⟩
  · exact .inr cut

theorem cut_short_checkpoint (limits : Limits) (capacity : Nat) {later : Nat} (ordered : bound ≤ later)
    (kind : NodeKind) (span : Span) :
    CutShort bound (checkpoint ⟨limits, some ⟨some later⟩, capacity⟩ kind span)
      (checkpoint ⟨limits, some ⟨some bound⟩, capacity⟩ kind span) := by
  refine ⟨grows_checkpoint _ _ _, fun machine within => ?_⟩
  rw [run_checkpoint, run_checkpoint]
  cases Limits.exceeds (machine.steps + 1) limits.steps with
  | some limit =>
      refine .inl ⟨rfl, ?_, fun value impossible => by cases impossible⟩
      simp only [counted]
      omega
  | none =>
      simp only [Option.any_some, decide_eq_true_eq]
      by_cases reached : bound < machine.steps + 1
      · rw [if_pos reached]
        refine .inr ⟨⟨span, rfl, ?_⟩, ?_⟩
        · simp only [watched, List.length_cons]
          omega
        · split
          · exact Machine.Extends.refl _
          · exact Machine.Extends.refl _
      · have notYet : ¬later < machine.steps + 1 := by omega
        rw [if_neg reached, if_neg notYet]
        refine .inl ⟨rfl, ?_, fun value _ => ?_⟩
        all_goals
          simp only [watched, counted, List.length_cons]
          omega

theorem cut_short_correspondence (limits : Limits) (capacity : Nat) {later : Nat}
    (ordered : bound ≤ later) :
    PlainCorrespondence ⟨limits, some ⟨some later⟩, capacity⟩ ⟨limits, some ⟨some bound⟩, capacity⟩
      0 (CutShort bound) where
  plain := cut_short_plain
  bind := cut_short_bind
  outOfFuel same := by
    rw [same rfl]
    exact cut_short_same (fun machine => Machine.Extends.refl machine) fun _ => ⟨rfl, rfl⟩
  checkpoint := cut_short_checkpoint limits capacity ordered
  operator _ _ _ _ := cut_short_plain (plain_operator _ _)
  admission _ := cut_short_same (fun machine => Machine.Extends.refl machine) fun _ => ⟨rfl, rfl⟩
  restoring := cut_short_restoring

end CutShort

/-- The machine with another record of checkpoints. -/
def Machine.retraced (trace : List Checkpoint) (machine : Machine) : Machine :=
  { machine with trace }

/-- A host and a limit on steps stop an evaluation at the same checkpoint, and but for
what the host saw in the same state. -/
def StopAlike (bound : Nat) {α : Type} (hosted limited : Evaluation α) : Prop :=
  ∀ machine trace, machine.steps ≤ bound →
    (limited.run (machine.retraced trace)).2 = (hosted.run machine).2.retraced trace ∧
    (((limited.run (machine.retraced trace)).1 = (hosted.run machine).1 ∧
        Unstopped bound machine (hosted.run machine)) ∨
      ∃ span, Stopped bound machine span (hosted.run machine) ∧
        (limited.run (machine.retraced trace)).1 = .error (overSteps bound span))

section StopAlike

variable {bound : Nat} {α β : Type}

theorem stop_alike_same {hosted limited : Evaluation α}
    (commutes : ∀ machine trace, limited.run (machine.retraced trace) =
      ((hosted.run machine).1, (hosted.run machine).2.retraced trace))
    (unseen : ∀ machine, (hosted.run machine).2.trace = machine.trace ∧
      (hosted.run machine).2.steps = machine.steps) : StopAlike bound hosted limited := by
  intro machine trace within
  obtain ⟨sameTrace, sameSteps⟩ := unseen machine
  rw [commutes]
  refine ⟨rfl, .inl ⟨rfl, ?_, fun value _ => ?_⟩⟩
  · rw [sameTrace]
    omega
  · rw [sameTrace, sameSteps]

theorem stop_alike_plain {body : Evaluation α} (isPlain : Plain body) :
    StopAlike bound body body := by
  obtain ⟨effect, _, run⟩ := isPlain
  refine stop_alike_same (fun machine trace => ?_) fun machine => ?_
  · rw [run, run]
    rfl
  · rw [run]
    exact ⟨rfl, rfl⟩

theorem stop_alike_bind {hosted limited : Evaluation α} {next next' : α → Evaluation β}
    (start : StopAlike bound hosted limited)
    (rest : ∀ value, (∃ machine, (hosted.run machine).1 = .ok value) →
      StopAlike bound (next value) (next' value)) :
    StopAlike bound (hosted >>= next) (limited >>= next') := by
  intro machine trace within
  obtain ⟨state, alike⟩ := start machine trace within
  rcases run_cases hosted machine with ⟨value, after, run⟩ | ⟨stop, after, run⟩
  · rcases alike with ⟨same, unstopped⟩ | ⟨span, ⟨stopped, _⟩, _⟩
    · rw [run] at state same unstopped
      have limitedRun : limited.run (machine.retraced trace) = (.ok value, after.retraced trace) :=
        Prod.ext same state
      rw [run_bind_ok run, run_bind_ok limitedRun]
      obtain ⟨stateAgain, alikeAgain⟩ :=
        rest value ⟨machine, by rw [run]⟩ after trace unstopped.steps_le
      refine ⟨stateAgain, ?_⟩
      rcases alikeAgain with ⟨sameAgain, still⟩ | ⟨span, cut, exhausted⟩
      · exact .inl ⟨sameAgain, unstopped.trans still⟩
      · exact .inr ⟨span, unstopped.then_stopped cut, exhausted⟩
    · rw [run] at stopped
      cases stopped
  · rw [run_bind_error run]
    rcases alike with ⟨same, unstopped⟩ | ⟨span, ⟨stopped, many⟩, exhausted⟩
    · rw [run] at state same unstopped
      have limitedRun : limited.run (machine.retraced trace) =
          (.error stop, after.retraced trace) := Prod.ext same state
      rw [run_bind_error limitedRun]
      exact ⟨rfl, .inl ⟨rfl, unstopped.1, fun value impossible => by cases impossible⟩⟩
    · rw [run] at state stopped many
      cases stopped
      have limitedRun : limited.run (machine.retraced trace) =
          (.error (overSteps bound span), after.retraced trace) := Prod.ext exhausted state
      rw [run_bind_error limitedRun]
      exact ⟨rfl, .inr ⟨span, ⟨rfl, many⟩, rfl⟩⟩

theorem stop_alike_restoring {hosted limited : Evaluation α} (name : String)
    (parent : Store → FrameId) (calls : Nat) (related : StopAlike bound hosted limited) :
    StopAlike bound (restoring (entering name parent calls) hosted)
      (restoring (entering name parent calls) limited) := by
  intro machine trace within
  obtain ⟨state, alike⟩ := related (entering name parent calls machine) trace within
  rw [run_restoring, run_restoring]
  refine ⟨?_, alike⟩
  change backTo (machine.retraced trace)
    (limited.run ((entering name parent calls machine).retraced trace)).2 = _
  rw [state]
  rfl

theorem stop_alike_checkpoint {limits : Limits} (capacity : Nat)
    (room : ∀ limit, limits.steps = some limit → bound < limit) (kind : NodeKind) (span : Span) :
    StopAlike bound (checkpoint ⟨limits, some ⟨some bound⟩, capacity⟩ kind span)
      (checkpoint ⟨{ limits with steps := some bound }, none, capacity⟩ kind span) := by
  intro machine trace within
  have unlimited : Limits.exceeds (machine.steps + 1) limits.steps = none := by
    cases steps : limits.steps with
    | none => rfl
    | some limit =>
        have larger := room limit steps
        have inside : ¬machine.steps + 1 > limit := by omega
        simp only [Limits.exceeds, if_neg inside]
  rw [run_checkpoint, run_checkpoint, unlimited]
  by_cases reached : bound < machine.steps + 1
  · have exceeded : Limits.exceeds ((machine.retraced trace).steps + 1) (some bound) = some bound :=
      if_pos reached
    simp only [exceeded, Option.any_some, decide_eq_true_eq, if_pos reached]
    refine ⟨rfl, .inr ⟨span, ⟨rfl, ?_⟩, rfl⟩⟩
    simp only [watched, List.length_cons]
    omega
  · have under : Limits.exceeds ((machine.retraced trace).steps + 1) (some bound) = none :=
      if_neg reached
    simp only [under, Option.any_some, decide_eq_true_eq, if_neg reached]
    refine ⟨rfl, .inl ⟨trivial, ?_, fun value _ => ?_⟩⟩
    all_goals
      simp only [watched, counted, List.length_cons]
      omega

theorem stop_alike_correspondence {limits : Limits} (capacity : Nat)
    (room : ∀ limit, limits.steps = some limit → bound < limit) :
    PlainCorrespondence ⟨limits, some ⟨some bound⟩, capacity⟩
      ⟨{ limits with steps := some bound }, none, capacity⟩ 0 (StopAlike bound) where
  plain := stop_alike_plain
  bind := stop_alike_bind
  outOfFuel same := by
    rw [same rfl]
    exact stop_alike_same (fun _ _ => rfl) fun _ => ⟨rfl, rfl⟩
  checkpoint := stop_alike_checkpoint capacity room
  operator span operator left right := by
    have same : operator.apply { limits with steps := some bound } left right =
        operator.apply limits left right := by
      cases operator <;> rfl
    rw [same]
    exact stop_alike_plain (plain_operator _ _)
  admission _ := stop_alike_same (fun _ _ => rfl) fun _ => ⟨rfl, rfl⟩
  restoring := stop_alike_restoring

end StopAlike

namespace Machine

/-- What a host saw between two machines, the earliest checkpoint first. -/
def seenSince (machine after : Machine) : List Checkpoint :=
  (after.trace.take (after.trace.length - machine.trace.length)).reverse

theorem seen_since_append {machine after : Machine} {added : List Checkpoint}
    (grown : added ++ machine.trace = after.trace) : machine.seenSince after = added.reverse := by
  simp [seenSince, ← grown]

theorem seen_since_length {machine after : Machine} (grown : machine.Extends after) :
    (machine.seenSince after).length + machine.trace.length = after.trace.length := by
  obtain ⟨added, trace⟩ := grown.1
  rw [seen_since_append trace, ← trace, List.length_reverse, List.length_append]

theorem seen_since_is_prefix {machine short long : Machine} (early : machine.Extends short)
    (late : short.Extends long) : machine.seenSince short <+: machine.seenSince long := by
  obtain ⟨first, firstTrace⟩ := early.1
  obtain ⟨second, secondTrace⟩ := late.1
  have whole : (second ++ first) ++ machine.trace = long.trace := by
    rw [← secondTrace, ← firstTrace, List.append_assoc]
  rw [seen_since_append firstTrace, seen_since_append whole, List.reverse_append]
  exact List.prefix_append _ _

end Machine

section Runs

variable {bound : Nat} {α : Type} {machine : Machine}

theorem CutShort.run_is_prefix {long short : Evaluation α} (related : CutShort bound long short)
    (grows : Grows short) (start : machine.steps = 0) :
    machine.seenSince (short.run machine).2 =
      (machine.seenSince (long.run machine).2).take (bound + 1) ∧
    (∃ text, (long.run machine).2.output = (short.run machine).2.output ++ text) ∧
    ((machine.seenSince (long.run machine).2).length ≤ bound →
      short.run machine = long.run machine) ∧
    (bound < (machine.seenSince (long.run machine).2).length →
      ∃ span, (short.run machine).1 = .error (stoppedByHost span)) := by
  have shortLength := Machine.seen_since_length (grows machine)
  rcases related.2 machine (by omega) with ⟨same, few, _⟩ | ⟨⟨span, stopped, many⟩, longer⟩
  · rw [same] at shortLength few
    rw [same]
    have less : (machine.seenSince (long.run machine).2).length ≤ bound := by omega
    refine ⟨(List.take_of_length_le (by omega)).symm, ⟨"", ?_⟩, fun _ => rfl, fun more => ?_⟩
    · rw [String.append_empty]
    · omega
  · have seen := Machine.seen_since_is_prefix (grows machine) longer
    have exactly : (machine.seenSince (short.run machine).2).length = bound + 1 := by omega
    have longEnough := seen.length_le
    refine ⟨?_, longer.2, fun less => ?_, fun _ => ⟨span, stopped⟩⟩
    · rw [← exactly]
      exact List.prefix_iff_eq_take.1 seen
    · omega

theorem StopAlike.run_stops_alike {hosted limited : Evaluation α}
    (related : StopAlike bound hosted limited) (grows : Grows hosted) (start : machine.steps = 0) :
    (limited.run machine).2.store = (hosted.run machine).2.store ∧
    (limited.run machine).2.output = (hosted.run machine).2.output ∧
    ((machine.seenSince (hosted.run machine).2).length ≤ bound ∧
        (limited.run machine).1 = (hosted.run machine).1 ∨
      bound < (machine.seenSince (hosted.run machine).2).length ∧ ∃ span,
        (hosted.run machine).1 = .error (stoppedByHost span) ∧
        (limited.run machine).1 = .error (overSteps bound span)) := by
  have length := Machine.seen_since_length (grows machine)
  obtain ⟨state, alike⟩ := related machine machine.trace (by omega)
  change (limited.run machine).2 = _ at state
  refine ⟨by rw [state]; rfl, by rw [state]; rfl, ?_⟩
  rcases alike with ⟨same, few, _⟩ | ⟨span, ⟨stopped, many⟩, exhausted⟩
  · exact .inl ⟨by omega, same⟩
  · exact .inr ⟨by omega, span, stopped, exhausted⟩

end Runs

/-- Two hosts watch a program, and one stops no later than the other. What the first sees
is what the second sees up to the checkpoint at which the first stops, and its output is
the beginning of the other's. If the second host sees fewer checkpoints, the two runs are
the same. Otherwise the first host stops the run. A limit on steps in its place, if no
smaller one was there, leaves the same store and the same output, and stops at the same
node whenever the host does. -/
theorem Machine.run_interrupted_is_prefix (machine : Machine) (limits : Limits)
    (capacity fuel : Nat) (program : Program) {bound later : Nat} (ordered : bound ≤ later) :
    let short := machine.run ⟨limits, some ⟨some bound⟩, capacity⟩ fuel program
    let long := machine.run ⟨limits, some ⟨some later⟩, capacity⟩ fuel program
    let limited := machine.run ⟨{ limits with steps := some bound }, none, capacity⟩ fuel program
    machine.seenSince short.2 = (machine.seenSince long.2).take (bound + 1) ∧
    (∃ text, long.2.output = short.2.output ++ text) ∧
    ((machine.seenSince long.2).length ≤ bound → short = long) ∧
    (bound < (machine.seenSince long.2).length → ∃ span, short.1 = .error (stoppedByHost span)) ∧
    ((∀ limit, limits.steps = some limit → bound < limit) →
      limited.2.store = short.2.store ∧ limited.2.output = short.2.output ∧
      ((machine.seenSince short.2).length ≤ bound ∧ limited.1 = short.1 ∨
        bound < (machine.seenSince short.2).length ∧ ∃ span,
          short.1 = .error (stoppedByHost span) ∧ limited.1 = .error (overSteps bound span))) := by
  have cut := (cut_short_correspondence limits capacity ordered).execute_program fuel
    program.statements .nothing
  have alone := (cut_short_correspondence limits capacity (Nat.le_refl bound)).execute_program
    fuel program.statements .nothing
  have start : machine.readied.steps = 0 := rfl
  obtain ⟨seen, output, same, stopped⟩ := cut.run_is_prefix alone.1 start
  intro short long limited
  refine ⟨seen, output, fun few => ?_, stopped, fun room => ?_⟩
  · have together := same few
    rw [Nat.add_zero] at together
    simp only [short, long, Machine.run, Machine.run_guarded]
    rw [together]
  · have alike := (stop_alike_correspondence capacity room).execute_program fuel
      program.statements .nothing
    obtain ⟨store, output, stops⟩ := alike.run_stops_alike alone.1 start
    refine ⟨?_, output, stops⟩
    rw [Nat.add_zero] at store
    simp only [short, limited, Machine.run, Machine.run_guarded, Machine.settled]
    rw [store]

/-- Writes a number three times. -/
def threeLines : Program :=
  let line : Statement :=
    .evaluate default (.call default (.identifier default "print") [.literal default (.int 1)]) true
  ⟨default, [line, line, line]⟩

theorem three_lines_interrupted_is_prefix :
    let short := Machine.initial.run ⟨{}, some ⟨some 1⟩, 100⟩ 9 threeLines
    let long := Machine.initial.run ⟨{}, some ⟨some 2⟩, 100⟩ 9 threeLines
    let limited := Machine.initial.run ⟨{ steps := some 1 }, none, 100⟩ 9 threeLines
    Machine.initial.seenSince short.2 = (Machine.initial.seenSince long.2).take 2 ∧
    (∃ text, long.2.output = short.2.output ++ text) ∧
    ((Machine.initial.seenSince long.2).length ≤ 1 → short = long) ∧
    (1 < (Machine.initial.seenSince long.2).length →
      ∃ span, short.1 = .error (stoppedByHost span)) ∧
    ((∀ limit, ({} : Limits).steps = some limit → 1 < limit) →
      limited.2.store = short.2.store ∧ limited.2.output = short.2.output ∧
      ((Machine.initial.seenSince short.2).length ≤ 1 ∧ limited.1 = short.1 ∨
        1 < (Machine.initial.seenSince short.2).length ∧ ∃ span,
          short.1 = .error (stoppedByHost span) ∧ limited.1 = .error (overSteps 1 span))) :=
  Machine.run_interrupted_is_prefix Machine.initial {} 100 9 threeLines (by decide : 1 ≤ 2)

end LayoutScript
