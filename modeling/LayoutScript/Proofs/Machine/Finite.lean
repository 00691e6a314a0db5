import LayoutScript.Proofs.Machine.Moments
import LayoutScript.Proofs.Tree.Origin
import LayoutScript.Proofs.Value.Finite
import LayoutScript.Session

/-!
Scripts make no float that is not finite. Literals are finite when they are read, operators
keep finite values finite, and everything else that a script can do moves values around. So
every float in the store, in an argument or in a result is finite at every moment of a run,
and remainders are never asked for outside their domain.
-/

namespace LayoutScript

open Evaluation

/-- A literal that is a float is finite. -/
def Node.Finite (node : Node) : Prop :=
  ∀ span number, node = .expression (.literal span (.float number)) → number.InRange

/-- A value holds finite floats alone, and so do the literals in its code. -/
def Value.Tame (value : Value) : Prop := value.Finite ∧ value.Carries Node.Finite

theorem Program.of_source_finite {source : String} {file : Option String} {limits : Limits}
    {program : Program} (read : Program.ofSource source file limits = .ok program) :
    program.Every Node.Finite := by
  intro node member span number isLiteral
  obtain ⟨_, tokens, _⟩ := tokenize_origin source file
  obtain ⟨_, literal⟩ := Program.of_source_all_from read node member
  obtain ⟨token, inside, carries⟩ := literal span _ isLiteral
  exact (tokens token inside).numeral number carries

theorem Node.Finite.literal {span : Span} {value : Literal}
    (finite : (Node.expression (.literal span value)).Finite) : (Value.ofLiteral value).Finite := by
  cases value with
  | float number => exact Value.finite_float.2 (finite span number rfl)
  | nothing => exact Value.finite_nothing
  | bool holds => exact Value.finite_bool holds
  | int number => exact Value.finite_int number
  | text text => exact Value.finite_string text

/-- Evaluation keeps floats finite. -/
theorem tame_class : ValueClass Node.Finite Value.Tame where
  literal allowed := ⟨allowed.literal, (code_class _).literal allowed⟩
  nothing := ⟨Value.finite_nothing, (code_class _).nothing⟩
  bool := ⟨Value.finite_bool _, (code_class _).bool⟩
  tuple {elements} := by
    simp only [Value.Tame, Value.finite_tuple, Value.carries_tuple]
    exact ⟨fun both element member => ⟨both.1 element member, both.2 element member⟩,
      fun each => ⟨fun element member => (each element member).1,
        fun element member => (each element member).2⟩⟩
  binary left right given :=
    ⟨(BinaryOperator.apply_in_domain _ _ left.1 right.1).good _ given,
      (code_class _).binary left.2 right.2 given⟩
  unary good given :=
    ⟨(UnaryOperator.apply_in_domain _ good.1).good _ given, (code_class _).unary good.2 given⟩
  function every := ⟨Value.finite_function _, (code_class _).function every⟩
  define every := ⟨Value.finite_function _, (code_class _).define every⟩
  closureBody good := (code_class _).closureBody good.2

theorem Store.initial_tame : Store.initial.Holds Value.Tame :=
  Store.initial_holds ⟨Value.finite_function _, Value.carries_native _⟩

/-- An evaluation keeps a class of values, and does not stop because a remainder left its
domain. -/
structure StaysInDomain (Good : Value → Prop) {α : Type} (post : α → Prop)
    (body : Evaluation α) : Prop where
  keeps : Keeps Good post body
  domain : ∀ machine, machine.store.Holds Good →
    (body.run machine).1 ≠ .error (.fault .mathDomain)

section StaysInDomain

variable {Good : Value → Prop} {α β : Type}

/-- What raises no fault at all raises not that one. -/
theorem stays_without_fault {post : α → Prop} {body : Evaluation α} (keeps : Keeps Good post body)
    (none : ∀ machine fault, (body.run machine).1 ≠ .error (.fault fault)) :
    StaysInDomain Good post body := ⟨keeps, fun machine _ => none machine _⟩

theorem stays_pure {post : α → Prop} {value : α} (holds : post value) :
    StaysInDomain Good post (pure value) :=
  stays_without_fault (keeps_pure holds) fun _ _ raised => by cases raised

theorem stays_fail {post : α → Prop} (cause : Cause) (span : Span) :
    StaysInDomain Good post (fail cause span) :=
  stays_without_fault (keeps_throw _) fun _ _ raised => by cases raised

theorem stays_bind {between : α → Prop} {post : β → Prop} {body : Evaluation α}
    {next : α → Evaluation β} (start : StaysInDomain Good between body)
    (rest : ∀ value, between value → StaysInDomain Good post (next value)) :
    StaysInDomain Good post (body >>= next) := by
  refine ⟨keeps_bind start.keeps fun value holds => (rest value holds).keeps, ?_⟩
  intro machine good
  obtain ⟨afterGood, given⟩ := start.keeps machine good
  have inDomain := start.domain machine good
  rcases run_cases body machine with ⟨value, after, run⟩ | ⟨stop, after, run⟩
  · rw [run] at afterGood given
    rw [run_bind_ok run]
    exact (rest value (given value rfl)).domain after afterGood
  · rw [run] at inDomain
    rw [run_bind_error run]
    exact fun raised => inDomain (by cases raised; rfl)

theorem stays_operator {post : α → Prop} (span : Span) {result : Except Failure α}
    (inDomain : InDomain post result) : StaysInDomain Good post (ofOperator span result) := by
  refine ⟨keeps_operator span inDomain.good, fun machine _ raised => inDomain.domain ?_⟩
  match result with
  | .ok value => cases raised
  | .error (.cause cause) => cases raised
  | .error (.fault fault) =>
      cases raised
      rfl

theorem stays_update_store {post : Unit → Prop} {plan : Store → Except ScriptError α}
    {change : α → Store → Store} (keeps : Keeps Good post (updateStore plan change)) :
    StaysInDomain Good post (updateStore plan change) := by
  apply stays_without_fault keeps
  intro machine fault raised
  rw [run_update_store] at raised
  split at raised <;> cases raised

theorem stays_assign (span : Span) (name : String) {value : Value} (good : Good value) :
    StaysInDomain Good (fun _ => True) (assign span name value) := by
  have keeps := keeps_assign span name good
  rw [assign_eq] at keeps ⊢
  exact stays_update_store keeps

theorem stays_declare_at (span : Option Span) (name : String) {value : Value} (good : Good value) :
    StaysInDomain Good (fun _ => True) (declareAt span name value) := by
  have keeps := keeps_declare_at span name good
  rw [declare_at_eq] at keeps ⊢
  exact stays_update_store keeps

theorem stays_declare_pattern {Allowed : Node → Prop} (values : ValueClass Allowed Good)
    (pattern : Pattern) {value : Value} (good : Good value) :
    StaysInDomain Good (fun _ => True) (declarePattern pattern value) := by
  have keeps := keeps_declare_pattern values pattern good
  rw [declare_pattern_eq] at keeps ⊢
  exact stays_update_store keeps

theorem stays_assign_pattern {Allowed : Node → Prop} (values : ValueClass Allowed Good)
    (pattern : Pattern) {value : Value} (good : Good value) :
    StaysInDomain Good (fun _ => True) (assignPattern pattern value) := by
  have keeps := keeps_assign_pattern values pattern good
  rw [assign_pattern_eq] at keeps ⊢
  exact stays_update_store keeps

theorem stays_declare_parameters (parameters : List String) {arguments : List Value}
    (good : ∀ value ∈ arguments, Good value) :
    StaysInDomain Good (fun _ => True) (declareParameters parameters arguments) := by
  fun_induction declareParameters parameters arguments with
  | case1 parameter parameters argument arguments induction =>
      obtain ⟨first, others⟩ := List.forall_mem_cons.1 good
      exact stays_bind (stays_declare_at _ _ first) fun _ _ => induction others
  | case2 => exact stays_pure trivial

theorem stays_restoring {post : α → Prop} {body : Evaluation α} (name : String)
    (parent : Store → FrameId) (calls : Nat) (stays : StaysInDomain Good post body) :
    StaysInDomain Good post (restoring (entering name parent calls) body) := by
  refine ⟨keeps_restoring name parent calls stays.keeps, fun machine good => ?_⟩
  rw [run_restoring]
  exact stays.domain _ (entering_holds good name parent calls)

theorem stays_checkpoint (context : Context) (kind : NodeKind) (span : Span) :
    StaysInDomain Good (fun _ => True) (checkpoint context kind span) := by
  apply stays_without_fault (keeps_checkpoint context kind span)
  intro machine fault raised
  rw [run_checkpoint] at raised
  split at raised
  · cases raised
  · split at raised
    · cases raised
    · split at raised <;> cases raised

theorem stays_lookup (span : Span) (name : String) :
    StaysInDomain Good Good (lookup span name) := by
  apply stays_without_fault (keeps_lookup span name)
  intro machine fault raised
  rw [run_lookup] at raised
  split at raised <;> cases raised

theorem stays_make_closure {name : Option String} {parameters : List String} {body : Block}
    (good : ∀ identity frame,
      Good (.function (.closure ⟨identity, name, parameters, body, frame⟩))) :
    StaysInDomain Good Good (makeClosure name parameters body) :=
  stays_without_fault (keeps_make_closure good) fun _ _ raised => by cases raised

theorem stays_member {Allowed : Node → Prop} (values : ValueClass Allowed Good) (span : Span)
    {target : Value} (index : Nat) (good : Good target) :
    StaysInDomain Good Good (member span target index) := by
  apply stays_without_fault (keeps_member values span index good)
  intro machine fault raised
  unfold member at raised
  split at raised
  · split at raised <;> cases raised
  · cases raised

theorem stays_call (context : Context) (span : Span) (closure : Closure) {arguments : List Value}
    (good : ∀ value ∈ arguments, Good value) {body : Evaluation Value}
    (stays : StaysInDomain Good Good body) :
    StaysInDomain Good Good (inCall context span closure arguments body) := by
  rw [in_call_eq]
  have admitted : StaysInDomain Good (fun _ => True) (admitCall context span) := by
    have keeps : Keeps Good (fun _ => True) (admitCall context span) :=
      fun machine holds => ⟨holds, fun _ _ => trivial⟩
    apply stays_without_fault keeps
    intro machine fault raised
    rw [run_admit_call, admission] at raised
    split at raised
    · cases raised
    · split at raised <;> cases raised
  apply stays_bind admitted
  intro _ _
  apply stays_restoring
  apply stays_bind (stays_declare_parameters closure.parameters good)
  intro _ _
  exact stays

end StaysInDomain

/-- An operator on tame values gives a tame value and stays in its domain. -/
theorem tame_in_domain {result : Except Failure Value} (inDomain : InDomain Value.Finite result)
    (tame : ∀ value, result = .ok value → value.Tame) : InDomain Value.Tame result :=
  ⟨tame, inDomain.domain⟩

theorem domain_correspondence (context : Context) :
    Correspondence context context 0 Node.Finite Value.Tame
      (fun _ _ post body _ => StaysInDomain Value.Tame post body) where
  pure := stays_pure
  bind := stays_bind
  widen stays := stays
  outOfFuel _ := stays_without_fault (keeps_throw _) fun _ _ raised => by cases raised
  failExpression _ := stays_fail _ _
  literal := tame_class.literal
  nothing := tame_class.nothing
  bool := tame_class.bool
  tuple := tame_class.tuple.2
  lookup _ := stays_lookup _ _
  binary _ _ left right :=
    stays_operator _ (tame_in_domain (BinaryOperator.apply_in_domain _ _ left.1 right.1)
      fun _ => tame_class.binary left right)
  unary _ good :=
    stays_operator _ (tame_in_domain (UnaryOperator.apply_in_domain _ good.1)
      fun _ => tame_class.unary good)
  member _ good := stays_member tame_class _ _ good
  assign _ good := stays_assign _ _ good
  function every := stays_make_closure fun _ _ => tame_class.function every
  native good := by
    apply stays_without_fault ((preservation_correspondence tame_class context).native good)
    intro machine fault raised
    rw [run_call_native] at raised
    cases raised
  closureBody := tame_class.closureBody
  call _ _ good _ stays := stays_call _ _ _ good stays
  inScope stays := by
    rw [in_scope_eq_restoring]
    exact stays_restoring _ _ _ stays
  checkpointExpression _ := stays_checkpoint _ _ _
  checkpointStatement _ := stays_checkpoint _ _ _
  declarePattern _ good := stays_declare_pattern tame_class _ good
  assignPattern _ good := stays_assign_pattern tame_class _ good
  define every := stays_make_closure fun _ _ => tame_class.define every
  declare _ good := stays_declare_at _ _ good

theorem Store.Holds.finite {store : Store} (holds : store.Holds Value.Tame) :
    store.Holds Value.Finite :=
  fun frame member binding inside => (holds frame member binding inside).1

/-- A moment at which nothing but finite floats is around: in the store when its task begins and
when it ends, and among the values that the task gives. Nor does the task stop because a
remainder left its domain. -/
structure Moment.Finite (context : Context) (moment : Moment) : Prop where
  before : moment.machine.store.Holds Value.Finite
  after : (moment.ending context).2.store.Holds Value.Finite
  values : ∀ values, (moment.ending context).1 = .ok values → ∀ value ∈ values, value.Finite
  domain : (moment.ending context).1 ≠ .error (.fault .mathDomain)

theorem Moment.Sound.finite {moment : Moment} (sound : moment.Sound Node.Finite Value.Tame)
    (context : Context) : moment.Finite context := by
  have stays := moment.task.perform_related (domain_correspondence context) moment.fuel sound.every
  obtain ⟨after, given⟩ := stays.keeps moment.machine sound.holds
  exact ⟨sound.holds.finite, after.finite,
    fun values ended value member => (given values ended value member).1,
    stays.domain moment.machine sound.holds⟩

/-- A program with finite literals on a machine with finite floats. -/
theorem Machine.run_finite {machine : Machine} {program : Program}
    (holds : machine.store.Holds Value.Tame) (every : program.Every Node.Finite)
    (context : Context) (fuel : Nat) :
    (machine.run context fuel program).2.store.Holds Value.Finite ∧
      (∀ value, (machine.run context fuel program).1 = .ok value → value.Finite) ∧
      (machine.run context fuel program).1 ≠ .error (.fault .mathDomain) := by
  have stays := (domain_correspondence context).execute_program_related fuel program.statements
    .nothing every.statements tame_class.nothing
  obtain ⟨after, given⟩ := stays.keeps machine.readied holds
  rw [Machine.run, run_guarded]
  exact ⟨Store.holds_of_same_frames rfl after.finite, fun value ended => (given value ended).1,
    stays.domain machine.readied holds⟩

/-- Whatever a source text is and whatever the limits are, running it on a fresh machine meets
finite floats alone: the result and all bindings at the end hold no other, nor does any binding,
argument, element or result at any moment of the run, also under a host that watches it. Hence no
remainder leaves its domain, and the fault of remainders is never raised. -/
theorem Machine.run_source_finite (limits : Limits) (capacity fuel : Nat) (source : String)
    (file : Option String) :
    (∀ value, (Machine.initial.runSource limits capacity fuel source file).1 = .ok value →
      value.Finite) ∧
    (Machine.initial.runSource limits capacity fuel source file).2.store.Holds Value.Finite ∧
    (Machine.initial.runSource limits capacity fuel source file).1 ≠ .error (.fault .mathDomain) ∧
    ∀ program watch moment, Program.ofSource source file limits = .ok program →
      Machine.initial.Visits ⟨limits, watch, capacity⟩ fuel program moment →
      moment.Finite ⟨limits, watch, capacity⟩ := by
  rw [← and_assoc, ← and_assoc]
  constructor
  · rw [and_assoc]
    unfold Machine.runSource
    cases read : Program.ofSource source file limits with
    | error halt =>
        refine ⟨fun value ended => (by cases ended), Store.initial_tame.finite, fun raised => ?_⟩
        cases halt <;> cases raised
    | ok program =>
        obtain ⟨store, given, domain⟩ := @Machine.run_finite Machine.initial program
          Store.initial_tame (Program.of_source_finite read) ⟨limits, none, capacity⟩ fuel
        dsimp only
        generalize Machine.initial.run ⟨limits, none, capacity⟩ fuel program = ended
          at store given domain ⊢
        match ended with
        | (.ok value, after) => exact ⟨given, store, domain⟩
        | (.error stop, after) =>
            refine ⟨fun value ended => (by cases ended), store, fun raised => domain ?_⟩
            cases stop <;> cases raised
            rfl
  · intro program watch moment read visits
    exact (visits.sound tame_class Store.initial_tame (Program.of_source_finite read)).finite _

/-- A negative remainder is moved up by the divisor, to one half. -/
theorem negative_remainder_finite :
    ∃ value, (Machine.initial.runSource {} 100 20 "-7.5 % 2f" none).1 = .ok value ∧
      value.floats = [.finite false (Binary64.one / 2)] ∧ value.Finite := by
  have ends : (match (Machine.initial.runSource {} 100 20 "-7.5 % 2f" none).1 with
    | .ok value => value.floats == [.finite false (Binary64.one / 2)]
    | _ => false) = true := by decide +kernel
  split at ends
  · rename_i value ended
    exact ⟨value, ended, eq_of_beq ends,
      (Machine.run_source_finite {} 100 20 "-7.5 % 2f" none).1 value ended⟩
  · cases ends

end LayoutScript
