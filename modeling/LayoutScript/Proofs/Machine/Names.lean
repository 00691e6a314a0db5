import LayoutScript.Proofs.Machine.Preservation

/-!
Names of frames. Evaluating an expression binds no new name in any frame. Executing a
statement binds names in the current frame alone: those of its pattern, or of its function,
if it succeeds, and none if it fails. Bodies declare their names in frames of their own, and
the frame that was current is current again at the end, whatever the outcome.
-/

namespace LayoutScript

open Evaluation

mutual

/-- The names of a pattern in the order of the source. -/
def Pattern.names : Pattern → List String
  | .identifier _ name => [name]
  | .tuple _ elements => Pattern.namesAll elements

def Pattern.namesAll : List Pattern → List String
  | [] => []
  | pattern :: patterns => pattern.names ++ Pattern.namesAll patterns

end

/-- The names that a statement declares if it succeeds. -/
def Statement.declaredNames : Statement → List String
  | .declare _ pattern _ => pattern.names
  | .define _ name _ _ => [name]
  | _ => []

mutual

/-- What a pattern binds are its names. -/
theorem Pattern.targets_names : ∀ (pattern : Pattern) {value : Value} {targets : List Target},
    pattern.targets value = .ok targets → targets.map Target.name = pattern.names
  | .identifier span name, value, targets, planned => by
      rw [Pattern.targets] at planned
      cases planned
      rw [Pattern.names]
      rfl
  | .tuple span elements, value, targets, planned => by
      cases value with
      | tuple values =>
          rw [Pattern.targets] at planned
          rw [Pattern.names]
          split at planned
          · rename_i sameLength
            exact Pattern.targets_all_names elements sameLength planned
          · cases planned
      | _ =>
          rw [Pattern.targets] at planned
          · cases planned
          · intro values same
            cases same

theorem Pattern.targets_all_names : ∀ (patterns : List Pattern) {values : List Value}
    {targets : List Target}, values.length = patterns.length →
    Pattern.targetsAll patterns values = .ok targets →
    targets.map Target.name = Pattern.namesAll patterns
  | [], values, targets, sameLength, planned => by
      rw [Pattern.targetsAll] at planned
      · cases planned
        rw [Pattern.namesAll]
        rfl
      · intros
        contradiction
  | pattern :: patterns, [], targets, sameLength, planned => by
      simp at sameLength
  | pattern :: patterns, value :: values, targets, sameLength, planned => by
      rw [Pattern.targetsAll] at planned
      obtain ⟨first, firstPlanned, planned⟩ := except_bind_ok planned
      obtain ⟨others, othersPlanned, planned⟩ := except_bind_ok planned
      cases planned
      have shorter : values.length = patterns.length := by simpa using sameLength
      rw [Pattern.namesAll, List.map_append, Pattern.targets_names pattern firstPlanned,
        Pattern.targets_all_names patterns shorter othersPlanned]

end

mutual

theorem Pattern.leaves_names : ∀ pattern : Pattern, pattern.leaves.map Prod.snd = pattern.names
  | .identifier span name => by
      rw [Pattern.leaves, Pattern.names]
      rfl
  | .tuple span elements => by
      rw [Pattern.leaves, Pattern.names]
      exact Pattern.leaves_all_names elements

theorem Pattern.leaves_all_names : ∀ patterns : List Pattern,
    (Pattern.leavesAll patterns).map Prod.snd = Pattern.namesAll patterns
  | [] => by
      rw [Pattern.leavesAll, Pattern.namesAll]
      rfl
  | pattern :: patterns => by
      rw [Pattern.leavesAll, Pattern.namesAll, List.map_append, Pattern.leaves_names pattern,
        Pattern.leaves_all_names patterns]

end

namespace Store

/-- The names that a frame binds, the latest first. -/
def names (store : Store) (frame : FrameId) : List String := (store.bindings frame).map Prod.fst

theorem names_eq_of_frame {first second : Store} {frame : FrameId}
    (same : second.frames[frame]? = first.frames[frame]?) :
    second.names frame = first.names frame := by
  simp only [names, bindings, same]

theorem names_add_binding (store : Store) (owner : FrameId) (name : String) (value : Value)
    {frame : FrameId} (inside : frame < store.frames.size) :
    (store.addBinding owner name value).names frame =
      if owner = frame then name :: store.names frame else store.names frame := by
  have found : store.frames[frame]? = some store.frames[frame] := Array.getElem?_eq_getElem inside
  by_cases same : owner = frame
  · subst same
    simp [names, bindings, addBinding, Array.getElem?_modify, found]
  · rw [if_neg same]
    apply names_eq_of_frame
    simp [addBinding, Array.getElem?_modify, same]

/-- Rebinding a name changes no name. -/
theorem names_replace_binding (store : Store) (owner : FrameId) (name : String) (value : Value)
    (frame : FrameId) :
    (store.replaceBinding owner name value).names frame = store.names frame := by
  by_cases same : owner = frame
  · subst same
    cases found : store.frames[owner]? with
    | none => simp [names, bindings, replaceBinding, Array.getElem?_modify, found]
    | some present =>
        simp [names, bindings, replaceBinding, Array.getElem?_modify, found, replace_names]
  · apply names_eq_of_frame
    simp [replaceBinding, Array.getElem?_modify, same]

theorem names_enter (store : Store) (name : String) (parent : FrameId) {frame : FrameId}
    (inside : frame < store.frames.size) :
    (store.enter name parent).names frame = store.names frame := by
  have old : frame ≠ store.frames.size := Nat.ne_of_lt inside
  apply names_eq_of_frame
  simp [enter, Array.getElem?_push, old]

theorem names_add_all (planned : Bindings) (store : Store) {frame : FrameId}
    (inside : frame < store.frames.size) :
    (addAll planned store).names frame =
      (if frame = store.current then (planned.map Prod.fst).reverse else []) ++
        store.names frame := by
  induction planned generalizing store with
  | nil => simp [addAll]
  | cons first others induction =>
      obtain ⟨name, value⟩ := first
      have still : frame < (store.addBinding store.current name value).frames.size := by
        simpa [addBinding] using inside
      have sameCurrent : (store.addBinding store.current name value).current = store.current := rfl
      rw [addAll, induction _ still, sameCurrent, names_add_binding _ _ _ _ inside]
      by_cases here : frame = store.current
      · simp [here]
      · have elsewhere : ¬store.current = frame := fun same => here same.symm
        simp [here, elsewhere]

theorem names_assign_all (planned : Bindings) (store : Store) (frame : FrameId) :
    (assignAll planned store).names frame = store.names frame := by
  induction planned generalizing store with
  | nil => rfl
  | cons first others induction =>
      obtain ⟨name, value⟩ := first
      rw [assignAll]
      split
      · rw [induction, names_replace_binding]
      · exact induction store

theorem current_add_all (planned : Bindings) (store : Store) :
    (addAll planned store).current = store.current := by
  induction planned generalizing store with
  | nil => rfl
  | cons first others induction =>
      rw [addAll, induction]
      rfl

theorem size_add_all (planned : Bindings) (store : Store) :
    (addAll planned store).frames.size = store.frames.size := by
  induction planned generalizing store with
  | nil => rfl
  | cons first others induction =>
      rw [addAll, induction]
      simp [addBinding]

theorem current_assign_all (planned : Bindings) (store : Store) :
    (assignAll planned store).current = store.current := by
  induction planned generalizing store with
  | nil => rfl
  | cons first others induction =>
      rw [assignAll]
      split
      · rw [induction]
        rfl
      · exact induction store

theorem size_assign_all (planned : Bindings) (store : Store) :
    (assignAll planned store).frames.size = store.frames.size := by
  induction planned generalizing store with
  | nil => rfl
  | cons first others induction =>
      rw [assignAll]
      split
      · rw [induction]
        simp [replaceBinding]
      · exact induction store

theorem plan_declare_names {store : Store} {pattern : Pattern} {value : Value} {planned : Bindings}
    (plan : store.planDeclare pattern value = .ok planned) :
    planned.map Prod.fst = pattern.names := by
  obtain ⟨targets, found, plan⟩ := except_bind_ok plan
  obtain ⟨_, _, plan⟩ := except_bind_ok plan
  cases plan
  rw [← pattern.targets_names found, List.map_map]
  rfl

end Store

/-- What an evaluation may do to the names of the frames that were there before: nothing, or
on the layer of statements add to those of the current frame. -/
structure Tidy (layer : Layer) (before after : Store) : Prop where
  current : after.current = before.current
  size : before.frames.size ≤ after.frames.size
  unchanged : ∀ frame < before.frames.size, layer = .expression ∨ frame ≠ before.current →
    after.names frame = before.names frame

section Tidy

variable {layer : Layer} {α β : Type}

/-- A change that adds no names anywhere. -/
theorem tidy_of_names {before after : Store} (current : after.current = before.current)
    (size : before.frames.size ≤ after.frames.size)
    (names : ∀ frame < before.frames.size, after.names frame = before.names frame) :
    Tidy layer before after where
  current := current
  size := size
  unchanged frame inside _ := names frame inside

theorem tidy_refl (store : Store) : Tidy layer store store :=
  tidy_of_names rfl (Nat.le_refl _) fun _ _ => rfl

theorem Tidy.trans {first second third : Store} (early : Tidy layer first second)
    (late : Tidy layer second third) : Tidy layer first third where
  current := late.current.trans early.current
  size := Nat.le_trans early.size late.size
  unchanged frame inside apart := by
    have later : frame < second.frames.size := Nat.lt_of_lt_of_le inside early.size
    have stillApart : layer = .expression ∨ frame ≠ second.current := by
      rw [early.current]
      exact apart
    rw [late.unchanged frame later stillApart, early.unchanged frame inside apart]

theorem tidy_add_all (planned : Bindings) (store : Store) :
    Tidy .statement store (Store.addAll planned store) where
  current := Store.current_add_all planned store
  size := Nat.le_of_eq (Store.size_add_all planned store).symm
  unchanged frame inside apart := by
    have elsewhere : frame ≠ store.current := by simpa using apart
    rw [Store.names_add_all planned store inside, if_neg elsewhere, List.nil_append]

/-- An evaluation that is tidy from every machine, and what it gives. -/
def TidyRun (layer : Layer) (post : α → Prop) (body : Evaluation α) : Prop :=
  (∀ machine, Tidy layer machine.store (body.run machine).2.store) ∧ Yields post body

theorem tidy_run_same {post : α → Prop} {body : Evaluation α}
    (same : ∀ machine, (body.run machine).2.store = machine.store) (yields : Yields post body) :
    TidyRun layer post body := by
  constructor
  · intro machine
    rw [same machine]
    exact tidy_refl _
  · exact yields

theorem tidy_run_bind {between : α → Prop} {post : β → Prop} {body : Evaluation α}
    {next : α → Evaluation β} (start : TidyRun layer between body)
    (rest : ∀ value, between value → TidyRun layer post (next value)) :
    TidyRun layer post (body >>= next) := by
  constructor
  · intro machine
    have early := start.1 machine
    rcases run_cases body machine with ⟨value, after, run⟩ | ⟨stop, after, run⟩
    · have good : between value := start.2 machine value (by rw [run])
      rw [run] at early
      rw [run_bind_ok run]
      exact early.trans ((rest value good).1 after)
    · rw [run] at early
      rw [run_bind_error run]
      exact early
  · exact yields_bind start.2 fun value good => (rest value good).2

theorem tidy_run_throw {post : α → Prop} (stop : Stop) :
    TidyRun layer post (throw stop : Evaluation α) := by
  apply tidy_run_same
  · intro machine
    rfl
  · intro machine value given
    cases given

theorem tidy_run_operator (span : Span) (result : Except Failure Value) :
    TidyRun layer (fun _ => True) (ofOperator span result) := by
  match result with
  | .ok value => exact tidy_run_same (fun _ => rfl) fun _ _ _ => trivial
  | .error (.cause cause) => exact tidy_run_throw _
  | .error (.fault fault) => exact tidy_run_throw _

theorem tidy_run_update {plan : Store → Except ScriptError α} {change : α → Store → Store}
    (tidy : ∀ store planned, plan store = .ok planned → Tidy layer store (change planned store)) :
    TidyRun layer (fun _ => True) (updateStore plan change) := by
  constructor
  · intro machine
    rw [run_update_store]
    cases plan : plan machine.store with
    | ok planned => exact tidy machine.store planned plan
    | error error => exact tidy_refl _
  · intro _ _ _
    trivial

/-- A body that runs in a frame of its own adds no name to any frame from before. -/
theorem tidy_run_restoring {post : α → Prop} {body : Evaluation α} (name : String)
    (parent : Store → FrameId) (calls : Nat) (tidy : TidyRun .statement post body) :
    TidyRun layer post (restoring (entering name parent calls) body) := by
  constructor
  · intro machine
    have inner := tidy.1 (entering name parent calls machine)
    have grown : (entering name parent calls machine).store.frames.size =
        machine.store.frames.size + 1 := by simp [entering, Store.enter]
    have size := inner.size
    rw [run_restoring]
    apply tidy_of_names
    · rfl
    · simp only [backTo, Store.goTo]
      omega
    · intro frame inside
      have within : frame < (entering name parent calls machine).store.frames.size := by omega
      have apart : frame ≠ (entering name parent calls machine).store.current :=
        Nat.ne_of_lt inside
      exact (inner.unchanged frame within (.inr apart)).trans
        (Store.names_enter machine.store name _ inside)
  · intro machine value given
    exact tidy.2 _ value given

theorem tidy_run_in_scope {post : α → Prop} {body : Evaluation α} (name : String)
    (tidy : TidyRun .statement post body) : TidyRun layer post (inScope name body) := by
  rw [in_scope_eq_restoring]
  exact tidy_run_restoring _ _ _ tidy

theorem checkpoint_store (context : Context) (kind : NodeKind) (span : Span) (machine : Machine) :
    ((checkpoint context kind span).run machine).2.store = machine.store := by
  rw [run_checkpoint]
  split
  · rfl
  · split
    · rfl
    · split <;> rfl

theorem tidy_run_checkpoint (context : Context) (kind : NodeKind) (span : Span) :
    TidyRun layer (fun _ => True) (checkpoint context kind span) :=
  tidy_run_same (checkpoint_store context kind span) fun _ _ _ => trivial

theorem tidy_run_make_closure (name : Option String) (parameters : List String) (body : Block) :
    TidyRun layer (fun _ => True) (makeClosure name parameters body) := by
  constructor
  · intro machine
    rw [run_make_closure]
    exact tidy_of_names rfl (Nat.le_refl _) fun _ _ => rfl
  · intro _ _ _
    trivial

theorem tidy_run_lookup (span : Span) (name : String) :
    TidyRun layer (fun _ => True) (lookup span name) := by
  apply tidy_run_same
  · intro machine
    rw [run_lookup]
    split <;> rfl
  · intro _ _ _
    trivial

theorem tidy_run_member (span : Span) (target : Value) (index : Nat) :
    TidyRun layer (fun _ => True) (member span target index) := by
  unfold member
  split
  · split
    · exact tidy_run_same (fun _ => rfl) fun _ _ _ => trivial
    · exact tidy_run_throw _
  · exact tidy_run_throw _

theorem tidy_run_native (native : Native) (arguments : List Value) :
    TidyRun layer (fun _ => True) (callNative native arguments) := by
  apply tidy_run_same
  · intro machine
    rw [run_call_native]
    split <;> rfl
  · intro _ _ _
    trivial

theorem tidy_run_assign (span : Span) (name : String) (value : Value) :
    TidyRun layer (fun _ => True) (assign span name value) := by
  rw [assign_eq]
  apply tidy_run_update
  intro store owner _
  apply tidy_of_names
  · rfl
  · simp [Store.replaceBinding]
  · exact fun frame _ => Store.names_replace_binding store owner name value frame

theorem tidy_run_assign_pattern (pattern : Pattern) (value : Value) :
    TidyRun layer (fun _ => True) (assignPattern pattern value) := by
  rw [assign_pattern_eq]
  apply tidy_run_update
  intro store planned _
  apply tidy_of_names
  · exact Store.current_assign_all planned store
  · exact Nat.le_of_eq (Store.size_assign_all planned store).symm
  · exact fun frame _ => Store.names_assign_all planned store frame

theorem tidy_run_declare_at (span : Option Span) (name : String) (value : Value) :
    TidyRun .statement (fun _ => True) (declareAt span name value) := by
  rw [declare_at_eq]
  apply tidy_run_update
  intro store frame plan
  split at plan
  · cases plan
  · cases plan
    exact tidy_add_all [(name, value)] store

theorem tidy_run_declare_parameters (parameters : List String) (arguments : List Value) :
    TidyRun .statement (fun _ => True) (declareParameters parameters arguments) := by
  fun_induction declareParameters parameters arguments with
  | case1 parameter parameters argument arguments induction =>
      exact tidy_run_bind (tidy_run_declare_at _ _ _) fun _ _ => induction
  | case2 => exact tidy_run_same (fun _ => rfl) fun _ _ _ => trivial

theorem tidy_run_declare_pattern (pattern : Pattern) (value : Value) :
    TidyRun .statement (fun _ => True) (declarePattern pattern value) := by
  rw [declare_pattern_eq]
  exact tidy_run_update fun store planned _ => tidy_add_all planned store

theorem tidy_run_call {context : Context} {span : Span} {closure : Closure}
    {arguments : List Value} {body : Evaluation Value}
    (tidy : TidyRun .statement (fun _ => True) body) :
    TidyRun layer (fun _ => True) (inCall context span closure arguments body) := by
  rw [in_call_eq]
  have admitted : TidyRun layer (fun _ => True) (admitCall context span) :=
    tidy_run_same (fun _ => rfl) fun _ _ _ => trivial
  apply tidy_run_bind admitted
  intro _ _
  apply tidy_run_restoring
  apply tidy_run_bind (tidy_run_declare_parameters closure.parameters arguments)
  intro _ _
  exact tidy

end Tidy

/-- Expressions are tidy, and so are statements but for the frame that is current. -/
theorem tidy_correspondence (context : Context) :
    Correspondence context context 0 (fun _ => True) (fun _ => True)
      (fun layer _ post body _ => TidyRun layer post body) where
  pure holds := by
    apply tidy_run_same
    · intro machine
      rfl
    · intro machine value given
      cases given
      exact holds
  bind := tidy_run_bind
  widen tidy := by
    constructor
    · intro machine
      have whole := tidy.1 machine
      exact ⟨whole.current, whole.size, fun frame inside _ =>
        whole.unchanged frame inside (.inl rfl)⟩
    · exact tidy.2
  outOfFuel _ := tidy_run_throw _
  failExpression _ := tidy_run_throw _
  literal _ := trivial
  nothing := trivial
  bool := trivial
  tuple _ := trivial
  lookup _ := tidy_run_lookup _ _
  binary _ _ _ _ := tidy_run_operator _ _
  unary _ _ := tidy_run_operator _ _
  member _ _ := tidy_run_member _ _ _
  assign _ _ := tidy_run_assign _ _ _
  function _ := tidy_run_make_closure _ _ _
  native _ := tidy_run_native _ _
  closureBody _ := fun _ _ => trivial
  call _ _ _ _ tidy := tidy_run_call tidy
  inScope tidy := tidy_run_in_scope _ tidy
  checkpointExpression _ := tidy_run_checkpoint _ _ _
  checkpointStatement _ := tidy_run_checkpoint _ _ _
  declarePattern _ _ := tidy_run_declare_pattern _ _
  assignPattern _ _ := tidy_run_assign_pattern _ _
  define _ := tidy_run_make_closure _ _ _
  declare _ _ := tidy_run_declare_at _ _ _

/-- From every machine, an evaluation that succeeds adds exactly the given names to the frame
that is current, and one that fails adds none. No other frame from before gains or loses a
name, and the same frame is current in the end. -/
def Adds {α : Type} (added : List String) (body : Evaluation α) : Prop :=
  ∀ machine, (body.run machine).2.store.current = machine.store.current ∧
    machine.store.frames.size ≤ (body.run machine).2.store.frames.size ∧
    ∀ frame < machine.store.frames.size,
      (body.run machine).2.store.names frame =
        (if frame = machine.store.current ∧ (body.run machine).1.isOk then added.reverse else []) ++
          machine.store.names frame

section Adds

variable {added : List String} {α β : Type}

theorem adds_pure (value : α) : Adds [] (pure value : Evaluation α) := by
  intro machine
  refine ⟨rfl, Nat.le_refl _, fun frame inside => ?_⟩
  rw [run_pure]
  simp

theorem adds_of_tidy {post : α → Prop} {body : Evaluation α}
    (tidy : TidyRun .expression post body) : Adds [] body := by
  intro machine
  have whole := tidy.1 machine
  refine ⟨whole.current, whole.size, fun frame inside => ?_⟩
  rw [whole.unchanged frame inside (.inl rfl)]
  simp

/-- What was evaluated before has added nothing. -/
theorem adds_after {body : Evaluation α} {next : α → Evaluation β} (start : Adds [] body)
    (rest : ∀ value, Adds added (next value)) : Adds added (body >>= next) := by
  intro machine
  obtain ⟨current, size, names⟩ := start machine
  rcases run_cases body machine with ⟨value, after, run⟩ | ⟨stop, after, run⟩
  · obtain ⟨laterCurrent, laterSize, laterNames⟩ := rest value after
    rw [run] at current size names
    rw [run_bind_ok run]
    refine ⟨laterCurrent.trans current, Nat.le_trans size laterSize, fun frame inside => ?_⟩
    rw [laterNames frame (Nat.lt_of_lt_of_le inside size), names frame inside, current]
    simp
  · rw [run] at current size names
    rw [run_bind_error run]
    refine ⟨current, size, fun frame inside => ?_⟩
    rw [names frame inside]
    simp [Except.isOk, Except.toBool]

/-- What is evaluated afterwards adds nothing and does not fail. -/
theorem adds_before {body : Evaluation α} {result : α → β} (adds : Adds added body) :
    Adds added (body >>= fun value => pure (result value)) := by
  intro machine
  have given := adds machine
  rcases run_cases body machine with ⟨found, after, run⟩ | ⟨stop, after, run⟩
  · rw [run] at given
    rw [run_bind_ok run]
    exact given
  · rw [run] at given
    rw [run_bind_error run]
    exact given

theorem adds_update {plan : Store → Except ScriptError α} {change : α → Store → Store}
    (made : ∀ store planned, plan store = .ok planned →
      ∃ bindings : Bindings, change planned store = Store.addAll bindings store ∧
        bindings.map Prod.fst = added) : Adds added (updateStore plan change) := by
  intro machine
  rw [run_update_store]
  cases plan : plan machine.store with
  | ok planned =>
      obtain ⟨bindings, changed, names⟩ := made machine.store planned plan
      refine ⟨?_, ?_, fun frame inside => ?_⟩
      · simp only [changed, Store.current_add_all]
      · simp only [changed, Store.size_add_all, Nat.le_refl]
      · simp only [changed, Store.names_add_all bindings machine.store inside, names]
        simp [Except.isOk, Except.toBool]
  | error error => simp [Except.isOk, Except.toBool]

theorem adds_declare_pattern (pattern : Pattern) (value : Value) :
    Adds pattern.names (declarePattern pattern value) := by
  rw [declare_pattern_eq]
  exact adds_update fun _ planned plan => ⟨planned, rfl, Store.plan_declare_names plan⟩

theorem adds_declare (span : Span) (name : String) (value : Value) :
    Adds [name] (Evaluation.declare span name value) := by
  rw [Evaluation.declare, declare_at_eq]
  apply adds_update
  intro store frame plan
  split at plan
  · cases plan
  · cases plan
    exact ⟨[(name, value)], rfl, rfl⟩

end Adds

theorem evaluate_adds_nothing (context : Context) (fuel : Nat) (tree : Expression) :
    Adds [] (evaluate context fuel tree) :=
  adds_of_tidy (((tidy_correspondence context).related_at_every_fuel fuel).evaluate tree
    fun _ _ => trivial)

/-- A statement that has passed its checkpoint declares its own names and no others. -/
theorem after_checkpoint_adds (context : Context) (fuel : Nat) (tree : Statement) :
    Adds tree.declaredNames (afterCheckpoint context fuel tree) := by
  have tidy := (tidy_correspondence context).related_at_every_fuel fuel
  cases tree with
  | declare span pattern initial =>
      apply adds_after (evaluate_adds_nothing context fuel initial)
      intro value
      exact adds_before (adds_declare_pattern pattern value)
  | assign span target replacement =>
      apply adds_after (evaluate_adds_nothing context fuel replacement)
      intro value
      exact adds_before (adds_of_tidy (tidy_run_assign_pattern target value))
  | evaluate span expression closed =>
      exact adds_before (evaluate_adds_nothing context fuel expression)
  | whileLoop span condition body =>
      have loop := tidy.repeatWhile condition body (fun _ _ => trivial) fun _ _ => trivial
      exact adds_before (adds_of_tidy loop)
  | ifBlock span condition body =>
      have decision := tidy.evaluateCondition condition fun _ _ => trivial
      apply adds_after (adds_of_tidy decision)
      intro holds
      cases holds with
      | true =>
          have inside := tidy.executeBlock body fun _ _ => trivial
          exact adds_before (adds_of_tidy (tidy_run_in_scope "if-body" inside))
      | false => exact adds_pure _
  | define span name parameters body =>
      apply adds_after (adds_of_tidy (tidy_run_make_closure (some name) parameters body))
      intro value
      exact adds_before (adds_declare span name value)

/-- Names never leak. Evaluating an expression, whatever its outcome, leaves the names of every
frame as they were. Executing a statement adds to the current frame exactly the names of its
pattern or of its function if it succeeds, nothing if it fails, and nothing to any other frame.
No name is removed, and the frame that was current is current again. -/
theorem names_never_leak (context : Context) (fuel : Nat) :
    (∀ tree : Expression, Adds [] (evaluate context fuel tree)) ∧
      ∀ tree : Statement, Adds tree.declaredNames (execute context fuel tree) := by
  constructor
  · intro tree
    exact evaluate_adds_nothing context fuel tree
  · intro tree
    cases fuel with
    | zero =>
        intro machine
        simp [execute, run_out_of_fuel, Except.isOk, Except.toBool]
    | succ fuel =>
        rw [execute_eq_checkpoint]
        apply adds_after (adds_of_tidy (tidy_run_checkpoint context tree.kind tree.span))
        intro _
        exact after_checkpoint_adds context fuel tree

end LayoutScript
