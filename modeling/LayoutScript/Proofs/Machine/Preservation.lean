import LayoutScript.Proofs.Machine.Correspondence
import LayoutScript.Proofs.Value.Operators

/-!
A property of values that evaluation keeps. If the values that trees can make have it,
and the values in a store have it, then so do all results and all values in the store
afterwards, also when an evaluation stops early.
-/

namespace LayoutScript

open Evaluation

/-- Every value that a frame of a store binds has a property. -/
def Store.Holds (Good : Value → Prop) (store : Store) : Prop :=
  ∀ frame ∈ store.frames, ∀ binding ∈ frame.bindings, Good binding.2

namespace Store

variable {Good : Value → Prop} {store : Store}

theorem holds_of_same_frames {other : Store} (same : other.frames = store.frames)
    (holds : store.Holds Good) : other.Holds Good := by
  intro frame member
  rw [same] at member
  exact holds frame member

theorem holds_enter (holds : store.Holds Good) (name : String) (parent : FrameId) :
    (store.enter name parent).Holds Good := by
  intro frame member binding inside
  rcases Array.mem_push.1 member with old | rfl
  · exact holds frame old binding inside
  · cases inside

/-- A change to one frame that puts no other values into it keeps the property. -/
theorem holds_modify (holds : store.Holds Good) (index : FrameId) (change : Frame → Frame)
    (kept : ∀ frame ∈ store.frames, ∀ binding ∈ (change frame).bindings, Good binding.2) :
    ({ store with frames := store.frames.modify index change } : Store).Holds Good := by
  intro frame member
  obtain ⟨place, inside, rfl⟩ := Array.mem_iff_getElem.1 member
  have bound : place < store.frames.size := by simpa using inside
  rw [Array.getElem_modify]
  split
  · exact kept _ (Array.getElem_mem bound)
  · exact holds _ (Array.getElem_mem bound)

theorem holds_add_binding (holds : store.Holds Good) (frame : FrameId) (name : String)
    {value : Value} (good : Good value) : (store.addBinding frame name value).Holds Good := by
  apply holds_modify holds
  intro found member binding inside
  rcases List.mem_cons.1 inside with rfl | old
  · exact good
  · exact holds found member binding old

theorem bindings_replace_mem {name : String} {value : Value} {binding : String × Value}
    {bindings : Bindings} (inside : binding ∈ bindings.replace name value) :
    binding = (name, value) ∨ binding ∈ bindings := by
  induction bindings with
  | nil => exact .inr inside
  | cons first rest induction =>
      rw [Bindings.replace] at inside
      split at inside
      · rcases List.mem_cons.1 inside with new | old
        · exact .inl new
        · exact .inr (List.mem_cons_of_mem _ old)
      · rcases List.mem_cons.1 inside with rfl | later
        · exact .inr List.mem_cons_self
        · exact (induction later).imp_right (List.mem_cons_of_mem _)

theorem holds_replace_binding (holds : store.Holds Good) (frame : FrameId) (name : String)
    {value : Value} (good : Good value) : (store.replaceBinding frame name value).Holds Good := by
  apply holds_modify holds
  intro found member binding inside
  rcases bindings_replace_mem inside with rfl | old
  · exact good
  · exact holds found member binding old

theorem holds_add_all {bindings : Bindings} (holds : store.Holds Good)
    (good : ∀ binding ∈ bindings, Good binding.2) : (addAll bindings store).Holds Good := by
  induction bindings generalizing store with
  | nil => exact holds
  | cons first rest induction =>
      rw [addAll]
      apply induction (holds_add_binding holds _ _ (good first List.mem_cons_self))
      exact fun binding member => good binding (List.mem_cons_of_mem _ member)

theorem holds_assign_all {bindings : Bindings} (holds : store.Holds Good)
    (good : ∀ binding ∈ bindings, Good binding.2) : (assignAll bindings store).Holds Good := by
  induction bindings generalizing store with
  | nil => exact holds
  | cons first rest induction =>
      have restGood : ∀ binding ∈ rest, Good binding.2 :=
        fun binding member => good binding (List.mem_cons_of_mem _ member)
      rw [assignAll]
      split
      · exact induction (holds_replace_binding holds _ _ (good first List.mem_cons_self)) restGood
      · exact induction holds restGood

theorem holds_lookup {name : String} {value : Value} (holds : store.Holds Good)
    (found : store.lookup? name = some value) : Good value := by
  unfold lookup? lookupFrom? at found
  obtain ⟨owner, _, bound⟩ := Option.bind_eq_some_iff.1 found
  obtain ⟨before, after, split, _⟩ := List.lookup_eq_some_iff.1 bound
  have member : (name, value) ∈ store.bindings owner := by simp [split]
  unfold bindings at member
  split at member
  · rename_i frame present
    exact holds frame (Array.mem_of_getElem? present) _ member
  · cases member

end Store

/-- What is bound by parts was computed by parts. -/
theorem except_bind_ok {ε α β : Type} {start : Except ε α} {next : α → Except ε β} {result : β}
    (given : (start >>= next) = .ok result) :
    ∃ value, start = .ok value ∧ next value = .ok result := by
  cases start with
  | ok value => exact ⟨value, rfl, given⟩
  | error error => cases given

mutual

/-- A pattern binds parts of a value, so that they have what the parts of the value
have. -/
theorem Pattern.targets_good {Good : Value → Prop}
    (parts : ∀ elements, Good (.tuple elements) → ∀ element ∈ elements, Good element) :
    ∀ (pattern : Pattern) {value : Value} {targets : List Target}, Good value →
      pattern.targets value = .ok targets → ∀ target ∈ targets, Good target.value
  | .identifier span name, value, targets, good, planned => by
      rw [Pattern.targets] at planned
      cases planned
      intro target member
      rw [List.mem_singleton.1 member]
      exact good
  | .tuple span elements, value, targets, good, planned => by
      cases value with
      | tuple values =>
          rw [Pattern.targets] at planned
          split at planned
          · exact Pattern.targets_all_good parts elements (parts values good) planned
          · cases planned
      | _ =>
          rw [Pattern.targets] at planned
          · cases planned
          · intro values same
            cases same

theorem Pattern.targets_all_good {Good : Value → Prop}
    (parts : ∀ elements, Good (.tuple elements) → ∀ element ∈ elements, Good element) :
    ∀ (patterns : List Pattern) {values : List Value} {targets : List Target},
      (∀ value ∈ values, Good value) →
      Pattern.targetsAll patterns values = .ok targets → ∀ target ∈ targets, Good target.value
  | [], values, targets, good, planned => by
      rw [Pattern.targetsAll] at planned
      · cases planned
        simp
      · intros
        contradiction
  | pattern :: patterns, [], targets, good, planned => by
      rw [Pattern.targetsAll] at planned
      · cases planned
        simp
      · intros
        contradiction
  | pattern :: patterns, value :: values, targets, good, planned => by
      rw [Pattern.targetsAll] at planned
      obtain ⟨first, firstPlanned, planned⟩ := except_bind_ok planned
      obtain ⟨others, othersPlanned, planned⟩ := except_bind_ok planned
      cases planned
      intro target member
      rcases List.mem_append.1 member with early | late
      · exact Pattern.targets_good parts pattern (good value List.mem_cons_self) firstPlanned
          target early
      · exact Pattern.targets_all_good parts patterns
          (fun other inside => good other (List.mem_cons_of_mem _ inside)) othersPlanned target late

end

theorem bindings_of_targets_good {Good : Value → Prop} {targets : List Target}
    (good : ∀ target ∈ targets, Good target.value) :
    ∀ binding ∈ targets.map Target.binding, Good binding.2 := by
  intro binding member
  obtain ⟨target, inside, rfl⟩ := List.mem_map.1 member
  exact good target inside

/-- A property that the values of allowed trees have and that operators keep. -/
structure ValueClass (Allowed : Node → Prop) (Good : Value → Prop) : Prop where
  literal {span : Span} {value : Literal} (allowed : Allowed (.expression (.literal span value))) :
    Good (.ofLiteral value)
  nothing : Good .nothing
  bool {holds : Bool} : Good (.bool holds)
  tuple {elements : List Value} :
    Good (.tuple elements) ↔ ∀ element ∈ elements, Good element
  binary {operator : BinaryOperator} {limits : Limits} {left right value : Value}
    (leftGood : Good left) (rightGood : Good right)
    (given : operator.apply limits left right = .ok value) : Good value
  unary {operator : UnaryOperator} {operand value : Value} (good : Good operand)
    (given : operator.apply operand = .ok value) : Good value
  function {span : Span} {parameters : List String} {body : Block} {identity : Identity}
    {frame : FrameId} (every : (Expression.function span parameters body).Every Allowed) :
    Good (.function (.closure ⟨identity, none, parameters, body, frame⟩))
  define {span : Span} {name : String} {parameters : List String} {body : Block}
    {identity : Identity} {frame : FrameId}
    (every : (Statement.define span name parameters body).Every Allowed) :
    Good (.function (.closure ⟨identity, some name, parameters, body, frame⟩))
  closureBody {closure : Closure} (good : Good (.function (.closure closure))) :
    closure.body.Every Allowed

/-- From a store whose values are good an evaluation leaves such a store behind, and
its result satisfies a condition. -/
def Keeps (Good : Value → Prop) {α : Type} (post : α → Prop) (body : Evaluation α) : Prop :=
  ∀ machine, machine.store.Holds Good →
    (body.run machine).2.store.Holds Good ∧
      ∀ value, (body.run machine).1 = .ok value → post value

section Keeps

variable {Good : Value → Prop} {α β : Type}

theorem keeps_pure {post : α → Prop} {value : α} (holds : post value) :
    Keeps Good post (pure value) := by
  intro machine good
  refine ⟨good, fun result given => ?_⟩
  cases given
  exact holds

theorem keeps_throw {post : α → Prop} (stop : Stop) : Keeps Good post (throw stop) := by
  intro machine good
  refine ⟨good, fun result given => ?_⟩
  cases given

theorem keeps_bind {between : α → Prop} {post : β → Prop} {body : Evaluation α}
    {next : α → Evaluation β} (start : Keeps Good between body)
    (rest : ∀ value, between value → Keeps Good post (next value)) :
    Keeps Good post (body >>= next) := by
  intro machine good
  obtain ⟨afterGood, given⟩ := start machine good
  rcases run_cases body machine with ⟨value, after, run⟩ | ⟨stop, after, run⟩
  · rw [run] at afterGood given
    rw [run_bind_ok run]
    exact rest value (given value rfl) after afterGood
  · rw [run] at afterGood
    rw [run_bind_error run]
    exact ⟨afterGood, fun result impossible => by cases impossible⟩

theorem keeps_operator {post : α → Prop} (span : Span) {result : Except Failure α}
    (holds : ∀ value, result = .ok value → post value) :
    Keeps Good post (ofOperator span result) := by
  match result with
  | .ok value => exact keeps_pure (holds value rfl)
  | .error (.cause cause) => exact keeps_throw _
  | .error (.fault fault) => exact keeps_throw _

theorem keeps_update_store {post : Unit → Prop} (plan : Store → Except ScriptError α)
    (change : α → Store → Store) (holds : post ())
    (kept : ∀ store planned, store.Holds Good → plan store = .ok planned →
      (change planned store).Holds Good) :
    Keeps Good post (updateStore plan change) := by
  intro machine good
  rw [run_update_store]
  cases planned : plan machine.store with
  | ok found => exact ⟨kept _ _ good planned, fun _ _ => holds⟩
  | error error => exact ⟨good, fun _ impossible => by cases impossible⟩

theorem keeps_restoring {post : α → Prop} {body : Evaluation α} (name : String)
    (parent : Store → FrameId) (calls : Nat) (kept : Keeps Good post body) :
    Keeps Good post (restoring (entering name parent calls) body) := by
  intro machine good
  rw [run_restoring]
  obtain ⟨afterGood, given⟩ := kept (entering name parent calls machine)
    (Store.holds_enter good name _)
  exact ⟨Store.holds_of_same_frames rfl afterGood, given⟩

theorem keeps_checkpoint (context : Context) (kind : NodeKind) (span : Span) :
    Keeps Good (fun _ => True) (checkpoint context kind span) := by
  intro machine good
  refine ⟨?_, fun _ _ => trivial⟩
  rw [run_checkpoint]
  split
  · exact good
  · split
    · exact good
    · split <;> exact good

end Keeps

theorem keeps_member {Allowed : Node → Prop} {Good : Value → Prop}
    (values : ValueClass Allowed Good) (span : Span) {target : Value} (index : Nat)
    (good : Good target) : Keeps Good Good (member span target index) := by
  unfold member
  split
  · rename_i elements
    split
    · rename_i element found
      exact keeps_pure (values.tuple.1 good element (List.mem_of_getElem? found))
    · exact keeps_throw _
  · exact keeps_throw _

theorem keeps_lookup {Good : Value → Prop} (span : Span) (name : String) :
    Keeps Good Good (lookup span name) := by
  intro machine good
  rw [run_lookup]
  cases found : machine.store.lookup? name with
  | some value =>
      refine ⟨good, fun result given => ?_⟩
      cases given
      exact Store.holds_lookup good found
  | none => exact ⟨good, fun _ impossible => by cases impossible⟩

theorem keeps_make_closure {Good : Value → Prop} {name : Option String} {parameters : List String}
    {body : Block}
    (good : ∀ identity frame,
      Good (.function (.closure ⟨identity, name, parameters, body, frame⟩))) :
    Keeps Good Good (makeClosure name parameters body) := by
  intro machine holds
  rw [run_make_closure]
  refine ⟨Store.holds_of_same_frames rfl holds, fun result given => ?_⟩
  cases given
  exact good _ _

theorem keeps_assign {Good : Value → Prop} (span : Span) (name : String) {value : Value}
    (good : Good value) : Keeps Good (fun _ => True) (assign span name value) := by
  rw [assign_eq]
  exact keeps_update_store _ _ trivial fun _ owner holds _ =>
    Store.holds_replace_binding holds owner name good

theorem keeps_declare_at {Good : Value → Prop} (span : Option Span) (name : String) {value : Value}
    (good : Good value) : Keeps Good (fun _ => True) (declareAt span name value) := by
  rw [declare_at_eq]
  exact keeps_update_store _ _ trivial fun _ frame holds _ =>
    Store.holds_add_binding holds frame name good

theorem keeps_declare_pattern {Allowed : Node → Prop} {Good : Value → Prop}
    (values : ValueClass Allowed Good) (pattern : Pattern) {value : Value} (good : Good value) :
    Keeps Good (fun _ => True) (declarePattern pattern value) := by
  rw [declare_pattern_eq]
  apply keeps_update_store _ _ trivial
  intro store planned holds plan
  obtain ⟨targets, found, plan⟩ := except_bind_ok plan
  obtain ⟨_, _, plan⟩ := except_bind_ok plan
  cases plan
  exact Store.holds_add_all holds (bindings_of_targets_good
    (pattern.targets_good (fun _ => values.tuple.1) good found))

theorem keeps_assign_pattern {Allowed : Node → Prop} {Good : Value → Prop}
    (values : ValueClass Allowed Good) (pattern : Pattern) {value : Value} (good : Good value) :
    Keeps Good (fun _ => True) (assignPattern pattern value) := by
  rw [assign_pattern_eq]
  apply keeps_update_store _ _ trivial
  intro store planned holds plan
  obtain ⟨targets, found, plan⟩ := except_bind_ok plan
  obtain ⟨_, _, plan⟩ := except_bind_ok plan
  cases plan
  exact Store.holds_assign_all holds (bindings_of_targets_good
    (pattern.targets_good (fun _ => values.tuple.1) good found))

theorem keeps_declare_parameters {Good : Value → Prop} (parameters : List String)
    {arguments : List Value} (good : ∀ value ∈ arguments, Good value) :
    Keeps Good (fun _ => True) (declareParameters parameters arguments) := by
  fun_induction declareParameters parameters arguments with
  | case1 parameter parameters argument arguments induction =>
      obtain ⟨first, others⟩ := List.forall_mem_cons.1 good
      exact keeps_bind (keeps_declare_at _ _ first) fun _ _ => induction others
  | case2 => exact keeps_pure trivial

theorem keeps_call {Good : Value → Prop} (context : Context) (span : Span) (closure : Closure)
    {arguments : List Value} (good : ∀ value ∈ arguments, Good value) {body : Evaluation Value}
    (kept : Keeps Good Good body) : Keeps Good Good (inCall context span closure arguments body) := by
  rw [in_call_eq]
  have admitted : Keeps Good (fun _ => True) (admitCall context span) :=
    fun machine holds => ⟨holds, fun _ _ => trivial⟩
  apply keeps_bind admitted
  intro _ _
  apply keeps_restoring
  apply keeps_bind (keeps_declare_parameters _ good)
  intro _ _
  exact kept

/-- Evaluation of allowed trees keeps a class of values. -/
theorem preservation_correspondence {Allowed : Node → Prop} {Good : Value → Prop}
    (values : ValueClass Allowed Good) (context : Context) :
    Correspondence context context 0 Allowed Good (fun _ _ post body _ => Keeps Good post body) where
  pure := keeps_pure
  bind := keeps_bind
  widen kept := kept
  outOfFuel _ := keeps_throw _
  failExpression _ := keeps_throw _
  literal := values.literal
  nothing := values.nothing
  bool := values.bool
  tuple := values.tuple.2
  lookup _ := keeps_lookup _ _
  binary _ _ left right := keeps_operator _ fun _ => values.binary left right
  unary _ good := keeps_operator _ fun _ => values.unary good
  member _ good := keeps_member values _ _ good
  assign _ good := keeps_assign _ _ good
  function every := keeps_make_closure fun _ _ => values.function every
  native _ := by
    intro machine holds
    rw [run_call_native]
    refine ⟨by split <;> exact holds, fun result given => ?_⟩
    cases given
    exact values.nothing
  closureBody := values.closureBody
  call _ _ good _ kept := keeps_call _ _ _ good kept
  inScope kept := by
    rw [in_scope_eq_restoring]
    exact keeps_restoring _ _ _ kept
  checkpointExpression _ := keeps_checkpoint _ _ _
  checkpointStatement _ := keeps_checkpoint _ _ _
  declarePattern _ good := keeps_declare_pattern values _ good
  assignPattern _ good := keeps_assign_pattern values _ good
  define every := keeps_make_closure fun _ _ => values.define every
  declare _ good := keeps_declare_at _ _ good

mutual

/-- The functions made by scripts that a value is or holds. -/
def Value.closures : Value → List Closure
  | .function (.closure closure) => [closure]
  | .tuple elements => Value.closuresAll elements
  | _ => []

def Value.closuresAll : List Value → List Closure
  | [] => []
  | value :: values => value.closures ++ Value.closuresAll values

end

theorem Value.closures_all_mem {closure : Closure} {values : List Value} :
    closure ∈ Value.closuresAll values ↔ ∃ value ∈ values, closure ∈ value.closures := by
  induction values with
  | nil => simp [Value.closuresAll]
  | cons first rest induction => simp [Value.closuresAll, induction]

/-- All code that a value carries consists of allowed nodes. -/
def Value.Carries (Allowed : Node → Prop) (value : Value) : Prop :=
  ∀ closure ∈ value.closures, closure.body.Every Allowed

theorem Value.Scalar.carries {Allowed : Node → Prop} {value : Value} (scalar : value.Scalar) :
    value.Carries Allowed := by
  intro closure member
  cases value with
  | tuple elements => exact scalar.elim
  | function callable => exact scalar.elim
  | _ =>
      rw [Value.closures] at member
      · cases member
      all_goals
        intros
        contradiction

theorem Value.carries_closure {Allowed : Node → Prop} {closure : Closure} :
    (Value.function (.closure closure)).Carries Allowed ↔ closure.body.Every Allowed := by
  simp only [Value.Carries, Value.closures, List.mem_singleton, forall_eq]

theorem Value.carries_native {Allowed : Node → Prop} (native : Native) :
    (Value.function (.native native)).Carries Allowed := by
  intro closure member
  simp [Value.closures] at member

theorem Value.carries_tuple {Allowed : Node → Prop} {elements : List Value} :
    (Value.tuple elements).Carries Allowed ↔ ∀ element ∈ elements, element.Carries Allowed := by
  simp only [Value.Carries, Value.closures, Value.closures_all_mem]
  constructor
  · intro carried element member closure inside
    exact carried closure ⟨element, member, inside⟩
  · rintro carried closure ⟨element, member, inside⟩
    exact carried element member closure inside

/-- Values carry no other code than the trees that were evaluated. -/
theorem code_class (Allowed : Node → Prop) : ValueClass Allowed (Value.Carries Allowed) where
  literal {_ value} _ := Value.Scalar.carries (by cases value <;> exact trivial)
  nothing := Value.Scalar.carries trivial
  bool := Value.Scalar.carries trivial
  tuple := Value.carries_tuple
  binary _ _ given := (BinaryOperator.apply_scalar _ _ _ _ _ given).carries
  unary _ given := (UnaryOperator.apply_scalar _ _ _ given).carries
  function every := Value.carries_closure.2 every.function
  define every := Value.carries_closure.2 every.define
  closureBody := Value.carries_closure.1

/-- The first store binds the function that prints and nothing else. -/
theorem Store.initial_holds {Good : Value → Prop}
    (good : Good (.function (.native Builtin.printing.native))) : Store.initial.Holds Good := by
  intro frame member binding inside
  have frames : Store.initial.frames =
      #[⟨"global", [("print", .function (.native Builtin.printing.native))], none⟩] := by rfl
  rw [frames] at member
  simp only [List.mem_toArray, List.mem_singleton] at member
  subst member
  rw [List.mem_singleton.1 inside]
  exact good

theorem Store.initial_carries (Allowed : Node → Prop) :
    Store.initial.Holds (Value.Carries Allowed) :=
  Store.initial_holds (Value.carries_native _)

end LayoutScript
