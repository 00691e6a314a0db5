import LayoutScript.Proofs.Machine.Moments
import LayoutScript.Proofs.Machine.Outward

/-!
The ledger of a run. Frames are numbered as they are entered and functions as they are made. A
ledger records below which frame each frame was entered, and all functions that have been made,
whether or not anything refers to them any more. Evaluation adds entries and strikes none out, so
what a ledger says of a frame or of a function stays true for good.
-/

namespace LayoutScript

open Evaluation

mutual

/-- The functions that a value is or holds. -/
def Value.functions : Value → List Callable
  | .function callable => [callable]
  | .tuple elements => Value.functionsAll elements
  | _ => []

def Value.functionsAll : List Value → List Callable
  | [] => []
  | value :: values => value.functions ++ Value.functionsAll values

end

theorem Value.functions_all_mem {callable : Callable} {values : List Value} :
    callable ∈ Value.functionsAll values ↔ ∃ value ∈ values, callable ∈ value.functions := by
  induction values with
  | nil => simp [Value.functionsAll]
  | cons first rest induction => simp [Value.functionsAll, induction]

theorem Value.Scalar.no_functions {value : Value} (scalar : value.Scalar) :
    value.functions = [] := by
  cases value with
  | tuple elements => exact scalar.elim
  | function callable => exact scalar.elim
  | _ => rw [Value.functions] <;> simp

namespace Store

/-- What bindings have no part in: the parents of all frames, the current frame and the number of
the next function. -/
def shape (store : Store) : List (Option FrameId) × FrameId × Nat :=
  (store.frames.toList.map Frame.parent, store.current, store.nextFunction)

theorem shape_modify (store : Store) (frame : FrameId) (change : Frame → Frame)
    (kept : ∀ found, (change found).parent = found.parent) :
    ({ store with frames := store.frames.modify frame change } : Store).shape = store.shape := by
  have parents : (store.frames.modify frame change).toList.map Frame.parent =
      store.frames.toList.map Frame.parent := by
    apply List.ext_getElem?
    intro place
    simp only [List.getElem?_map, Array.getElem?_toList, Array.getElem?_modify]
    split
    · cases store.frames[place]? with
      | none => rfl
      | some found => exact congrArg some (kept found)
    · rfl
  rw [shape, shape, parents]

theorem shape_add_binding (store : Store) (frame : FrameId) (name : String) (value : Value) :
    (store.addBinding frame name value).shape = store.shape :=
  shape_modify store frame _ fun _ => rfl

theorem shape_replace_binding (store : Store) (frame : FrameId) (name : String) (value : Value) :
    (store.replaceBinding frame name value).shape = store.shape :=
  shape_modify store frame _ fun _ => rfl

theorem shape_add_all (planned : Bindings) (store : Store) :
    (addAll planned store).shape = store.shape := by
  induction planned generalizing store with
  | nil => rfl
  | cons binding planned induction => rw [addAll, induction, shape_add_binding]

theorem shape_assign_all (planned : Bindings) (store : Store) :
    (assignAll planned store).shape = store.shape := by
  induction planned generalizing store with
  | nil => rfl
  | cons binding planned induction =>
      rw [assignAll]
      split
      · rw [induction, shape_replace_binding]
      · exact induction store

end Store

/-- The frames that have been entered, by the frames below which they were, and the functions
that have been made. The first frame is the global one; every other one was entered below an
earlier one. Functions have their places as serial numbers, and have captured frames that had
been entered. -/
structure Ledger where
  parents : List (Option FrameId)
  made : List Closure
  outward {frame : FrameId} {parent : Option FrameId} (entered : parents[frame]? = some parent) :
    frame = Store.globalFrame ∧ parent = none ∨ ∃ outer < frame, parent = some outer
  numbered {serial : Nat} {closure : Closure} (recorded : made[serial]? = some closure) :
    closure.identity = .script serial
  captured {closure : Closure} (recorded : closure ∈ made) : closure.frame < parents.length

/-- An entry of a list with one more at its end is an old one or the new one. -/
theorem entry_of_concat {α : Type} {entries : List α} {last found : α} {place : Nat}
    (held : (entries ++ [last])[place]? = some found) :
    entries[place]? = some found ∨ place = entries.length ∧ found = last := by
  rw [List.getElem?_append] at held
  split at held
  · exact .inl held
  · rw [List.getElem?_singleton] at held
    split at held
    · exact .inr ⟨by omega, (Option.some.inj held).symm⟩
    · cases held

namespace Ledger

variable {ledger late : Ledger}

/-- A later ledger has the same entries and perhaps some more. -/
instance : Preorder Ledger where
  le early late := early.parents <+: late.parents ∧ early.made <+: late.made
  le_refl _ := ⟨List.prefix_rfl, List.prefix_rfl⟩
  le_trans _ _ _ first second := ⟨first.1.trans second.1, first.2.trans second.2⟩

/-- The ledger before the first run. -/
def start : Ledger where
  parents := [none]
  made := []
  outward {frame parent} entered := by
    have ⟨inside, found⟩ := List.getElem?_eq_some_iff.1 entered
    have first : frame = 0 := Nat.lt_one_iff.1 inside
    subst first
    exact .inl ⟨rfl, found.symm⟩
  numbered recorded := by cases recorded
  captured recorded := by cases recorded

/-- A frame is entered. -/
def enter (ledger : Ledger) (parent : FrameId) (inside : parent < ledger.parents.length) :
    Ledger where
  parents := ledger.parents ++ [some parent]
  made := ledger.made
  outward entered := by
    cases entry_of_concat entered with
    | inl old => exact ledger.outward old
    | inr new =>
        have ⟨isLast, isParent⟩ := new
        rw [isLast]
        exact .inr ⟨parent, inside, isParent⟩
  numbered := ledger.numbered
  captured recorded := by
    rw [List.length_append]
    exact Nat.lt_add_right _ (ledger.captured recorded)

/-- A function is made. -/
def record (ledger : Ledger) (closure : Closure)
    (next : closure.identity = .script ledger.made.length)
    (inside : closure.frame < ledger.parents.length) : Ledger where
  parents := ledger.parents
  made := ledger.made ++ [closure]
  outward := ledger.outward
  numbered recorded := by
    cases entry_of_concat recorded with
    | inl old => exact ledger.numbered old
    | inr new =>
        have ⟨isLast, isNew⟩ := new
        rw [isLast, isNew]
        exact next
  captured recorded := by
    cases List.mem_append.1 recorded with
    | inl old => exact ledger.captured old
    | inr new => rw [List.mem_singleton.1 new]; exact inside

theorem le_enter (parent : FrameId) (inside : parent < ledger.parents.length) :
    ledger ≤ ledger.enter parent inside :=
  ⟨List.prefix_append _ _, List.prefix_rfl⟩

theorem le_record (closure : Closure) (next : closure.identity = .script ledger.made.length)
    (inside : closure.frame < ledger.parents.length) : ledger ≤ ledger.record closure next inside :=
  ⟨List.prefix_rfl, List.prefix_append _ _⟩

/-- A function that has been made, or that hosts provide to all scripts. -/
def Knows (ledger : Ledger) : Callable → Prop
  | .closure closure => closure ∈ ledger.made
  | .native native => ∃ entry ∈ Registry.standard.entries, native = entry.native

/-- All functions that a value is or holds are known. -/
def Covers (ledger : Ledger) (value : Value) : Prop :=
  ∀ callable ∈ value.functions, ledger.Knows callable

theorem Knows.later {callable : Callable} (known : ledger.Knows callable) (grows : ledger ≤ late) :
    late.Knows callable := by
  cases callable with
  | closure closure => exact grows.2.subset known
  | native native => exact known

theorem Covers.later {value : Value} (covered : ledger.Covers value) (grows : ledger ≤ late) :
    late.Covers value :=
  fun callable member => (covered callable member).later grows

/-- Known functions with the same identity are the same function. -/
theorem Knows.same {first second : Callable} (firstKnown : ledger.Knows first)
    (secondKnown : ledger.Knows second) (same : first.identity = second.identity) :
    first = second := by
  cases first with
  | closure first =>
      have ⟨serial, firstAt⟩ := List.mem_iff_getElem?.1 firstKnown
      have firstNumber : first.identity = .script serial := ledger.numbered firstAt
      cases second with
      | closure second =>
          have ⟨other, secondAt⟩ := List.mem_iff_getElem?.1 secondKnown
          have secondNumber : second.identity = .script other := ledger.numbered secondAt
          have numbers : Identity.script serial = .script other :=
            firstNumber.symm.trans (same.trans secondNumber)
          cases numbers
          rw [Option.some.inj (firstAt.symm.trans secondAt)]
      | native second =>
          have ⟨entry, _, isEntry⟩ := secondKnown
          have numbers : Identity.script serial = entry.native.identity :=
            firstNumber.symm.trans (same.trans (congrArg Native.identity isEntry))
          cases numbers
  | native first =>
      have ⟨entry, listed, isEntry⟩ := firstKnown
      cases second with
      | closure second =>
          have ⟨serial, secondAt⟩ := List.mem_iff_getElem?.1 secondKnown
          have numbers : entry.native.identity = .script serial :=
            (congrArg Native.identity isEntry).symm.trans
              (same.trans (ledger.numbered secondAt))
          cases numbers
      | native second =>
          have ⟨other, otherListed, isOther⟩ := secondKnown
          -- Hosts provide a single function, so that no two labels have to be compared.
          rw [isEntry, isOther, List.mem_singleton.1 listed, List.mem_singleton.1 otherListed]

theorem covers_scalar {value : Value} (scalar : value.Scalar) : ledger.Covers value := by
  intro callable member
  rw [scalar.no_functions] at member
  cases member

theorem covers_tuple {elements : List Value} :
    ledger.Covers (.tuple elements) ↔ ∀ element ∈ elements, ledger.Covers element := by
  simp only [Covers, Value.functions, Value.functions_all_mem]
  constructor
  · intro covered element member callable inside
    exact covered callable ⟨element, member, inside⟩
  · intro covered callable held
    have ⟨element, member, inside⟩ := held
    exact covered element member callable inside

theorem covers_function {callable : Callable} :
    ledger.Covers (.function callable) ↔ ledger.Knows callable := by
  simp only [Covers, Value.functions, List.mem_singleton, forall_eq]

/-- A ledger that has the frames of a store in it, and all the functions that are bound there or
were made before. -/
structure Describes (ledger : Ledger) (store : Store) : Prop where
  shape : store.shape = (ledger.parents, store.current, ledger.made.length)
  current : store.current < ledger.parents.length
  covers : store.Holds ledger.Covers

namespace Describes

variable {store other : Store}

theorem of_shape (describes : ledger.Describes store) (same : other.shape = store.shape)
    (covers : other.Holds ledger.Covers) : ledger.Describes other where
  shape := by
    have current : other.current = store.current := congrArg (·.2.1) same
    rw [same, current, describes.shape]
  current := by
    have current : other.current = store.current := congrArg (·.2.1) same
    rw [current]
    exact describes.current
  covers := covers

theorem parents (describes : ledger.Describes store) :
    store.frames.toList.map Frame.parent = ledger.parents :=
  congrArg Prod.fst describes.shape

theorem next_function (describes : ledger.Describes store) :
    store.nextFunction = ledger.made.length :=
  congrArg (·.2.2) describes.shape

theorem size (describes : ledger.Describes store) : store.frames.size = ledger.parents.length := by
  rw [← describes.parents, List.length_map, Array.length_toList]

theorem parent_of_present (describes : ledger.Describes store) {frame : FrameId} {found : Frame}
    (present : store.frames[frame]? = some found) : ledger.parents[frame]? = some found.parent := by
  rw [← describes.parents, List.getElem?_map, Array.getElem?_toList, present]
  rfl

/-- From every frame the way outward leads to the global frame. -/
theorem outward (describes : ledger.Describes store) {frame : FrameId}
    (inside : frame < store.frames.size) :
    ∃ path, store.Outward frame path ∧ path.getLast? = some Store.globalFrame := by
  induction frame using Nat.strong_induction_on with
  | _ frame induction =>
      have present : store.frames[frame]? = some store.frames[frame] :=
        Array.getElem?_eq_getElem inside
      cases ledger.outward (describes.parent_of_present present) with
      | inl global =>
          have ⟨isGlobal, noParent⟩ := global
          exact ⟨[frame], .last present noParent, by rw [isGlobal, List.getLast?_singleton]⟩
      | inr below =>
          have ⟨outer, earlier, isParent⟩ := below
          have ⟨path, leads, ends⟩ := induction outer earlier (earlier.trans inside)
          refine ⟨frame :: path, .next present isParent leads, ?_⟩
          rw [List.getLast?_cons, ends, Option.getD_some]

/-- Whatever is entered later, ways outward stay as they are. -/
theorem outward_later (describes : ledger.Describes store) (lateDescribes : late.Describes other)
    (grows : ledger ≤ late) {frame : FrameId} {path : List FrameId}
    (leads : store.Outward frame path) : other.Outward frame path := by
  apply leads.of_parents
  intro place found present
  have ⟨inside, here⟩ := List.getElem?_eq_some_iff.1 (describes.parent_of_present present)
  have still : late.parents[place]? = some found.parent := by
    rw [List.prefix_iff_getElem?.1 grows.1 place inside, here]
  rw [← lateDescribes.parents, List.getElem?_map, Array.getElem?_toList] at still
  exact Option.map_eq_some_iff.1 still

theorem enter (describes : ledger.Describes store) (name : String) {parent : FrameId}
    (inside : parent < ledger.parents.length) :
    (ledger.enter parent inside).Describes (store.enter name parent) where
  shape := by
    simp [Store.shape, Store.enter, Ledger.enter, describes.parents, describes.next_function]
  current := by simp [Store.enter, Ledger.enter, describes.size]
  covers := by
    apply Store.holds_enter
    intro frame member binding bound
    exact (describes.covers frame member binding bound).later (le_enter parent inside)

theorem go_to (describes : ledger.Describes store) {frame : FrameId}
    (inside : frame < ledger.parents.length) : ledger.Describes (store.goTo frame) where
  shape := by
    have parents := describes.parents
    have next := describes.next_function
    rw [Store.shape, Store.goTo, parents, next]
  current := inside
  covers := Store.holds_of_same_frames rfl describes.covers

end Describes

/-- The machine whose store a ledger describes. -/
def At (ledger : Ledger) (machine : Machine) : Prop := ledger.Describes machine.store

section Parts

variable {stage : Ledger} {α : Type}

/-- What leaves the store alone makes no entries. -/
theorem evolves_same {post : Ledger → α → Prop} {body : Evaluation α}
    (same : ∀ machine, (body.run machine).2.store = machine.store)
    (given : ∀ machine value, stage.At machine → (body.run machine).1 = .ok value →
      post stage value) : Evolves At stage post body := by
  intro machine describes
  have describesToo : stage.Describes (body.run machine).2.store := by
    rw [same]
    exact describes
  exact ⟨stage, le_rfl, describesToo, fun value => given machine value describes⟩

theorem evolves_operator {result : Except Failure Value} (span : Span)
    (scalar : GivesScalar result) : Evolves At stage Covers (ofOperator span result) := by
  match result with
  | .ok value => exact evolves_pure (covers_scalar (scalar value rfl))
  | .error (.cause cause) => exact evolves_throw _
  | .error (.fault fault) => exact evolves_throw _

theorem evolves_lookup (span : Span) (name : String) :
    Evolves At stage Covers (lookup span name) := by
  apply evolves_same
  · intro machine
    rw [run_lookup]
    split <;> rfl
  · intro machine value describes given
    rw [run_lookup] at given
    split at given
    · rename_i found
      cases given
      exact Store.holds_lookup describes.covers found
    · cases given

theorem evolves_member (span : Span) {target : Value} (index : Nat) (covered : stage.Covers target) :
    Evolves At stage Covers (member span target index) := by
  unfold member
  split
  · rename_i elements
    split
    · rename_i element found
      exact evolves_pure (covers_tuple.1 covered element (List.mem_of_getElem? found))
    · exact evolves_throw _
  · exact evolves_throw _

theorem evolves_update_store {plan : Store → Except ScriptError α} {change : α → Store → Store}
    (sameShape : ∀ store planned, (change planned store).shape = store.shape)
    (covers : ∀ store planned, store.Holds stage.Covers → plan store = .ok planned →
      (change planned store).Holds stage.Covers) :
    Evolves At stage (fun _ _ => True) (updateStore plan change) := by
  intro machine describes
  refine ⟨stage, le_rfl, ?_, fun _ _ => trivial⟩
  rw [run_update_store]
  cases planned : plan machine.store with
  | ok found => exact describes.of_shape (sameShape _ _) (covers _ _ describes.covers planned)
  | error error => exact describes

theorem evolves_assign (span : Span) (name : String) {value : Value} (covered : stage.Covers value) :
    Evolves At stage (fun _ _ => True) (assign span name value) := by
  rw [assign_eq]
  apply evolves_update_store fun _ _ => Store.shape_replace_binding _ _ _ _
  exact fun _ owner covers _ => Store.holds_replace_binding covers owner name covered

theorem evolves_declare_at (span : Option Span) (name : String) {value : Value}
    (covered : stage.Covers value) :
    Evolves At stage (fun _ _ => True) (declareAt span name value) := by
  rw [declare_at_eq]
  apply evolves_update_store fun _ _ => Store.shape_add_binding _ _ _ _
  exact fun _ frame covers _ => Store.holds_add_binding covers frame name covered

/-- The parts of a value that a pattern binds hold no other functions. -/
theorem planned_covered {pattern : Pattern} {value : Value} (covered : stage.Covers value)
    {targets : List Target} (found : pattern.targets value = .ok targets) :
    ∀ binding ∈ targets.map Target.binding, stage.Covers binding.2 :=
  bindings_of_targets_good (pattern.targets_good (fun _ => covers_tuple.1) covered found)

theorem evolves_declare_pattern (pattern : Pattern) {value : Value}
    (covered : stage.Covers value) :
    Evolves At stage (fun _ _ => True) (declarePattern pattern value) := by
  rw [declare_pattern_eq]
  apply evolves_update_store fun _ _ => Store.shape_add_all _ _
  intro store planned covers plan
  have ⟨targets, found, checked⟩ := except_bind_ok plan
  have ⟨_, _, given⟩ := except_bind_ok checked
  cases given
  exact Store.holds_add_all covers (planned_covered covered found)

theorem evolves_assign_pattern (pattern : Pattern) {value : Value}
    (covered : stage.Covers value) :
    Evolves At stage (fun _ _ => True) (assignPattern pattern value) := by
  rw [assign_pattern_eq]
  apply evolves_update_store fun _ _ => Store.shape_assign_all _ _
  intro store planned covers plan
  have ⟨targets, found, checked⟩ := except_bind_ok plan
  have ⟨_, _, given⟩ := except_bind_ok checked
  cases given
  exact Store.holds_assign_all covers (planned_covered covered found)

theorem evolves_declare_parameters (parameters : List String) {arguments : List Value}
    (covered : ∀ value ∈ arguments, stage.Covers value) :
    Evolves At stage (fun _ _ => True) (declareParameters parameters arguments) := by
  fun_induction declareParameters parameters arguments generalizing stage with
  | case1 parameter parameters argument arguments induction =>
      obtain ⟨first, others⟩ := List.forall_mem_cons.1 covered
      apply evolves_bind (evolves_declare_at _ _ first)
      intro late _ grows _
      exact induction fun value member => (others value member).later grows
  | case2 => exact evolves_pure trivial

theorem evolves_checkpoint (context : Context) (kind : NodeKind) (span : Span) :
    Evolves At stage (fun _ _ => True) (checkpoint context kind span) := by
  apply evolves_same
  · intro machine
    rw [run_checkpoint]
    split
    · rfl
    · split
      · rfl
      · split <;> rfl
  · exact fun _ _ _ _ => trivial

/-- A function that is made is entered with the next number. -/
theorem evolves_make_closure (name : Option String) (parameters : List String) (body : Block) :
    Evolves At stage Covers (makeClosure name parameters body) := by
  intro machine describes
  rw [run_make_closure]
  let closure : Closure :=
    ⟨.script machine.store.nextFunction, name, parameters, body, machine.store.current⟩
  have next : closure.identity = .script stage.made.length :=
    congrArg Identity.script describes.next_function
  have grows := le_record closure next describes.current
  refine ⟨stage.record closure next describes.current, grows, ?_, ?_⟩
  · constructor
    · have numbers := describes.next_function
      simp [Store.shape, Store.freshFunction, record, describes.parents, numbers]
    · exact describes.current
    · intro frame member binding bound
      exact (describes.covers frame member binding bound).later grows
  · intro value given
    cases given
    exact covers_function.2 (List.mem_append_right _ List.mem_cons_self)

/-- A body that runs in a frame of its own leaves the frame behind, and an entry for it. -/
theorem evolves_restoring {post : Ledger → α → Prop} {body : Evaluation α} (name : String)
    (parent : Store → FrameId) (calls : Nat)
    (inside : ∀ store, stage.Describes store → parent store < stage.parents.length)
    (related : ∀ late, stage ≤ late → Evolves At late post body) :
    Evolves At stage post (restoring (entering name parent calls) body) := by
  intro machine describes
  have within := inside machine.store describes
  have entered := describes.enter name within
  have ⟨late, grows, after, given⟩ :=
    related _ (le_enter _ within) (entering name parent calls machine) entered
  have known : stage ≤ late := (le_enter _ within).trans grows
  have stillInside := Nat.lt_of_lt_of_le describes.current known.1.length_le
  rw [run_restoring]
  exact ⟨late, known, after.go_to stillInside, given⟩

theorem evolves_call (context : Context) (span : Span) {closure : Closure}
    (known : stage.Covers (.function (.closure closure))) {arguments : List Value}
    (covered : ∀ value ∈ arguments, stage.Covers value) {body : Evaluation Value}
    (related : ∀ late, stage ≤ late → Evolves At late Covers body) :
    Evolves At stage Covers (inCall context span closure arguments body) := by
  rw [in_call_eq]
  have admitted : Evolves At stage (fun _ _ => True) (admitCall context span) :=
    evolves_same (fun _ => rfl) fun _ _ _ _ => trivial
  apply evolves_bind admitted
  intro ready _ readied _
  have captured : closure.frame < stage.parents.length :=
    stage.captured (covers_function.1 known)
  have stillInside := Nat.lt_of_lt_of_le captured readied.1.length_le
  apply evolves_restoring _ _ _ fun _ _ => stillInside
  intro inside entered
  have stillCovered : ∀ value ∈ arguments, inside.Covers value :=
    fun value member => (covered value member).later (readied.trans entered)
  apply evolves_bind (evolves_declare_parameters _ stillCovered)
  intro late _ bound _
  exact related late ((readied.trans entered).trans bound)

end Parts

/-- Evaluation keeps a ledger: whatever it does, some later ledger describes the store. -/
theorem evolution (context : Context) : Evolution context (fun _ => True) At Covers where
  rules := {
    later := fun grows covered => covered.later grows
    pure := evolves_pure
    bind := evolves_bind
    widen := fun related => related
    outOfFuel := fun _ => evolves_throw _
    failExpression := fun _ => evolves_throw _
    literal := fun {_ _ value} _ => covers_scalar (by cases value <;> exact trivial)
    nothing := covers_scalar trivial
    bool := covers_scalar trivial
    tuple := covers_tuple.2
    lookup := fun _ => evolves_lookup _ _
    binary := fun _ _ _ _ => evolves_operator _ (BinaryOperator.apply_scalar _ _ _ _)
    unary := fun _ _ => evolves_operator _ (UnaryOperator.apply_scalar _ _)
    member := fun _ covered => evolves_member _ _ covered
    assign := fun _ covered => evolves_assign _ _ covered
    function := fun _ => evolves_make_closure _ _ _
    native := by
      intro stage native arguments _
      apply evolves_same
      · intro machine
        rw [run_call_native]
        split <;> rfl
      · intro machine value _ given
        rw [run_call_native] at given
        cases given
        exact covers_scalar trivial
    closureBody := fun _ _ _ => trivial
    call := fun _ known covered _ related => evolves_call _ _ known covered related
    inScope := by
      intro stage α post name body _ related
      rw [in_scope_eq_restoring]
      exact evolves_restoring _ _ _ (fun _ describes => describes.current) related
    checkpointExpression := fun _ => evolves_checkpoint _ _ _
    checkpointStatement := fun _ => evolves_checkpoint _ _ _
    declarePattern := fun _ covered => evolves_declare_pattern _ covered
    assignPattern := fun _ covered => evolves_assign_pattern _ covered
    define := fun _ => evolves_make_closure _ _ _
    declare := fun _ covered => evolves_declare_at _ _ covered }
  entered describes name := ⟨_, le_enter _ describes.current, describes.enter name describes.current⟩
  bound {stage machine _ closure _} describes known covered ran := by
    have captured : closure.frame < stage.parents.length :=
      stage.captured (covers_function.1 known)
    have entered : (stage.enter closure.frame captured).At (enteringCall closure machine) :=
      describes.enter _ captured
    have grows := le_enter closure.frame captured
    have ⟨late, further, inside, _⟩ :=
      (evolves_declare_parameters closure.parameters fun value member =>
        (covered value member).later grows).after ran entered
    exact ⟨late, grows.trans further, inside⟩

/-- Before the first run there is the global frame with the functions of the host. -/
theorem start_describes : start.Describes Store.initial where
  shape := by rfl
  current := by decide
  covers := Store.initial_holds (covers_function.2 ⟨Builtin.printing, List.mem_cons_self, rfl⟩)

end Ledger

end LayoutScript
