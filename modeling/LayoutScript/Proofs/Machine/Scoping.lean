import LayoutScript.Proofs.Machine.Preservation

/-!
Lexical scoping. An evaluation sees the frames that can be reached from the current one:
outward along parents, and into the frames that functions in reached frames have captured. It
changes no other frame, and what other frames hold makes no difference to it. A call starts
from the captured frame and the arguments, not from the frames of its caller.
-/

namespace LayoutScript

open Evaluation

/-- The frames that can be reached from some roots, outward along parents and into the frames
captured by functions that a reached frame binds, also inside tuples. -/
inductive Store.Reaches (store : Store) (roots : FrameId → Prop) : FrameId → Prop where
  | root {frame : FrameId} (isRoot : roots frame) : store.Reaches roots frame
  | parent {frame outer : FrameId} {found : Frame} (reached : store.Reaches roots frame)
      (present : store.frames[frame]? = some found) (outward : found.parent = some outer) :
      store.Reaches roots outer
  | captured {frame : FrameId} {found : Frame} {binding : String × Value} {closure : Closure}
      (reached : store.Reaches roots frame) (present : store.frames[frame]? = some found)
      (bound : binding ∈ found.bindings) (held : closure ∈ binding.2.closures) :
      store.Reaches roots closure.frame

/-- Two stores that have given out the same frames and functions, are in the same frame, and
hold the same in some frames. -/
structure Store.AgreeOn (visible : FrameId → Prop) (first second : Store) : Prop where
  current : second.current = first.current
  functions : second.nextFunction = first.nextFunction
  size : second.frames.size = first.frames.size
  frames : ∀ frame, visible frame → second.frames[frame]? = first.frames[frame]?

/-- Two machines that differ at most in what the other frames hold. -/
structure Machine.AgreeOn (visible : FrameId → Prop) (first second : Machine) : Prop where
  store : first.store.AgreeOn visible second.store
  others : second = { first with store := second.store }

/-- All functions in a value have captured visible frames. -/
def Value.CapturesIn (visible : FrameId → Prop) (value : Value) : Prop :=
  ∀ closure ∈ value.closures, visible closure.frame

theorem Value.Scalar.captures_in {visible : FrameId → Prop} {value : Value}
    (scalar : value.Scalar) : value.CapturesIn visible := by
  intro closure member
  cases value with
  | tuple elements => exact scalar.elim
  | function callable => exact scalar.elim
  | _ => simp [Value.closures] at member

theorem Value.captures_in_tuple {visible : FrameId → Prop} {elements : List Value} :
    (Value.tuple elements).CapturesIn visible ↔
      ∀ element ∈ elements, element.CapturesIn visible := by
  simp only [Value.CapturesIn, Value.closures, Value.closures_all_mem]
  constructor
  · intro captures element member closure inside
    exact captures closure ⟨element, member, inside⟩
  · intro captures closure found
    obtain ⟨element, member, inside⟩ := found
    exact captures element member closure inside

theorem Value.captures_in_closure {visible : FrameId → Prop} {closure : Closure} :
    (Value.function (.closure closure)).CapturesIn visible ↔ visible closure.frame := by
  simp only [Value.CapturesIn, Value.closures, List.mem_singleton, forall_eq]

/-- Visible frames lead to visible frames only, and frames that are still to come are visible. -/
structure Store.Inside (visible : FrameId → Prop) (store : Store) : Prop where
  beyond : ∀ frame, store.frames.size ≤ frame → visible frame
  parents : ∀ {frame outer : FrameId} {found : Frame}, visible frame →
    store.frames[frame]? = some found → found.parent = some outer → visible outer
  values : ∀ {frame : FrameId} {found : Frame}, visible frame →
    store.frames[frame]? = some found → ∀ binding ∈ found.bindings, binding.2.CapturesIn visible

namespace Store

variable {visible : FrameId → Prop} {store other : Store}

theorem resolve_within_agrees (inside : store.Inside visible) (agree : store.AgreeOn visible other)
    (name : String) (fuel : Nat) {frame : FrameId} (seen : visible frame) :
    resolveWithin other.frames name fuel frame = resolveWithin store.frames name fuel frame ∧
      ∀ owner, resolveWithin store.frames name fuel frame = some owner → visible owner := by
  induction fuel generalizing frame with
  | zero => simp [resolveWithin]
  | succ fuel induction =>
      rw [resolveWithin, resolveWithin, agree.frames frame seen]
      cases present : store.frames[frame]? with
      | none => simp
      | some found =>
          by_cases binds : found.bindings.binds name
          · simp only [if_pos binds, true_and]
            intro owner same
            cases same
            exact seen
          · simp only [if_neg binds]
            cases outward : found.parent with
            | none => simp
            | some outer => exact induction (inside.parents seen present outward)

theorem resolve_agrees (inside : store.Inside visible) (agree : store.AgreeOn visible other)
    (name : String) {frame : FrameId} (seen : visible frame) :
    other.resolve? frame name = store.resolve? frame name := by
  unfold resolve?
  rw [agree.size]
  exact (resolve_within_agrees inside agree name _ seen).1

theorem resolve_visible (inside : store.Inside visible) {name : String} {frame owner : FrameId}
    (seen : visible frame) (found : store.resolve? frame name = some owner) : visible owner :=
  (resolve_within_agrees inside ⟨rfl, rfl, rfl, fun _ _ => rfl⟩ name _ seen).2 owner found

theorem bindings_agree (agree : store.AgreeOn visible other) {frame : FrameId}
    (seen : visible frame) : other.bindings frame = store.bindings frame := by
  unfold bindings
  rw [agree.frames frame seen]

theorem lookup_agrees (inside : store.Inside visible) (agree : store.AgreeOn visible other)
    (seen : visible store.current) (name : String) : other.lookup? name = store.lookup? name := by
  unfold lookup? lookupFrom?
  rw [agree.current, resolve_agrees inside agree name seen]
  cases found : store.resolve? store.current name with
  | none => rfl
  | some owner => simp [bindings_agree agree (resolve_visible inside seen found)]

theorem lookup_captures_in (inside : store.Inside visible) (seen : visible store.current)
    {name : String} {value : Value} (found : store.lookup? name = some value) :
    value.CapturesIn visible := by
  unfold lookup? lookupFrom? at found
  obtain ⟨owner, resolved, bound⟩ := Option.bind_eq_some_iff.1 found
  obtain ⟨before, after, split, _⟩ := List.lookup_eq_some_iff.1 bound
  have member : (name, value) ∈ store.bindings owner := by simp [split]
  unfold bindings at member
  split at member
  · rename_i frame present
    exact inside.values (resolve_visible inside seen resolved) present _ member
  · cases member

theorem chain_within_agrees (inside : store.Inside visible) (agree : store.AgreeOn visible other)
    (fuel : Nat) {frame : FrameId} (seen : visible frame) :
    chainWithin other.frames fuel frame = chainWithin store.frames fuel frame := by
  induction fuel generalizing frame with
  | zero => rfl
  | succ fuel induction =>
      rw [chainWithin, chainWithin, agree.frames frame seen]
      cases present : store.frames[frame]? with
      | none => rfl
      | some found =>
          cases outward : found.parent with
          | none => simp only [outward]
          | some outer =>
              simp only [outward, List.cons.injEq, true_and]
              exact induction (inside.parents seen present outward)

theorem chain_agrees (inside : store.Inside visible) (agree : store.AgreeOn visible other)
    (seen : visible store.current) : other.chain = store.chain := by
  unfold chain
  rw [agree.size, agree.current]
  exact chain_within_agrees inside agree _ seen

theorem check_declared_agrees (agree : store.AgreeOn visible other)
    (seen : visible store.current) (leaves : List (Span × String)) (names : List String) :
    other.checkDeclared names leaves = store.checkDeclared names leaves := by
  induction leaves generalizing names with
  | nil => rfl
  | cons leaf leaves induction =>
      have same : other.bindsHere leaf.2 = store.bindsHere leaf.2 := by
        unfold bindsHere
        rw [agree.current, bindings_agree agree seen]
      rw [checkDeclared, checkDeclared, same, induction]

theorem check_assigned_agrees (inside : store.Inside visible) (agree : store.AgreeOn visible other)
    (seen : visible store.current) (leaves : List (Span × String)) :
    other.checkAssigned leaves = store.checkAssigned leaves := by
  induction leaves with
  | nil => rfl
  | cons leaf leaves induction =>
      have same : other.contains leaf.2 = store.contains leaf.2 := by
        unfold contains containsFrom
        rw [agree.current, resolve_agrees inside agree leaf.2 seen]
      rw [checkAssigned, checkAssigned, same, induction]

/-- What a step on two stores at once may do: both are changed in the same visible frames. -/
structure Stepped (visible : FrameId → Prop) (before after after' : Store) : Prop where
  agree : after.AgreeOn visible after'
  inside : after.Inside visible
  current : after.current = before.current
  hidden : ∀ frame, ¬visible frame → after.frames[frame]? = before.frames[frame]?

theorem stepped_refl (inside : store.Inside visible) (agree : store.AgreeOn visible other) :
    Stepped visible store store other :=
  ⟨agree, inside, rfl, fun _ _ => rfl⟩

/-- A visible frame is changed in both stores, and holds no functions from elsewhere. -/
theorem stepped_modify (inside : store.Inside visible) (agree : store.AgreeOn visible other)
    {owner : FrameId} (seen : visible owner) {change : Frame → Frame}
    (sameParent : ∀ found, (change found).parent = found.parent)
    (values : ∀ found, store.frames[owner]? = some found →
      ∀ binding ∈ (change found).bindings, binding.2.CapturesIn visible) :
    Stepped visible store { store with frames := store.frames.modify owner change }
      { other with frames := other.frames.modify owner change } where
  agree := {
    current := agree.current
    functions := agree.functions
    size := by simp [agree.size]
    frames := fun frame isSeen => by
      simp only [Array.getElem?_modify, agree.frames frame isSeen] }
  inside := {
    beyond := fun frame later => inside.beyond frame (by simpa using later)
    parents := by
      intro frame outer found isSeen present outward
      simp only [Array.getElem?_modify] at present
      split at present
      · cases old : store.frames[frame]? with
        | none => simp [old] at present
        | some former =>
            have changed : change former = found := by simpa [old] using present
            rw [← changed, sameParent] at outward
            exact inside.parents isSeen old outward
      · exact inside.parents isSeen present outward
    values := by
      intro frame found isSeen present
      simp only [Array.getElem?_modify] at present
      split at present
      · rename_i same
        cases old : store.frames[frame]? with
        | none => simp [old] at present
        | some former =>
            have changed : change former = found := by simpa [old] using present
            rw [← changed]
            exact values former (by rw [same, old])
      · exact inside.values isSeen present }
  current := rfl
  hidden := fun frame unseen => by
    have apart : owner ≠ frame := fun same => unseen (same ▸ seen)
    simp [Array.getElem?_modify, apart]

theorem stepped_add_binding (inside : store.Inside visible) (agree : store.AgreeOn visible other)
    {owner : FrameId} (seen : visible owner) (name : String) {value : Value}
    (captures : value.CapturesIn visible) :
    Stepped visible store (store.addBinding owner name value)
      (other.addBinding owner name value) := by
  apply stepped_modify inside agree seen
  · intro found
    rfl
  · intro found present binding member
    rcases List.mem_cons.1 member with rfl | old
    · exact captures
    · exact inside.values seen present binding old

theorem stepped_replace_binding (inside : store.Inside visible)
    (agree : store.AgreeOn visible other) {owner : FrameId} (seen : visible owner) (name : String)
    {value : Value} (captures : value.CapturesIn visible) :
    Stepped visible store (store.replaceBinding owner name value)
      (other.replaceBinding owner name value) := by
  apply stepped_modify inside agree seen
  · intro found
    rfl
  · intro found present binding member
    rcases bindings_replace_mem member with rfl | old
    · exact captures
    · exact inside.values seen present binding old

theorem Stepped.trans {first second third second' third' : Store}
    (early : Stepped visible first second second') (late : Stepped visible second third third') :
    Stepped visible first third third' where
  agree := late.agree
  inside := late.inside
  current := late.current.trans early.current
  hidden := fun frame unseen => (late.hidden frame unseen).trans (early.hidden frame unseen)

theorem stepped_add_all {planned : Bindings} (inside : store.Inside visible)
    (agree : store.AgreeOn visible other) (seen : visible store.current)
    (captures : ∀ binding ∈ planned, binding.2.CapturesIn visible) :
    Stepped visible store (addAll planned store) (addAll planned other) := by
  induction planned generalizing store other with
  | nil => exact stepped_refl inside agree
  | cons first others induction =>
      have one := stepped_add_binding inside agree seen first.1 (captures first List.mem_cons_self)
      have othersCapture : ∀ binding ∈ others, binding.2.CapturesIn visible :=
        fun binding member => captures binding (List.mem_cons_of_mem _ member)
      rw [addAll, addAll, agree.current]
      exact one.trans (induction one.inside one.agree seen othersCapture)

theorem stepped_assign_all {planned : Bindings} (inside : store.Inside visible)
    (agree : store.AgreeOn visible other) (seen : visible store.current)
    (captures : ∀ binding ∈ planned, binding.2.CapturesIn visible) :
    Stepped visible store (assignAll planned store) (assignAll planned other) := by
  induction planned generalizing store other with
  | nil => exact stepped_refl inside agree
  | cons first others induction =>
      have othersCapture : ∀ binding ∈ others, binding.2.CapturesIn visible :=
        fun binding member => captures binding (List.mem_cons_of_mem _ member)
      rw [assignAll, assignAll, agree.current, resolve_agrees inside agree _ seen]
      cases found : store.resolve? store.current first.1 with
      | none => exact induction inside agree seen othersCapture
      | some owner =>
          have one := stepped_replace_binding inside agree (resolve_visible inside seen found)
            first.1 (captures first List.mem_cons_self)
          exact one.trans (induction one.inside one.agree seen othersCapture)

theorem inside_enter (inside : store.Inside visible) (name : String) {parent : FrameId}
    (seen : visible parent) : (store.enter name parent).Inside visible where
  beyond := by
    intro frame later
    have size : (store.enter name parent).frames.size = store.frames.size + 1 := by simp [enter]
    exact inside.beyond frame (by omega)
  parents := by
    intro frame outer found isSeen present outward
    simp only [enter, Array.getElem?_push] at present
    split at present
    · cases present
      cases outward
      exact seen
    · exact inside.parents isSeen present outward
  values := by
    intro frame found isSeen present
    simp only [enter, Array.getElem?_push] at present
    split at present
    · cases present
      simp
    · exact inside.values isSeen present

theorem agree_enter (agree : store.AgreeOn visible other) (name : String) (parent : FrameId) :
    (store.enter name parent).AgreeOn visible (other.enter name parent) where
  current := agree.size
  functions := agree.functions
  size := by simp [enter, agree.size]
  frames := by
    intro frame seen
    simp only [enter, Array.getElem?_push, agree.size, agree.frames frame seen]

end Store

/-- What two evaluations from machines that agree on the visible frames have in common, and
what the first of them does to its machine. -/
structure ConfinedRun {α : Type} (visible : FrameId → Prop) (post : α → Prop) (before : Machine)
    (result result' : Except Stop α × Machine) : Prop where
  same : result'.1 = result.1
  agree : result.2.AgreeOn visible result'.2
  inside : result.2.store.Inside visible
  current : result.2.store.current = before.store.current
  hidden : ∀ frame, ¬visible frame →
    result.2.store.frames[frame]? = before.store.frames[frame]?
  good : ∀ value, result.1 = .ok value → post value

/-- From a visible frame, two evaluations neither see nor touch a frame that is not visible. -/
def Confined (visible : FrameId → Prop) {α : Type} (post : α → Prop)
    (body body' : Evaluation α) : Prop :=
  ∀ machine other, machine.store.Inside visible → visible machine.store.current →
    machine.AgreeOn visible other →
    ConfinedRun visible post machine (body.run machine) (body'.run other)

section Confined

variable {visible : FrameId → Prop} {α β : Type}

theorem agree_with_store {machine other : Machine} (agree : machine.AgreeOn visible other)
    {store store' : Store} (stores : store.AgreeOn visible store') :
    ({ machine with store } : Machine).AgreeOn visible { other with store := store' } := by
  refine ⟨stores, ?_⟩
  rw [agree.others]

/-- An evaluation that only reads the machine, and reads the same on both sides. -/
theorem confined_read {post : α → Prop} {body : Evaluation α} (outcome : Machine → Except Stop α)
    (run : ∀ machine, body.run machine = (outcome machine, machine))
    (reads : ∀ machine other, machine.store.Inside visible → visible machine.store.current →
      machine.AgreeOn visible other → outcome other = outcome machine ∧
        ∀ value, outcome machine = .ok value → post value) : Confined visible post body body := by
  intro machine other inside seen agree
  obtain ⟨same, good⟩ := reads machine other inside seen agree
  rw [run, run]
  exact ⟨same, agree, inside, rfl, fun _ _ => rfl, good⟩

theorem confined_pure {post : α → Prop} {value : α} (holds : post value) :
    Confined visible post (pure value) (pure value) := by
  apply confined_read (fun _ => .ok value) fun _ => rfl
  intro _ _ _ _ _
  refine ⟨rfl, fun result given => ?_⟩
  cases given
  exact holds

theorem confined_throw {post : α → Prop} (stop : Stop) :
    Confined visible post (throw stop : Evaluation α) (throw stop) := by
  apply confined_read (fun _ => .error stop) fun _ => rfl
  intro _ _ _ _ _
  refine ⟨rfl, fun result given => ?_⟩
  cases given

theorem confined_bind {between : α → Prop} {post : β → Prop} {body body' : Evaluation α}
    {next next' : α → Evaluation β} (start : Confined visible between body body')
    (rest : ∀ value, between value → Confined visible post (next value) (next' value)) :
    Confined visible post (body >>= next) (body' >>= next') := by
  intro machine other inside seen agree
  have early := start machine other inside seen agree
  rcases run_cases body machine with ⟨value, after, run⟩ | ⟨stop, after, run⟩
  · rw [run] at early
    have run' : body'.run other = (.ok value, (body'.run other).2) := Prod.ext early.same rfl
    have stillSeen : visible after.store.current := by
      have current := early.current
      rw [current]
      exact seen
    have late := rest value (early.good value rfl) after (body'.run other).2 early.inside stillSeen
      early.agree
    rw [run_bind_ok run, run_bind_ok run']
    exact {
      same := late.same
      agree := late.agree
      inside := late.inside
      current := late.current.trans early.current
      hidden := fun frame unseen => (late.hidden frame unseen).trans (early.hidden frame unseen)
      good := late.good }
  · rw [run] at early
    have run' : body'.run other = (.error stop, (body'.run other).2) := Prod.ext early.same rfl
    rw [run_bind_error run, run_bind_error run']
    exact ⟨rfl, early.agree, early.inside, early.current, early.hidden, fun value given => by
      cases given⟩

theorem confined_operator {post : α → Prop} (span : Span) {result : Except Failure α}
    (holds : ∀ value, result = .ok value → post value) :
    Confined visible post (ofOperator span result) (ofOperator span result) := by
  match result with
  | .ok value => exact confined_pure (holds value rfl)
  | .error (.cause cause) => exact confined_throw _
  | .error (.fault fault) => exact confined_throw _

theorem confined_update {plan : Store → Except ScriptError α} {change : α → Store → Store}
    (plans : ∀ store other, store.Inside visible → visible store.current →
      store.AgreeOn visible other → plan other = plan store)
    (steps : ∀ store other planned, store.Inside visible → visible store.current →
      store.AgreeOn visible other → plan store = .ok planned →
      Store.Stepped visible store (change planned store) (change planned other)) :
    Confined visible (fun _ => True) (updateStore plan change) (updateStore plan change) := by
  intro machine other inside seen agree
  rw [run_update_store, run_update_store, plans _ _ inside seen agree.store]
  cases plan : plan machine.store with
  | ok planned =>
      have step := steps _ _ planned inside seen agree.store plan
      exact ⟨rfl, agree_with_store agree step.agree, step.inside, step.current, step.hidden,
        fun _ _ => trivial⟩
  | error error => exact ⟨rfl, agree, inside, rfl, fun _ _ => rfl, fun _ _ => trivial⟩

/-- A body in a new frame below a visible one. The frame that was current need not be visible:
it is only returned to. -/
theorem confined_restoring {post : α → Prop} {body body' : Evaluation α}
    (confined : Confined visible post body body') (name : String) (parent : Store → FrameId)
    (calls : Nat) {machine other : Machine} (inside : machine.store.Inside visible)
    (seen : visible (parent machine.store)) (sameParent : parent other.store = parent machine.store)
    (agree : machine.AgreeOn visible other) :
    ConfinedRun visible post machine ((restoring (entering name parent calls) body).run machine)
      ((restoring (entering name parent calls) body').run other) := by
  have entered : (entering name parent calls machine).AgreeOn visible
      (entering name parent calls other) := by
    have stores := Store.agree_enter agree.store name (parent machine.store)
    refine ⟨?_, ?_⟩
    · simpa only [entering, sameParent] using stores
    · rw [agree.others]
      rfl
  have fresh : visible (entering name parent calls machine).store.current :=
    inside.beyond _ (Nat.le_refl _)
  have run := confined (entering name parent calls machine) (entering name parent calls other)
    (Store.inside_enter inside name seen) fresh entered
  rw [run_restoring, run_restoring]
  exact {
    same := run.same
    agree := by
      refine ⟨⟨agree.store.current, run.agree.store.functions, run.agree.store.size,
        run.agree.store.frames⟩, ?_⟩
      rw [run.agree.others, agree.others]
      rfl
    inside := ⟨run.inside.beyond, run.inside.parents, run.inside.values⟩
    current := rfl
    hidden := by
      intro frame unseen
      have old : frame < machine.store.frames.size :=
        Nat.lt_of_not_le fun later => unseen (inside.beyond frame later)
      have kept := run.hidden frame unseen
      have pushed : (entering name parent calls machine).store.frames[frame]? =
          machine.store.frames[frame]? := by
        simp [entering, Store.enter, Array.getElem?_push, Nat.ne_of_lt old]
      exact kept.trans pushed
    good := run.good }

theorem confined_checkpoint (context : Context) (kind : NodeKind) (span : Span) :
    Confined visible (fun _ => True) (checkpoint context kind span)
      (checkpoint context kind span) := by
  intro machine other inside seen agree
  have chain := Store.chain_agrees inside agree.store seen
  have steps : other.steps = machine.steps := by rw [agree.others]
  have countedAgree : (counted span machine).AgreeOn visible (counted span other) := by
    refine ⟨agree.store, ?_⟩
    rw [agree.others]
    rfl
  have watchedAgree : (watched kind span machine).AgreeOn visible (watched kind span other) := by
    refine ⟨agree.store, ?_⟩
    unfold watched
    rw [chain, agree.others]
    rfl
  rw [run_checkpoint, run_checkpoint, steps]
  split
  · exact ⟨rfl, countedAgree, inside, rfl, fun _ _ => rfl, fun _ _ => trivial⟩
  · split
    · exact ⟨rfl, countedAgree, inside, rfl, fun _ _ => rfl, fun _ _ => trivial⟩
    · split
      · exact ⟨rfl, watchedAgree, inside, rfl, fun _ _ => rfl, fun _ _ => trivial⟩
      · exact ⟨rfl, watchedAgree, inside, rfl, fun _ _ => rfl, fun _ _ => trivial⟩

theorem confined_lookup (span : Span) (name : String) :
    Confined visible (Value.CapturesIn visible) (lookup span name) (lookup span name) := by
  apply confined_read (fun machine => (machine.store.lookup? name).elim
    (.error (.error (.located (.undefinedVariable name) span))) .ok)
  · intro machine
    rw [run_lookup]
    cases machine.store.lookup? name <;> rfl
  · intro machine other inside seen agree
    rw [Store.lookup_agrees inside agree.store seen name]
    refine ⟨rfl, fun value given => ?_⟩
    cases found : machine.store.lookup? name with
    | none => simp [found] at given
    | some bound =>
        have same : bound = value := by simpa [found] using given
        rw [← same]
        exact Store.lookup_captures_in inside seen found

theorem confined_member (span : Span) {target : Value} (index : Nat)
    (captures : target.CapturesIn visible) :
    Confined visible (Value.CapturesIn visible) (member span target index)
      (member span target index) := by
  unfold member
  split
  · rename_i elements
    split
    · rename_i element found
      exact confined_pure
        (Value.captures_in_tuple.1 captures element (List.mem_of_getElem? found))
    · exact confined_throw _
  · exact confined_throw _

/-- A new function captures the current frame, and both machines number it alike. -/
theorem confined_make_closure (name : Option String) (parameters : List String) (body : Block) :
    Confined visible (Value.CapturesIn visible) (makeClosure name parameters body)
      (makeClosure name parameters body) := by
  intro machine other inside seen agree
  rw [run_make_closure, run_make_closure, agree.store.functions, agree.store.current]
  have stores : machine.store.freshFunction.2.AgreeOn visible other.store.freshFunction.2 := by
    refine ⟨agree.store.current, ?_, agree.store.size, agree.store.frames⟩
    simp only [Store.freshFunction, agree.store.functions]
  refine ⟨rfl, agree_with_store agree stores, ?_, rfl, fun _ _ => rfl, fun value given => ?_⟩
  · exact ⟨inside.beyond, inside.parents, inside.values⟩
  · cases given
    exact Value.captures_in_closure.2 seen

theorem confined_native (native : Native) (arguments : List Value) :
    Confined visible (Value.CapturesIn visible) (callNative native arguments)
      (callNative native arguments) := by
  intro machine other inside seen agree
  have nothing : ∀ value, (.ok .nothing : Except Stop Value) = .ok value →
      value.CapturesIn visible := by
    intro value given
    cases given
    exact Value.Scalar.captures_in trivial
  rw [run_call_native, run_call_native]
  split
  · refine ⟨rfl, ⟨agree.store, ?_⟩, inside, rfl, fun _ _ => rfl, nothing⟩
    rw [agree.others]
  · exact ⟨rfl, agree, inside, rfl, fun _ _ => rfl, nothing⟩

theorem confined_assign (span : Span) (name : String) {value : Value}
    (captures : value.CapturesIn visible) :
    Confined visible (fun _ => True) (assign span name value) (assign span name value) := by
  rw [assign_eq]
  apply confined_update
  · intro store other inside seen agree
    rw [agree.current, Store.resolve_agrees inside agree name seen]
  · intro store other owner inside seen agree plan
    have resolved : store.resolve? store.current name = some owner := by
      split at plan
      · rename_i found resolved
        cases plan
        exact resolved
      · cases plan
    exact Store.stepped_replace_binding inside agree (Store.resolve_visible inside seen resolved)
      name captures

theorem confined_declare_at (span : Option Span) (name : String) {value : Value}
    (captures : value.CapturesIn visible) :
    Confined visible (fun _ => True) (declareAt span name value) (declareAt span name value) := by
  rw [declare_at_eq]
  apply confined_update
  · intro store other inside seen agree
    unfold Store.bindsHere
    rw [agree.current, Store.bindings_agree agree seen]
  · intro store other frame inside seen agree plan
    split at plan
    · cases plan
    · cases plan
      exact Store.stepped_add_binding inside agree seen name captures

theorem confined_declare_pattern (pattern : Pattern) {value : Value}
    (captures : value.CapturesIn visible) :
    Confined visible (fun _ => True) (declarePattern pattern value)
      (declarePattern pattern value) := by
  rw [declare_pattern_eq]
  apply confined_update
  · intro store other inside seen agree
    simp only [Store.planDeclare, Store.check_declared_agrees agree seen]
  · intro store other planned inside seen agree plan
    obtain ⟨targets, found, plan⟩ := except_bind_ok plan
    obtain ⟨_, _, plan⟩ := except_bind_ok plan
    cases plan
    exact Store.stepped_add_all inside agree seen (bindings_of_targets_good
      (pattern.targets_good (fun _ => Value.captures_in_tuple.1) captures found))

theorem confined_assign_pattern (pattern : Pattern) {value : Value}
    (captures : value.CapturesIn visible) :
    Confined visible (fun _ => True) (assignPattern pattern value)
      (assignPattern pattern value) := by
  rw [assign_pattern_eq]
  apply confined_update
  · intro store other inside seen agree
    simp only [Store.planAssign, Store.check_assigned_agrees inside agree seen]
  · intro store other planned inside seen agree plan
    obtain ⟨targets, found, plan⟩ := except_bind_ok plan
    obtain ⟨_, _, plan⟩ := except_bind_ok plan
    cases plan
    exact Store.stepped_assign_all inside agree seen (bindings_of_targets_good
      (pattern.targets_good (fun _ => Value.captures_in_tuple.1) captures found))

theorem confined_declare_parameters (parameters : List String) {arguments : List Value}
    (captures : ∀ value ∈ arguments, value.CapturesIn visible) :
    Confined visible (fun _ => True) (declareParameters parameters arguments)
      (declareParameters parameters arguments) := by
  fun_induction declareParameters parameters arguments with
  | case1 parameter parameters argument arguments induction =>
      obtain ⟨first, others⟩ := List.forall_mem_cons.1 captures
      exact confined_bind (confined_declare_at _ _ first) fun _ _ => induction others
  | case2 => exact confined_pure trivial

/-- A call sees what its function has captured and its arguments. Whether the frame of the
caller is visible does not matter. -/
theorem confined_run_call {post : α → Prop} {context : Context} {span : Span} {closure : Closure}
    {arguments : List Value} {body body' : Evaluation α} (captured : visible closure.frame)
    (captures : ∀ value ∈ arguments, value.CapturesIn visible)
    (confined : Confined visible post body body') {machine other : Machine}
    (inside : machine.store.Inside visible) (agree : machine.AgreeOn visible other) :
    ConfinedRun visible post machine ((inCall context span closure arguments body).run machine)
      ((inCall context span closure arguments body').run other) := by
  have bound := confined_declare_parameters closure.parameters captures
  have whole := confined_restoring (confined_bind bound fun _ _ => confined)
    ("fn " ++ (Callable.closure closure).callName) (fun _ => closure.frame) 1 inside captured rfl
    agree
  have admitted : admission context span other = admission context span machine := by
    rw [agree.others]
    rfl
  rw [in_call_eq, in_call_eq]
  cases outcome : admission context span machine with
  | ok _ =>
      have run : (admitCall context span).run machine = (.ok (), machine) := by
        rw [run_admit_call, outcome]
      have run' : (admitCall context span).run other = (.ok (), other) := by
        rw [run_admit_call, admitted, outcome]
      rw [run_bind_ok run, run_bind_ok run']
      exact whole
  | error stop =>
      have run : (admitCall context span).run machine = (.error stop, machine) := by
        rw [run_admit_call, outcome]
      have run' : (admitCall context span).run other = (.error stop, other) := by
        rw [run_admit_call, admitted, outcome]
      rw [run_bind_error run, run_bind_error run']
      exact ⟨rfl, agree, inside, rfl, fun _ _ => rfl, fun _ given => by cases given⟩

end Confined

/-- Every evaluation that starts in a visible frame is confined to the visible frames. -/
theorem confined_correspondence (context : Context) (visible : FrameId → Prop) :
    Correspondence context context 0 (fun _ => True) (Value.CapturesIn visible)
      (fun _ _ post body body' => Confined visible post body body') where
  pure := confined_pure
  bind := confined_bind
  widen confined := confined
  outOfFuel same := by
    rw [same rfl]
    exact confined_throw _
  failExpression _ := confined_throw _
  literal {_ value} _ := Value.Scalar.captures_in (by cases value <;> exact trivial)
  nothing := Value.Scalar.captures_in trivial
  bool := Value.Scalar.captures_in trivial
  tuple := Value.captures_in_tuple.2
  lookup _ := confined_lookup _ _
  binary _ _ _ _ := confined_operator _ fun _ given =>
    (BinaryOperator.apply_scalar _ _ _ _ _ given).captures_in
  unary _ _ := confined_operator _ fun _ given =>
    (UnaryOperator.apply_scalar _ _ _ given).captures_in
  member _ captures := confined_member _ _ captures
  assign _ captures := confined_assign _ _ captures
  function _ := confined_make_closure _ _ _
  native _ := confined_native _ _
  closureBody _ := fun _ _ => trivial
  call _ captured captures _ confined := fun _ _ inside _ agree =>
    confined_run_call (Value.captures_in_closure.1 captured) captures confined inside agree
  inScope confined := by
    rw [in_scope_eq_restoring, in_scope_eq_restoring]
    intro machine other inside seen agree
    exact confined_restoring confined _ _ 0 inside seen agree.store.current agree
  checkpointExpression _ := confined_checkpoint _ _ _
  checkpointStatement _ := confined_checkpoint _ _ _
  declarePattern _ captures := confined_declare_pattern _ captures
  assignPattern _ captures := confined_assign_pattern _ captures
  define _ := confined_make_closure _ _ _
  declare _ captures := confined_declare_at _ _ captures

/-- The frames that can be reached from some roots, and those that are still to come. -/
def Store.Open (store : Store) (roots : FrameId → Prop) (frame : FrameId) : Prop :=
  store.Reaches roots frame ∨ store.frames.size ≤ frame

theorem Store.inside_open (store : Store) (roots : FrameId → Prop) :
    store.Inside (store.Open roots) where
  beyond := fun _ later => .inr later
  parents := by
    intro frame outer found isOpen present outward
    rcases isOpen with reached | later
    · exact .inl (.parent reached present outward)
    · simp [Array.getElem?_eq_none later] at present
  values := by
    intro frame found isOpen present binding bound closure held
    rcases isOpen with reached | later
    · exact .inl (.captured reached present bound held)
    · simp [Array.getElem?_eq_none later] at present

/-- An evaluation neither changes nor sees the frames that cannot be reached from some roots.
It leaves them as they are, whatever its outcome; and from every machine that holds the same in
the frames that can be reached, it has the same outcome and leaves the same behind, in those
frames, in the new ones and in everything else. -/
structure ConfinedTo {α : Type} (roots : FrameId → Prop) (machine : Machine)
    (body : Evaluation α) : Prop where
  unchanged : ∀ frame < machine.store.frames.size, ¬machine.store.Reaches roots frame →
    (body.run machine).2.store.frames[frame]? = machine.store.frames[frame]?
  independent : ∀ other, machine.AgreeOn (machine.store.Reaches roots) other →
    (body.run other).1 = (body.run machine).1 ∧
      (body.run machine).2.AgreeOn (machine.store.Open roots) (body.run other).2

theorem Machine.AgreeOn.on_open {roots : FrameId → Prop} {machine other : Machine}
    (agree : machine.AgreeOn (machine.store.Reaches roots) other) :
    machine.AgreeOn (machine.store.Open roots) other := by
  have stores := agree.store
  refine ⟨⟨stores.current, stores.functions, stores.size, fun frame isOpen => ?_⟩, agree.others⟩
  rcases isOpen with reached | later
  · exact stores.frames frame reached
  · have later' : other.store.frames.size ≤ frame := by
      rw [stores.size]
      exact later
    rw [Array.getElem?_eq_none later, Array.getElem?_eq_none later']

theorem confined_to_of_runs {α : Type} {roots : FrameId → Prop} {machine : Machine}
    {post : α → Prop} {body : Evaluation α}
    (runs : ∀ other, machine.AgreeOn (machine.store.Open roots) other →
      ConfinedRun (machine.store.Open roots) post machine (body.run machine) (body.run other)) :
    ConfinedTo roots machine body where
  unchanged := by
    intro frame old unreached
    have closed : ¬machine.store.Open roots frame := by
      intro isOpen
      rcases isOpen with reached | later
      · exact unreached reached
      · exact Nat.not_le_of_lt old later
    exact (runs machine ⟨⟨rfl, rfl, rfl, fun _ _ => rfl⟩, rfl⟩).hidden frame closed
  independent := by
    intro other agree
    have run := runs other agree.on_open
    exact ⟨run.same, run.agree⟩

/-- The frames that a call starts from: the one its function has captured, and those that
functions among its arguments have captured. -/
def CallRoots (closure : Closure) (arguments : List Value) (frame : FrameId) : Prop :=
  frame = closure.frame ∨
    ∃ argument ∈ arguments, ∃ passed ∈ argument.closures, frame = passed.frame

/-- Scoping is lexical. Expressions and statements neither see nor change frames that cannot be
reached from the current one; and a call neither sees nor changes frames that cannot be reached
from its function and its arguments, so that the frames of its caller are no concern of it. -/
theorem evaluation_confined_to_reachable_frames (context : Context) (fuel : Nat)
    (machine : Machine) :
    (∀ tree : Expression,
      ConfinedTo (· = machine.store.current) machine (evaluate context fuel tree)) ∧
    (∀ tree : Statement,
      ConfinedTo (· = machine.store.current) machine (execute context fuel tree)) ∧
    ∀ (span : Span) (closure : Closure) (arguments : List Value),
      ConfinedTo (CallRoots closure arguments) machine
        (inCall context span closure arguments (executeBlock context fuel closure.body)) := by
  have related (visible : FrameId → Prop) :=
    (confined_correspondence context visible).related_at_every_fuel fuel
  have inside := machine.store.inside_open
  have here : machine.store.Open (· = machine.store.current) machine.store.current :=
    .inl (.root rfl)
  refine ⟨fun tree => ?_, fun tree => ?_, fun span closure arguments => ?_⟩
  · exact confined_to_of_runs fun other agree =>
      (related _).evaluate tree (fun _ _ => trivial) machine other (inside _) here agree
  · exact confined_to_of_runs fun other agree =>
      (related _).execute tree (fun _ _ => trivial) machine other (inside _) here agree
  · apply confined_to_of_runs
    intro other agree
    have captured : machine.store.Open (CallRoots closure arguments) closure.frame :=
      .inl (.root (.inl rfl))
    have captures : ∀ argument ∈ arguments,
        argument.CapturesIn (machine.store.Open (CallRoots closure arguments)) :=
      fun argument member passed held => .inl (.root (.inr ⟨argument, member, passed, held, rfl⟩))
    exact confined_run_call captured captures
      ((related _).executeBlock closure.body fun _ _ => trivial) (inside _) agree

end LayoutScript
