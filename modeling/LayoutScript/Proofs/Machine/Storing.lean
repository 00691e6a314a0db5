import LayoutScript.Proofs.Machine.Composition

/-!
Storing what was checked. A pattern is bound in three passes, of which only the last one changes the
store, one name after the other. Each of its steps checks its own name and could refuse it half way.
Once the shape of the value and the names of the pattern have passed, none does: the three passes
are one change of the store that is planned as a whole or refused as a whole.
-/

namespace LayoutScript

open Evaluation

/-- A name of a pattern with the part of the value it is bound to. -/
structure Target where
  name : String
  span : Span
  value : Value

def Target.binding (target : Target) : String × Value := (target.name, target.value)

def Target.leaf (target : Target) : Span × String := (target.span, target.name)

mutual

/-- The names of a pattern with their values, if the value has the shape. -/
def Pattern.targets : Pattern → Value → Except ScriptError (List Target)
  | .identifier span name, value => .ok [⟨name, span, value⟩]
  | .tuple span elements, value =>
      match value with
      | .tuple values =>
          if values.length = elements.length then Pattern.targetsAll elements values
          else .error (.located (.destructureArity elements.length values.length) span)
      | other => .error (.located (.destructureType other.kind) span)

def Pattern.targetsAll : List Pattern → List Value → Except ScriptError (List Target)
  | pattern :: patterns, value :: values => do
      let first ← pattern.targets value
      return first ++ (← Pattern.targetsAll patterns values)
  | _, _ => .ok []

end

namespace Store

/-- The bindings that a declaration adds, if the pattern can be declared in the
current frame. -/
def planDeclare (store : Store) (pattern : Pattern) (value : Value) :
    Except ScriptError Bindings := do
  let targets ← pattern.targets value
  store.checkDeclared [] pattern.leaves
  return targets.map Target.binding

/-- The bindings that an assignment makes, if all names of the pattern can be
assigned. -/
def planAssign (store : Store) (pattern : Pattern) (value : Value) :
    Except ScriptError Bindings := do
  let targets ← pattern.targets value
  store.checkAssigned pattern.leaves
  return targets.map Target.binding

/-- Adds planned bindings to the current frame. -/
def addAll : Bindings → Store → Store
  | [], store => store
  | (name, value) :: bindings, store =>
      addAll bindings (store.addBinding store.current name value)

/-- Makes planned assignments in order, so that a later one wins. -/
def assignAll : Bindings → Store → Store
  | [], store => store
  | (name, value) :: bindings, store =>
      match store.resolve? store.current name with
      | some owner => assignAll bindings (store.replaceBinding owner name value)
      | none => assignAll bindings store

end Store

namespace Evaluation

/-- Changes the store by a plan that was checked against it, or fails and leaves it
alone. -/
def updateStore {α : Type} (plan : Store → Except ScriptError α) (change : α → Store → Store) :
    Evaluation Unit := do
  match plan (← get).store with
  | .ok planned => modify fun machine => { machine with store := change planned machine.store }
  | .error error => throw (.error error)

section Runs

variable {α : Type}

theorem run_update_store (plan : Store → Except ScriptError α) (change : α → Store → Store)
    (machine : Machine) :
    (updateStore plan change).run machine =
      match plan machine.store with
      | .ok planned => (.ok (), { machine with store := change planned machine.store })
      | .error error => (.error (.error error), machine) := by
  change (match plan machine.store with
    | .ok planned => (modify fun machine : Machine =>
        { machine with store := change planned machine.store } : Evaluation Unit)
    | .error error => throw (Stop.error error)).run machine = _
  cases plan machine.store <;> rfl

theorem plain_update_store (plan : Store → Except ScriptError α) (change : α → Store → Store) :
    Plain (updateStore plan change) := by
  refine ⟨fun store => match plan store with
    | .ok planned => (.ok (), change planned store, "")
    | .error error => (.error (.error error), store, ""), fun store => ?_, fun machine => ?_⟩
  · cases planned : plan store <;> simp [planned]
  rw [run_update_store]
  cases planned : plan machine.store <;> simp only [planned, String.append_empty]

section CheckStore

variable {check : Store → Except ScriptError Unit} {machine : Machine}

theorem check_store_passes (passes : check machine.store = .ok ()) :
    (checkStore check).run machine = (.ok (), machine) := by
  have looked : (get : Evaluation Machine).run machine = (.ok machine, machine) := rfl
  rw [checkStore, run_bind_ok looked, passes]
  exact run_pure () machine

theorem check_store_fails {error : ScriptError} (fails : check machine.store = .error error) :
    (checkStore check).run machine = (.error (.error error), machine) := by
  have looked : (get : Evaluation Machine).run machine = (.ok machine, machine) := rfl
  rw [checkStore, run_bind_ok looked, fails]
  exact run_throw _ machine

end CheckStore

theorem run_change_store (change : Store → Option Store) (refused : ScriptError)
    (machine : Machine) :
    (changeStore change refused).run machine =
      match change machine.store with
      | some store => (.ok (), { machine with store })
      | none => (.error (.error refused), machine) := by
  change (match change machine.store with
    | some store => (modify fun machine : Machine => { machine with store } : Evaluation Unit)
    | none => throw (Stop.error refused)).run machine = _
  cases change machine.store <;> rfl

/-- Evaluations are told apart by their runs. -/
theorem ext_run {first second : Evaluation α}
    (same : ∀ machine, first.run machine = second.run machine) : first = second :=
  funext same

/-- A name is declared by a plan that looks for it in the current frame. -/
theorem declare_at_eq (span : Option Span) (name : String) (value : Value) :
    declareAt span name value =
      updateStore
        (fun store =>
          if store.bindsHere name then .error ⟨.redeclaration name, span, none⟩
          else .ok store.current)
        fun frame store => store.addBinding frame name value := by
  apply ext_run
  intro machine
  rw [declareAt, run_change_store, run_update_store, Store.declare?]
  cases machine.store.bindsHere name <;> rfl

/-- A name is assigned by a plan that looks for the frame that binds it. -/
theorem assign_eq (span : Span) (name : String) (value : Value) :
    assign span name value =
      updateStore
        (fun store =>
          match store.resolve? store.current name with
          | some owner => .ok owner
          | none => .error (.located (.undefinedVariable name) span))
        fun owner store => store.replaceBinding owner name value := by
  apply ext_run
  intro machine
  rw [assign, run_change_store, run_update_store, Store.assign?]
  cases machine.store.resolve? machine.store.current name <;> rfl

theorem plain_declare_at (span : Option Span) (name : String) (value : Value) :
    Plain (declareAt span name value) := by
  rw [declare_at_eq]
  exact plain_update_store _ _

theorem plain_assign (span : Span) (name : String) (value : Value) :
    Plain (assign span name value) := by
  rw [assign_eq]
  exact plain_update_store _ _

theorem plain_declare_parameters (parameters : List String) (arguments : List Value) :
    Plain (declareParameters parameters arguments) := by
  fun_induction declareParameters parameters arguments with
  | case1 parameter parameters argument arguments induction =>
      exact plain_bind (plain_declare_at _ _ _) fun _ => induction
  | case2 => exact plain_pure ()

end Runs

end Evaluation

section Passes

/-- Stores targets one after the other. -/
def storeTargets (store : Span → String → Value → Evaluation Unit) :
    List Target → Evaluation Unit
  | [] => pure ()
  | target :: targets => do
      store target.span target.name target.value
      storeTargets store targets

theorem store_targets_append (store : Span → String → Value → Evaluation Unit)
    (first second : List Target) :
    storeTargets store (first ++ second) =
      (do storeTargets store first
          storeTargets store second) := by
  induction first with
  | nil => rfl
  | cons target first induction =>
      rw [List.cons_append, storeTargets, storeTargets, induction, bind_assoc]

/-- How the passes over a pattern and its value depend on the targets: the check of the shape is
passed if there are targets, the names are theirs, and it is they that are stored. -/
inductive Planned (shape : Except ScriptError Unit) (leaves : List (Span × String))
    (storing : (Span → String → Value → Evaluation Unit) → Evaluation Unit) :
    Except ScriptError (List Target) → Prop where
  | fits {targets : List Target} (passes : shape = .ok ())
      (names : leaves = targets.map Target.leaf)
      (stores : ∀ store, storing store = storeTargets store targets) :
      Planned shape leaves storing (.ok targets)
  | refuses {error : ScriptError} (fails : shape = .error error) :
      Planned shape leaves storing (.error error)

mutual

theorem Pattern.planned : ∀ (pattern : Pattern) (value : Value),
    Planned (pattern.checkShape value) pattern.leaves
      (fun store => storePattern store pattern value) (pattern.targets value)
  | .identifier span name, value => by
      rw [Pattern.targets, Pattern.checkShape, Pattern.leaves]
      refine .fits rfl rfl fun store => ?_
      rw [storePattern, storeTargets, storeTargets]
      exact (bind_pure _).symm
  | .tuple span elements, value => by
      cases value with
      | tuple values =>
          rw [Pattern.targets, Pattern.checkShape, Pattern.leaves]
          simp only [storePattern]
          split
          · rename_i sameLength
            exact Pattern.planned_all elements values sameLength
          · exact .refuses rfl
      | _ =>
          rw [Pattern.targets, Pattern.checkShape]
          · exact .refuses rfl
          all_goals exact nofun

theorem Pattern.planned_all : ∀ (patterns : List Pattern) (values : List Value),
    values.length = patterns.length →
    Planned (Pattern.checkShapes patterns values) (Pattern.leavesAll patterns)
      (fun store => storePatterns store patterns values) (Pattern.targetsAll patterns values)
  | [], values, _ => by
      rw [Pattern.targetsAll, Pattern.checkShapes, Pattern.leavesAll]
      · refine .fits rfl rfl fun store => ?_
        rw [storePatterns, storeTargets]
        exact nofun
      all_goals exact nofun
  | pattern :: patterns, [], lengths => by cases lengths
  | pattern :: patterns, value :: values, lengths => by
      have first := Pattern.planned pattern value
      have others := Pattern.planned_all patterns values (Nat.succ.inj lengths)
      rw [Pattern.targetsAll, Pattern.checkShapes, Pattern.leavesAll]
      simp only [storePatterns]
      generalize pattern.targets value = targets at first
      generalize Pattern.targetsAll patterns values = more at others
      cases first with
      | refuses fails =>
          rw [fails]
          exact .refuses rfl
      | fits passes names stores =>
          rw [passes]
          cases others with
          | refuses fails =>
              rw [fails]
              exact .refuses rfl
          | fits passesToo namesToo storesToo =>
              rw [passesToo, names, namesToo, ← List.map_append]
              refine .fits rfl rfl fun store => ?_
              rw [stores, storesToo, store_targets_append]

end

end Passes

namespace Store

variable {store : Store} {name : String}

theorem binds_iff {bindings : Bindings} :
    bindings.binds name = true ↔ name ∈ bindings.map Prod.fst := by
  rw [Bindings.binds, List.any_eq_true, List.mem_map]
  exact exists_congr fun binding => and_congr_right fun _ => beq_iff_eq

/-- Beside a binding that was added, a frame binds what it bound before. -/
theorem binds_here_add_binding {other : String} (value : Value)
    (bound : (store.addBinding store.current name value).bindsHere other = true) :
    name = other ∨ store.bindsHere other = true := by
  unfold bindsHere bindings at bound ⊢
  unfold addBinding at bound
  dsimp only at bound
  rw [Array.getElem?_modify, if_pos rfl] at bound
  cases present : store.frames[store.current]? with
  | none =>
      rw [present] at bound
      cases bound
  | some found =>
      rw [present] at bound
      rw [binds_iff] at bound ⊢
      exact (List.mem_cons.1 bound).imp_left Eq.symm

theorem replace_names (name : String) (value : Value) (bindings : Bindings) :
    (bindings.replace name value).map Prod.fst = bindings.map Prod.fst := by
  induction bindings with
  | nil => rfl
  | cons first others induction =>
      rw [Bindings.replace]
      split
      · rename_i isName
        have same : first.1 = name := by simpa using isName
        simp [same]
      · simp [induction]

/-- The names that a frame binds and its parent. -/
def outline (frames : Array Frame) (frame : FrameId) : Option (List String × Option FrameId) :=
  frames[frame]?.map fun found => (found.bindings.map Prod.fst, found.parent)

/-- Names are resolved by the outlines of frames. -/
theorem resolve_within_outline {first second : Array Frame}
    (same : ∀ frame, outline first frame = outline second frame) (name : String) (fuel : Nat)
    (start : FrameId) :
    resolveWithin first name fuel start = resolveWithin second name fuel start := by
  induction fuel generalizing start with
  | zero => rfl
  | succ fuel induction =>
      have here := same start
      unfold outline at here
      rw [resolveWithin, resolveWithin]
      cases inFirst : first[start]? with
      | none =>
          rw [inFirst] at here
          rw [Option.map_eq_none_iff.1 here.symm]
      | some found =>
          rw [inFirst] at here
          rcases Option.map_eq_some_iff.1 here.symm with ⟨other, inSecond, agree⟩
          rw [inSecond]
          rcases Prod.mk.inj agree with ⟨names, parents⟩
          have binds : other.bindings.binds name = found.bindings.binds name := by
            rw [Bool.eq_iff_iff, binds_iff, binds_iff, names]
          simp only [binds, parents]
          split
          · rfl
          · split
            · rfl
            · exact induction _

theorem outline_replace_binding (store : Store) (owner : FrameId) (name : String) (value : Value)
    (frame : FrameId) :
    outline (store.replaceBinding owner name value).frames frame = outline store.frames frame := by
  unfold outline replaceBinding
  rw [Array.getElem?_modify]
  split
  · cases store.frames[frame]? with
    | none => rfl
    | some found => simp [replace_names]
  · rfl

/-- Rebinding a name moves no name. -/
theorem resolve_replace_binding (store : Store) (owner : FrameId) (name : String) (value : Value)
    (start : FrameId) (other : String) :
    (store.replaceBinding owner name value).resolve? start other = store.resolve? start other := by
  have size : (store.replaceBinding owner name value).frames.size = store.frames.size :=
    Array.size_modify
  rw [resolve?, resolve?, size]
  exact resolve_within_outline (outline_replace_binding store owner name value) other _ start

/-- Names that were checked behind another one are still free when that one was added. -/
theorem check_declared_add {seen : List String} {leaves : List (Span × String)} (value : Value)
    (inside : name ∈ seen) (checked : store.checkDeclared seen leaves = .ok ()) :
    (store.addBinding store.current name value).checkDeclared seen leaves = .ok () := by
  induction leaves generalizing seen with
  | nil => rfl
  | cons leaf leaves induction =>
      rw [checkDeclared] at checked ⊢
      split at checked
      · cases checked
      · rename_i free
        rw [Bool.or_eq_true, not_or, List.contains_iff_mem] at free
        rw [if_neg, induction (List.mem_cons_of_mem _ inside) checked]
        rw [Bool.or_eq_true, not_or, List.contains_iff_mem]
        refine ⟨free.1, fun bound => ?_⟩
        rcases binds_here_add_binding value bound with rfl | bound
        · exact free.1 inside
        · exact free.2 bound

theorem check_assigned_replace (owner : FrameId) (value : Value) (leaves : List (Span × String)) :
    (store.replaceBinding owner name value).checkAssigned leaves = store.checkAssigned leaves := by
  induction leaves with
  | nil => rfl
  | cons leaf leaves induction =>
      have same : (store.replaceBinding owner name value).contains leaf.2 = store.contains leaf.2 :=
        congrArg Option.isSome (resolve_replace_binding store owner name value _ leaf.2)
      rw [checkAssigned, checkAssigned, same, induction]

end Store

namespace Evaluation

/-- A name that the current frame does not bind is added to it. -/
theorem run_declare_at_free {span : Option Span} {name : String} {value : Value}
    {machine : Machine} (free : machine.store.bindsHere name = false) :
    (declareAt span name value).run machine =
      (.ok (), { machine with
        store := machine.store.addBinding machine.store.current name value }) := by
  rw [declareAt, run_change_store, Store.declare?, free]
  rfl

/-- Names that were checked are all declared. -/
theorem run_declare_targets {seen : List String} {targets : List Target} {machine : Machine}
    (checked : machine.store.checkDeclared seen (targets.map Target.leaf) = .ok ()) :
    (storeTargets declare targets).run machine =
      (.ok (), { machine with
        store := Store.addAll (targets.map Target.binding) machine.store }) := by
  induction targets generalizing seen machine with
  | nil => rfl
  | cons target targets induction =>
      rw [List.map_cons, Store.checkDeclared] at checked
      split at checked
      · cases checked
      · rename_i free
        rw [Bool.or_eq_true, not_or, Bool.not_eq_true, Bool.not_eq_true] at free
        have fresh : machine.store.bindsHere target.name = false := free.2
        rw [storeTargets, declare, run_bind_ok (run_declare_at_free fresh)]
        exact induction (Store.check_declared_add target.value List.mem_cons_self checked)

/-- Names that were checked are all assigned. -/
theorem run_assign_targets {targets : List Target} {machine : Machine}
    (checked : machine.store.checkAssigned (targets.map Target.leaf) = .ok ()) :
    (storeTargets assign targets).run machine =
      (.ok (), { machine with
        store := Store.assignAll (targets.map Target.binding) machine.store }) := by
  induction targets generalizing machine with
  | nil => rfl
  | cons target targets induction =>
      rw [List.map_cons, Store.checkAssigned] at checked
      split at checked
      · rename_i contained
        obtain ⟨owner, resolved⟩ := Option.isSome_iff_exists.1 contained
        change machine.store.resolve? _ target.name = _ at resolved
        have assigned : (assign target.span target.name target.value).run machine =
            (.ok (), { machine with
              store := machine.store.replaceBinding owner target.name target.value }) := by
          rw [assign, run_change_store, Store.assign?, resolved]
        rw [storeTargets, run_bind_ok assigned, List.map_cons, Target.binding, Store.assignAll,
          resolved]
        exact induction ((Store.check_assigned_replace owner target.value _).trans checked)
      · cases checked

/-- Distinct parameters that the current frame does not bind are all declared. -/
theorem run_declare_parameters {parameters : List String} (distinct : parameters.Nodup)
    (arguments : List Value) {machine : Machine}
    (fresh : ∀ parameter ∈ parameters, machine.store.bindsHere parameter = false) :
    (declareParameters parameters arguments).run machine =
      (.ok (), { machine with
        store := Store.addAll (parameters.zip arguments) machine.store }) := by
  induction parameters generalizing arguments machine with
  | nil => rfl
  | cons parameter parameters induction =>
      cases arguments with
      | nil => rfl
      | cons argument arguments =>
          obtain ⟨apart, others⟩ := List.nodup_cons.1 distinct
          obtain ⟨free, stillFree⟩ := List.forall_mem_cons.1 fresh
          rw [declareParameters, run_bind_ok (run_declare_at_free free), induction others]
          · rfl
          · intro other member
            rw [Bool.eq_false_iff]
            intro bound
            rcases Store.binds_here_add_binding argument bound with rfl | bound
            · exact apart member
            · rw [stillFree other member] at bound
              cases bound

/-- In a new frame nothing is bound yet. -/
theorem run_declare_parameters_entering {parameters : List String} (distinct : parameters.Nodup)
    (arguments : List Value) (name : String) (parent : Store → FrameId) (calls : Nat)
    (machine : Machine) :
    (declareParameters parameters arguments).run (entering name parent calls machine) =
      (.ok (), { entering name parent calls machine with
        store := Store.addAll (parameters.zip arguments)
          (entering name parent calls machine).store }) := by
  apply run_declare_parameters distinct
  intro parameter _
  simp [entering, Store.bindsHere, Store.bindings, Store.enter, Bindings.binds]

/-- The three passes over a pattern are one planned change, if storing what was checked is one. -/
theorem bind_pattern_eq {check : Store → List (Span × String) → Except ScriptError Unit}
    {store : Span → String → Value → Evaluation Unit} {change : Bindings → Store → Store}
    (stored : ∀ (targets : List Target) (machine : Machine),
      check machine.store (targets.map Target.leaf) = .ok () →
      (storeTargets store targets).run machine =
        (.ok (), { machine with store := change (targets.map Target.binding) machine.store }))
    (pattern : Pattern) (value : Value) :
    bindPattern check store pattern value =
      updateStore
        (fun current => do
          let targets ← pattern.targets value
          check current pattern.leaves
          return targets.map Target.binding)
        change := by
  apply ext_run
  intro machine
  have planned := pattern.planned value
  rw [run_update_store, bindPattern]
  generalize pattern.targets value = targets at planned
  cases planned with
  | refuses fails => exact run_bind_error (check_store_fails fails)
  | fits passes leaves stores =>
      rw [run_bind_ok (check_store_passes passes)]
      cases checked : check machine.store pattern.leaves with
      | error error => exact run_bind_error (check_store_fails checked)
      | ok _ =>
          rw [run_bind_ok (check_store_passes checked), stores]
          rw [leaves] at checked
          exact stored _ machine checked

/-- Behind the checks no step of storing is refused. -/
theorem store_pattern_completes (check : Store → List (Span × String) → Except ScriptError Unit)
    {store : Span → String → Value → Evaluation Unit} {change : Bindings → Store → Store}
    (stored : ∀ (targets : List Target) (machine : Machine),
      check machine.store (targets.map Target.leaf) = .ok () →
      (storeTargets store targets).run machine =
        (.ok (), { machine with store := change (targets.map Target.binding) machine.store }))
    {pattern : Pattern} {value : Value} {machine : Machine}
    (shape : pattern.checkShape value = .ok ())
    (checked : check machine.store pattern.leaves = .ok ()) :
    ((storePattern store pattern value).run machine).1 = .ok () := by
  have planned := pattern.planned value
  generalize pattern.targets value = targets at planned
  cases planned with
  | refuses fails =>
      rw [shape] at fails
      cases fails
  | fits _ leaves stores =>
      rw [leaves] at checked
      rw [stores, stored _ machine checked]

theorem declare_pattern_eq (pattern : Pattern) (value : Value) :
    declarePattern pattern value =
      updateStore (fun store => store.planDeclare pattern value) Store.addAll :=
  bind_pattern_eq (fun _ _ => run_declare_targets) pattern value

theorem assign_pattern_eq (pattern : Pattern) (value : Value) :
    assignPattern pattern value =
      updateStore (fun store => store.planAssign pattern value) Store.assignAll :=
  bind_pattern_eq (fun _ _ => run_assign_targets) pattern value

theorem plain_declare_pattern (pattern : Pattern) (value : Value) :
    Plain (declarePattern pattern value) := by
  rw [declare_pattern_eq]
  exact plain_update_store _ _

theorem plain_assign_pattern (pattern : Pattern) (value : Value) :
    Plain (assignPattern pattern value) := by
  rw [assign_pattern_eq]
  exact plain_update_store _ _

end Evaluation

end LayoutScript
