import LayoutScript.Proofs.Machine.Outward

/-!
What reading, testing, rebinding and declaring a name have to do with each other. All of them go
the way outward from a frame, and the first frame on it that binds the name decides. So two
frames see the same slot under a name if their ways come to it first, and a change to a slot is
seen from those frames and from no other.
-/

namespace LayoutScript

open Evaluation

namespace Store

variable {store : Store} {frame start owner : FrameId} {name key : String} {value : Value}

/-- From every frame the way outward comes to an end: the frames form trees. -/
def IsForest (store : Store) : Prop :=
  ∀ frame < store.frames.size, ∃ path, store.Outward frame path

/-- Along the way outward, resolving a name looks for the first frame that binds it, reading one
takes the first value that a frame holds under it, a test asks whether any frame binds it, and
rebinding changes the first frame that does. -/
structure WalksAlong (store : Store) (frame : FrameId) (path : List FrameId) (name : String)
    (value : Value) : Prop where
  outward : store.Outward frame path
  resolves : store.resolve? frame name =
    path.find? fun place => (store.bindings place).binds name
  reads : store.lookupFrom? frame name = path.findSome? fun place => store.slot? place name
  tests : store.containsFrom frame name = path.any fun place => (store.bindings place).binds name
  rebinds : (store.goTo frame).assign? name value =
    (path.find? fun place => (store.bindings place).binds name).map fun owner =>
      (store.goTo frame).replaceBinding owner name value

/-- A name from one frame and a name from another are found in the same slot. -/
def SameSlot (store : Store) (first second : FrameId × String) : Prop :=
  store.resolve? first.1 first.2 = store.resolve? second.1 second.2 ∧ first.2 = second.2

/-- The way outward from one frame comes to another, and no frame before that binds a name. -/
def ReachesUnshadowed (store : Store) (start frame : FrameId) (name : String) : Prop :=
  ∃ nearer rest, store.Outward start (nearer ++ frame :: rest) ∧
    ∀ between ∈ nearer, name ∉ store.names between

theorem assign_outward {path : List FrameId} (outward : store.Outward frame path) (name : String)
    (value : Value) :
    (store.goTo frame).assign? name value =
      (path.find? fun place => (store.bindings place).binds name).map fun owner =>
        (store.goTo frame).replaceBinding owner name value := by
  have resolved : (store.goTo frame).resolve? (store.goTo frame).current name =
      path.find? fun place => (store.bindings place).binds name := resolve_outward outward name
  rw [assign?, resolved]
  cases path.find? fun place => (store.bindings place).binds name <;> rfl

theorem resolve_binds (resolved : store.resolve? frame name = some owner) :
    name ∈ store.names owner :=
  (@resolve_on_chain (store.goTo frame) name frame owner _ resolved .current).2

/-- Rebinding is seen wherever the name is found in the slot that was changed. -/
theorem lookup_replace_binding (resolved : store.resolve? frame name = some owner)
    (start : FrameId) (key : String) (value : Value) :
    (store.SameSlot (start, key) (frame, name) →
      (store.replaceBinding owner name value).lookupFrom? start key = some value) ∧
    (¬store.SameSlot (start, key) (frame, name) →
      (store.replaceBinding owner name value).lookupFrom? start key =
        store.lookupFrom? start key) := by
  have place := store.resolve_replace_binding owner name value start key
  constructor
  · rintro ⟨samePlace, sameName⟩
    dsimp only at samePlace sameName
    subst sameName
    rw [lookupFrom?, place, samePlace, resolved]
    exact slot_replace_binding value (resolve_binds resolved)
  · intro differs
    rw [lookupFrom?, lookupFrom?, place]
    cases found : store.resolve? start key with
    | none => rfl
    | some other =>
        have apart : other ≠ owner ∨ key ≠ name := by
          by_cases samePlace : other = owner
          · subst samePlace
            exact .inr fun sameName => differs ⟨found.trans resolved.symm, sameName⟩
          · exact .inl samePlace
        exact slot_replace_binding_other value apart

theorem contains_iff_lookup :
    store.containsFrom frame name = true ↔ (store.lookupFrom? frame name).isSome = true := by
  rw [containsFrom, lookupFrom?]
  cases resolved : store.resolve? frame name with
  | none => exact Iff.rfl
  | some owner =>
      have held : (store.slot? owner name).isSome = true := by
        rw [slot_is_some]
        exact binds_iff.2 (resolve_binds resolved)
      exact iff_of_true rfl held

theorem contains_iff_assign :
    store.containsFrom frame name = true ↔
      ((store.goTo frame).assign? name value).isSome = true := by
  have same : (store.goTo frame).resolve? (store.goTo frame).current name =
      store.resolve? frame name := rfl
  rw [containsFrom, assign?, same]
  cases store.resolve? frame name <;> rfl

theorem declare_iff :
    ((store.goTo frame).declare? name value).isSome = true ↔ name ∉ store.names frame := by
  have here : (store.goTo frame).bindsHere name = true ↔ name ∈ store.names frame := binds_here_iff
  rw [declare?]
  split
  · rename_i binds
    exact iff_of_false Bool.false_ne_true fun unbound => unbound (here.1 binds)
  · rename_i bindsNot
    exact iff_of_true rfl fun bound => bindsNot (here.2 bound)

theorem slot_add_binding (inside : frame < store.frames.size) (place : FrameId) :
    (store.addBinding frame name value).slot? place key =
      if place = frame ∧ key = name then some value else store.slot? place key := by
  have found : store.frames[frame]? = some store.frames[frame] := Array.getElem?_eq_getElem inside
  rw [slot?, slot?, bindings, addBinding, Array.getElem?_modify]
  by_cases here : frame = place
  · subst here
    rw [if_pos rfl, found, bindings_of_present found]
    dsimp only [Option.map_some]
    rw [List.lookup_cons]
    by_cases same : key = name
    · rw [if_pos ⟨rfl, same⟩, beq_iff_eq.2 same]
    · rw [if_neg fun both => same both.2, beq_eq_false_iff_ne.2 same]
  · rw [if_neg here, if_neg fun both => here both.1.symm]
    rfl

theorem outward_add_binding {path : List FrameId} (outward : store.Outward start path)
    (frame : FrameId) (name : String) (value : Value) :
    (store.addBinding frame name value).Outward start path := by
  apply outward.of_parents
  intro place found present
  rw [addBinding, Array.getElem?_modify, present]
  by_cases here : frame = place
  · rw [if_pos here]
    exact ⟨_, rfl, rfl⟩
  · rw [if_neg here]
    exact ⟨found, rfl, rfl⟩

/-- What is held under other names or by other frames than the one that gains a binding stays. -/
theorem find_slot_add_binding {path : List FrameId} (inside : frame < store.frames.size)
    (apart : key = name → frame ∉ path) (value : Value) :
    (path.findSome? fun place => (store.addBinding frame name value).slot? place key) =
      path.findSome? fun place => store.slot? place key := by
  induction path with
  | nil => rfl
  | cons place path induction =>
      have other : ¬(place = frame ∧ key = name) := by
        rintro ⟨rfl, sameName⟩
        exact apart sameName List.mem_cons_self
      have behind : key = name → frame ∉ path :=
        fun sameName passed => apart sameName (List.mem_cons_of_mem _ passed)
      rw [List.findSome?_cons, List.findSome?_cons, slot_add_binding inside, if_neg other,
        induction behind]

/-- A frame that is not there sees nothing. -/
theorem lookup_absent (absent : store.frames[start]? = none) (key : String) :
    store.lookupFrom? start key = none := by
  have nowhere : store.resolve? start key = none := by
    unfold resolve?
    cases store.frames.size with
    | zero => rfl
    | succ fuel => rw [resolveWithin, absent]
  rw [lookupFrom?, nowhere]
  rfl

/-- A new binding is seen from the frames whose way comes to it before any other of its name. -/
theorem lookup_add_binding (forest : store.IsForest) (inside : frame < store.frames.size)
    (start : FrameId) :
    (store.ReachesUnshadowed start frame name →
      (store.addBinding frame name value).lookupFrom? start name = some value) ∧
    (¬(key = name ∧ store.ReachesUnshadowed start frame name) →
      (store.addBinding frame name value).lookupFrom? start key =
        store.lookupFrom? start key) := by
  constructor
  · rintro ⟨nearer, rest, outward, unshadowed⟩
    have apart : frame ∉ nearer := by
      intro again
      exact (List.nodup_append.1 outward.nodup).2.2 frame again frame List.mem_cons_self rfl
    have nothing : (nearer.findSome? fun place => store.slot? place name) = none :=
      List.findSome?_eq_none_iff.2 fun place passed => slot_eq_none_iff.2 (unshadowed place passed)
    rw [lookup_outward (outward_add_binding outward frame name value), List.findSome?_append,
      find_slot_add_binding inside fun _ => apart, nothing, List.findSome?_cons,
      slot_add_binding inside, if_pos ⟨rfl, rfl⟩]
    rfl
  · intro hidden
    by_cases there : start < store.frames.size
    · rcases forest start there with ⟨path, outward⟩
      rw [lookup_outward (outward_add_binding outward frame name value), lookup_outward outward]
      by_cases passed : key = name ∧ frame ∈ path
      · rcases passed with ⟨rfl, passed⟩
        rcases List.eq_append_cons_of_mem passed with ⟨nearer, rest, split, apart⟩
        have shadowed : (nearer.findSome? fun place => store.slot? place key).isSome = true := by
          -- With no binding on the nearer frames the way would reach the frame unshadowed.
          by_contra nothing
          have free := List.findSome?_eq_none_iff.1 (Option.not_isSome_iff_eq_none.1 nothing)
          exact hidden ⟨rfl, nearer, rest, split ▸ outward,
            fun place nearerPlace => slot_eq_none_iff.1 (free place nearerPlace)⟩
        rw [split, List.findSome?_append, List.findSome?_append,
          find_slot_add_binding inside fun _ => apart, Option.or_of_isSome shadowed,
          Option.or_of_isSome shadowed]
      · exact find_slot_add_binding inside (fun same onPath => passed ⟨same, onPath⟩) value
    · have absent : store.frames[start]? = none := Array.getElem?_eq_none (Nat.le_of_not_lt there)
      have absentToo : (store.addBinding frame name value).frames[start]? = none := by
        rw [addBinding, Array.getElem?_modify, absent]
        split <;> rfl
      rw [lookup_absent absent, lookup_absent absentToo]

end Store

/-- An evaluation makes a change to the store if the store admits it, and otherwise raises an error
and leaves everything as it was. -/
def Evaluation.Makes (body : Evaluation Unit) (change : Store → Option Store)
    (refusal : ScriptError) : Prop :=
  ∀ machine, body.run machine =
    match change machine.store with
    | some after => (.ok (), { machine with store := after })
    | none => (.error (.error refusal), machine)

theorem assign_makes (span : Span) (name : String) (value : Value) :
    Makes (assign span name value) (fun store => store.assign? name value)
      (.located (.undefinedVariable name) span) :=
  run_change_store _ _

theorem declare_makes (span : Span) (name : String) (value : Value) :
    Makes (Evaluation.declare span name value) (fun store => store.declare? name value)
      (.located (.redeclaration name) span) :=
  run_change_store (fun store => store.declare? name value) _

/-- On a way outward the searches for a name do the same. -/
theorem Store.Outward.walks_along {store : Store} {frame : FrameId} {path : List FrameId}
    (outward : store.Outward frame path) (name : String) (value : Value) :
    store.WalksAlong frame path name value :=
  ⟨outward, resolve_outward outward name, lookup_outward outward name,
    contains_outward outward name, assign_outward outward name value⟩

/-- Names are resolved alike, whatever the shape of the trees that the frames form. From any frame
a name can be read, is there and can be rebound in the same cases, and a frame can declare the
names that it does not bind itself. Rebinding a name changes what is read in the slot that the
name was found in, from whatever frame and in no other slot. Declaring one changes what is read
under this name from the frames whose way outward comes to the declaring frame before any other
that binds the name, and nothing else. A rebinding or a declaration that is refused changes
nothing at all. -/
theorem names_resolve_alike {store : Store} (forest : store.IsForest) {frame : FrameId}
    (inside : frame < store.frames.size) (name : String) (value : Value) :
    (∃ path, store.WalksAlong frame path name value) ∧
    (store.containsFrom frame name = true ↔ (store.lookupFrom? frame name).isSome = true) ∧
    (store.containsFrom frame name = true ↔
      ((store.goTo frame).assign? name value).isSome = true) ∧
    (name ∉ store.names frame ↔ ((store.goTo frame).declare? name value).isSome = true) ∧
    (∀ after, (store.goTo frame).assign? name value = some after → ∀ start key,
      (store.SameSlot (start, key) (frame, name) → after.lookupFrom? start key = some value) ∧
      (¬store.SameSlot (start, key) (frame, name) →
        after.lookupFrom? start key = store.lookupFrom? start key)) ∧
    (∀ after, (store.goTo frame).declare? name value = some after → ∀ start key,
      (key = name ∧ store.ReachesUnshadowed start frame name →
        after.lookupFrom? start key = some value) ∧
      (¬(key = name ∧ store.ReachesUnshadowed start frame name) →
        after.lookupFrom? start key = store.lookupFrom? start key)) ∧
    ∀ span,
      Makes (assign span name value) (fun current => current.assign? name value)
        (.located (.undefinedVariable name) span) ∧
      Makes (Evaluation.declare span name value) (fun current => current.declare? name value)
        (.located (.redeclaration name) span) := by
  rcases forest frame inside with ⟨path, outward⟩
  refine ⟨⟨path, outward.walks_along name value⟩, Store.contains_iff_lookup,
    Store.contains_iff_assign, Store.declare_iff.symm, ?_, ?_,
    fun span => ⟨assign_makes span name value, declare_makes span name value⟩⟩
  · intro after assigned start key
    rw [Store.assign?] at assigned
    split at assigned
    · rename_i owner resolved
      cases assigned
      exact @Store.lookup_replace_binding (store.goTo frame) frame owner name resolved start key
        value
    · cases assigned
  · intro after declared start key
    rw [Store.declare?] at declared
    split at declared
    · cases declared
    · cases declared
      have seen := @Store.lookup_add_binding store frame name key value forest inside start
      constructor
      · rintro ⟨rfl, reaches⟩
        exact seen.1 reaches
      · exact seen.2

/-- A loop body inside a function that shadows a global name, and another function. -/
def nestedFrames : Store :=
  ⟨#[⟨"global", [("x", .int 1)], none⟩, ⟨"fn f", [], some 0⟩,
    ⟨"while-body", [("x", .int 3)], some 1⟩, ⟨"fn g", [], some 0⟩], 0, 0⟩

theorem nested_frames_forest : nestedFrames.IsForest := by
  have fromGlobal : nestedFrames.Outward 0 [0] := .last rfl rfl
  have fromFunction : nestedFrames.Outward 1 [1, 0] := .next rfl rfl fromGlobal
  intro frame inside
  match frame, inside with
  | 0, _ => exact ⟨_, fromGlobal⟩
  | 1, _ => exact ⟨_, fromFunction⟩
  | 2, _ => exact ⟨_, .next rfl rfl fromFunction⟩
  | 3, _ => exact ⟨_, .next rfl rfl fromGlobal⟩

/-- To rebind the global name from the first function is seen from the second one, but not from
the body that shadows it; to declare the name in the first function is seen from neither. -/
theorem nested_frames_resolve_alike :
    nestedFrames.IsForest ∧ 1 < nestedFrames.frames.size ∧
    (∃ after, (nestedFrames.goTo 1).assign? "x" (.int 5) = some after ∧
      after.lookupFrom? 3 "x" = some (.int 5) ∧ after.lookupFrom? 2 "x" = some (.int 3)) ∧
    ∃ after, (nestedFrames.goTo 1).declare? "x" (.int 5) = some after ∧
      after.lookupFrom? 1 "x" = some (.int 5) ∧ after.lookupFrom? 3 "x" = some (.int 1) ∧
      after.lookupFrom? 2 "x" = some (.int 3) := by
  have inside : 1 < nestedFrames.frames.size := by decide
  have alike := names_resolve_alike nested_frames_forest inside "x" (.int 5)
  rcases alike with ⟨_, _, assigns, declares, assigned, declared, _⟩
  have fromGlobal : nestedFrames.Outward 0 [0] := .last rfl rfl
  have fromFunction : nestedFrames.Outward 1 [1, 0] := .next rfl rfl fromGlobal
  have fromOther : nestedFrames.Outward 3 [3, 0] := .next rfl rfl fromGlobal
  have held : nestedFrames.lookupFrom? 2 "x" = some (.int 3) := rfl
  have heldGlobal : nestedFrames.lookupFrom? 3 "x" = some (.int 1) := rfl
  refine ⟨nested_frames_forest, inside, ?_, ?_⟩
  · rcases Option.isSome_iff_exists.1 (assigns.1 (by decide)) with ⟨after, change⟩
    have apart : ¬nestedFrames.SameSlot (2, "x") (1, "x") := fun same => absurd same.1 (by decide)
    have other := (assigned after change 2 "x").2 apart
    exact ⟨after, change, (assigned after change 3 "x").1 ⟨by decide, rfl⟩, other.trans held⟩
  · rcases Option.isSome_iff_exists.1 (declares.1 (by decide)) with ⟨after, change⟩
    have here : nestedFrames.ReachesUnshadowed 1 1 "x" := ⟨[], [0], fromFunction, by simp⟩
    have hidden : ¬nestedFrames.ReachesUnshadowed 2 1 "x" := by
      rintro ⟨nearer, rest, outward, unshadowed⟩
      have way := outward.unique (.next rfl rfl fromFunction)
      cases nearer with
      | nil => cases way
      | cons place nearer =>
          have body : place = 2 := (List.cons.inj way).1
          rw [body] at unshadowed
          exact unshadowed 2 List.mem_cons_self (by decide)
    have outside : ¬nestedFrames.ReachesUnshadowed 3 1 "x" := by
      rintro ⟨nearer, rest, outward, _⟩
      have onWay : 1 ∈ nearer ++ 1 :: rest := by simp
      rw [outward.unique fromOther] at onWay
      exact absurd onWay (by decide)
    refine ⟨after, change, (declared after change 1 "x").1 ⟨rfl, here⟩, ?_, ?_⟩
    · exact ((declared after change 3 "x").2 fun both => outside both.2).trans heldGlobal
    · exact ((declared after change 2 "x").2 fun both => hidden both.2).trans held

end LayoutScript
