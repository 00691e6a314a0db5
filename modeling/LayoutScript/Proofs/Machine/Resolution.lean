import LayoutScript.Proofs.Machine.Names
import Mathlib.Data.Fintype.Pigeonhole

/-!
Where names are found. A name is resolved in the nearest frame of the chain that binds it, and the
resolution fails only if no frame of the chain does. A frame and a name make a slot; to rebind a
name changes one slot, and neither the names of the frames nor what they resolve to.
-/

namespace LayoutScript

/-- The frames of the chain: the current one and, from each of them, its parent. -/
inductive Store.OnChain (store : Store) : FrameId → Prop where
  | current : store.OnChain store.current
  | parent {frame outer : FrameId} {found : Frame} (inner : store.OnChain frame)
      (present : store.frames[frame]? = some found) (isParent : found.parent = some outer) :
      store.OnChain outer

namespace Store

variable {store : Store} {name : String} {frame : FrameId}

/-- A frame that binds a name is there. -/
theorem present_of_names (bound : name ∈ store.names frame) :
    ∃ found, store.frames[frame]? = some found ∧ found.bindings.binds name = true := by
  unfold names bindings at bound
  cases present : store.frames[frame]? with
  | none =>
      rw [present] at bound
      cases bound
  | some found =>
      rw [present] at bound
      exact ⟨found, rfl, binds_iff.2 bound⟩

theorem names_of_present {found : Frame} (present : store.frames[frame]? = some found)
    (bound : found.bindings.binds name = true) : name ∈ store.names frame := by
  rw [names, bindings, present]
  exact binds_iff.1 bound

def outer? (store : Store) (frame : FrameId) : Option FrameId :=
  store.frames[frame]?.bind Frame.parent

/-- The frame that is some parents further out. -/
def climb (store : Store) : Nat → FrameId → Option FrameId
  | 0, frame => some frame
  | count + 1, frame => (store.outer? frame).bind (store.climb count)

theorem outer_inside {outer : FrameId} (found : store.outer? frame = some outer) :
    frame < store.frames.size := by
  rcases Option.bind_eq_some_iff.1 found with ⟨_, present, _⟩
  exact (Array.getElem?_eq_some_iff.1 present).1

theorem climb_add (first second : Nat) (frame : FrameId) :
    store.climb (first + second) frame = (store.climb first frame).bind (store.climb second) := by
  induction first generalizing frame with
  | zero =>
      rw [Nat.zero_add]
      rfl
  | succ first induction =>
      rw [Nat.succ_add_eq_add_succ, Nat.add_succ, climb, climb]
      cases store.outer? frame with
      | none => rfl
      | some outer => exact induction outer

theorem OnChain.climbs (onChain : store.OnChain frame) :
    ∃ count, store.climb count store.current = some frame := by
  induction onChain with
  | current => exact ⟨0, rfl⟩
  | @parent frame outer found _ present isParent induction =>
      rcases induction with ⟨count, climbed⟩
      have out : store.outer? frame = some outer :=
        Option.bind_eq_some_iff.2 ⟨found, present, isParent⟩
      refine ⟨count + 1, ?_⟩
      rw [climb_add, climbed, Option.bind_some, climb, out]
      rfl

/-- On the way to a frame that is there, all frames are. -/
theorem climb_inside {start : FrameId} {count : Nat}
    (climbed : store.climb count start = some frame) (inside : frame < store.frames.size) :
    ∀ smaller ≤ count, ∃ between < store.frames.size, store.climb smaller start = some between := by
  intro smaller within
  rcases Nat.exists_eq_add_of_le within with ⟨more, rfl⟩
  rw [climb_add] at climbed
  rcases Option.bind_eq_some_iff.1 climbed with ⟨between, found, rest⟩
  refine ⟨between, ?_, found⟩
  cases more with
  | zero =>
      cases rest
      exact inside
  | succ more =>
      rcases Option.bind_eq_some_iff.1 rest with ⟨outer, out, _⟩
      exact outer_inside out

/-- A frame of the chain is found within as many steps as there are frames: a longer way comes to
some frame twice and can be cut short. -/
theorem climb_short {start : FrameId} {count : Nat}
    (climbed : store.climb count start = some frame) (inside : frame < store.frames.size) :
    ∃ smaller < store.frames.size, store.climb smaller start = some frame := by
  induction count using Nat.strong_induction_on with
  | _ count induction =>
      by_cases short : count < store.frames.size
      · exact ⟨count, short, climbed⟩
      · choose visited within visits using climb_inside climbed inside
        let place : Fin (store.frames.size + 1) → Fin store.frames.size := fun step =>
          ⟨visited step (by omega), within step (by omega)⟩
        have crowded : Fintype.card (Fin store.frames.size) <
            Fintype.card (Fin (store.frames.size + 1)) := by simp
        rcases Fintype.exists_ne_map_eq_of_card_lt place crowded with ⟨first, second, differ, same⟩
        have cut : ∀ early late : Fin (store.frames.size + 1), early < late →
            place early = place late →
            ∃ smaller < store.frames.size, store.climb smaller start = some frame := by
          intro early late before again
          have later : (late : Nat) ≤ count := by omega
          rcases Nat.exists_eq_add_of_le later with ⟨rest, rfl⟩
          have shorter : (early : Nat) + rest < late + rest := Nat.add_lt_add_right before rest
          apply induction (early + rest) shorter
          have revisits : store.climb early start = store.climb late start := by
            rw [visits early (by omega), visits late (by omega)]
            exact congrArg (fun place => some place.val) again
          rw [climb_add, revisits, ← climb_add]
          exact climbed
        rcases lt_or_gt_of_ne differ with less | greater
        · exact cut first second less same
        · exact cut second first greater same.symm

theorem resolve_of_climb {start owner : FrameId} {count fuel : Nat}
    (climbed : store.climb count start = some owner) (bound : name ∈ store.names owner)
    (enough : count < fuel) : (resolveWithin store.frames name fuel start).isSome = true := by
  induction count generalizing start fuel with
  | zero =>
      cases climbed
      rcases present_of_names bound with ⟨found, present, binds⟩
      cases fuel with
      | zero => exact absurd enough (Nat.not_lt_zero _)
      | succ fuel =>
          rw [resolveWithin, present]
          simp only [binds, if_true, Option.isSome_some]
  | succ count induction =>
      rcases Option.bind_eq_some_iff.1 climbed with ⟨outer, out, rest⟩
      rcases Option.bind_eq_some_iff.1 out with ⟨found, present, isParent⟩
      cases fuel with
      | zero => exact absurd enough (Nat.not_lt_zero _)
      | succ fuel =>
          rw [resolveWithin, present]
          dsimp only
          split
          · rfl
          · rw [isParent]
            exact induction rest (Nat.lt_of_succ_lt_succ enough)

theorem resolve_on_chain {start owner : FrameId} {fuel : Nat}
    (resolved : resolveWithin store.frames name fuel start = some owner)
    (onChain : store.OnChain start) : store.OnChain owner ∧ name ∈ store.names owner := by
  induction fuel generalizing start with
  | zero => cases resolved
  | succ fuel induction =>
      rw [resolveWithin] at resolved
      split at resolved
      · cases resolved
      · rename_i found present
        split at resolved
        · rename_i binds
          cases resolved
          exact ⟨onChain, names_of_present present binds⟩
        · split at resolved
          · cases resolved
          · rename_i outer isParent
            exact induction resolved (onChain.parent present isParent)

/-- A name can be resolved if and only if some frame of the chain binds it. -/
theorem contains_iff : store.contains name = true ↔
    ∃ frame, store.OnChain frame ∧ name ∈ store.names frame := by
  constructor
  · intro contained
    rcases Option.isSome_iff_exists.1 contained with ⟨owner, resolved⟩
    exact ⟨owner, resolve_on_chain resolved .current⟩
  · rintro ⟨frame, onChain, bound⟩
    rcases present_of_names bound with ⟨found, present, _⟩
    have inside : frame < store.frames.size := (Array.getElem?_eq_some_iff.1 present).1
    rcases onChain.climbs with ⟨count, climbed⟩
    rcases climb_short climbed inside with ⟨smaller, short, shortly⟩
    exact resolve_of_climb shortly bound short

theorem binds_here_iff : store.bindsHere name = true ↔ name ∈ store.names store.current :=
  binds_iff

/-- What a frame holds under a name. -/
def slot? (store : Store) (frame : FrameId) (name : String) : Option Value :=
  (store.bindings frame).lookup name

theorem lookup_of_resolve {owner : FrameId}
    (resolved : store.resolve? store.current name = some owner) :
    store.lookup? name = store.slot? owner name := by
  rw [lookup?, lookupFrom?, resolved]
  rfl

theorem resolve_of_lookup {value : Value}
    (found : store.lookup? name = some value) :
    ∃ owner, store.resolve? store.current name = some owner := by
  rcases Option.bind_eq_some_iff.1 found with ⟨owner, resolved, _⟩
  exact ⟨owner, resolved⟩

/-- A name that the current frame binds is found there. -/
theorem resolve_here (bound : name ∈ store.names store.current) :
    store.resolve? store.current name = some store.current := by
  rcases present_of_names bound with ⟨found, present, binds⟩
  have inside : store.current < store.frames.size := (Array.getElem?_eq_some_iff.1 present).1
  rcases Nat.exists_eq_add_of_lt inside with ⟨fuel, size⟩
  rw [resolve?, size, resolveWithin, present]
  simp only [binds, if_true]

theorem lookup_replace {bindings : Bindings} (value : Value)
    (bound : name ∈ bindings.map Prod.fst) :
    (bindings.replace name value).lookup name = some value := by
  induction bindings with
  | nil => cases bound
  | cons binding bindings induction =>
      rw [Bindings.replace]
      split
      · exact List.lookup_cons_self
      · rename_i other
        have differs : (name == binding.1) = false := by
          rw [beq_eq_false_iff_ne]
          exact fun same => other (beq_iff_eq.2 same.symm)
        rw [List.lookup_cons, differs]
        apply induction
        rcases List.mem_cons.1 bound with same | behind
        · exact absurd (beq_iff_eq.2 same.symm) other
        · exact behind

theorem lookup_replace_other {bindings : Bindings} (value : Value) {other : String}
    (differs : other ≠ name) :
    (bindings.replace name value).lookup other = bindings.lookup other := by
  induction bindings with
  | nil => rfl
  | cons binding bindings induction =>
      rw [Bindings.replace]
      split
      · rename_i isName
        have same : binding.1 = name := beq_iff_eq.1 isName
        have neither : (other == name) = false := beq_eq_false_iff_ne.2 differs
        rw [List.lookup_cons, List.lookup_cons, same, neither]
      · rw [List.lookup_cons, List.lookup_cons, induction]

theorem bindings_replace_binding (store : Store) (owner : FrameId) (name : String) (value : Value)
    (frame : FrameId) :
    (store.replaceBinding owner name value).bindings frame =
      if owner = frame then (store.bindings frame).replace name value
      else store.bindings frame := by
  unfold bindings replaceBinding
  rw [Array.getElem?_modify]
  by_cases same : owner = frame
  · rw [if_pos same, if_pos same]
    cases store.frames[frame]? <;> rfl
  · rw [if_neg same, if_neg same]

theorem slot_replace_binding {owner : FrameId} (value : Value) (bound : name ∈ store.names owner) :
    (store.replaceBinding owner name value).slot? owner name = some value := by
  rw [slot?, bindings_replace_binding, if_pos rfl]
  exact lookup_replace value bound

theorem slot_replace_binding_other {owner : FrameId} (value : Value) {other : String}
    (apart : frame ≠ owner ∨ other ≠ name) :
    (store.replaceBinding owner name value).slot? frame other = store.slot? frame other := by
  rw [slot?, bindings_replace_binding]
  split
  · rename_i same
    exact lookup_replace_other value (apart.resolve_left (not_not.2 same.symm))
  · rfl

theorem resolve_assign_all (planned : Bindings) (store : Store) (start : FrameId)
    (name : String) :
    (assignAll planned store).resolve? start name = store.resolve? start name := by
  induction planned generalizing store with
  | nil => rfl
  | cons binding planned induction =>
      rw [assignAll]
      split
      · rw [induction, resolve_replace_binding]
      · exact induction store

/-- Assignments change no slot but those that their names resolve to. -/
theorem slot_assign_all_other {planned : Bindings}
    (apart : name ∈ planned.map Prod.fst → store.resolve? store.current name ≠ some frame) :
    (assignAll planned store).slot? frame name = store.slot? frame name := by
  induction planned generalizing store with
  | nil => rfl
  | cons binding planned induction =>
      rw [assignAll]
      split
      · rename_i owner resolved
        rw [induction, slot_replace_binding_other]
        · by_cases same : name = binding.1
          · subst same
            exact .inl fun here => apart (by simp) (by rw [resolved, here])
          · exact .inr same
        · intro behind
          rw [resolve_replace_binding]
          exact apart (List.mem_cons_of_mem _ behind)
      · exact induction fun behind => apart (List.mem_cons_of_mem _ behind)

theorem assign_all_append (first second : Bindings) (store : Store) :
    assignAll (first ++ second) store = assignAll second (assignAll first store) := by
  induction first generalizing store with
  | nil => rfl
  | cons binding first induction =>
      rw [List.cons_append, assignAll, assignAll]
      split
      · exact induction _
      · exact induction store

/-- Of several assignments to a name the last one stays. -/
theorem slot_assign_all {planned : Bindings} {owner : FrameId} {value : Value}
    (resolved : store.resolve? store.current name = some owner)
    (last : planned.reverse.lookup name = some value) :
    (assignAll planned store).slot? owner name = some value := by
  rcases List.lookup_eq_some_iff.1 last with ⟨behind, before, split, apart⟩
  have parts : planned = before.reverse ++ (name, value) :: behind.reverse := by
    rw [← List.reverse_inj, split]
    simp
  have bound : name ∈ (assignAll before.reverse store).names owner := by
    rw [names_assign_all]
    exact (resolve_on_chain resolved .current).2
  rw [parts, assign_all_append, assignAll, current_assign_all, resolve_assign_all, resolved]
  dsimp only
  rw [slot_assign_all_other, slot_replace_binding value bound]
  intro later
  rcases List.mem_map.1 later with ⟨binding, within, same⟩
  have differs := apart binding (List.mem_reverse.1 within)
  rw [same] at differs
  simp at differs

theorem lookup_assign_all {planned : Bindings} {owner : FrameId} {value : Value}
    (resolved : store.resolve? store.current name = some owner)
    (last : planned.reverse.lookup name = some value) :
    (assignAll planned store).lookup? name = some value := by
  have still : (assignAll planned store).resolve? (assignAll planned store).current name =
      some owner := by
    rw [current_assign_all, resolve_assign_all, resolved]
  rw [lookup_of_resolve still, slot_assign_all resolved last]

theorem bindings_add_binding (value : Value) (inside : store.current < store.frames.size) :
    (store.addBinding store.current name value).bindings store.current =
      (name, value) :: store.bindings store.current := by
  simp [bindings, addBinding, Array.getElem?_modify, Array.getElem?_eq_getElem inside]

theorem bindings_add_all (planned : Bindings) {store : Store}
    (inside : store.current < store.frames.size) :
    (addAll planned store).bindings store.current =
      planned.reverse ++ store.bindings store.current := by
  induction planned generalizing store with
  | nil => rfl
  | cons binding planned induction =>
      have still : (store.addBinding store.current binding.1 binding.2).current <
          (store.addBinding store.current binding.1 binding.2).frames.size := by
        simpa [addBinding] using inside
      have added := induction still
      rw [addAll, List.reverse_cons, List.append_assoc]
      exact added.trans (congrArg _ (bindings_add_binding binding.2 inside))

/-- Of several declarations of a name the last one is found. -/
theorem lookup_add_all {planned : Bindings} {value : Value}
    (inside : store.current < store.frames.size)
    (last : planned.reverse.lookup name = some value) :
    (addAll planned store).lookup? name = some value := by
  have held : (addAll planned store).slot? store.current name = some value := by
    rw [slot?, bindings_add_all planned inside, List.lookup_append, last]
    rfl
  have bound : name ∈ (addAll planned store).names (addAll planned store).current := by
    rcases List.lookup_eq_some_iff.1 held with ⟨before, behind, split, _⟩
    rw [current_add_all, names, split]
    simp
  rw [lookup_of_resolve (resolve_here bound), current_add_all]
  exact held

end Store

end LayoutScript
