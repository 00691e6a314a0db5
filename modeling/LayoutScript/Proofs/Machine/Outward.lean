import LayoutScript.Proofs.Machine.Resolution
import Mathlib.Data.List.Perm.Subperm

/-!
The way outward. From a frame it leads from parent to parent to a frame that has none. A search
for a name goes this way and no other, and since no frame comes twice on it, a search that may
pass as many frames as there are comes to its end. What a way passes is a matter of the parents
alone.
-/

namespace LayoutScript.Store

/-- The frames from one outward: each is followed by its parent, and the last one has none. -/
inductive Outward (store : Store) : FrameId → List FrameId → Prop where
  | last {frame : FrameId} {found : Frame} (present : store.frames[frame]? = some found)
      (isLast : found.parent = none) : store.Outward frame [frame]
  | next {frame outer : FrameId} {found : Frame} {path : List FrameId}
      (present : store.frames[frame]? = some found) (isParent : found.parent = some outer)
      (rest : store.Outward outer path) : store.Outward frame (frame :: path)

variable {store other : Store} {frame : FrameId} {path : List FrameId} {name : String}

namespace Outward

theorem present (outward : store.Outward frame path) :
    ∃ found, store.frames[frame]? = some found := by
  cases outward with
  | last present _ => exact ⟨_, present⟩
  | next present _ _ => exact ⟨_, present⟩

theorem unique {second : List FrameId} (first : store.Outward frame path)
    (again : store.Outward frame second) : path = second := by
  induction first generalizing second with
  | last present isLast =>
      cases again with
      | last _ _ => rfl
      | next presentToo isParent _ =>
          have same := Option.some.inj (present.symm.trans presentToo)
          rw [same, isParent] at isLast
          cases isLast
  | next present isParent _ induction =>
      cases again with
      | last presentToo isLast =>
          have same := Option.some.inj (present.symm.trans presentToo)
          rw [same, isLast] at isParent
          cases isParent
      | next presentToo isParentToo restToo =>
          have same := Option.some.inj (present.symm.trans presentToo)
          rw [same] at isParent
          have sameOuter := Option.some.inj (isParent.symm.trans isParentToo)
          rw [← sameOuter] at restToo
          rw [induction restToo]

/-- From a frame on the way the rest of the way leads outward. -/
theorem behind (outward : store.Outward frame path) {place : FrameId} (passed : place ∈ path) :
    ∃ nearer rest, path = nearer ++ rest ∧ store.Outward place rest := by
  induction outward with
  | last present isLast =>
      rw [List.mem_singleton.1 passed]
      exact ⟨[], _, rfl, .last present isLast⟩
  | @next frame outer found path present isParent rest induction =>
      rcases List.mem_cons.1 passed with rfl | later
      · exact ⟨[], _, rfl, .next present isParent rest⟩
      · rcases induction later with ⟨nearer, further, split, leads⟩
        exact ⟨frame :: nearer, further, by rw [split, List.cons_append], leads⟩

theorem inside (outward : store.Outward frame path) {place : FrameId} (passed : place ∈ path) :
    place < store.frames.size := by
  rcases outward.behind passed with ⟨_, _, _, leads⟩
  rcases leads.present with ⟨_, present⟩
  exact (Array.getElem?_eq_some_iff.1 present).1

/-- No frame comes twice: the way from its second place on would be as long as the way from its
first. -/
theorem nodup (outward : store.Outward frame path) : path.Nodup := by
  induction outward with
  | last _ _ => exact List.nodup_singleton _
  | @next frame outer found path present isParent rest induction =>
      have apart : frame ∉ path := by
        intro again
        rcases rest.behind again with ⟨nearer, further, split, leads⟩
        have whole := (Outward.next present isParent rest).unique leads
        have lengths := congrArg List.length whole
        rw [split] at lengths
        simp only [List.length_cons, List.length_append] at lengths
        omega
      exact List.nodup_cons.2 ⟨apart, induction⟩

theorem length_le (outward : store.Outward frame path) : path.length ≤ store.frames.size := by
  have within : path ⊆ List.range store.frames.size := by
    intro place passed
    exact List.mem_range.2 (outward.inside passed)
  have shorter := (List.subperm_of_subset outward.nodup within).length_le
  rwa [List.length_range] at shorter

/-- The way is the same wherever the frames on it have the same parents. -/
theorem of_parents (outward : store.Outward frame path)
    (same : ∀ (place : FrameId) (found : Frame), store.frames[place]? = some found →
      ∃ kept : Frame, other.frames[place]? = some kept ∧ kept.parent = found.parent) :
    other.Outward frame path := by
  induction outward with
  | last present isLast =>
      rcases same _ _ present with ⟨kept, presentToo, sameParent⟩
      exact .last presentToo (sameParent.trans isLast)
  | next present isParent _ induction =>
      rcases same _ _ present with ⟨kept, presentToo, sameParent⟩
      exact .next presentToo (sameParent.trans isParent) induction

end Outward

theorem bindings_of_present {found : Frame} (present : store.frames[frame]? = some found) :
    store.bindings frame = found.bindings := by
  rw [bindings, present]

/-- A search that may pass all frames of the way stops at the first one that binds the name. -/
theorem resolve_within_outward {fuel : Nat} (outward : store.Outward frame path)
    (enough : path.length ≤ fuel) :
    resolveWithin store.frames name fuel frame =
      path.find? fun place => (store.bindings place).binds name := by
  induction outward generalizing fuel with
  | last present isLast =>
      cases fuel with
      | zero => exact absurd enough (Nat.not_succ_le_zero _)
      | succ fuel =>
          rw [resolveWithin, present, List.find?_singleton, bindings_of_present present]
          dsimp only
          rw [isLast]
  | @next _ _ found _ present isParent rest induction =>
      cases fuel with
      | zero => exact absurd enough (Nat.not_succ_le_zero _)
      | succ fuel =>
          have further := induction (Nat.le_of_succ_le_succ enough)
          rw [resolveWithin, present, List.find?_cons, bindings_of_present present]
          dsimp only
          rw [isParent]
          dsimp only
          rw [further]
          cases found.bindings.binds name <;> rfl

theorem resolve_outward (outward : store.Outward frame path) (name : String) :
    store.resolve? frame name = path.find? fun place => (store.bindings place).binds name :=
  resolve_within_outward outward outward.length_le

theorem lookup_is_some (bindings : Bindings) (name : String) :
    (bindings.lookup name).isSome = bindings.binds name := by
  induction bindings with
  | nil => rfl
  | cons binding bindings induction =>
      rw [List.lookup_cons, Bindings.binds, List.any_cons, Bool.beq_comm]
      cases binding.1 == name with
      | true => rfl
      | false => exact induction

theorem slot_is_some (store : Store) (frame : FrameId) (name : String) :
    (store.slot? frame name).isSome = (store.bindings frame).binds name :=
  lookup_is_some _ _

theorem slot_eq_none_iff : store.slot? frame name = none ↔ name ∉ store.names frame := by
  rw [← Option.not_isSome_iff_eq_none, slot_is_some, binds_iff]
  rfl

/-- The value in the first slot that is filled is the first value. -/
theorem find_bind_slot (path : List FrameId) :
    ((path.find? fun place => (store.bindings place).binds name).bind fun owner =>
      store.slot? owner name) = path.findSome? fun place => store.slot? place name := by
  induction path with
  | nil => rfl
  | cons place path induction =>
      rw [List.find?_cons, List.findSome?_cons, ← slot_is_some]
      cases held : store.slot? place name with
      | none => exact induction
      | some value => exact held

theorem lookup_outward (outward : store.Outward frame path) (name : String) :
    store.lookupFrom? frame name = path.findSome? fun place => store.slot? place name := by
  rw [← find_bind_slot, ← resolve_outward outward]
  rfl

theorem contains_outward (outward : store.Outward frame path) (name : String) :
    store.containsFrom frame name = path.any fun place => (store.bindings place).binds name := by
  rw [containsFrom, resolve_outward outward, List.isSome_find?]

end LayoutScript.Store
