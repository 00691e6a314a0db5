import LayoutScript.Diagnostic.Cause
import LayoutScript.Text.Quoted
import LayoutScript.Value.Basic

/-!
The store of frames. Frames form a tree through their parents; the global frame is
the first one. Names are resolved in one place, and reading, testing and rebinding
a name all follow that resolution.
-/

namespace LayoutScript

/-- Bindings of one frame, each name at most once. -/
abbrev Bindings := List (String × Value)

def Bindings.binds (bindings : Bindings) (name : String) : Bool :=
  bindings.any fun binding => binding.1 == name

/-- Replaces the value of a bound name. -/
def Bindings.replace (name : String) (value : Value) : Bindings → Bindings
  | [] => []
  | binding :: rest =>
      if binding.1 == name then (name, value) :: rest
      else binding :: Bindings.replace name value rest

structure Frame where
  name : String
  bindings : Bindings
  parent : Option FrameId
deriving Repr, Inhabited

structure Store where
  frames : Array Frame
  current : FrameId
  nextFunction : Nat
deriving Repr, Inhabited

namespace Store

/-- The global frame comes first in every store. -/
def globalFrame : FrameId := 0

def empty : Store := ⟨#[⟨"global", [], none⟩], globalFrame, 0⟩

/-- Follows parents from a frame, over at most `fuel` frames, to the nearest one that
binds a name. -/
def resolveWithin (frames : Array Frame) (name : String) : Nat → FrameId → Option FrameId
  | 0, _ => none
  | fuel + 1, frame =>
      match frames[frame]? with
      | none => none
      | some found =>
          if found.bindings.binds name then some frame
          else
            match found.parent with
            | none => none
            | some parent => resolveWithin frames name fuel parent

/-- The nearest frame, from the given one outward, that binds a name. -/
def resolve? (store : Store) (frame : FrameId) (name : String) : Option FrameId :=
  resolveWithin store.frames name store.frames.size frame

def bindings (store : Store) (frame : FrameId) : Bindings :=
  match store.frames[frame]? with
  | some found => found.bindings
  | none => []

def lookupFrom? (store : Store) (frame : FrameId) (name : String) : Option Value := do
  let owner ← store.resolve? frame name
  (store.bindings owner).lookup name

def containsFrom (store : Store) (frame : FrameId) (name : String) : Bool :=
  (store.resolve? frame name).isSome

/-- Reads a name in the current frame. -/
def lookup? (store : Store) (name : String) : Option Value := store.lookupFrom? store.current name

def contains (store : Store) (name : String) : Bool := store.containsFrom store.current name

/-- Whether the current frame itself binds a name. -/
def bindsHere (store : Store) (name : String) : Bool :=
  (store.bindings store.current).binds name

/-- Puts a binding in front of those of a frame. -/
def addBinding (store : Store) (frame : FrameId) (name : String) (value : Value) : Store :=
  { store with
    frames := store.frames.modify frame fun found =>
      { found with bindings := (name, value) :: found.bindings } }

/-- Replaces the value that a frame binds to a name. -/
def replaceBinding (store : Store) (frame : FrameId) (name : String) (value : Value) : Store :=
  { store with
    frames := store.frames.modify frame fun found =>
      { found with bindings := found.bindings.replace name value } }

/-- Adds a binding to the current frame, which must not have the name yet. -/
def declare? (store : Store) (name : String) (value : Value) : Option Store :=
  if store.bindsHere name then none
  else some (store.addBinding store.current name value)

/-- Rebinds a name where it is bound. -/
def assign? (store : Store) (name : String) (value : Value) : Option Store :=
  match store.resolve? store.current name with
  | some owner => some (store.replaceBinding owner name value)
  | none => none

/-- Adds a frame and makes it current. -/
def enter (store : Store) (name : String) (parent : FrameId) : Store :=
  let added := store.frames.size
  { store with frames := store.frames.push ⟨name, [], some parent⟩, current := added }

/-- Makes another frame current; no frame is removed. -/
def goTo (store : Store) (frame : FrameId) : Store := { store with current := frame }

/-- Returns to the global frame. -/
def reset (store : Store) : Store := store.goTo globalFrame

/-- Returns to the global frame and removes all its bindings. -/
def close (store : Store) : Store :=
  { store with
    frames := store.frames.modify globalFrame fun frame => { frame with bindings := [] }
    current := globalFrame }

/-- A serial number for a new function. -/
def freshFunction (store : Store) : Identity × Store :=
  (.script store.nextFunction, { store with nextFunction := store.nextFunction + 1 })

/-- A frame and its parents, innermost first. -/
def chainWithin (frames : Array Frame) : Nat → FrameId → List Frame
  | 0, _ => []
  | fuel + 1, frame =>
      match frames[frame]? with
      | none => []
      | some found =>
          found :: match found.parent with
            | none => []
            | some parent => chainWithin frames fuel parent

/-- The current frame and its parents, innermost first. -/
def chain (store : Store) : List Frame :=
  chainWithin store.frames store.frames.size store.current

end Store

/-- Bindings in the order of their names. -/
def Bindings.sorted (bindings : Bindings) : Bindings :=
  bindings.mergeSort fun left right => left.1 ≤ right.1

/-- A frame as hosts list it: its name and the names it binds. -/
def Frame.listed (frame : Frame) : String :=
  "Frame(" ++ Text.listed frame.name ++ ", " ++
    Text.bracketed (frame.bindings.sorted.map fun binding => Text.listed binding.1) ++ ")"

end LayoutScript
