import LayoutScript.Store

/-!
Functions that every global frame starts with. A registry keeps one entry for each
name; a later registration under the same name replaces the earlier one.
-/

namespace LayoutScript

structure Builtin where
  name : String
  arity : Nat
  doc : String
deriving Repr, DecidableEq, Inhabited

namespace Builtin

/-- Writes the display text of a value and a line feed. -/
def printing : Builtin := ⟨"print", 1, "print(value) -> none"⟩

end Builtin

/-- Registered functions in the order of their names. -/
structure Registry where
  entries : List Builtin
deriving Repr, DecidableEq, Inhabited

namespace Registry

def insertSorted (entry : Builtin) : List Builtin → List Builtin
  | [] => [entry]
  | first :: rest =>
      if entry.name == first.name then entry :: rest
      else if entry.name < first.name then entry :: first :: rest
      else first :: insertSorted entry rest

def register (registry : Registry) (entry : Builtin) : Registry :=
  ⟨insertSorted entry registry.entries⟩

/-- The functions that scripts always have. -/
def standard : Registry := ⟨[Builtin.printing]⟩

def names (registry : Registry) : List String := registry.entries.map (·.name)

end Registry

/-- The function value of a builtin. -/
def Builtin.native (builtin : Builtin) : Native :=
  ⟨.host ("builtin " ++ builtin.name), builtin.name, builtin.arity, true⟩

/-- A store whose global frame binds the standard functions and nothing else. -/
def Store.initial : Store :=
  Registry.standard.entries.foldl
    (fun store entry =>
      (store.declare? entry.name (.function (.native entry.native))).getD store)
    .empty

end LayoutScript
