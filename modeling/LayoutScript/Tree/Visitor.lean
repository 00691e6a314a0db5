import LayoutScript.Tree.Basic

/-!
Visitors treat statements by their kind. A visitor need not know all kinds; meeting
one without a handler is reported with the kind.
-/

namespace LayoutScript

structure Visitor (α : Type) where
  handler? : NodeKind → Option (Statement → α)

/-- A node of a kind that a visitor does not treat. -/
structure Unhandled where
  kind : NodeKind
deriving Repr, DecidableEq

def Unhandled.message (unhandled : Unhandled) : String :=
  "No visitor for " ++ unhandled.kind.name

def Statement.accept {α : Type} (statement : Statement) (visitor : Visitor α) :
    Except Unhandled α :=
  match visitor.handler? statement.kind with
  | some handle => .ok (handle statement)
  | none => .error ⟨statement.kind⟩

end LayoutScript
