/-!
Finite unions of closed code point intervals, the form in which the character
classes beyond ASCII are tabulated.
-/

namespace LayoutScript.Text

/-- A table of closed intervals; order and overlap do not matter. -/
abbrev Ranges := List (Nat × Nat)

def Ranges.contains (ranges : Ranges) (code : Nat) : Bool :=
  ranges.any fun range => range.1 ≤ code && code ≤ range.2

end LayoutScript.Text
