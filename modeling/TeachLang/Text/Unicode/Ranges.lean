/-! # Code point ranges

A property of characters is given by its ranges of code points, both ends included, in
increasing order.
-/

namespace TeachLang.Unicode

abbrev Ranges := List (Nat × Nat)

/-- Whether a code point lies in one of the ranges; the ranges are in increasing order, so the
search stops at the first that lies above it. -/
def Ranges.has : Ranges → Nat → Bool
  | [], _ => false
  | (low, high) :: rest, n => low ≤ n && (n ≤ high || Ranges.has rest n)

end TeachLang.Unicode
