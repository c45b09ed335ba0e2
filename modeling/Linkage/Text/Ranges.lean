/-
  Sets of code points, given as lists of ranges.

  Key definitions include:
    * `inRanges`
-/

------------------------------------------------------------
-- Ranges
------------------------------------------------------------

namespace Linkage

/- A code point lies in one of some ranges, bounds included. -/
def inRanges
    (ranges : List (Nat × Nat))
    (n : Nat) : Bool :=
  ranges.any (fun r => r.1 ≤ n && n ≤ r.2)

end Linkage
