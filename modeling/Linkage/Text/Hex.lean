/-
  Numbers in base sixteen, and the characters that they stand
  for.

  Key definitions include:
    * `hexDigit?`
    * `numbered?`
-/

------------------------------------------------------------
-- Base sixteen
------------------------------------------------------------

namespace Linkage

/- The number of a digit in base sixteen. -/
def hexDigit? (c : Char) : Option Nat :=
  if c.isDigit then some (c.toNat - '0'.toNat)
  else if 'a' ≤ c ∧ c ≤ 'f' then some (c.toNat - 'a'.toNat + 10)
  else if 'A' ≤ c ∧ c ≤ 'F' then some (c.toNat - 'A'.toNat + 10)
  else none

/- The character whose number is given in base sixteen. -/
def numbered? (cs : List Char) : Option Char := do
  let ds ← cs.mapM hexDigit?
  let n := ds.foldl (fun n d => 16 * n + d) 0
  if n.isValidChar then some (Char.ofNat n) else none

end Linkage
