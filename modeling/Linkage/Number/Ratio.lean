import Linkage.Number.Binary

/-
  Rounding of fractions and of decimals to a floating-point
  format.  A fraction is cut to more digits than the format
  has, and one further digit tells whether anything was cut,
  so rounding the cut fraction rounds the fraction itself.

  Key definitions include:
    * `Format.ofRatio`
    * `decimalLength`
    * `Format.ofDecimal`
-/

------------------------------------------------------------
-- Fractions
------------------------------------------------------------

namespace Linkage

/- Powers are those of numbers, whatever is imported. -/
attribute [local instance (2000)] instPowNat

/-
  The number of binary places after which a fraction is cut:
  enough for two digits more than the format keeps.
-/
def Format.places
    (F : Format)
    (num den : Nat) : Nat :=
  Nat.log2 den + F.fraction + 4 - Nat.log2 num

/- The bit pattern of the value nearest to a fraction. -/
def Format.ofRatio
    (F : Format)
    (negative : Bool)
    (num den : Nat) : Nat :=
  let places := F.places num den
  let cut := num * 2 ^ places / den
  let rest := num * 2 ^ places % den
  let sticky := if rest = 0 then 0 else 1
  F.encode negative (2 * cut + sticky) (-(places : Int) - 1)

------------------------------------------------------------
-- Decimals
------------------------------------------------------------

/- The number of decimal digits of a number. -/
def decimalLength (d : Nat) : Nat :=
  (Nat.toDigits 10 d).length

/-
  The bit pattern of the value nearest to `d * 10 ^ e`.  A
  decimal whose first digit lies far outside the range of the
  format is infinite or zero.
-/
def Format.ofDecimal
    (F : Format)
    (negative : Bool)
    (d : Nat)
    (e : Int) : Nat :=
  let top : Int := decimalLength d + e
  let range : Int := 2 ^ F.exponent
  if d = 0 then F.signed negative 0
  else if range < top then F.signed negative F.infinityDigits
  else if top < -range then F.signed negative 0
  else if 0 ≤ e then F.ofRatio negative (d * 10 ^ e.toNat) 1
  else F.ofRatio negative d (10 ^ (-e).toNat)

end Linkage
