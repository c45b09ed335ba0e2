/-
  Binary floating-point formats, worked with as bit patterns
  and exact integers.  A finite value is a sign, a natural
  number and a power of two; rounding goes to the nearest
  value, and from the middle to the one with an even last
  digit.

  Key definitions include:
    * `Format`
    * `Decoded`
    * `Format.decode`
    * `roundShift`
    * `Format.encode`
    * `Format.ofInt`
    * `Format.convert`
    * `Decoded.truncate`
    * `clampInt`
-/

------------------------------------------------------------
-- Formats
------------------------------------------------------------

namespace Linkage

/- Powers are those of numbers, whatever is imported. -/
attribute [local instance (2000)] instPowNat

/-
  A floating-point format: the number of stored fraction
  digits and of exponent digits.
-/
structure Format where
  fraction : Nat
  exponent : Nat
deriving DecidableEq, Repr

namespace Format

/- The format of thirty-two digits. -/
def single : Format := ⟨23, 8⟩

/- The format of sixty-four digits. -/
def double : Format := ⟨52, 11⟩

/- The least power of two that a last digit may stand for. -/
def minPower (F : Format) : Int :=
  2 - 2 ^ (F.exponent - 1) - F.fraction

/- The exponent field of infinities and of what is no number. -/
def topExponent (F : Format) : Nat :=
  2 ^ F.exponent - 1

/- The place of the sign. -/
def signPlace (F : Format) : Nat :=
  F.fraction + F.exponent

end Format

------------------------------------------------------------
-- Decoding
------------------------------------------------------------

/-
  What a bit pattern stands for.  A finite value is
  `magnitude * 2 ^ power`, negated if `negative` holds.
-/
inductive Decoded where
| nan (negative : Bool) (payload : Nat)
| infinity (negative : Bool)
| finite (negative : Bool) (magnitude : Nat) (power : Int)
deriving DecidableEq, Repr

/- What a bit pattern stands for in a format. -/
def Format.decode
    (F : Format)
    (bits : Nat) : Decoded :=
  let negative := bits.testBit F.signPlace
  let exponent := bits / 2 ^ F.fraction % 2 ^ F.exponent
  let fraction := bits % 2 ^ F.fraction
  if exponent = F.topExponent then
    if fraction = 0
    then .infinity negative
    else .nan negative fraction
  else if exponent = 0 then
    .finite negative fraction F.minPower
  else
    .finite negative (2 ^ F.fraction + fraction)
      (F.minPower + (exponent - 1))

------------------------------------------------------------
-- Rounding
------------------------------------------------------------

/-
  The quotient by a power of two, rounded to the nearest;
  from the middle, to the even one.
-/
def roundShift
    (m n : Nat) : Nat :=
  let quotient := m / 2 ^ n
  let rest := m % 2 ^ n
  if 2 * rest < 2 ^ n then quotient
  else if 2 ^ n < 2 * rest then quotient + 1
  else if n = 0 then quotient
  else quotient + quotient % 2

/- The bit pattern of a sign and the digits below it. -/
def Format.signed
    (F : Format)
    (negative : Bool)
    (digits : Nat) : Nat :=
  if negative then 2 ^ F.signPlace + digits else digits

/- The digits of an infinity. -/
def Format.infinityDigits (F : Format) : Nat :=
  F.topExponent * 2 ^ F.fraction

/-
  The bit pattern of the value nearest to
  `magnitude * 2 ^ power`.  The digits are those of the
  rounded magnitude with its exponent added above them, so a
  carry out of the fraction raises the exponent.
-/
def Format.encode
    (F : Format)
    (negative : Bool)
    (magnitude : Nat)
    (power : Int) : Nat :=
  if magnitude = 0 then F.signed negative 0
  else
    let length : Int := Nat.log2 magnitude + 1
    let target := max (power + length - (F.fraction + 1)) F.minPower
    let rounded :=
      if target ≤ power
      then magnitude * 2 ^ (power - target).toNat
      else roundShift magnitude (target - power).toNat
    let digits :=
      (target - F.minPower).toNat * 2 ^ F.fraction + rounded
    F.signed negative (min digits F.infinityDigits)

/- The bit pattern of the value nearest to an integer. -/
def Format.ofInt
    (F : Format)
    (n : Int) : Nat :=
  F.encode (n < 0) n.natAbs 0

/-
  The bit pattern of what is no number.  Its payload is
  aligned at the top and its first digit is set.
-/
def Format.quiet
    (source target : Format)
    (negative : Bool)
    (payload : Nat) : Nat :=
  let moved :=
    if source.fraction ≤ target.fraction
    then payload * 2 ^ (target.fraction - source.fraction)
    else payload / 2 ^ (source.fraction - target.fraction)
  target.signed negative
    (target.infinityDigits +
      (moved ||| 2 ^ (target.fraction - 1)))

/- The bit pattern in one format of a pattern in another. -/
def Format.convert
    (source target : Format)
    (bits : Nat) : Nat :=
  match source.decode bits with
  | .nan negative payload => source.quiet target negative payload
  | .infinity negative =>
      target.signed negative target.infinityDigits
  | .finite negative m q => target.encode negative m q

------------------------------------------------------------
-- Integers
------------------------------------------------------------

/- The closest number that lies between two bounds. -/
def clampInt
    (low high n : Int) : Int :=
  max low (min high n)

/-
  The integer part of a value, held between two bounds; what
  is no number becomes zero.
-/
def Decoded.truncate
    (low high : Int) : Decoded → Int
| nan _ _ => 0
| infinity negative => if negative then low else high
| finite negative m q =>
    let whole : Nat :=
      if 0 ≤ q then m * 2 ^ q.toNat else m / 2 ^ (-q).toNat
    clampInt low high (if negative then -whole else whole)

end Linkage
