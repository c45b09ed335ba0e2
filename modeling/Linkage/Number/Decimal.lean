import Linkage.Number.Binary

/-
  The shortest decimal text of a floating-point value: the
  fewest digits that read back as the value, and of these the
  nearest, where a tie goes up.  The text is positional and
  has no exponent.

  Key definitions include:
    * `Scaled`
    * `Format.scaled`
    * `Scaled.readsBack`
    * `Scaled.onGrid`
    * `Scaled.shortest`
    * `positional`
    * `Format.text`
-/

------------------------------------------------------------
-- The interval of a value
------------------------------------------------------------

namespace Linkage

/- Powers are those of numbers, whatever is imported. -/
attribute [local instance (2000)] instPowNat

/-
  A positive value as a fraction, with the middles between it
  and its neighbours over the same denominator.  The middles
  belong to the value if `closed` holds.
-/
structure Scaled where
  low : Nat
  value : Nat
  high : Nat
  denominator : Nat
  closed : Bool
deriving DecidableEq, Repr

/-
  The interval of numbers that round to a positive value.
  Below a power of two the neighbours are half as far.
-/
def Format.scaled
    (F : Format)
    (m : Nat)
    (q : Int) : Scaled :=
  let unit := 2 ^ (q - 2).toNat
  let below :=
    if m = 2 ^ F.fraction ∧ F.minPower < q then 1 else 2
  ⟨(4 * m - below) * unit, 4 * m * unit, (4 * m + 2) * unit,
    2 ^ (2 - q).toNat, m % 2 = 0⟩

namespace Scaled

/- The decimal `d * 10 ^ e` rounds to the value. -/
def readsBack
    (s : Scaled)
    (d : Nat)
    (e : Int) : Bool :=
  let scaled := d * 10 ^ e.toNat * s.denominator
  let unit := 10 ^ (-e).toNat
  if s.closed
  then s.low * unit ≤ scaled && scaled ≤ s.high * unit
  else s.low * unit < scaled && scaled < s.high * unit

/- The value divided by `10 ^ e`, rounded down. -/
def floorAt
    (s : Scaled)
    (e : Int) : Nat :=
  s.value * 10 ^ (-e).toNat / (s.denominator * 10 ^ e.toNat)

/-
  The value is at least as near to the next multiple of
  `10 ^ e` as to the one below it.
-/
def roundsUp
    (s : Scaled)
    (e : Int) : Bool :=
  let unit := s.denominator * 10 ^ e.toNat
  unit ≤ 2 * (s.value * 10 ^ (-e).toNat % unit)

/-
  The multiple of `10 ^ e` that reads back as the value, the
  nearer one if two do.
-/
def onGrid
    (s : Scaled)
    (e : Int) : Option Nat :=
  let d := s.floorAt e
  match s.readsBack d e, s.readsBack (d + 1) e with
  | true, true => some (if s.roundsUp e then d + 1 else d)
  | true, false => some d
  | false, true => some (d + 1)
  | false, false => none

/-
  The coarsest grid from `10 ^ e` down to `10 ^ (e - n)` that
  has a decimal for the value.
-/
def search
    (s : Scaled) : Nat → Int → Nat × Int
| 0, e => (s.floorAt e, e)
| n + 1, e =>
    match s.onGrid e with
    | some d => (d, e)
    | none => search s n (e - 1)

/- The digits and the power of ten of the shortest decimal. -/
def shortest (s : Scaled) : Nat × Int :=
  let top : Int :=
    Nat.log2 s.value / 3 + 1 - Nat.log2 s.denominator / 4
  s.search 1200 top

end Scaled

------------------------------------------------------------
-- Positional text
------------------------------------------------------------

/- A text without the zeros at its end. -/
def dropTrailingZeros (cs : List Char) : List Char :=
  (cs.reverse.dropWhile (· = '0')).reverse

/- The positional text of `d * 10 ^ e`. -/
def positional
    (d : Nat)
    (e : Int) : List Char :=
  let digits := Nat.toDigits 10 d
  if 0 ≤ e then digits ++ List.replicate e.toNat '0'
  else
    let places := (-e).toNat
    let padded :=
      List.replicate (places + 1 - digits.length) '0' ++ digits
    let whole := padded.take (padded.length - places)
    let part :=
      dropTrailingZeros (padded.drop (padded.length - places))
    if part = [] then whole else whole ++ '.' :: part

/- The text of a bit pattern. -/
def Format.text
    (F : Format)
    (bits : Nat) : String :=
  let sign (negative : Bool) := if negative then "-" else ""
  match F.decode bits with
  | .nan _ _ => "NaN"
  | .infinity negative => sign negative ++ "inf"
  | .finite negative 0 _ => sign negative ++ "0"
  | .finite negative m q =>
      let (d, e) := (F.scaled m q).shortest
      sign negative ++ String.ofList (positional d e)

end Linkage
