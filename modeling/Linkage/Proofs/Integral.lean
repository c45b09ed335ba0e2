import Linkage.Proofs.Cells
import Mathlib.Algebra.Group.Int.Defs
import Mathlib.Algebra.Group.Nat.Defs
import Mathlib.Data.Int.Basic

/-
  Casts between integral kinds.  A kind keeps a number of low
  binary digits, and reads them with a sign or without.  A
  cast keeps the low digits of the number that is cast, and
  so does a field that the number is stored in; which digits
  were there before, and through how many of them the number
  went, makes no difference.

  Key definitions include:
    * `Digits`
    * `Digits.keep`
    * `Kind.digits?`
    * `Prim.number?`

  Key theorems include:
    * `Digits.keep_keep`
    * `Digits.keep_eq`
    * `Kind.bounds_of_widensTo`
    * `Prim.cast_eq_ofIntegral`
    * `Prim.ofBits_eq_ofIntegral`
    * `Prim.ofIntegral_keeps`
    * `Value.casts_keep_low_digits`
-/

------------------------------------------------------------
-- Binary Digits
------------------------------------------------------------

namespace Linkage

/- The binary digits of a kind, and if they have a sign. -/
structure Digits where
  width : Nat
  signed : Bool
  width_pos : 0 < width

namespace Digits

variable {d e : Digits}
variable {m n : Int}

/- As many numbers as the digits tell apart. -/
def modulus (d : Digits) : Nat :=
  2 ^ d.width

/- The number that the low digits of a number stand for. -/
def keep
    (d : Digits)
    (n : Int) : Int :=
  if d.signed then n.bmod d.modulus else n % d.modulus

/- The least number that the digits stand for. -/
def least (d : Digits) : Int :=
  if d.signed then -2 ^ (d.width - 1) else 0

/- The first number that is too great for the digits. -/
def beyond (d : Digits) : Int :=
  if d.signed then 2 ^ (d.width - 1) else 2 ^ d.width

theorem keep_emod (d : Digits) (n : Int) :
    d.keep n % d.modulus = n % d.modulus := by
  unfold keep
  split
  · exact Int.bmod_emod
  · exact Int.emod_emod_of_dvd n (Int.dvd_refl _)

/- No other digits than the low ones matter. -/
theorem keep_congr
    (hSame : m % d.modulus = n % d.modulus) :
    d.keep m = d.keep n := by
  unfold keep
  split
  · rw [← Int.emod_bmod m, ← Int.emod_bmod n, hSame]
  · exact hSame

/- Digits that more digits were kept of are kept alike. -/
theorem keep_keep
    (hWidth : e.width ≤ d.width)
    (n : Int) :
    e.keep (d.keep n) = e.keep n := by
  apply keep_congr
  have hDvd : (e.modulus : Int) ∣ d.modulus :=
    Int.natCast_dvd_natCast.2 (Nat.pow_dvd_pow 2 hWidth)
  calc
    d.keep n % e.modulus
        = d.keep n % d.modulus % e.modulus :=
      (Int.emod_emod_of_dvd _ hDvd).symm
    _ = n % d.modulus % e.modulus := by rw [keep_emod]
    _ = n % e.modulus := Int.emod_emod_of_dvd _ hDvd

theorem modulus_eq (d : Digits) :
    (d.modulus : Int) = 2 * 2 ^ (d.width - 1) := by
  have hWidth : d.width = d.width - 1 + 1 :=
    (Nat.sub_add_cancel d.width_pos).symm
  unfold modulus
  rw [hWidth, Nat.pow_succ, Nat.add_sub_cancel]
  push_cast
  exact Int.mul_comm _ _

/- A number that the digits stand for is kept as it is. -/
theorem keep_eq
    (hLeast : d.least ≤ n)
    (hBeyond : n < d.beyond) :
    d.keep n = n := by
  have hModulus := d.modulus_eq
  unfold least at hLeast
  unfold beyond at hBeyond
  unfold keep
  split
  · rename_i hSigned
    rw [if_pos hSigned] at hLeast hBeyond
    apply Int.bmod_eq_of_le
    · omega
    · omega
  · rename_i hSigned
    rw [if_neg hSigned] at hLeast hBeyond
    apply Int.emod_eq_of_lt hLeast
    simpa [modulus] using hBeyond

/- What is kept is a number that the digits stand for. -/
theorem keep_bounds
    (d : Digits)
    (n : Int) :
    d.least ≤ d.keep n ∧ d.keep n < d.beyond := by
  have hModulus := d.modulus_eq
  have hPos : 0 < d.modulus := Nat.two_pow_pos d.width
  unfold least beyond keep
  cases d.signed with
  | true =>
      have hLeast : -(d.modulus / 2) ≤ n.bmod d.modulus :=
        Int.le_bmod hPos
      have hBeyond : n.bmod d.modulus < (d.modulus + 1) / 2 :=
        Int.bmod_lt hPos
      simp only [if_true]
      omega
  | false =>
      have hCast : (d.modulus : Int) = 2 ^ d.width := by
        simp [modulus]
      simp only [Bool.false_eq_true, if_false]
      rw [← hCast]
      exact
        ⟨Int.emod_nonneg _ (by omega),
          Int.emod_lt_of_pos _ (by omega)⟩

end Digits

------------------------------------------------------------
-- Integral Kinds
------------------------------------------------------------

/- The digits of an integral kind; `boolean` has one. -/
def Kind.digits? : Kind → Option Digits
| boolean => some ⟨1, false, by decide⟩
| byte => some ⟨8, true, by decide⟩
| short => some ⟨16, true, by decide⟩
| char => some ⟨16, false, by decide⟩
| int => some ⟨32, true, by decide⟩
| long => some ⟨64, true, by decide⟩
| float => none
| double => none
| void => none

/- A wider kind has room for all numbers of a kind. -/
theorem Kind.bounds_of_widensTo
    {a b : Kind}
    {d e : Digits}
    (hWidens : a.widensTo b = true)
    (hFirst : a.digits? = some d)
    (hSecond : b.digits? = some e) :
    e.least ≤ d.least ∧ d.beyond ≤ e.beyond := by
  revert hWidens
  cases a <;> cases hFirst <;> cases b <;> cases hSecond <;> decide

namespace Prim

variable {p q : Prim}
variable {k : Kind}
variable {d : Digits}
variable {n : Int64}

/- The number that a value of an integral kind stands for. -/
def number? (p : Prim) : Option Int :=
  p.integral?.map Int64.toInt

theorem exists_integral
    {m : Int}
    (hNumber : p.number? = some m) :
    ∃ n : Int64, p.integral? = some n ∧ n.toInt = m :=
  Option.map_eq_some_iff.1 hNumber

/- The low digits of a number are those of its pattern. -/
theorem toInt_emod
    {m : Nat}
    (hDvd : m ∣ 2 ^ 64)
    (n : Int64) :
    n.toInt % m = ((n.toUInt64.toNat % m : Nat) : Int) := by
  have hBits : n.toInt = (n.toUInt64.toNat : Int).bmod (2 ^ 64) :=
    BitVec.toInt_eq_toNat_bmod n.toBitVec
  have hCast : (m : Int) ∣ ((2 ^ 64 : Nat) : Int) :=
    Int.natCast_dvd_natCast.2 hDvd
  rw [hBits, ← Int.emod_emod_of_dvd _ hCast, Int.bmod_emod,
    Int.emod_emod_of_dvd _ hCast]
  exact (Int.natCast_emod _ _).symm

/- The lowest digit tells if a pattern is odd. -/
theorem lowBit_word (b : UInt64) :
    (b &&& 1 != 0) = decide (b.toNat % 2 = 1) := by
  have hLow : (b &&& 1).toNat = b.toNat % 2 := Nat.and_one_is_mod _
  have hEq : b &&& 1 = 0 ↔ b.toNat % 2 = 0 := by
    rw [← hLow]
    exact UInt64.toNat_inj.symm
  rw [bne, beq_eq_decide, decide_eq_decide.2 hEq, ← decide_not,
    decide_eq_decide]
  omega

theorem lowBit_number (n : Int64) :
    (n &&& 1 != 0) = decide (n.toUInt64.toNat % 2 = 1) := by
  have hEq : n &&& 1 = 0 ↔ n.toUInt64 &&& 1 = 0 :=
    ⟨fun h => congrArg Int64.toUInt64 h,
      fun h => congrArg UInt64.toInt64 h⟩
  rw [← lowBit_word, bne, bne, beq_eq_decide, beq_eq_decide,
    decide_eq_decide.2 hEq]

theorem toInt_lowBit (n : Int64) :
    (if n &&& 1 != 0 then (1 : Int64) else 0).toInt =
      n.toInt % (2 : Nat) := by
  rw [toInt_emod (by decide), lowBit_number]
  rcases Nat.mod_two_eq_zero_or_one n.toUInt64.toNat with h | h
  · rw [h]
    rfl
  · rw [h]
    rfl

/- A unit of sixteen digits has no sign. -/
theorem toInt_unit (n : Int64) :
    n.toUInt64.toUInt16.toUInt64.toInt64.toInt =
      n.toInt % (2 ^ 16 : Nat) := by
  let unit := n.toUInt64.toUInt16.toUInt64
  have hUnit : unit.toNat = n.toUInt64.toNat % 2 ^ 16 := by
    simp [unit]
  have hSmall : 2 * unit.toNat < 2 ^ 64 := by
    have hLt : n.toUInt64.toNat % 2 ^ 16 < 2 ^ 16 :=
      Nat.mod_lt _ (by decide)
    omega
  rw [toInt_emod (by decide), ← hUnit]
  exact BitVec.toInt_eq_toNat_of_lt hSmall

/-
  The value of a kind that is made of a number has the low
  digits of the number.
-/
theorem ofIntegral_keeps
    (hDigits : k.digits? = some d)
    (n : Int64) :
    ∃ q,
      ofIntegral n k = some q ∧ q.kind = k ∧
        q.number? = some (d.keep n.toInt) := by
  cases k with
  | boolean =>
      cases hDigits
      exact ⟨_, rfl, rfl, congrArg some (toInt_lowBit n)⟩
  | byte =>
      cases hDigits
      refine ⟨_, rfl, rfl, congrArg some ?_⟩
      rw [Int8.toInt_toInt64]
      exact Int64.toInt_toInt8 n
  | short =>
      cases hDigits
      refine ⟨_, rfl, rfl, congrArg some ?_⟩
      rw [Int16.toInt_toInt64]
      exact Int64.toInt_toInt16 n
  | char =>
      cases hDigits
      exact ⟨_, rfl, rfl, congrArg some (toInt_unit n)⟩
  | int =>
      cases hDigits
      refine ⟨_, rfl, rfl, congrArg some ?_⟩
      rw [Int32.toInt_toInt64]
      exact Int64.toInt_toInt32 n
  | long =>
      cases hDigits
      refine ⟨_, rfl, rfl, congrArg some (Eq.symm ?_)⟩
      exact Digits.keep_eq (Int64.le_toInt n) (Int64.toInt_lt n)
  | float => cases hDigits
  | double => cases hDigits
  | void => cases hDigits

/- A value that has a number is of a kind that has digits. -/
theorem exists_digits
    (hIntegral : p.integral? = some n) :
    ∃ d, p.kind.digits? = some d := by
  cases p with
  | float b => cases hIntegral
  | double b => cases hIntegral
  | _ => exact ⟨_, rfl⟩

/- A value is what its kind makes of its number. -/
theorem ofIntegral_self
    (hIntegral : p.integral? = some n) :
    ofIntegral n p.kind = some p := by
  cases p with
  | boolean b =>
      cases hIntegral
      cases b <;> decide
  | byte m =>
      cases hIntegral
      simp [ofIntegral, kind]
  | short m =>
      cases hIntegral
      simp [ofIntegral, kind]
  | char m =>
      cases hIntegral
      simp [ofIntegral, kind]
  | int m =>
      cases hIntegral
      simp [ofIntegral, kind]
  | long m =>
      cases hIntegral
      rfl
  | float b => cases hIntegral
  | double b => cases hIntegral

/- A cast asks for the number of a value, whatever its kind. -/
theorem cast_eq_ofIntegral
    (hIntegral : p.integral? = some n)
    (k : Kind) :
    p.cast k = ofIntegral n k := by
  have hWide : p.wide? = none := by
    cases p with
    | float b => cases hIntegral
    | double b => cases hIntegral
    | _ => rfl
  unfold cast
  split
  · rename_i hKind
    rw [← hKind, ofIntegral_self hIntegral]
  · rw [hWide, hIntegral]

/- The pattern of a value is that of its number. -/
theorem toInt64_toBits
    (hIntegral : p.integral? = some n) :
    p.toBits.toInt64 = n := by
  cases p with
  | boolean b =>
      cases hIntegral
      cases b <;> decide
  | float b => cases hIntegral
  | double b => cases hIntegral
  | _ =>
      cases hIntegral
      rfl

/- A pattern is read as the number that it stands for. -/
theorem ofBits_eq_ofIntegral
    (hDigits : k.digits? = some d)
    (bits : UInt64) :
    ofBits bits k = ofIntegral bits.toInt64 k := by
  cases k with
  | boolean =>
      exact
        congrArg (fun b => some (boolean b))
          ((lowBit_word bits).trans
            (lowBit_number bits.toInt64).symm)
  | float => cases hDigits
  | double => cases hDigits
  | void => cases hDigits
  | _ => rfl

/- Values of one kind are told by their numbers. -/
theorem eq_of_number
    {m : Int}
    (hKind : p.kind = q.kind)
    (hFirst : p.number? = some m)
    (hSecond : q.number? = some m) :
    p = q := by
  rcases exists_integral hFirst with ⟨a, ha, hm⟩
  rcases exists_integral hSecond with ⟨b, hb, rfl⟩
  cases Int64.toInt_inj.1 hm
  have hSelf := ofIntegral_self ha
  rw [hKind, ofIntegral_self hb] at hSelf
  cases hSelf
  rfl

/- A cast to an integral kind keeps the low digits. -/
theorem cast_keeps
    {m : Int}
    (hNumber : p.number? = some m)
    (hDigits : k.digits? = some d) :
    ∃ q,
      p.cast k = some q ∧ q.kind = k ∧
        q.number? = some (d.keep m) := by
  rcases exists_integral hNumber with ⟨n, hIntegral, rfl⟩
  rw [cast_eq_ofIntegral hIntegral]
  exact ofIntegral_keeps hDigits n

/- The number of a value is one that its kind stands for. -/
theorem number_bounds
    {m : Int}
    (hNumber : p.number? = some m)
    (hDigits : p.kind.digits? = some d) :
    d.least ≤ m ∧ m < d.beyond := by
  rcases cast_keeps hNumber hDigits with ⟨q, hCast, -, hKept⟩
  unfold cast at hCast
  rw [if_pos rfl] at hCast
  cases hCast
  rw [hNumber] at hKept
  rw [Option.some.inj hKept]
  exact d.keep_bounds m

/- Fewer digits are the same after more of them were kept. -/
theorem cast_cast
    {j : Kind}
    {e : Digits}
    {m : Int}
    (hNumber : p.number? = some m)
    (hDigits : k.digits? = some d)
    (hFewer : j.digits? = some e)
    (hWidth : e.width ≤ d.width) :
    (p.cast k).bind (·.cast j) = p.cast j := by
  rcases cast_keeps hNumber hDigits with ⟨q, hCast, -, hKept⟩
  rcases cast_keeps hNumber hFewer with ⟨r, hDirect, hKind, hLow⟩
  rcases cast_keeps hKept hFewer with ⟨r', hNext, hKind', hLow'⟩
  rw [Digits.keep_keep hWidth] at hLow'
  rw [hCast, Option.bind_some, hNext, hDirect,
    eq_of_number (hKind'.trans hKind.symm) hLow' hLow]

/- A cast to a wider kind leaves the number as it is. -/
theorem cast_of_widensTo
    {m : Int}
    (hNumber : p.number? = some m)
    (hDigits : k.digits? = some d)
    (hWidens : p.kind.widensTo k = true) :
    ∃ q, p.cast k = some q ∧ q.kind = k ∧ q.number? = some m := by
  rcases exists_integral hNumber with ⟨n, hIntegral, -⟩
  rcases exists_digits hIntegral with ⟨e, hOwn⟩
  rcases Kind.bounds_of_widensTo hWidens hOwn hDigits with
    ⟨hLeast, hBeyond⟩
  rcases number_bounds hNumber hOwn with ⟨hLow, hHigh⟩
  rcases cast_keeps hNumber hDigits with ⟨q, hCast, hKind, hKept⟩
  rw [Digits.keep_eq (Int.le_trans hLeast hLow)
    (Int.lt_of_lt_of_le hHigh hBeyond)] at hKept
  exact ⟨q, hCast, hKind, hKept⟩

end Prim

------------------------------------------------------------
-- Casts of Values
------------------------------------------------------------

namespace Value

variable {p q : Prim}
variable {k : Kind}

theorem cast?_of_cast
    (hCast : p.cast k = some q) :
    (prim p).cast? k = some (prim q) := by
  simp only [cast?, hCast]

/- A value that is cast to one kind after another. -/
def castAlong : List Kind → Value → Option Value
| [], v => some v
| k :: ks, v => (v.cast? k).bind (castAlong ks)

/-
  On a way through kinds that have as many digits as the last
  one, no digit is lost that the last one keeps.
-/
theorem castAlong_concat
    {d : Digits}
    {n : Int}
    {ks : List Kind}
    (hNumber : p.number? = some n)
    (hDigits : k.digits? = some d)
    (hWider :
      ∀ j ∈ ks, ∃ e, j.digits? = some e ∧ d.width ≤ e.width) :
    castAlong (ks ++ [k]) (prim p) = (prim p).cast? k := by
  induction ks generalizing p n with
  | nil =>
      rw [List.nil_append, castAlong]
      exact Option.bind_fun_some _
  | cons j ks ih =>
      rw [List.forall_mem_cons] at hWider
      rcases hWider with ⟨⟨e, hFirst, hWidth⟩, hRest⟩
      rcases Prim.cast_keeps hNumber hFirst with
        ⟨q, hCast, -, hKept⟩
      rcases Prim.cast_keeps hNumber hDigits with
        ⟨r, hDirect, -, -⟩
      have hNext := Prim.cast_cast hNumber hFirst hDigits hWidth
      rw [hCast, Option.bind_some, hDirect] at hNext
      rw [List.cons_append, castAlong, cast?_of_cast hCast,
        Option.bind_some, ih hKept hRest, cast?_of_cast hNext,
        cast?_of_cast hDirect]

/- A cell gives back the cast of what is stored in it. -/
theorem cast?_eq_load_store
    {d : Digits}
    {n : Int}
    {c : Cell}
    (hNumber : p.number? = some n)
    (hDigits : k.digits? = some d)
    (hFor : c.IsFor (.prim k)) :
    (prim p).cast? k = some (c.store (prim p)).load := by
  rcases Prim.exists_integral hNumber with ⟨m, hIntegral, -⟩
  rcases Prim.ofIntegral_keeps hDigits m with ⟨q, hMade, -, -⟩
  have hCast : p.cast k = some q :=
    (Prim.cast_eq_ofIntegral hIntegral k).trans hMade
  have hBits : Prim.ofBits p.toBits k = some q := by
    rw [Prim.ofBits_eq_ofIntegral hDigits,
      Prim.toInt64_toBits hIntegral]
    exact hMade
  rw [cast?_of_cast hCast]
  cases hFor with
  | bits k word =>
      change some (prim q) = some (ofBits k p.toBits)
      unfold ofBits
      rw [hBits]

/-
  A cast of a value of an integral kind keeps the low digits
  of its number, as many as the kind has.  Casts through kinds
  that have no fewer digits than the last one come to the one
  cast to the last.  A cast to a wider kind keeps the number.
  What is stored in a cell of an integral kind comes back as
  the cast to that kind.
-/
theorem casts_keep_low_digits
    {n : Int}
    (hNumber : p.number? = some n) :
    (∀ k d,
      k.digits? = some d →
        ∃ q,
          (prim p).cast? k = some (prim q) ∧ q.kind = k ∧
            q.number? = some (d.keep n)) ∧
      (∀ j k d e,
        j.digits? = some d → k.digits? = some e →
        e.width ≤ d.width →
          ∃ v,
            (prim p).cast? j = some v ∧
              v.cast? k = (prim p).cast? k) ∧
      (∀ ks k d,
        k.digits? = some d →
        (∀ j ∈ ks, ∃ e, j.digits? = some e ∧ d.width ≤ e.width) →
          castAlong (ks ++ [k]) (prim p) = (prim p).cast? k) ∧
      (∀ k d,
        k.digits? = some d → p.kind.widensTo k = true →
          ∃ q,
            (prim p).cast? k = some (prim q) ∧ q.kind = k ∧
              q.number? = some n) ∧
      ∀ k d c,
        k.digits? = some d → Cell.IsFor c (.prim k) →
          (prim p).cast? k = some (c.store (prim p)).load := by
  refine ⟨?kept, ?twice, ?along, ?widened, ?stored⟩
  case kept =>
    intro k d hDigits
    rcases Prim.cast_keeps hNumber hDigits with
      ⟨q, hCast, hKind, hKept⟩
    exact ⟨q, cast?_of_cast hCast, hKind, hKept⟩
  case twice =>
    intro j k d e hDigits hFewer hWidth
    rcases Prim.cast_keeps hNumber hDigits with ⟨q, hCast, -, -⟩
    rcases Prim.cast_keeps hNumber hFewer with ⟨r, hDirect, -, -⟩
    have hNext := Prim.cast_cast hNumber hDigits hFewer hWidth
    rw [hCast, Option.bind_some, hDirect] at hNext
    refine ⟨prim q, cast?_of_cast hCast, ?_⟩
    rw [cast?_of_cast hNext, cast?_of_cast hDirect]
  case along =>
    intro ks k d hDigits hWider
    exact castAlong_concat hNumber hDigits hWider
  case widened =>
    intro k d hDigits hWidens
    rcases Prim.cast_of_widensTo hNumber hDigits hWidens with
      ⟨q, hCast, hKind, hKept⟩
    exact ⟨q, cast?_of_cast hCast, hKind, hKept⟩
  case stored =>
    intro k d c hDigits hFor
    exact cast?_eq_load_store hNumber hDigits hFor

/-
  A `byte` below zero is widened to an `int`, and is read as a
  `char`, a `short` and a field of each by its low digits.
-/
theorem casts_keep_low_digits_negative :
    (Prim.byte (-2)).number? = some (-2) ∧
      (prim (.byte (-2))).cast? .int = some (prim (.int (-2))) ∧
      castAlong [.char, .short] (prim (.byte (-2))) =
        some (prim (.short (-2))) ∧
      (prim (.byte (-2))).cast? .char =
        some
          ((Cell.new (.prim .char)).store (prim (.byte (-2)))).load := by
  have hNumber : (Prim.byte (-2)).number? = some (-2) := by
    decide
  rcases casts_keep_low_digits hNumber with
    ⟨-, -, hAlong, hWidened, hStored⟩
  rcases hWidened .int _ rfl rfl with ⟨q, hCast, hKind, hKept⟩
  have hInt : q = .int (-2) := Prim.eq_of_number hKind hKept (by decide)
  have hWider :
      ∀ j ∈ [Kind.char],
        ∃ e, j.digits? = some e ∧ 16 ≤ e.width := by
    rw [List.forall_mem_singleton]
    exact ⟨_, rfl, Nat.le_refl 16⟩
  refine ⟨hNumber, ?_, ?_, ?_⟩
  · rw [hCast, hInt]
  · exact (hAlong [.char] .short _ rfl hWider).trans (by decide)
  · exact hStored .char _ _ rfl (Cell.isFor_new _)

end Value

end Linkage
