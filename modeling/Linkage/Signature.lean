import Linkage.Ty

/-
  Signatures: parameter types and a result type, with at
  most 254 parameter slots and no `void` parameter.  Every
  derivation gives a new signature or says why there is none.

  Key definitions include:
    * `maxSlots`
    * `SignatureError`
    * `SignatureError.message`
    * `slotCount`
    * `Admissible`
    * `Signature`
    * `Signature.build`
    * `Signature.insertParams`
    * `Signature.dropParams`
    * `Signature.setParam`
    * `Signature.erase`
    * `Signature.wrap`
    * `Signature.unwrap`
-/

------------------------------------------------------------
-- Errors
------------------------------------------------------------

namespace Linkage

/- The most slots that parameters may take together. -/
def maxSlots : Nat := 254

/- Why there is no signature, or no way to convert one. -/
inductive SignatureError where
| tooManyParameters (slots : Nat)
| voidParameter (index : Nat)
| parameterIndex (index count : Nat)
| invalidDescriptor (text : String)
| mismatch (index : Option Nat) (source target : Ty)
| arity (expected found : Nat)
deriving DecidableEq, Repr

namespace SignatureError

/- The place that a mismatch names; none is the result. -/
def place : Option Nat → String
| some i => "parameter " ++ toString i
| none => "return value"

/- The wording of each error. -/
def message : SignatureError → String
| tooManyParameters n =>
    "signature needs " ++ toString n ++ " parameter slots; " ++
      "at most " ++ toString maxSlots ++ " are allowed"
| voidParameter i =>
    "parameter " ++ toString i ++ " has type void"
| parameterIndex i n =>
    "parameter index " ++ toString i ++ " out of range for " ++
      toString n ++ " parameters"
| invalidDescriptor s => "invalid descriptor: " ++ s
| mismatch i s t =>
    place i ++ ": cannot convert " ++ s.text ++ " to " ++ t.text
| arity e f =>
    "arity mismatch: expected " ++ toString e ++
      " parameters, found " ++ toString f

end SignatureError

------------------------------------------------------------
-- Parameter lists
------------------------------------------------------------

/- Sums start at the literal zero, whatever is imported. -/
attribute [local instance (2000)] Zero.ofOfNat0

/- The slots that a list of parameters takes. -/
def slotCount (ps : List Ty) : Nat :=
  (ps.map Ty.slots).sum

/- A list of parameters that a signature may have. -/
structure Admissible (ps : List Ty) : Prop where
  noVoid : ∀ p ∈ ps, p.IsVoid = false
  slots_le : slotCount ps ≤ maxSlots

/- The position of the first `void` in a list of types. -/
def firstVoid? (ps : List Ty) : Option Nat :=
  ps.findIdx? Ty.IsVoid

/- What is wrong with a list of parameters, if anything. -/
def paramsError? (ps : List Ty) : Option SignatureError :=
  match firstVoid? ps with
  | some i => some (.voidParameter i)
  | none =>
      if slotCount ps ≤ maxSlots
      then none
      else some (.tooManyParameters (slotCount ps))

theorem admissible_of_paramsError?
    {ps : List Ty}
    (h : paramsError? ps = none) :
    Admissible ps := by
  unfold paramsError? at h
  cases hv : firstVoid? ps with
  | some i => simp [hv] at h
  | none =>
      by_cases hs : slotCount ps ≤ maxSlots
      · refine ⟨?_, hs⟩
        simpa [firstVoid?] using hv
      · simp [hv, hs] at h

theorem slotCount_map_erased (ps : List Ty) :
    slotCount (ps.map Ty.erased) = slotCount ps := by
  simp [slotCount, Ty.slots_erased, Function.comp_def]

theorem slotCount_map_boxed_le
    (ps : List Ty)
    (h : ∀ p ∈ ps, p.IsVoid = false) :
    slotCount (ps.map Ty.boxed) ≤ slotCount ps := by
  induction ps with
  | nil => simp [slotCount]
  | cons p ps ih =>
      have hp := Ty.slots_boxed_le p (h p (by simp))
      have hps := ih (fun q hq => h q (by simp [hq]))
      simp only [slotCount, List.map_cons, List.sum_cons]
        at hps ⊢
      omega

theorem Admissible.erased
    {ps : List Ty}
    (h : Admissible ps) :
    Admissible (ps.map Ty.erased) where
  noVoid := by
    intro p hp
    rcases List.mem_map.1 hp with ⟨q, hq, rfl⟩
    rw [Ty.isVoid_erased]
    exact h.noVoid q hq
  slots_le := by
    rw [slotCount_map_erased]
    exact h.slots_le

theorem Admissible.boxed
    {ps : List Ty}
    (h : Admissible ps) :
    Admissible (ps.map Ty.boxed) where
  noVoid := by
    intro p hp
    rcases List.mem_map.1 hp with ⟨q, _, rfl⟩
    exact Ty.isVoid_boxed q
  slots_le :=
    Nat.le_trans
      (slotCount_map_boxed_le ps h.noVoid) h.slots_le

------------------------------------------------------------
-- Signatures
------------------------------------------------------------

/- Parameter types and a result type. -/
structure Signature where
  params : List Ty
  ret : Ty
  admissible : Admissible params
deriving DecidableEq

namespace Signature

/- The signature of given types, if there is one. -/
def build
    (ret : Ty)
    (params : List Ty) : Except SignatureError Signature :=
  match h : paramsError? params with
  | none => .ok ⟨params, ret, admissible_of_paramsError? h⟩
  | some e => .error e

def count (s : Signature) : Nat :=
  s.params.length

def slots (s : Signature) : Nat :=
  slotCount s.params

/- As many `Object` parameters as asked for, and a result. -/
def generic (n : Nat) : Except SignatureError Signature :=
  build .object (List.replicate n .object)

/- The same parameters with another result. -/
def withRet
    (s : Signature)
    (ret : Ty) : Signature :=
  ⟨s.params, ret, s.admissible⟩

/- Replace one parameter. -/
def setParam
    (s : Signature)
    (i : Nat)
    (t : Ty) : Except SignatureError Signature :=
  if i < s.count
  then build s.ret (s.params.set i t)
  else .error (.parameterIndex i s.count)

/- Insert parameters before a position. -/
def insertParams
    (s : Signature)
    (pos : Nat)
    (ts : List Ty) : Except SignatureError Signature :=
  if pos ≤ s.count
  then build s.ret (s.params.take pos ++ ts ++ s.params.drop pos)
  else .error (.parameterIndex pos s.count)

/- Insert parameters after the last one. -/
def appendParams
    (s : Signature)
    (ts : List Ty) : Except SignatureError Signature :=
  s.insertParams s.count ts

/-
  Remove the parameters from a start up to an end.  The end
  is checked first.
-/
def dropParams
    (s : Signature)
    (start stop : Nat) : Except SignatureError Signature :=
  if s.count < stop
  then .error (.parameterIndex stop s.count)
  else if stop < start
  then .error (.parameterIndex start s.count)
  else build s.ret (s.params.take start ++ s.params.drop stop)

/- Every reference type becomes `Object`. -/
def erase (s : Signature) : Signature :=
  ⟨s.params.map Ty.erased, s.ret.erased, s.admissible.erased⟩

/- Every primitive type becomes its box class. -/
def wrap (s : Signature) : Signature :=
  ⟨s.params.map Ty.boxed, s.ret.boxed, s.admissible.boxed⟩

/-
  Every box class becomes its primitive type.  A parameter
  may become `void` or take a second slot, so the result is
  checked.
-/
def unwrap (s : Signature) : Except SignatureError Signature :=
  build s.ret.unboxed (s.params.map Ty.unboxed)

def hasPrimitives (s : Signature) : Bool :=
  s.ret.IsPrim || s.params.any Ty.IsPrim

def hasBoxes (s : Signature) : Bool :=
  s.ret.boxedKind?.isSome ||
    s.params.any (fun p => p.boxedKind?.isSome)

/- The written form: `(int,a.B)void`. -/
def text (s : Signature) : String :=
  "(" ++ ",".intercalate (s.params.map Ty.text) ++ ")" ++
    s.ret.text

/- The pieces of a text between commas. -/
def splitCommas : List Char → List (List Char)
| [] => [[]]
| c :: cs =>
    match splitCommas cs with
    | [] => [[c]]
    | p :: ps => if c = ',' then [] :: p :: ps else (c :: p) :: ps

/-
  The types that a written form names: parameters up to the
  first closing parenthesis, then the result.
-/
def typesOfText (s : String) : List Ty × Ty :=
  let (inside, rest) := (s.toList.drop 1).span (· ≠ ')')
  let params :=
    if inside = [] then [] else splitCommas inside
  (params.map (fun p => Ty.ofText (String.ofList p)),
    Ty.ofText (String.ofList (rest.drop 1)))

/- The signature that a written form names, if there is one. -/
def ofText (s : String) : Except SignatureError Signature :=
  build (typesOfText s).2 (typesOfText s).1

theorem build_eq_error_iff
    {ret : Ty}
    {ps : List Ty}
    {e : SignatureError} :
    build ret ps = .error e ↔ paramsError? ps = some e := by
  unfold build
  split
  · simp_all
  · simp_all

theorem params_of_build
    {ret : Ty}
    {ps : List Ty}
    {s : Signature}
    (h : build ret ps = .ok s) :
    s.params = ps ∧ s.ret = ret := by
  unfold build at h
  split at h
  · cases h
    exact ⟨rfl, rfl⟩
  · cases h

end Signature

end Linkage
