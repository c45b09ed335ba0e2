import Linkage.ClassTable
import Linkage.Signature

/-
  Conversions between types, at two strengths.  Implicit
  conversions are identity, widening, boxing, unboxing that
  may be followed by widening, and upcasts.  Explicit ones
  are also narrowing, checked casts, boxing followed by a
  checked cast, and unchecked casts to an interface.  A
  `void` result becomes the zero value of any type, and any
  result may be discarded.

  Key definitions include:
    * `Strength`
    * `UnboxSource`
    * `Conversion`
    * `Conversion.isIdentity`
    * `Conversion.isChecked`
    * `classify`
    * `Plan`
    * `planSignature`
-/

------------------------------------------------------------
-- Conversions
------------------------------------------------------------

namespace Linkage

/- How far a conversion may go. -/
inductive Strength where
| implicit
| explicit
deriving DecidableEq, Repr

/- Where unboxing takes its primitive value from. -/
inductive UnboxSource where
| box : Kind → UnboxSource
| number : UnboxSource
| dynamic : UnboxSource
deriving DecidableEq, Repr

/- What is done to a value on its way between two types. -/
inductive Conversion where
| identity
| upcast
| widen (source target : Kind)
| narrow (source target : Kind)
| box (kind : Kind) (cast : Option Ty)
| unbox (source : UnboxSource) (target : Kind) (how : Strength)
| cast (target : Ty)
| uncheckedCast (target : Ty)
| zeroValue (target : Ty)
| discard
deriving DecidableEq, Repr

namespace Conversion

/- The value stays as it is. -/
def isIdentity : Conversion → Bool
| identity => true
| upcast => true
| _ => false

/- The conversion may fail on a value of its source type. -/
def isChecked : Conversion → Bool
| cast _ => true
| box _ c => c.isSome
| unbox _ _ _ => true
| _ => false

end Conversion

------------------------------------------------------------
-- Classification
------------------------------------------------------------

/- A kind is the same or widens to another. -/
def Kind.reaches
    (a b : Kind) : Bool :=
  a = b || a.widensTo b

/- Unboxing of a reference type to a primitive kind. -/
def classifyUnbox
    (source : Ty)
    (target : Kind)
    (how : Strength) : Option Conversion :=
  if source = .object then
    some (.unbox .dynamic target how)
  else if source = .cls .number then
    if target.isNumeric || how = .explicit
    then some (.unbox .number target how)
    else none
  else
    match source.boxedKind? with
    | none => none
    | some .void => none
    | some k =>
        if how = .explicit || k.reaches target
        then some (.unbox (.box k) target how)
        else none

/- Boxing of a primitive kind to a reference type. -/
def classifyBox
    (T : ClassTable)
    (source : Kind)
    (target : Ty)
    (how : Strength) : Option Conversion :=
  if T.isAssignable (.cls source.box) target then
    some (.box source none)
  else if how = .explicit then
    some (.box source (some target))
  else none

/- Casts between reference types. -/
def classifyCast
    (T : ClassTable)
    (source target : Ty)
    (how : Strength) : Option Conversion :=
  if T.isAssignable source target then some .upcast
  else if how = .implicit then none
  else
    match target with
    | .cls n =>
        if T.isInterface n
        then some (.uncheckedCast target)
        else some (.cast target)
    | _ => some (.cast target)

/- Conversions between primitive kinds. -/
def classifyPrim
    (source target : Kind)
    (how : Strength) : Option Conversion :=
  if source.widensTo target then some (.widen source target)
  else if how = .explicit then some (.narrow source target)
  else none

/- The conversion from one type to another, if there is one. -/
def classify
    (T : ClassTable)
    (source target : Ty)
    (how : Strength) : Option Conversion :=
  if source = target then some .identity
  else
    match source, target with
    | .prim .void, _ => some (.zeroValue target)
    | _, .prim .void => some .discard
    | .prim a, .prim b => classifyPrim a b how
    | .prim a, _ => classifyBox T a target how
    | _, .prim b => classifyUnbox source b how
    | _, _ => classifyCast T source target how

------------------------------------------------------------
-- Plans
------------------------------------------------------------

/-
  The conversions that turn a call of one signature into a
  call of another: parameters are converted on the way in,
  the result on the way out.
-/
structure Plan where
  params : List Conversion
  ret : Conversion
deriving DecidableEq, Repr

namespace Plan

def paramsAreIdentity (p : Plan) : Bool :=
  p.params.all Conversion.isIdentity

def isIdentity (p : Plan) : Bool :=
  p.ret.isIdentity && p.paramsAreIdentity

end Plan

/-
  The conversions of parameters from position `i` on; the
  first pair without one is the error.
-/
def planParams
    (T : ClassTable)
    (how : Strength)
    (i : Nat) :
    List Ty → List Ty → Except SignatureError (List Conversion)
| a :: as, b :: bs =>
    match classify T a b how with
    | none => .error (.mismatch (some i) a b)
    | some c =>
        match planParams T how (i + 1) as bs with
        | .error e => .error e
        | .ok cs => .ok (c :: cs)
| _, _ => .ok []

/- The plan of a call, or the first slot without a conversion. -/
def planSignature
    (T : ClassTable)
    (caller callee : Signature)
    (how : Strength) : Except SignatureError Plan :=
  if caller.count ≠ callee.count then
    .error (.arity callee.count caller.count)
  else
    match planParams T how 0 caller.params callee.params with
    | .error e => .error e
    | .ok cs =>
        match classify T callee.ret caller.ret how with
        | none => .error (.mismatch none callee.ret caller.ret)
        | some c => .ok ⟨cs, c⟩

end Linkage
