import Linkage.Retype

/-
  Adapters: targets made of other targets.  Each adapter is
  checked against the signatures involved before a node is
  made; only what depends on values is left to the call.

  Key definitions include:
    * `Target.bindTo`
    * `Target.asCollector`
    * `Target.asSpreader`
    * `Target.asVarargsCollector`
    * `Target.asFixedArity`
    * `Target.filterReturn`
    * `Target.filterArguments`
    * `Target.permuteArguments`
    * `Target.insertArguments`
    * `Target.dropArguments`
    * `Target.foldArguments`
    * `Target.guardWithTest`
    * `Target.catchException`
    * `Target.constant`
    * `Target.identity`
    * `Target.zero`
    * `Target.throwException`
    * `Target.arrayGetter`
    * `Target.arraySetter`
    * `Target.arrayLength`
    * `Target.invoker`
-/

------------------------------------------------------------
-- Checks
------------------------------------------------------------

namespace Linkage

/- Refuse a slot whose type is not the wanted one. -/
def Link.mismatch
    {α : Type}
    (i : Option Nat)
    (source target : Ty) : Link α :=
  throw (.signature (.mismatch i source target))

/- Refuse a number of parameters. -/
def Link.arity
    {α : Type}
    (expected found : Nat) : Link α :=
  throw (.signature (.arity expected found))

/-
  The first position from `i` on at which two lists of types
  differ.
-/
def firstDifference
    (i : Nat) : List Ty → List Ty → Option (Nat × Ty × Ty)
| a :: as, b :: bs =>
    if a = b then firstDifference (i + 1) as bs else some (i, a, b)
| _, _ => none

/- Types must be the first of the parameters of a signature. -/
def checkLeading
    (ts : List Ty)
    (s : Signature) : Link Unit :=
  if s.count < ts.length then Link.arity s.count ts.length
  else
    match firstDifference 0 ts s.params with
    | some (i, a, b) => Link.mismatch (some i) a b
    | none => pure ()

/- The component of an array type. -/
def componentOf (t : Ty) : Link Ty :=
  match t.component? with
  | some c => pure c
  | none => Link.misuse (.notAnArray t)

namespace Target

/-
  The last parameter must be an array type that takes arrays
  of the given type.
-/
def checkTrailingArray
    (rt : Runtime)
    (t : Target)
    (array : Ty) : Link Unit :=
  if !array.IsArray then Link.misuse (.notAnArray array)
  else
    match t.params.getLast? with
    | some last =>
        if last.IsArray && rt.classes.isAssignable array last
        then pure ()
        else Link.misuse (.trailingMismatch array last)
    | none => Link.misuse .noTrailingArray

------------------------------------------------------------
-- Receivers and trailing arrays
------------------------------------------------------------

/-
  Fix the first parameter, which must be a reference, to a
  value.
-/
def bindTo
    (rt : Runtime)
    (t : Target)
    (receiver : Value) : Link Target := do
  match t.params.head? with
  | none => Link.misuse .bindNothing
  | some first =>
      if first.IsPrim then Link.misuse (.bindPrimitive first)
      else
        match ←
          Link.onHeap (convertConstant rt.classes receiver first)
        with
        | none =>
            Link.misuse (.bindMismatch receiver.typeText first)
        | some v =>
            let sig ← Link.ofSignature (t.signature.dropParams 0 1)
            build rt sig (.bound t v)

/-
  Take the elements of the trailing array as separate
  arguments.
-/
def asCollector
    (rt : Runtime)
    (t : Target)
    (array : Ty)
    (count : Nat) : Link Target := do
  t.checkTrailingArray rt array
  let component ← componentOf array
  let shorter ←
    Link.ofSignature (t.signature.dropParams (t.count - 1) t.count)
  let sig ←
    Link.ofSignature
      (shorter.appendParams (List.replicate count component))
  build rt sig (.collect t component count)

/-
  Take the last arguments as one array, whose elements are
  handed on.
-/
def asSpreader
    (rt : Runtime)
    (t : Target)
    (array : Ty)
    (count : Nat) : Link Target := do
  let component ← componentOf array
  if t.count < count then
    Link.misuse (.spreadTooMany count t.count)
  else
    let fixed := t.params.take (t.count - count)
    let wanted ←
      Link.ofSignature
        (Signature.build t.ret
          (fixed ++ List.replicate count component))
    let adapted ← t.asType rt wanted
    let sig ←
      Link.ofSignature (Signature.build t.ret (fixed ++ [array]))
    build rt sig (.spread adapted count)

/- The target without its collecting of trailing arguments. -/
def asFixedArity (t : Target) : Target :=
  match t.form with
  | .varargs u _ => u
  | _ => t

/-
  Let a target take any number of trailing arguments when it
  is invoked flexibly.
-/
def asVarargsCollector
    (rt : Runtime)
    (t : Target)
    (array : Ty) : Link Target := do
  t.checkTrailingArray rt array
  match t.form with
  | .varargs _ a =>
      if a = array then pure t
      else build rt t.signature (.varargs t.asFixedArity array)
  | _ => build rt t.signature (.varargs t array)

------------------------------------------------------------
-- Filters
------------------------------------------------------------

/- The parameters of a filter of results of a type. -/
def filterParams (ret : Ty) : List Ty :=
  if ret.IsVoid then [] else [ret]

/- Call a target, then a filter on its result. -/
def filterReturn
    (rt : Runtime)
    (t filter : Target) : Link Target :=
  if filter.params = filterParams t.ret then
    build rt (t.signature.withRet filter.ret) (.filterReturn t filter)
  else
    Link.mismatch none t.ret (filter.params.head?.getD .void)

/-
  The signature in which filters stand before the parameters
  from position `i` on.  The parameters of the target are
  read from `params`.
-/
def filteredSignature
    (params : List Ty)
    (i : Nat)
    (sig : Signature) : List (Option Target) → Link Signature
| [] => pure sig
| none :: fs => filteredSignature params (i + 1) sig fs
| some f :: fs => do
    let param := params.getD i .void
    match f.params with
    | [p] =>
        if f.ret = param then
          let next ← Link.ofSignature (sig.setParam i p)
          filteredSignature params (i + 1) next fs
        else Link.mismatch (some i) f.ret param
    | ps => Link.arity 1 ps.length

/- Filter arguments from a position on. -/
def filterArguments
    (rt : Runtime)
    (t : Target)
    (pos : Nat)
    (filters : List (Option Target)) : Link Target := do
  if t.count < pos + filters.length then
    Link.misuse (.filtersExceed filters.length pos t.count)
  else
    let sig ← filteredSignature t.params pos t.signature filters
    if filters.all Option.isNone then pure t
    else build rt sig (.filterArguments t pos filters)

------------------------------------------------------------
-- Moving, fixing and ignoring arguments
------------------------------------------------------------

/-
  Each parameter, from position `i` on, must have the type of
  its source in the new signature.
-/
def checkOrder
    (sig : Signature)
    (i : Nat) : List Nat → List Ty → Link Unit
| j :: js, wanted :: rest =>
    match sig.params[j]? with
    | none => Link.misuse (.orderIndex j sig)
    | some source =>
        if source = wanted then checkOrder sig (i + 1) js rest
        else Link.mismatch (some i) source wanted
| _, _ => pure ()

/-
  Take each argument of a target from a position in a new
  signature.
-/
def permuteArguments
    (rt : Runtime)
    (t : Target)
    (sig : Signature)
    (order : List Nat) : Link Target := do
  if order.length ≠ t.count then
    Link.misuse (.orderLength order.length t.count)
  else if sig.ret ≠ t.ret then Link.mismatch none t.ret sig.ret
  else
    checkOrder sig 0 order t.params
    build rt sig (.permute t order)

/- Constants as values of parameters, from position `i` on. -/
def convertConstants
    (rt : Runtime)
    (i : Nat) : List Value → List Ty → Link (List Value)
| v :: vs, t :: ts => do
    match ← Link.onHeap (convertConstant rt.classes v t) with
    | none => Link.misuse (.insertMismatch v.typeText i t)
    | some w =>
        let ws ← convertConstants rt (i + 1) vs ts
        pure (w :: ws)
| _, _ => pure []

/- Fix arguments from a position on to constants. -/
def insertArguments
    (rt : Runtime)
    (t : Target)
    (pos : Nat)
    (values : List Value) : Link Target := do
  if t.count < pos + values.length then
    Link.misuse (.valuesExceed values.length pos t.count)
  else if values.isEmpty then pure t
  else
    let converted ←
      convertConstants rt pos values (t.params.drop pos)
    let sig ←
      Link.ofSignature
        (t.signature.dropParams pos (pos + converted.length))
    build rt sig (.insert t pos converted)

/- Take arguments of given types at a position and ignore them. -/
def dropArguments
    (rt : Runtime)
    (t : Target)
    (pos : Nat)
    (types : List Ty) : Link Target := do
  if types.isEmpty then pure t
  else
    let sig ← Link.ofSignature (t.signature.insertParams pos types)
    build rt sig (.drop t pos types.length)

------------------------------------------------------------
-- Combining targets
------------------------------------------------------------

/-
  The signature of a target that is given a value of a type
  as its first argument; `void` gives it none.
-/
def foldedSignature
    (t : Target)
    (ret : Ty) : Link Signature :=
  if ret.IsVoid then pure t.signature
  else
    match t.params.head? with
    | none => Link.arity 1 0
    | some first =>
        if first = ret
        then Link.ofSignature (t.signature.dropParams 0 1)
        else Link.mismatch (some 0) ret first

/-
  Run a combiner on the first arguments and hand its result
  on before all of them.
-/
def foldArguments
    (rt : Runtime)
    (t combiner : Target) : Link Target := do
  let sig ← t.foldedSignature combiner.ret
  checkLeading combiner.params sig
  build rt sig (.fold t combiner)

/- Run one of two targets, as a test on the arguments says. -/
def guardWithTest
    (rt : Runtime)
    (test yes no : Target) : Link Target := do
  if yes.signature ≠ no.signature then
    Link.misuse (.branchesDiffer yes.signature no.signature)
  else if test.ret ≠ .boolean then
    Link.mismatch none test.ret .boolean
  else
    checkLeading test.params yes.signature
    build rt yes.signature (.guard test yes no)

/-
  Run a target, and a handler on its faults of a class and
  the first of its arguments.
-/
def catchException
    (rt : Runtime)
    (t : Target)
    (caught : ClassName)
    (handler : Target) : Link Target := do
  if !rt.classes.isThrowable caught then
    Link.misuse (.notThrowable caught)
  else
    match handler.params.head? with
    | none => Link.arity 1 0
    | some first =>
        if first ≠ .cls caught then
          Link.mismatch (some 0) first (.cls caught)
        else if handler.ret ≠ t.ret then
          Link.mismatch none handler.ret t.ret
        else
          let rest ←
            Link.ofSignature (handler.signature.dropParams 0 1)
          checkLeading rest.params t.signature
          build rt t.signature (.rescue t caught handler)

------------------------------------------------------------
-- Elementary targets
------------------------------------------------------------

/- A target without parameters that returns a constant. -/
def constant
    (rt : Runtime)
    (t : Ty)
    (v : Value) : Link Target := do
  if t.IsVoid then Link.misuse .constantVoid
  else
    match ← Link.onHeap (convertConstant rt.classes v t) with
    | none => Link.misuse (.constantMismatch v.typeText t)
    | some w =>
        let sig ← Link.ofSignature (Signature.build t [])
        build rt sig (.constant w)

/- A target that returns its argument. -/
def identity
    (rt : Runtime)
    (t : Ty) : Link Target := do
  if t.IsVoid then Link.misuse .identityVoid
  else
    let sig ← Link.ofSignature (Signature.build t [t])
    build rt sig .identity

/- A target that returns the zero of a type. -/
def zero
    (rt : Runtime)
    (t : Ty) : Link Target := do
  let sig ← Link.ofSignature (Signature.build t [])
  build rt sig (.constant (.zero t))

/- A target that throws its argument. -/
def throwException
    (rt : Runtime)
    (ret : Ty)
    (n : ClassName) : Link Target := do
  if !rt.classes.isThrowable n then Link.misuse (.notThrowable n)
  else
    let sig ← Link.ofSignature (Signature.build ret [.cls n])
    build rt sig .throw

/- A target that reads an element of an array. -/
def arrayGetter
    (rt : Runtime)
    (array : Ty) : Link Target := do
  let component ← componentOf array
  let sig ←
    Link.ofSignature (Signature.build component [array, .int])
  build rt sig .arrayGet

/- A target that writes an element of an array. -/
def arraySetter
    (rt : Runtime)
    (array : Ty) : Link Target := do
  let component ← componentOf array
  let sig ←
    Link.ofSignature
      (Signature.build .void [array, .int, component])
  build rt sig .arraySet

/- A target that returns the length of an array. -/
def arrayLength
    (rt : Runtime)
    (array : Ty) : Link Target := do
  let _ ← componentOf array
  let sig ← Link.ofSignature (Signature.build .int [array])
  build rt sig .arrayLength

/- What tells the stubs of the two sorts of invokers apart. -/
def invokerLabel (exact : Bool) : String :=
  if exact then "exactInvoker" else "invoker"

/-
  A target that invokes its first argument, a handle, with
  the others: exactly, or as if through the signature.
-/
def invoker
    (rt : Runtime)
    (sig : Signature)
    (exact : Bool) : Link Target := do
  let whole ←
    Link.ofSignature (sig.insertParams 0 [.methodHandle])
  buildKeyed rt whole (.invoker exact sig) ⟨0, 1⟩
    (some (.label (invokerLabel exact)))

end Target

end Linkage
