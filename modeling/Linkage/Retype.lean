import Linkage.Liveness

/-
  Retyping: a target as one of another signature.  A result
  conversion is wrapped first and argument conversions
  second, and identities are left out, so at most two nodes
  are added.  A target remembers its last implicit retyping
  for as long as something else holds it.

  Key definitions include:
    * `Target.convert`
    * `Target.remembered?`
    * `Target.asType`
    * `Target.explicitCast`
-/

------------------------------------------------------------
-- Converting along a plan
------------------------------------------------------------

namespace Linkage

namespace Target

/- Wrap a target in the conversion of its result. -/
def convertResult
    (rt : Runtime)
    (t : Target)
    (ret : Ty)
    (c : Conversion) : Link Target :=
  if t.ret = ret then pure t
  else build rt (t.signature.withRet ret) (.convertReturn t c)

/- Wrap a target in the conversions of its arguments. -/
def convertParams
    (rt : Runtime)
    (t : Target)
    (sig : Signature)
    (cs : List Conversion) : Link Target :=
  if t.signature = sig then pure t
  else build rt sig (.convertArguments t cs)

/- A target as one of another signature, by a plan. -/
def convert
    (rt : Runtime)
    (t : Target)
    (sig : Signature)
    (p : Plan) : Link Target := do
  let inner ← t.convertResult rt sig.ret p.ret
  inner.convertParams rt sig p.params

------------------------------------------------------------
-- Retyping
------------------------------------------------------------

/- The last retyping, if it fits and is still held. -/
def remembered?
    (rt : Runtime)
    (t : Target)
    (sig : Signature)
    (s : State) : Option Target :=
  if rt.memoizeAsType then
    match s.memoOf t with
    | some u =>
        if u.signature = sig && s.isAlive u then some u else none
    | none => none
  else none

/- Make a retyping and remember it. -/
def retype
    (rt : Runtime)
    (t : Target)
    (sig : Signature) : Link Target := do
  let plan ←
    Link.ofSignature
      (planSignature rt.classes sig t.signature .implicit)
  let adapted ← t.convert rt sig plan
  if rt.memoizeAsType then
    modify (fun s => s.remember t adapted)
  pure adapted

/- A target as one of another signature, implicitly. -/
def asType
    (rt : Runtime)
    (t : Target)
    (sig : Signature) : Link Target := do
  if t.signature = sig then pure t
  else
    match t.remembered? rt sig (← get) with
    | some u => pure u
    | none => t.retype rt sig

/- A target as one of another signature, explicitly. -/
def explicitCast
    (rt : Runtime)
    (t : Target)
    (sig : Signature) : Link Target := do
  if t.signature = sig then pure t
  else
    let plan ←
      Link.ofSignature
        (planSignature rt.classes sig t.signature .explicit)
    t.convert rt sig plan

end Target

end Linkage
