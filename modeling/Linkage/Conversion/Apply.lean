import Linkage.Conversion
import Linkage.Fault
import Linkage.Heap

/-
  Conversions at work: what each conversion makes of a value,
  and how constants are converted when a target is made.
  Boxing puts a new object into the heap.

  Key definitions include:
    * `checkCast`
    * `unboxValue`
    * `Conversion.apply`
    * `applyAll`
    * `convertConstant`
-/

------------------------------------------------------------
-- Single conversions
------------------------------------------------------------

namespace Linkage

/- A reference passes if its object is of the type. -/
def checkCast
    (T : ClassTable)
    (v : Value)
    (t : Ty) : Except Fault Value :=
  match v with
  | .null => .ok v
  | .ref o =>
      if T.isAssignable o.type t
      then .ok v
      else .error (.castError o.type.text t)
  | _ => .error (.typeMismatch t.text v.typeText)

/- A source of unboxing admits a box of the kind. -/
def UnboxSource.admits
    (s : UnboxSource)
    (k : Kind) : Bool :=
  match s with
  | .box b => k = b
  | .number => k.isNumeric && k != .char
  | .dynamic => true

/- The value in a box, as one of another kind. -/
def unboxValue
    (source : UnboxSource)
    (target : Kind)
    (how : Strength)
    (v : Value) : Except Fault Value :=
  match v with
  | .ref o =>
      let refused : Except Fault Value :=
        .error (.castError o.type.text (.cls target.box))
      match o.boxed? with
      | none => refused
      | some p =>
          if source.admits p.kind &&
            (how = .explicit || p.kind.reaches target)
          then
            match (Value.prim p).cast? target with
            | some w => .ok w
            | none => refused
          else refused
  | .null =>
      .error (.nullReference ("cannot unbox null to " ++ target.name))
  | _ => .error (.typeMismatch "a boxed value" v.typeText)

/- The conversion of a value between primitive kinds. -/
def castValue
    (source target : Kind)
    (v : Value) : Except Fault Value :=
  match v.cast? target with
  | some w => .ok w
  | none => .error (.typeMismatch source.name v.typeText)

/- A new box of a value of the kind. -/
def boxValue
    (k : Kind)
    (v : Value)
    (h : Heap) : Except Fault Obj × Heap :=
  match v with
  | .prim p =>
      if p.kind = k then
        let (o, h') := h.allocBox p
        (.ok o, h')
      else (.error (.typeMismatch k.name v.typeText), h)
  | _ => (.error (.typeMismatch k.name v.typeText), h)

/- What a conversion makes of a value. -/
def Conversion.apply
    (T : ClassTable)
    (c : Conversion)
    (v : Value)
    (h : Heap) : Except Fault Value × Heap :=
  match c with
  | .identity => (.ok v, h)
  | .upcast => (.ok v, h)
  | .uncheckedCast _ => (.ok v, h)
  | .widen a b => (castValue a b v, h)
  | .narrow a b => (castValue a b v, h)
  | .box k t =>
      match boxValue k v h with
      | (.error e, h') => (.error e, h')
      | (.ok o, h') =>
          match t with
          | none => (.ok (.ref o), h')
          | some t => (checkCast T (.ref o) t, h')
  | .unbox s k how => (unboxValue s k how v, h)
  | .cast t => (checkCast T v t, h)
  | .zeroValue t => (.ok (.zero t), h)
  | .discard => (.ok .void, h)

------------------------------------------------------------
-- Lists and constants
------------------------------------------------------------

/-
  Convert values from left to right up to the first failure.
  Values or conversions that have no partner are left out.
-/
def applyAll
    (T : ClassTable) :
    List Conversion → List Value → Heap →
      Except Fault (List Value) × Heap
| c :: cs, v :: vs, h =>
    match c.apply T v h with
    | (.error e, h') => (.error e, h')
    | (.ok w, h') =>
        match applyAll T cs vs h' with
        | (.error e, h'') => (.error e, h'')
        | (.ok ws, h'') => (.ok (w :: ws), h'')
| _, _, h => (.ok [], h)

/-
  A constant as a value of a type, if it converts implicitly.
  Null is a value of every reference type.
-/
def convertConstant
    (T : ClassTable)
    (v : Value)
    (t : Ty)
    (h : Heap) : Option Value × Heap :=
  if t.IsVoid then (none, h)
  else
    match v with
    | .void => (none, h)
    | .null => (if t.IsRef then some .null else none, h)
    | .prim _ | .ref _ =>
        match v.type? with
        | none => (none, h)
        | some s =>
            match classify T s t .implicit with
            | none => (none, h)
            | some c =>
                match c.apply T v h with
                | (.ok w, h') => (some w, h')
                | (.error _, h') => (none, h')

end Linkage
