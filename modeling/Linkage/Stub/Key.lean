import Linkage.Descriptor

/-
  Keys of dispatch stubs.  A key is the descriptor of a
  signature in which every reference is `Object` and every
  kind narrower than `int` is `int`, so that signatures of
  one shape share a stub.  Slots within a given range keep
  their exact type.

  Key definitions include:
    * `Ty.shared`
    * `SlotRange`
    * `Signature.canonical`
    * `Stub.Extra`
    * `Stub.Key`
    * `Stub.Key.ofSignature`
    * `Stub.Key.text`
-/

------------------------------------------------------------
-- Canonical descriptors
------------------------------------------------------------

namespace Linkage

/- The type that stands for all types of one shape. -/
def Ty.shared : Ty → Ty
| .prim k => if k.isSubword then .int else .prim k
| _ => .object

/-
  A range of slots, from a start up to an end.  The slot
  after the last parameter is the result.
-/
structure SlotRange where
  start : Nat
  stop : Nat
deriving DecidableEq, Repr

/- The range without slots. -/
def SlotRange.none : SlotRange := ⟨0, 0⟩

/- A slot lies in a range. -/
def SlotRange.has
    (r : SlotRange)
    (i : Nat) : Bool :=
  r.start ≤ i && i < r.stop

/- The descriptor of one slot. -/
def canonicalSlot
    (exact : SlotRange)
    (i : Nat)
    (t : Ty) : List Char :=
  if exact.has i then t.descriptor else t.shared.descriptor

/- The descriptors of slots from position `i` on. -/
def canonicalSlots
    (exact : SlotRange)
    (i : Nat) : List Ty → List Char
| [] => []
| t :: ts =>
    canonicalSlot exact i t ++ canonicalSlots exact (i + 1) ts

/- The canonical descriptor of a signature. -/
def Signature.canonical
    (s : Signature)
    (exact : SlotRange) : List Char :=
  '(' :: canonicalSlots exact 0 s.params ++
    ')' :: canonicalSlot exact s.count s.ret

------------------------------------------------------------
-- Keys
------------------------------------------------------------

namespace Stub

/-
  What tells stubs apart that have one canonical descriptor.
-/
inductive Extra where
| int : Int32 → Extra
| long : Int64 → Extra
| label : String → Extra
deriving DecidableEq, Repr

/- The written form of a discriminant. -/
def Extra.text : Extra → String
| int n => toString n.toInt
| long n => toString n.toInt ++ "L"
| label s => s

/- A canonical descriptor, and a discriminant if needed. -/
structure Key where
  canonical : String
  extra : Option Extra
deriving DecidableEq, Repr

namespace Key

/- The key of a signature. -/
def ofSignature
    (s : Signature)
    (exact : SlotRange)
    (extra : Option Extra) : Key :=
  ⟨String.ofList (s.canonical exact), extra⟩

/- The key of a signature that keeps no slot exact. -/
def plain (s : Signature) : Key :=
  ofSignature s .none none

/- The written form of a key. -/
def text (k : Key) : String :=
  match k.extra with
  | none => k.canonical
  | some e => k.canonical ++ "#" ++ e.text

end Key

end Stub

end Linkage
