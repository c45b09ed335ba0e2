import Linkage.ClassTable
import Linkage.Number.Binary

/-
  Values: primitive values, null, and references to objects.
  A reference holds what never changes of its object, so the
  type and the content of a box or a text are read off the
  value; what can change lies in the heap under the number of
  the object.

  Key definitions include:
    * `Prim`
    * `Prim.kind`
    * `Prim.cast`
    * `Prim.toBits`
    * `Prim.ofBits`
    * `Shape`
    * `Obj`
    * `Value`
    * `Value.type?`
    * `Value.zero`
    * `Value.conforms`
    * `Value.cast?`
    * `Value.same`
-/

------------------------------------------------------------
-- Primitive values
------------------------------------------------------------

namespace Linkage

/-
  A primitive value.  A `char` is one unit of sixteen digits,
  and a floating-point value is kept as its bit pattern.
-/
inductive Prim where
| boolean (b : Bool)
| byte (n : Int8)
| short (n : Int16)
| char (n : UInt16)
| int (n : Int32)
| long (n : Int64)
| float (bits : UInt32)
| double (bits : UInt64)
deriving DecidableEq, Repr, Inhabited

namespace Prim

def kind : Prim → Kind
| boolean _ => .boolean
| byte _ => .byte
| short _ => .short
| char _ => .char
| int _ => .int
| long _ => .long
| float _ => .float
| double _ => .double

theorem kind_ne_void (p : Prim) : p.kind ≠ .void := by
  cases p <;> simp [kind]

/-
  The number that an integral value stands for; `boolean` is
  an integer of one digit.
-/
def integral? : Prim → Option Int64
| boolean b => some (if b then 1 else 0)
| byte n => some n.toInt64
| short n => some n.toInt64
| char n => some n.toUInt64.toInt64
| int n => some n.toInt64
| long n => some n
| float _ => none
| double _ => none

/- The value of an integral kind that keeps the low digits. -/
def ofIntegral
    (n : Int64) : Kind → Option Prim
| .boolean => some (boolean (n &&& 1 != 0))
| .byte => some (byte n.toInt8)
| .short => some (short n.toInt16)
| .char => some (char n.toUInt64.toUInt16)
| .int => some (int n.toInt32)
| .long => some (long n)
| .float => some (float (.ofNat (Format.single.ofInt n.toInt)))
| .double => some (double (.ofNat (Format.double.ofInt n.toInt)))
| .void => none

/- The bit pattern of a value in the wider format. -/
def wide? : Prim → Option UInt64
| float b =>
    some (.ofNat (Format.single.convert .double b.toNat))
| double b => some b
| _ => none

/-
  The value of a kind nearest to a floating-point value.
  Kinds narrower than `int` keep the low digits of the `int`.
-/
def ofWide
    (bits : UInt64)
    (target : Kind) : Option Prim :=
  let decoded := Format.double.decode bits.toNat
  let int32 :=
    Int32.ofInt (decoded.truncate Int32.minValue.toInt
      Int32.maxValue.toInt)
  match target with
  | .boolean => some (boolean (int32 &&& 1 != 0))
  | .byte => some (byte int32.toInt8)
  | .short => some (short int32.toInt16)
  | .char => some (char int32.toUInt32.toUInt16)
  | .int => some (int int32)
  | .long =>
      some (long (Int64.ofInt (decoded.truncate
        Int64.minValue.toInt Int64.maxValue.toInt)))
  | .float =>
      some (float (.ofNat (Format.double.convert .single bits.toNat)))
  | .double => some (double bits)
  | .void => none

/- The value as one of another kind; none for `void`. -/
def cast
    (p : Prim)
    (target : Kind) : Option Prim :=
  if p.kind = target then some p
  else
    match p.wide?, p.integral? with
    | some bits, _ => ofWide bits target
    | none, some n => ofIntegral n target
    | none, none => none

/- The bit pattern of a value, as a field keeps it. -/
def toBits : Prim → UInt64
| float b => b.toUInt64
| double b => b
| boolean b => if b then 1 else 0
| byte n => n.toInt64.toUInt64
| short n => n.toInt64.toUInt64
| char n => n.toUInt64
| int n => n.toInt64.toUInt64
| long n => n.toUInt64

/- The value of a kind that a bit pattern stands for. -/
def ofBits
    (bits : UInt64) : Kind → Option Prim
| .boolean => some (boolean (bits &&& 1 != 0))
| .byte => some (byte bits.toInt64.toInt8)
| .short => some (short bits.toInt64.toInt16)
| .char => some (char bits.toUInt16)
| .int => some (int bits.toInt64.toInt32)
| .long => some (long bits.toInt64)
| .float => some (float bits.toUInt32)
| .double => some (double bits)
| .void => none

/- The zero of a kind; `void` has none. -/
def zero? : Kind → Option Prim
| .boolean => some (boolean false)
| .byte => some (byte 0)
| .short => some (short 0)
| .char => some (char 0)
| .int => some (int 0)
| .long => some (long 0)
| .float => some (float 0)
| .double => some (double 0)
| .void => none

end Prim

------------------------------------------------------------
-- Objects
------------------------------------------------------------

/- What an object is, and stays for its whole life. -/
inductive Shape where
| plain (cls : ClassName)
| boxed (value : Prim)
| text (value : String)
| array (component : Ty)
| throwable (cls : ClassName) (message : Option String)
| handle
deriving DecidableEq, Repr, Inhabited

/- The type of the objects of a shape. -/
def Shape.type : Shape → Ty
| .plain n => .cls n
| .boxed p => .cls p.kind.box
| .text _ => .string
| .array c => .array c
| .throwable n _ => .cls n
| .handle => .methodHandle

/- An object: its number in the heap and its shape. -/
structure Obj where
  id : Nat
  shape : Shape
deriving DecidableEq, Repr, Inhabited

namespace Obj

/- The type that an object has at run time. -/
def type (o : Obj) : Ty :=
  o.shape.type

/- The value in a box. -/
def boxed? (o : Obj) : Option Prim :=
  match o.shape with
  | .boxed p => some p
  | _ => none

def text? (o : Obj) : Option String :=
  match o.shape with
  | .text s => some s
  | _ => none

def message? (o : Obj) : Option String :=
  match o.shape with
  | .throwable _ m => m
  | _ => none

def component? (o : Obj) : Option Ty :=
  match o.shape with
  | .array c => some c
  | _ => none

/-
  Boxes and texts are equal by content, all other objects by
  identity.
-/
def same
    (a b : Obj) : Bool :=
  a.id = b.id ||
    match a.shape, b.shape with
    | .boxed p, .boxed q => p = q
    | .text s, .text t => s = t
    | _, _ => false

end Obj

------------------------------------------------------------
-- Values
------------------------------------------------------------

/-
  A value.  `void` is what a call without a result returns.
-/
inductive Value where
| void
| null
| prim (p : Prim)
| ref (o : Obj)
deriving DecidableEq, Repr, Inhabited

namespace Value

/- The zero of a kind. -/
def zeroOfKind (k : Kind) : Value :=
  match Prim.zero? k with
  | some p => prim p
  | none => void

/- The zero of a type; null for a reference. -/
def zero : Ty → Value
| .prim k => zeroOfKind k
| _ => null

/- The kind of a value that is no reference. -/
def kind? : Value → Option Kind
| void => some .void
| prim p => some p.kind
| _ => none

/- The type of a value at run time; null has none. -/
def type? : Value → Option Ty
| void => some .void
| null => none
| prim p => some (.prim p.kind)
| ref o => some o.type

def isNull : Value → Bool
| null => true
| _ => false

def isReference : Value → Bool
| null => true
| ref _ => true
| _ => false

def object? : Value → Option Obj
| ref o => some o
| _ => none

/- The type of a value in words. -/
def typeText (v : Value) : String :=
  match v.type? with
  | some t => t.text
  | none => "null"

/-
  The value may stand in a slot of the type without any
  conversion.
-/
def conforms
    (T : ClassTable)
    (v : Value)
    (t : Ty) : Bool :=
  match v with
  | void => t = .void
  | null => t.IsRef
  | prim p => t = .prim p.kind
  | ref o => T.isAssignable o.type t

/-
  The value as one of a primitive kind.  Every value casts to
  `void`; a reference or `void` casts to nothing else.
-/
def cast?
    (v : Value)
    (target : Kind) : Option Value :=
  match v with
  | prim p =>
      match p.cast target with
      | some q => some (prim q)
      | none => some void
  | _ => if target = .void then some void else none

/-
  Primitive values are equal by content, floating-point ones
  by bit pattern.
-/
def same : Value → Value → Bool
| void, void => true
| null, null => true
| prim p, prim q => p = q
| ref a, ref b => a.same b
| _, _ => false

end Value

end Linkage
