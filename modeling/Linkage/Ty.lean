import Linkage.ClassName

/-
  Parameter and result types: primitive kinds, classes and
  arrays, with the boxing and unboxing of a type.

  Key definitions include:
    * `Ty`
    * `Ty.text`
    * `Ty.ofText`
    * `Ty.slots`
    * `Ty.boxed`
    * `Ty.unboxed`
    * `Ty.erased`
-/

------------------------------------------------------------
-- Types
------------------------------------------------------------

namespace Linkage

/- A type; `void` is allowed as a result only. -/
inductive Ty where
| prim : Kind → Ty
| cls : ClassName → Ty
| array : Ty → Ty
deriving DecidableEq, Repr, Inhabited

namespace Ty

def void : Ty := prim .void

def boolean : Ty := prim .boolean

def int : Ty := prim .int

def object : Ty := cls .object

def string : Ty := cls .string

def methodHandle : Ty := cls .methodHandle

def IsPrim : Ty → Bool
| prim _ => true
| _ => false

/- A type whose values are references or null. -/
def IsRef (t : Ty) : Bool :=
  !t.IsPrim

def IsVoid : Ty → Bool
| prim .void => true
| _ => false

def IsArray : Ty → Bool
| array _ => true
| _ => false

def IsObject (t : Ty) : Bool :=
  t = object

def kind? : Ty → Option Kind
| prim k => some k
| _ => none

def class? : Ty → Option ClassName
| cls n => some n
| _ => none

def component? : Ty → Option Ty
| array c => some c
| _ => none

/- The number of argument slots that a type takes. -/
def slots : Ty → Nat
| prim k => k.slots
| _ => 1

/- A primitive type becomes its box class. -/
def boxed : Ty → Ty
| prim k => cls k.box
| t => t

/- A box class becomes the primitive type it boxes. -/
def unboxed : Ty → Ty
| cls n =>
    match n.boxedKind? with
    | some k => prim k
    | none => cls n
| t => t

/- The kind that a type boxes, if it is a box class. -/
def boxedKind? : Ty → Option Kind
| cls n => n.boxedKind?
| _ => none

/- Every reference type becomes `java.lang.Object`. -/
def erased (t : Ty) : Ty :=
  if t.IsRef then object else t

theorem isVoid_iff (t : Ty) : t.IsVoid = true ↔ t = void := by
  cases t with
  | prim k => cases k <;> simp [IsVoid, void]
  | cls n => simp [IsVoid, void]
  | array c => simp [IsVoid, void]

theorem unboxed_boxed_prim (k : Kind) :
    (prim k).boxed.unboxed = prim k := by
  simp [boxed, unboxed, ClassName.boxedKind?_box]

theorem slots_erased (t : Ty) : t.erased.slots = t.slots := by
  cases t <;> rfl

theorem isVoid_erased (t : Ty) :
    t.erased.IsVoid = t.IsVoid := by
  cases t <;> rfl

theorem isVoid_boxed (t : Ty) : t.boxed.IsVoid = false := by
  cases t <;> rfl

/- Boxing never takes more slots, `void` apart. -/
theorem slots_boxed_le
    (t : Ty)
    (h : t.IsVoid = false) :
    t.boxed.slots ≤ t.slots := by
  cases t with
  | prim k =>
      cases k <;> simp_all [boxed, slots, Kind.slots, IsVoid]
  | cls n => simp [boxed, slots]
  | array c => simp [boxed, slots]

------------------------------------------------------------
-- Written form
------------------------------------------------------------

/- The written form of a type: `int`, `a.B`, `int[][]`. -/
def text : Ty → String
| prim k => k.name
| cls n => n.text
| array c => c.text ++ "[]"

/- An array type of the given number of dimensions. -/
def nested
    (t : Ty) : Nat → Ty
| 0 => t
| n + 1 => array (t.nested n)

/-
  Split trailing bracket pairs off a reversed text; the
  result is the rest, reversed, and the number of pairs.
-/
def splitBrackets : List Char → List Char × Nat
| ']' :: '[' :: cs =>
    let (rest, n) := splitBrackets cs
    (rest, n + 1)
| cs => (cs, 0)

/-
  The type that a text names.  A text that is no primitive
  kind names a class, whatever its characters.
-/
def ofText (s : String) : Ty :=
  let (rest, dims) := splitBrackets s.toList.reverse
  let base := String.ofList rest.reverse
  match Kind.ofName? base with
  | some k => (prim k).nested dims
  | none => (cls ⟨base⟩).nested dims

end Ty

end Linkage
