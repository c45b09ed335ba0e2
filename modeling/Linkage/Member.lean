import Linkage.Signature
import Linkage.ClassTable

/-
  Members of classes as a host resolves them: methods and
  fields with their flags and the place where they live.

  Key definitions include:
    * `Code`
    * `Slot`
    * `MethodKind`
    * `Method`
    * `Field`
-/

------------------------------------------------------------
-- Places
------------------------------------------------------------

namespace Linkage

/- The address of code that a host can run. -/
structure Code where
  index : Nat
deriving DecidableEq, Repr, Inhabited

/- An address in base sixteen. -/
def Code.text (c : Code) : String :=
  "0x" ++ String.ofList (Nat.toDigits 16 c.index)

/-
  Where a member lives: at a fixed address, in a table that
  the class of the receiver selects, or at a field offset.
-/
inductive Slot where
| address (code : Code)
| virtualTable (index : Nat)
| interfaceTable (index : Nat)
| fieldOffset (offset : Nat)
| none
deriving DecidableEq, Repr, Inhabited

/- A place in words. -/
def Slot.text : Slot → String
| address c =>
    "ResolvedAddress(CodeAddress(" ++ toString c.index ++ "))"
| virtualTable n => "VTableSlot(" ++ toString n ++ ")"
| interfaceTable n => "ITableSlot(" ++ toString n ++ ")"
| fieldOffset n => "FieldOffset(" ++ toString n ++ ")"
| none => "None"

------------------------------------------------------------
-- Members
------------------------------------------------------------

/- How a method is looked up and called. -/
inductive MethodKind where
| isStatic
| isVirtual
| isInterface
| isSpecial
| isConstructor
deriving DecidableEq, Repr, Inhabited

/- A method; its signature has no receiver. -/
structure Method where
  declaring : ClassName
  name : String
  signature : Signature
  flags : Flags
  slot : Slot
deriving DecidableEq

/- A field. -/
structure Field where
  declaring : ClassName
  name : String
  type : Ty
  flags : Flags
  slot : Slot
deriving DecidableEq

end Linkage
