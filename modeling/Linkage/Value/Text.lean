import Linkage.Heap
import Linkage.Number.Decimal
import Linkage.Text.Quoted

/-
  Values, targets, call sites and fields in the words of a
  developer.

  Key definitions include:
    * `unitText`
    * `Prim.text`
    * `Value.text`
    * `Target.text`
    * `Cell.text`
-/

------------------------------------------------------------
-- Primitive values
------------------------------------------------------------

namespace Linkage

/- Digits in base sixteen, at least four. -/
def fourDigits (n : Nat) : List Char :=
  let digits := Nat.toDigits 16 n
  List.replicate (4 - digits.length) '0' ++ digits

/-
  A unit of sixteen digits: a quoted character, or its number
  if it is one half of a pair.
-/
def unitText (n : UInt16) : String :=
  if 0xd800 ≤ n.toNat ∧ n.toNat ≤ 0xdfff
  then String.ofList ('\x5c' :: 'u' :: fourDigits n.toNat)
  else Quoted.character (Char.ofNat n.toNat)

/- A primitive value; its kind is told by a letter. -/
def Prim.text : Prim → String
| boolean b => if b then "true" else "false"
| byte n => toString n.toInt ++ "b"
| short n => toString n.toInt ++ "s"
| char n => unitText n
| int n => toString n.toInt
| long n => toString n.toInt ++ "L"
| float b => Format.single.text b.toNat ++ "f"
| double b => Format.double.text b.toNat ++ "d"

------------------------------------------------------------
-- Targets and values
------------------------------------------------------------

/- A target: its sort and its signature. -/
def Target.text (t : Target) : String :=
  t.kind.name ++ t.signature.text

/- What is left out where values are nested too deep. -/
def ellipsis : String := ".."

/-
  A value, with the elements of arrays down to a depth.  An
  object without a content of its own is told by its number.
-/
def Value.textTo
    (h : Heap) : Nat → Value → String
| _, .void => "void"
| _, .null => "null"
| _, .prim p => p.text
| 0, .ref _ => ellipsis
| n + 1, .ref o =>
    match o.shape with
    | .boxed p => o.type.text ++ "(" ++ p.text ++ ")"
    | .text s => Quoted.text s
    | .array _ =>
        let vs := (h.elements? o).getD []
        o.type.text ++ "[" ++
          ", ".intercalate (vs.map (textTo h n)) ++ "]"
    | .throwable _ (some m) => o.type.text ++ ": " ++ m
    | .throwable _ none => o.type.text ++ "@" ++ toString o.id
    | .plain _ => o.type.text ++ "@" ++ toString o.id
    | .handle =>
        match h.handle? o with
        | some t => "MethodHandle" ++ t.signature.text
        | none => "MethodHandle"

/-
  A value.  Values that do not contain themselves are nested
  less deep than there are objects.
-/
def Value.text
    (h : Heap)
    (v : Value) : String :=
  v.textTo h (h.size + 1)

/- A field cell, by what is in it. -/
def Cell.text
    (h : Heap)
    (c : Cell) : String :=
  "FieldCell(" ++ c.load.text h ++ ")"

end Linkage
