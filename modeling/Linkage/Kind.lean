/-
  The nine primitive kinds, their names, descriptor codes
  and box classes, and the widening order between them.

  Key definitions include:
    * `Kind`
    * `Kind.all`
    * `Kind.name`
    * `Kind.code`
    * `Kind.ofCode?`
    * `Kind.boxName`
    * `Kind.ofBoxName?`
    * `Kind.slots`
    * `Kind.widensTo`
-/

------------------------------------------------------------
-- Kinds
------------------------------------------------------------

namespace Linkage

/- A primitive kind; `void` only ever names a result. -/
inductive Kind where
| boolean
| byte
| short
| char
| int
| long
| float
| double
| void
deriving DecidableEq, Repr, Inhabited

namespace Kind

/- Every kind once, in declaration order. -/
def all : List Kind :=
  [boolean, byte, short, char, int, long, float, double, void]

/- The name of a kind as it is written in a type. -/
def name : Kind → String
| boolean => "boolean"
| byte => "byte"
| short => "short"
| char => "char"
| int => "int"
| long => "long"
| float => "float"
| double => "double"
| void => "void"

/- The letter that stands for a kind in a descriptor. -/
def code : Kind → Char
| boolean => 'Z'
| byte => 'B'
| short => 'S'
| char => 'C'
| int => 'I'
| long => 'J'
| float => 'F'
| double => 'D'
| void => 'V'

/- The kind that a descriptor letter stands for. -/
def ofCode? (c : Char) : Option Kind :=
  all.find? (fun k => k.code == c)

/- The kind of a given name. -/
def ofName? (s : String) : Option Kind :=
  all.find? (fun k => k.name == s)

/- The class that boxes values of a kind. -/
def boxName : Kind → String
| boolean => "java.lang.Boolean"
| byte => "java.lang.Byte"
| short => "java.lang.Short"
| char => "java.lang.Character"
| int => "java.lang.Integer"
| long => "java.lang.Long"
| float => "java.lang.Float"
| double => "java.lang.Double"
| void => "java.lang.Void"

/- The kind that a box class boxes. -/
def ofBoxName? (s : String) : Option Kind :=
  all.find? (fun k => k.boxName == s)

/- The number of argument slots that a value takes. -/
def slots : Kind → Nat
| long => 2
| double => 2
| void => 0
| _ => 1

/-
  Kinds narrower than `int`, which travel as an `int`.
-/
def isSubword : Kind → Bool
| boolean => true
| byte => true
| short => true
| char => true
| _ => false

def isNumeric : Kind → Bool
| boolean => false
| void => false
| _ => true

def isFloating : Kind → Bool
| float => true
| double => true
| _ => false

/-
  The strict widening order.  It is generated by the chains
  byte, short, int, long, float, double and char, int.
-/
def widensTo : Kind → Kind → Bool
| byte, k => k ∈ [short, int, long, float, double]
| short, k => k ∈ [int, long, float, double]
| char, k => k ∈ [int, long, float, double]
| int, k => k ∈ [long, float, double]
| long, k => k ∈ [float, double]
| float, k => k == double
| _, _ => false

/- Widening is irreflexive: it is a strict order. -/
theorem widensTo_irrefl (k : Kind) : k.widensTo k = false := by
  cases k <;> decide

theorem widensTo_trans
    (a b c : Kind)
    (hab : a.widensTo b = true)
    (hbc : b.widensTo c = true) :
    a.widensTo c = true := by
  revert hab hbc
  cases a <;> cases b <;> cases c <;> decide

theorem ofCode?_code (k : Kind) : ofCode? k.code = some k := by
  cases k <;> decide

theorem code_of_ofCode?
    {c : Char}
    {k : Kind}
    (h : ofCode? c = some k) :
    k.code = c := by
  simpa using List.find?_some h

end Kind

end Linkage
