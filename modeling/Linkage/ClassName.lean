import Linkage.Kind

/-
  Binary class names: dotted text such as `java.lang.String`
  or `com.example.Outer$Inner`.  The part before the last
  dot is the package; a dollar sign separates a nested class
  from the class around it.

  Key definitions include:
    * `splitLastDot`
    * `ClassName`
    * `ClassName.ofInternal`
    * `ClassName.internal`
    * `ClassName.package`
    * `ClassName.simpleName`
    * `ClassName.topLevel`
    * `Kind.box`
    * `ClassName.boxedKind?`
-/

------------------------------------------------------------
-- Splitting at the last dot
------------------------------------------------------------

namespace Linkage

/-
  The parts of a text before and after its last dot, if it
  has a dot.
-/
def splitLastDot : List Char → Option (List Char × List Char)
| [] => none
| c :: cs =>
    match splitLastDot cs with
    | some (before, after) => some (c :: before, after)
    | none => if c = '.' then some ([], cs) else none

/- A text without a dot has nothing to split. -/
theorem splitLastDot_eq_none_iff
    (cs : List Char) :
    splitLastDot cs = none ↔ '.' ∉ cs := by
  induction cs with
  | nil => simp [splitLastDot]
  | cons c cs ih =>
      cases h : splitLastDot cs with
      | some p =>
          have hmem : '.' ∈ cs := by
            by_cases hc : '.' ∈ cs
            · exact hc
            · simp [ih.2 hc] at h
          simp [splitLastDot, h, hmem]
      | none =>
          have hmem : '.' ∉ cs := ih.1 h
          by_cases hc : c = '.'
          · simp [splitLastDot, h, hc]
          · simp [splitLastDot, h, hc, hmem, Ne.symm hc]

------------------------------------------------------------
-- Class names
------------------------------------------------------------

/- A dotted class name; any text is one. -/
structure ClassName where
  text : String
deriving DecidableEq, Repr, Inhabited, Hashable

namespace ClassName

/- The class from which every class descends. -/
def object : ClassName := ⟨"java.lang.Object"⟩

def number : ClassName := ⟨"java.lang.Number"⟩

def string : ClassName := ⟨"java.lang.String"⟩

def charSequence : ClassName := ⟨"java.lang.CharSequence"⟩

def comparable : ClassName := ⟨"java.lang.Comparable"⟩

def serializable : ClassName := ⟨"java.io.Serializable"⟩

def cloneable : ClassName := ⟨"java.lang.Cloneable"⟩

def throwable : ClassName := ⟨"java.lang.Throwable"⟩

def methodHandle : ClassName :=
  ⟨"java.lang.invoke.MethodHandle"⟩

/- Replace each occurrence of one character by another. -/
def swapChar
    (old new : Char)
    (cs : List Char) : List Char :=
  cs.map (fun c => if c = old then new else c)

/- The name that a slash-separated text spells. -/
def ofInternal (cs : List Char) : ClassName :=
  ⟨String.ofList (swapChar '/' '.' cs)⟩

/- The slash-separated spelling of a name. -/
def internal (n : ClassName) : List Char :=
  swapChar '.' '/' n.text.toList

/-
  The package of a class; the empty text is the unnamed
  package.
-/
def package (n : ClassName) : List Char :=
  match splitLastDot n.text.toList with
  | some (before, _) => before
  | none => []

/- The name of a class within its package. -/
def simpleName (n : ClassName) : List Char :=
  match splitLastDot n.text.toList with
  | some (_, after) => after
  | none => n.text.toList

/-
  The outermost class around a class: its name up to the
  first dollar sign of the simple name.
-/
def topLevel (n : ClassName) : List Char :=
  match splitLastDot n.text.toList with
  | some (before, after) =>
      before ++ '.' :: after.takeWhile (· ≠ '$')
  | none => n.text.toList.takeWhile (· ≠ '$')

/- Classes of one package. -/
def SamePackage (a b : ClassName) : Prop :=
  a.package = b.package

instance (a b : ClassName) : Decidable (SamePackage a b) :=
  inferInstanceAs (Decidable (a.package = b.package))

/- Classes nested in one outermost class. -/
def SameNest (a b : ClassName) : Prop :=
  a.topLevel = b.topLevel

instance (a b : ClassName) : Decidable (SameNest a b) :=
  inferInstanceAs (Decidable (a.topLevel = b.topLevel))

end ClassName

------------------------------------------------------------
-- Box classes
------------------------------------------------------------

/- The box class of a kind. -/
def Kind.box (k : Kind) : ClassName :=
  ⟨k.boxName⟩

/- The kind that a class boxes, if it is a box class. -/
def ClassName.boxedKind? (n : ClassName) : Option Kind :=
  Kind.ofBoxName? n.text

theorem ClassName.boxedKind?_box (k : Kind) :
    k.box.boxedKind? = some k := by
  cases k <;> decide

theorem Kind.box_of_boxedKind?
    {n : ClassName}
    {k : Kind}
    (h : n.boxedKind? = some k) :
    k.box = n := by
  have hName : k.boxName = n.text := by
    simpa using List.find?_some h
  cases n
  simpa [Kind.box] using hName

end Linkage
