import Linkage.Ty

/-
  Class tables: what is known of each class, and the
  subclass and assignability relations that follow from it.
  A class that is not in the table is related to itself and
  to `Object` only.

  Key definitions include:
    * `Flag`
    * `Flags.has`
    * `ClassInfo`
    * `ClassInfo.parents`
    * `ClassTable`
    * `ClassTable.find?`
    * `ClassTable.add`
    * `ClassTable.Edge`
    * `ClassTable.unvisited`
    * `ClassTable.search`
    * `ClassTable.isSubclass`
    * `ClassTable.supertypes`
    * `ClassTable.isAssignable`
-/

------------------------------------------------------------
-- Access flags
------------------------------------------------------------

namespace Linkage

/- The flags that classes and members carry. -/
inductive Flag where
| isPublic
| isPrivate
| isProtected
| isStatic
| isFinal
| isVolatile
| isVarargs
| isInterface
| isAbstract
deriving DecidableEq, Repr

/- The place of a flag in a flag word. -/
def Flag.bit : Flag → Nat
| isPublic => 0
| isPrivate => 1
| isProtected => 2
| isStatic => 3
| isFinal => 4
| isVolatile => 6
| isVarargs => 7
| isInterface => 9
| isAbstract => 10

/- A word of sixteen flags. -/
structure Flags where
  word : UInt16
deriving DecidableEq, Repr, Inhabited

namespace Flags

/- The word in which exactly the given flags are set. -/
def ofList (fs : List Flag) : Flags :=
  ⟨fs.foldl (fun w f => w ||| (1 <<< UInt16.ofNat f.bit)) 0⟩

/- A flag is set. -/
def has
    (w : Flags)
    (f : Flag) : Bool :=
  w.word.toNat.testBit f.bit

/- The same word with one more flag. -/
def set
    (w : Flags)
    (f : Flag) : Flags :=
  ⟨w.word ||| (1 <<< UInt16.ofNat f.bit)⟩

end Flags

------------------------------------------------------------
-- Classes
------------------------------------------------------------

/- What is known of a class or an interface. -/
structure ClassInfo where
  name : ClassName
  flags : Flags
  superclass : Option ClassName
  interfaces : List ClassName
deriving DecidableEq, Repr

namespace ClassInfo

/- A public class whose superclass is `Object`. -/
def ofClass (n : ClassName) : ClassInfo :=
  ⟨n, .ofList [.isPublic], some .object, []⟩

/- A public interface. -/
def ofInterface (n : ClassName) : ClassInfo :=
  ⟨n, .ofList [.isPublic, .isInterface, .isAbstract], none, []⟩

/- The superclass, then the interfaces. -/
def parents (c : ClassInfo) : List ClassName :=
  c.superclass.toList ++ c.interfaces

end ClassInfo

------------------------------------------------------------
-- Tables
------------------------------------------------------------

/- Known classes, at most one of each name. -/
structure ClassTable where
  classes : List ClassInfo
deriving Repr

namespace ClassTable

def empty : ClassTable := ⟨[]⟩

/- What is known of the class of a name. -/
def find?
    (T : ClassTable)
    (n : ClassName) : Option ClassInfo :=
  T.classes.find? (fun c => c.name == n)

/- A class of the name is known. -/
def contains
    (T : ClassTable)
    (n : ClassName) : Bool :=
  (T.find? n).isSome

def size (T : ClassTable) : Nat :=
  T.classes.length

/- Put a class in the place of one of the same name. -/
def replace
    (c : ClassInfo) : List ClassInfo → List ClassInfo
| [] => [c]
| d :: ds =>
    if d.name = c.name then c :: ds else d :: replace c ds

/- Add a class, or replace the class of its name. -/
def add
    (T : ClassTable)
    (c : ClassInfo) : ClassTable :=
  ⟨replace c T.classes⟩

/- The direct supertypes of a class; an unknown one has none. -/
def parents
    (T : ClassTable)
    (n : ClassName) : List ClassName :=
  match T.find? n with
  | some c => c.parents
  | none => []

def isInterface
    (T : ClassTable)
    (n : ClassName) : Bool :=
  match T.find? n with
  | some c => c.flags.has .isInterface
  | none => false

theorem find?_add_self
    (T : ClassTable)
    (c : ClassInfo) :
    (T.add c).find? c.name = some c := by
  unfold add find?
  induction T.classes with
  | nil => simp [replace]
  | cons d ds ih =>
      by_cases h : d.name = c.name
      · simp [replace, h]
      · simp [replace, h, ih]

theorem find?_add_ne
    (T : ClassTable)
    (c : ClassInfo)
    (n : ClassName)
    (h : n ≠ c.name) :
    (T.add c).find? n = T.find? n := by
  unfold add find?
  induction T.classes with
  | nil => simp [replace, Ne.symm h]
  | cons d ds ih =>
      by_cases hd : d.name = c.name
      · have hdn : d.name ≠ n := fun e => h (by rw [← hd, e])
        simp [replace, hd, Ne.symm h]
      · by_cases hn : d.name = n
        · subst hn
          simp [replace, hd]
        · simp [replace, hd, hn, ih]

------------------------------------------------------------
-- Walking the supertypes
------------------------------------------------------------

/- One step from a class to a direct supertype. -/
def Edge
    (T : ClassTable)
    (a b : ClassName) : Prop :=
  b ∈ T.parents a

/-
  The known classes that a walk has not yet visited.  Their
  number bounds what is left to do.
-/
def unvisited
    (T : ClassTable)
    (seen : List ClassName) : List ClassInfo :=
  T.classes.filter (fun c => c.name ∉ seen)

theorem unvisited_length
    (T : ClassTable)
    (seen : List ClassName) :
    (T.unvisited seen).length =
      T.classes.countP (fun c => c.name ∉ seen) := by
  rw [unvisited, List.countP_eq_length_filter]

theorem countP_cons_le
    (n : ClassName)
    (seen : List ClassName)
    (ds : List ClassInfo) :
    ds.countP (fun c => c.name ∉ n :: seen) ≤
      ds.countP (fun c => c.name ∉ seen) := by
  apply List.countP_mono_left
  intro c _ hc
  simp only [List.mem_cons, not_or, decide_eq_true_eq] at hc ⊢
  exact hc.2

theorem countP_cons_lt
    (n : ClassName)
    (seen : List ClassName)
    (hs : n ∉ seen)
    (ds : List ClassInfo)
    (hMem : ∃ c ∈ ds, c.name = n) :
    ds.countP (fun c => c.name ∉ n :: seen) <
      ds.countP (fun c => c.name ∉ seen) := by
  induction ds with
  | nil => simp at hMem
  | cons d ds ih =>
      have hLe := countP_cons_le n seen ds
      simp only [List.countP_cons]
      by_cases hd : d.name = n
      · have h₁ : d.name ∈ n :: seen := by simp [hd]
        have h₂ : d.name ∉ seen := by rw [hd]; exact hs
        simp only [h₁, h₂, not_true_eq_false, decide_false,
          not_false_eq_true, decide_true, if_true,
          Bool.false_eq_true, if_false]
        omega
      · rcases hMem with ⟨c, hc, hcn⟩
        have hc' : c ∈ ds := by
          rcases List.mem_cons.1 hc with h | h
          · exact absurd (h ▸ hcn) hd
          · exact h
        have := ih ⟨c, hc', hcn⟩
        by_cases hm : d.name ∈ seen
        · have h₁ : d.name ∈ n :: seen := by simp [hm]
          simp only [h₁, hm, not_true_eq_false, decide_false,
            Bool.false_eq_true, if_false]
          omega
        · have h₁ : d.name ∉ n :: seen := by simp [hd, hm]
          simp only [h₁, hm, not_false_eq_true, decide_true,
            if_true]
          omega

theorem unvisited_cons_le
    (T : ClassTable)
    (n : ClassName)
    (seen : List ClassName) :
    (T.unvisited (n :: seen)).length ≤
      (T.unvisited seen).length := by
  rw [unvisited_length, unvisited_length]
  exact countP_cons_le n seen T.classes

theorem unvisited_cons_lt
    (T : ClassTable)
    (n : ClassName)
    (seen : List ClassName)
    (hn : T.find? n ≠ none)
    (hs : n ∉ seen) :
    (T.unvisited (n :: seen)).length <
      (T.unvisited seen).length := by
  rcases Option.ne_none_iff_exists'.1 hn with ⟨c, hc⟩
  have hMem : c ∈ T.classes := List.mem_of_find?_eq_some hc
  have hName : c.name = n := by
    simpa using List.find?_some hc
  rw [unvisited_length, unvisited_length]
  exact countP_cons_lt n seen hs T.classes ⟨c, hMem, hName⟩

theorem find?_none_parents
    (T : ClassTable)
    (n : ClassName)
    (h : T.find? n = none) :
    T.parents n = [] := by
  simp [parents, h]

/-
  Breadth-first search for a class.  A class is marked when
  it is taken from the queue.
-/
def search
    (T : ClassTable)
    (goal : ClassName)
    (seen queue : List ClassName) : Bool :=
  match queue with
  | [] => false
  | n :: rest =>
      if n ∈ seen then T.search goal seen rest
      else if n = goal then true
      else T.search goal (n :: seen) (rest ++ T.parents n)
termination_by ((T.unvisited seen).length, queue.length)
decreasing_by
  · exact Prod.Lex.right _ (by simp)
  · rename_i hs _
    cases hf : T.find? n with
    | none =>
        rw [T.find?_none_parents n hf]
        rcases Nat.lt_or_eq_of_le
          (T.unvisited_cons_le n seen) with h | h
        · exact Prod.Lex.left _ _ h
        · rw [h]
          exact Prod.Lex.right _ (by simp)
    | some c =>
        exact Prod.Lex.left _ _
          (T.unvisited_cons_lt n seen (by simp [hf]) hs)

/-
  The reflexive and transitive subclass relation; every
  class is below `Object`.
-/
def isSubclass
    (T : ClassTable)
    (sub sup : ClassName) : Bool :=
  if sub = sup ∨ sup = .object
  then true
  else T.search sup [] [sub]

/-
  Breadth-first walk that lists each class once.  The list
  `done` holds the classes so far, the last one first.
-/
def walk
    (T : ClassTable)
    (done queue : List ClassName) : List ClassName :=
  match queue with
  | [] => done.reverse
  | n :: rest =>
      if n ∈ done then T.walk done rest
      else T.walk (n :: done) (rest ++ T.parents n)
termination_by ((T.unvisited done).length, queue.length)
decreasing_by
  · exact Prod.Lex.right _ (by simp)
  · rename_i hs
    cases hf : T.find? n with
    | none =>
        rw [T.find?_none_parents n hf]
        rcases Nat.lt_or_eq_of_le
          (T.unvisited_cons_le n done) with h | h
        · exact Prod.Lex.left _ _ h
        · rw [h]
          exact Prod.Lex.right _ (by simp)
    | some c =>
        exact Prod.Lex.left _ _
          (T.unvisited_cons_lt n done (by simp [hf]) hs)

/- A class, then its supertypes, the nearest first. -/
def supertypes
    (T : ClassTable)
    (n : ClassName) : List ClassName :=
  T.walk [] [n]

/- A class of things that can be thrown. -/
def isThrowable
    (T : ClassTable)
    (n : ClassName) : Bool :=
  T.isSubclass n .throwable

------------------------------------------------------------
-- Assignability
------------------------------------------------------------

/- The classes that every array belongs to. -/
def isArraySupertype (n : ClassName) : Bool :=
  n = .object ∨ n = .cloneable ∨ n = .serializable

/-
  A value of one type may stand where another is declared.
  Arrays of references are covariant.
-/
def isAssignable
    (T : ClassTable) : Ty → Ty → Bool
| .prim a, .prim b => a = b
| .cls a, .cls b => T.isSubclass a b
| .array _, .cls n => isArraySupertype n
| .array a, .array b =>
    a = b || (a.IsRef && b.IsRef && T.isAssignable a b)
| _, _ => false

theorem isSubclass_refl
    (T : ClassTable)
    (n : ClassName) :
    T.isSubclass n n = true := by
  simp [isSubclass]

theorem isSubclass_object
    (T : ClassTable)
    (n : ClassName) :
    T.isSubclass n .object = true := by
  simp [isSubclass]

theorem isAssignable_refl
    (T : ClassTable)
    (t : Ty) :
    T.isAssignable t t = true := by
  cases t <;> simp [isAssignable, isSubclass_refl]

end ClassTable

end Linkage
