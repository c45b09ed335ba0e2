import Linkage.Proofs.ClassTable

/-
  Assignability is a preorder.  What is assignable to what is
  told by the shapes of the two types: arrays of references
  go with their components at every depth, and an array of a
  primitive kind stands for nothing else but an array
  supertype.

  Key theorems include:
    * `ClassTable.isAssignable_array_iff`
    * `ClassTable.isAssignable_arrays`
    * `ClassTable.isAssignable_nested`
    * `ClassTable.isAssignable_primArray_iff`
    * `ClassTable.PlainRoots.add`
    * `ClassTable.isAssignable_preorder`
-/

------------------------------------------------------------
-- Arrays
------------------------------------------------------------

namespace Linkage

namespace ClassTable

variable {T : ClassTable}
variable {a b s t : Ty}
variable {n : ClassName}
variable {k : Kind}

theorem isArraySupertype_iff :
    isArraySupertype n = true ↔
      n = .object ∨ n = .cloneable ∨ n = .serializable :=
  decide_eq_true_iff

theorem isRef_array : (Ty.array a).IsRef = true :=
  rfl

/-
  An array is assignable to the array supertypes, and to
  arrays of the same component, or of a wider one if both
  components are references.
-/
theorem isAssignable_array_iff :
    T.isAssignable (.array a) t = true ↔
      (∃ n, t = .cls n ∧ isArraySupertype n = true) ∨
        ∃ b, t = .array b ∧
          (a = b ∨
            a.IsRef = true ∧ b.IsRef = true ∧
              T.isAssignable a b = true) := by
  cases t with
  | prim k => simp [isAssignable]
  | cls n => simp [isAssignable]
  | array b => simp [isAssignable, and_assoc]

/- Arrays of references go with their components. -/
theorem isAssignable_arrays
    (ha : a.IsRef = true)
    (hb : b.IsRef = true) :
    T.isAssignable (.array a) (.array b) = true ↔
      T.isAssignable a b = true := by
  constructor
  · exact isAssignable_component
  · intro hAssign
    exact
      isAssignable_array_iff.2
        (Or.inr ⟨b, rfl, Or.inr ⟨ha, hb, hAssign⟩⟩)

theorem isRef_nested
    (ha : a.IsRef = true)
    (depth : Nat) :
    (a.nested depth).IsRef = true := by
  cases depth with
  | zero => exact ha
  | succ depth => exact isRef_array

/- They do so at every depth. -/
theorem isAssignable_nested
    (ha : a.IsRef = true)
    (hb : b.IsRef = true)
    (depth : Nat) :
    T.isAssignable (a.nested depth) (b.nested depth) = true ↔
      T.isAssignable a b = true := by
  induction depth with
  | zero => exact Iff.rfl
  | succ depth ih =>
      have hArrays :=
        isAssignable_arrays (T := T) (isRef_nested ha depth)
          (isRef_nested hb depth)
      exact hArrays.trans ih

/- An array of a primitive kind has no wider array. -/
theorem isAssignable_primArray_iff :
    T.isAssignable (.array (.prim k)) t = true ↔
      t = .array (.prim k) ∨ t = .cls .object ∨
        t = .cls .cloneable ∨ t = .cls .serializable := by
  rw [isAssignable_array_iff]
  constructor
  · rintro (⟨n, rfl, hSuper⟩ | ⟨b, rfl, rfl | ⟨hRef, _⟩⟩)
    · rcases isArraySupertype_iff.1 hSuper with rfl | rfl | rfl
      · exact Or.inr (Or.inl rfl)
      · exact Or.inr (Or.inr (Or.inl rfl))
      · exact Or.inr (Or.inr (Or.inr rfl))
    · exact Or.inl rfl
    · cases hRef
  · rintro (rfl | rfl | rfl | rfl)
    · exact Or.inr ⟨_, rfl, Or.inl rfl⟩
    · exact Or.inl ⟨_, rfl, rfl⟩
    · exact Or.inl ⟨_, rfl, rfl⟩
    · exact Or.inl ⟨_, rfl, rfl⟩

------------------------------------------------------------
-- The Preorder
------------------------------------------------------------

/- The array supertypes stay plain if another class is added. -/
theorem PlainRoots.add
    {c : ClassInfo}
    (hRoots : T.PlainRoots)
    (hOther : isArraySupertype c.name = false) :
    (T.add c).PlainRoots := by
  intro n hn m hm
  have hNe : n ≠ c.name := by
    rintro rfl
    rw [hn] at hOther
    cases hOther
  unfold parents at hm
  rw [find?_add_ne T c n hNe] at hm
  exact hRoots n hn m hm

/-
  In a table in which the array supertypes have no supertype
  but `Object`, every type is assignable to itself, and what
  is assignable in two steps is so in one.  Arrays of
  references are assignable as their components are, at every
  depth.  Arrays of a primitive kind are assignable to
  themselves and to the array supertypes only.
-/
theorem isAssignable_preorder
    (hRoots : T.PlainRoots) :
    IsPreorder Ty (fun s t => T.isAssignable s t = true) ∧
      (∀ a b : Ty, a.IsRef = true → b.IsRef = true →
        (T.isAssignable (.array a) (.array b) = true ↔
          T.isAssignable a b = true)) ∧
      (∀ (a b : Ty) (depth : Nat),
        a.IsRef = true → b.IsRef = true →
          (T.isAssignable (a.nested depth) (b.nested depth) = true ↔
            T.isAssignable a b = true)) ∧
      ∀ (k : Kind) (t : Ty),
        T.isAssignable (.array (.prim k)) t = true ↔
          t = .array (.prim k) ∨ t = .cls .object ∨
            t = .cls .cloneable ∨ t = .cls .serializable := by
  refine ⟨?preorder, ?arrays, ?nested, ?primitive⟩
  case preorder =>
    exact
      { refl := isAssignable_refl T
        trans := fun _ _ _ => isAssignable_trans hRoots }
  case arrays =>
    intro a b ha hb
    exact isAssignable_arrays ha hb
  case nested =>
    intro a b depth ha hb
    exact isAssignable_nested ha hb depth
  case primitive =>
    intro k t
    exact isAssignable_primArray_iff

/- The well-known classes, and two that extend each other. -/
def knotted : ClassTable :=
  (wellKnown.add
    { ClassInfo.ofClass ⟨"a.Left"⟩ with
      superclass := some ⟨"a.Right"⟩ }).add
    { ClassInfo.ofClass ⟨"a.Right"⟩ with
      superclass := some ⟨"a.Left"⟩ }

theorem knotted_plainRoots : knotted.PlainRoots :=
  (plainRoots_wellKnown.add (by decide)).add (by decide)

/-
  Arrays of integers are in an array of clones, and so in an
  array of objects.  Of two classes that extend each other,
  the arrays of either are arrays of the other.
-/
theorem isAssignable_preorder_knotted :
    knotted.PlainRoots ∧
      knotted.isAssignable (.array (.array .int))
        (.array (.cls .cloneable)) = true ∧
      knotted.isAssignable (.array (.array .int))
        (.array .object) = true ∧
      knotted.isAssignable (.array (.array .int))
        (.array (.array .object)) = false ∧
      knotted.isAssignable ((Ty.cls ⟨"a.Left"⟩).nested 3)
        ((Ty.cls ⟨"a.Right"⟩).nested 3) = true ∧
      knotted.isAssignable ((Ty.cls ⟨"a.Right"⟩).nested 3)
        ((Ty.cls ⟨"a.Left"⟩).nested 3) = true := by
  rcases isAssignable_preorder knotted_plainRoots with
    ⟨hPreorder, hArrays, hNested, hPrim⟩
  have hClones :
      knotted.isAssignable (.array (.array .int))
        (.array (.cls .cloneable)) = true :=
    (hArrays _ _ rfl rfl).2 ((hPrim .int _).2 (by decide))
  have hObjects :
      knotted.isAssignable (.array (.cls .cloneable))
        (.array .object) = true :=
    (hArrays _ _ rfl rfl).2 (isSubclass_object _ _)
  have hLeft :
      knotted.isAssignable (.cls ⟨"a.Left"⟩) (.cls ⟨"a.Right"⟩) =
        true := by
    apply isSubclass_eq_true_iff.2
    refine Or.inr (.single ?_)
    show _ ∈ knotted.parents _
    decide +kernel
  have hRight :
      knotted.isAssignable (.cls ⟨"a.Right"⟩) (.cls ⟨"a.Left"⟩) =
        true := by
    apply isSubclass_eq_true_iff.2
    refine Or.inr (.single ?_)
    show _ ∈ knotted.parents _
    decide +kernel
  have hApart :
      knotted.isAssignable (.array .int) (.array .object) ≠
        true := by
    intro hAssign
    have hShapes := (hPrim .int _).1 hAssign
    revert hShapes
    decide
  refine
    ⟨knotted_plainRoots, hClones,
      hPreorder.trans _ _ _ hClones hObjects, ?_,
      (hNested _ _ 3 rfl rfl).2 hLeft,
      (hNested _ _ 3 rfl rfl).2 hRight⟩
  rw [← Bool.not_eq_true, hArrays _ _ rfl rfl]
  exact hApart

end ClassTable

end Linkage
