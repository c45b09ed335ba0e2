import Linkage.Lookup
import Mathlib.Tactic.SplitIfs

/-
  Moving a lookup to another class never widens it.  The
  order between lookups is chosen so that a step is enough:
  the narrower one holds no mode of its own, and the modes
  that look at its class find there what they would find at
  the class of the wider one.

  Key definitions include:
    * `Modes.Subset`
    * `Lookup.Grants`
    * `Lookup.Within`
    * `Lookup.along`

  Key theorems include:
    * `Lookup.Within.grants`
    * `Lookup.Within.inClass`
    * `Lookup.Within.along`
    * `Lookup.along_never_widens`
-/

------------------------------------------------------------
-- Sets of Modes
------------------------------------------------------------

namespace Linkage

namespace Modes

variable {m n k : Modes}
variable {x y : Mode}

/-
  Each bit of one word is a bit of the other.  Bits that
  stand for no mode count as well, since a word that is not
  zero reaches the public members.
-/
protected def Subset (m n : Modes) : Prop :=
  ∀ i,
    m.word.toNat.testBit i = true →
      n.word.toNat.testBit i = true

instance : HasSubset Modes := ⟨Modes.Subset⟩

theorem subset_refl (m : Modes) : m ⊆ m :=
  fun _ hBit => hBit

theorem subset_trans
    (hmn : m ⊆ n)
    (hnk : n ⊆ k) :
    m ⊆ k :=
  fun i hBit => hnk i (hmn i hBit)

theorem none_subset (m : Modes) : none ⊆ m := by
  intro i hBit
  simp [none] at hBit

theorem without_subset
    (x : Mode)
    (hmn : m ⊆ n) :
    m.without x ⊆ n := by
  intro i hBit
  simp only [without, UInt8.toNat_and, Nat.testBit_and,
    Bool.and_eq_true] at hBit
  exact hmn i hBit.1

theorem has_of_subset
    (hmn : m ⊆ n)
    (hHas : m.has x = true) :
    n.has x = true :=
  hmn x.bit hHas

theorem has_without
    (m : Modes)
    (x y : Mode) :
    (m.without x).has y = true ↔ m.has y = true ∧ y ≠ x := by
  have hMask :
      (~~~(1 <<< UInt8.ofNat x.bit)).toNat.testBit y.bit =
        decide (y ≠ x) := by
    cases x <;> cases y <;> decide
  simp only [has, without, UInt8.toNat_and, Nat.testBit_and,
    hMask, Bool.and_eq_true, decide_eq_true_eq]

/- A set that holds another one is empty only if that is. -/
theorem ne_none_of_subset
    (hmn : m ⊆ n)
    (hNe : m ≠ .none) :
    n ≠ .none := by
  intro hEmpty
  apply hNe
  have hWord : m.word.toNat = 0 := by
    apply Nat.eq_of_testBit_eq
    intro i
    rw [Nat.zero_testBit]
    cases hBit : m.word.toNat.testBit i with
    | false => rfl
    | true =>
        have hIn := hmn i hBit
        simp [hEmpty, none] at hIn
  have hZero : m.word = 0 := UInt8.toNat_inj.1 hWord
  cases m
  exact congrArg Modes.mk hZero

end Modes

------------------------------------------------------------
-- The Order of Lookups
------------------------------------------------------------

namespace Lookup

variable {T : ClassTable}
variable {inner middle outer : Lookup}
variable {defining reference target : ClassName}
variable {flags : Flags}

/- The table of member access grants a member to a lookup. -/
def Grants
    (T : ClassTable)
    (l : Lookup)
    (defining reference : ClassName)
    (flags : Flags) : Prop :=
  checkMember T l.cls l.modes defining reference flags = .ok ()

instance
    (T : ClassTable)
    (l : Lookup)
    (defining reference : ClassName)
    (flags : Flags) :
    Decidable (l.Grants T defining reference flags) :=
  match
    hCheck :
      checkMember T l.cls l.modes defining reference flags
  with
  | .ok () => .isTrue hCheck
  | .error _ =>
      .isFalse (fun hGrants => by
        rw [Grants, hCheck] at hGrants
        cases hGrants)

/-
  What a grant asks for, by the first of the flags that
  decides.  A lookup without modes reaches no class.
-/
theorem grants_iff
    {l : Lookup} :
    l.Grants T defining reference flags ↔
      isClassAccessible T reference l.cls l.modes = true ∧
        if flags.has .isPublic then True
        else if flags.has .isPrivate then
          l.modes.has .privateAccess = true ∧
            defining.SameNest l.cls
        else if flags.has .isProtected then
          grantsProtected T l.cls l.modes defining = true
        else
          l.modes.has .packageAccess = true ∧
            defining.SamePackage l.cls := by
  unfold Grants checkMember
  by_cases hNone : l.modes = .none
  · simp [hNone, isClassAccessible]
  · rw [if_neg hNone]
    split_ifs <;> simp_all

/-
  A lookup that may reach no more than another one.  Package
  access needs the package of its class only, private access
  the nest, but protected access needs the class itself.
-/
structure Within (inner outer : Lookup) : Prop where
  modes : inner.modes ⊆ outer.modes
  samePackage :
    inner.modes.has .packageAccess = true →
      inner.cls.SamePackage outer.cls
  sameNest :
    inner.modes.has .privateAccess = true →
      inner.cls.SameNest outer.cls
  sameClass :
    inner.modes.has .protectedAccess = true →
      inner.cls = outer.cls

namespace Within

/- More modes of one class reach as much or more. -/
theorem of_subset
    {m n : Modes}
    (n' : ClassName)
    (hmn : m ⊆ n) :
    Within ⟨n', m⟩ ⟨n', n⟩ where
  modes := hmn
  samePackage := fun _ => rfl
  sameNest := fun _ => rfl
  sameClass := fun _ => rfl

theorem refl (l : Lookup) : Within l l :=
  of_subset l.cls (Modes.subset_refl l.modes)

theorem trans
    (hInner : Within inner middle)
    (hOuter : Within middle outer) :
    Within inner outer where
  modes := Modes.subset_trans hInner.modes hOuter.modes
  samePackage := by
    intro hHas
    have hMiddle := Modes.has_of_subset hInner.modes hHas
    exact
      (hInner.samePackage hHas).trans
        (hOuter.samePackage hMiddle)
  sameNest := by
    intro hHas
    have hMiddle := Modes.has_of_subset hInner.modes hHas
    exact
      (hInner.sameNest hHas).trans (hOuter.sameNest hMiddle)
  sameClass := by
    intro hHas
    have hMiddle := Modes.has_of_subset hInner.modes hHas
    exact
      (hInner.sameClass hHas).trans
        (hOuter.sameClass hMiddle)

/- Package access to a class is not lost outwards. -/
theorem reaches_package
    (hWithin : Within inner outer)
    (hHas : inner.modes.has .packageAccess = true)
    (hSame : target.SamePackage inner.cls) :
    outer.modes.has .packageAccess = true ∧
      target.SamePackage outer.cls :=
  ⟨Modes.has_of_subset hWithin.modes hHas,
    hSame.trans (hWithin.samePackage hHas)⟩

theorem isClassAccessible
    (hWithin : Within inner outer)
    (hInner :
      isClassAccessible T target inner.cls inner.modes = true) :
    isClassAccessible T target outer.cls outer.modes = true := by
  unfold Linkage.isClassAccessible at hInner ⊢
  by_cases hNone : inner.modes = .none
  · simp [hNone] at hInner
  · have hOuter := Modes.ne_none_of_subset hWithin.modes hNone
    simp only [if_neg hNone, if_neg hOuter, Bool.or_eq_true,
      Bool.and_eq_true, decide_eq_true_eq] at hInner ⊢
    rcases hInner with hPublic | ⟨hHas, hSame⟩
    · exact Or.inl hPublic
    · exact Or.inr (hWithin.reaches_package hHas hSame)

theorem grantsProtected
    (hWithin : Within inner outer)
    (hInner :
      grantsProtected T inner.cls inner.modes defining = true) :
    grantsProtected T outer.cls outer.modes defining = true := by
  simp only [Linkage.grantsProtected, Bool.or_eq_true,
    Bool.and_eq_true, decide_eq_true_eq] at hInner ⊢
  rcases hInner with ⟨hPackage | hProtected, hSame⟩ |
    ⟨hProtected, hSubclass⟩
  · have hReach := hWithin.reaches_package hPackage hSame
    exact Or.inl ⟨Or.inl hReach.1, hReach.2⟩
  · have hHas := Modes.has_of_subset hWithin.modes hProtected
    rw [hWithin.sameClass hProtected] at hSame
    exact Or.inl ⟨Or.inr hHas, hSame⟩
  · have hHas := Modes.has_of_subset hWithin.modes hProtected
    rw [hWithin.sameClass hProtected] at hSubclass
    exact Or.inr ⟨hHas, hSubclass⟩

/- A member that the narrower lookup reaches is reached. -/
theorem grants
    (hWithin : Within inner outer)
    (hInner : inner.Grants T defining reference flags) :
    outer.Grants T defining reference flags := by
  rw [grants_iff] at hInner ⊢
  rcases hInner with ⟨hClass, hMember⟩
  refine ⟨hWithin.isClassAccessible hClass, ?_⟩
  split_ifs at hMember ⊢ with hPublic hPrivate hProtected
  · exact
      ⟨Modes.has_of_subset hWithin.modes hMember.1,
        hMember.2.trans (hWithin.sameNest hMember.1)⟩
  · exact hWithin.grantsProtected hMember
  · exact hWithin.reaches_package hMember.1 hMember.2

end Within

------------------------------------------------------------
-- Moved Lookups
------------------------------------------------------------

/- The modes that are left are modes that were there. -/
theorem narrowModes_subset
    (T : ClassTable)
    (source target : ClassName)
    (m : Modes) :
    narrowModes T source target m ⊆ m := by
  have hOne (x : Mode) : m.without x ⊆ m :=
    Modes.without_subset x m.subset_refl
  have hTwo (x y : Mode) : (m.without x).without y ⊆ m :=
    Modes.without_subset y (hOne x)
  have hThree (x y z : Mode) :
      ((m.without x).without y).without z ⊆ m :=
    Modes.without_subset z (hTwo x y)
  unfold narrowModes
  split_ifs
  · exact m.subset_refl
  · exact m.none_subset
  · exact hOne .protectedAccess
  · exact hThree .packageAccess .privateAccess .protectedAccess
  · exact hTwo .privateAccess .protectedAccess
  · exact
      Modes.without_subset .protectedAccess
        (hThree .privateAccess .packageAccess .privateAccess)

/-
  What is left after a move to another class: package access
  stays within the package, private access within the nest,
  and protected access never stays.
-/
theorem of_has_narrowModes
    {source target : ClassName}
    {m : Modes}
    {x : Mode}
    (hMoved : source ≠ target)
    (hHas : (narrowModes T source target m).has x = true) :
    x ≠ .protectedAccess ∧
      (x = .packageAccess → source.SamePackage target) ∧
      (x = .privateAccess → source.SameNest target) := by
  unfold narrowModes at hHas
  rw [if_neg hMoved] at hHas
  split_ifs at hHas with hClass hNest hPackage hPackage
  · cases x <;> simp [Modes.none, Modes.has] at hHas
  all_goals
    simp only [Modes.has_without] at hHas
    simp_all

/- One move gives a lookup within the one that is moved. -/
theorem Within.inClass
    (T : ClassTable)
    (l : Lookup)
    (n : ClassName) :
    Within (l.inClass T n) l := by
  by_cases hMoved : l.cls = n
  · have hSame : l.inClass T n = l := by
      simp [Lookup.inClass, narrowModes, ← hMoved]
    rw [hSame]
    exact .refl l
  · refine ⟨narrowModes_subset T l.cls n l.modes, ?_, ?_, ?_⟩
    · intro hHas
      exact ((of_has_narrowModes hMoved hHas).2.1 rfl).symm
    · intro hHas
      exact ((of_has_narrowModes hMoved hHas).2.2 rfl).symm
    · intro hHas
      exact absurd rfl (of_has_narrowModes hMoved hHas).1

/- The lookup moved from class to class along a path. -/
def along
    (T : ClassTable)
    (l : Lookup)
    (path : List ClassName) : Lookup :=
  path.foldl (inClass T) l

/- Each move narrows what the moves before it left. -/
theorem Within.along
    (T : ClassTable)
    (l : Lookup)
    (path : List ClassName) :
    Within (l.along T path) l := by
  induction path generalizing l with
  | nil => exact .refl l
  | cons n rest ih =>
      exact (ih (l.inClass T n)).trans (.inClass T l n)

/-
  Moving a lookup along any path never widens it: it keeps
  no mode that it did not have, and reaches no member that it
  did not reach.  For one class, more modes reach as much or
  more.
-/
theorem along_never_widens (T : ClassTable) :
    (∀ (l : Lookup) (path : List ClassName),
      (l.along T path).modes ⊆ l.modes ∧
        ∀ defining reference flags,
          (l.along T path).Grants T defining reference flags →
            l.Grants T defining reference flags) ∧
      ∀ (n : ClassName) (few many : Modes),
        few ⊆ many →
          ∀ defining reference flags,
            Grants T ⟨n, few⟩ defining reference flags →
              Grants T ⟨n, many⟩ defining reference flags := by
  constructor
  · intro l path
    have hWithin := Within.along T l path
    exact ⟨hWithin.modes, fun _ _ _ => hWithin.grants⟩
  · intro n few many hSubset _ _ _
    exact (Within.of_subset n hSubset).grants

/- A class, a class nested in it, and a neighbour of both. -/
def neighbours : ClassTable :=
  ⟨[.ofClass ⟨"a.Base"⟩, .ofClass ⟨"a.Base$Inner"⟩,
    .ofClass ⟨"a.Other"⟩]⟩

/-
  From the class to the neighbour by way of the nested class:
  public and package access are left, and a member of the
  package was in reach before the moves as it is after them.
-/
theorem along_never_widens_neighbours :
    ((full ⟨"a.Base"⟩).along neighbours
        [⟨"a.Base$Inner"⟩, ⟨"a.Other"⟩]).modes = ⟨3⟩ ∧
      Grants neighbours
        ((full ⟨"a.Base"⟩).along neighbours
          [⟨"a.Base$Inner"⟩, ⟨"a.Other"⟩])
        ⟨"a.Base"⟩ ⟨"a.Base"⟩ ⟨0⟩ ∧
      Grants neighbours (full ⟨"a.Base"⟩)
        ⟨"a.Base"⟩ ⟨"a.Base"⟩ ⟨0⟩ := by
  have hModes :
      ((full ⟨"a.Base"⟩).along neighbours
          [⟨"a.Base$Inner"⟩, ⟨"a.Other"⟩]).modes =
        ⟨3⟩ := by
    decide +kernel
  have hMoved :
      Grants neighbours
        ((full ⟨"a.Base"⟩).along neighbours
          [⟨"a.Base$Inner"⟩, ⟨"a.Other"⟩])
        ⟨"a.Base"⟩ ⟨"a.Base"⟩ ⟨0⟩ := by
    decide +kernel
  exact
    ⟨hModes, hMoved,
      ((along_never_widens neighbours).1 _ _).2 _ _ _ hMoved⟩

end Lookup

end Linkage
