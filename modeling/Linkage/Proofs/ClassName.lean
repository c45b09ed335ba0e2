import Linkage.Proofs.Access
import Mathlib.Data.List.TakeWhile

/-
  What a nest is.  Names are compared by their text up to the
  first dollar sign of the simple name.  Two classes are of
  one nest if a common top-level class is around both, but
  also if their simple names have nothing before the first
  dollar sign, and not if one of the names begins with a dot
  and the other has none.

  Key definitions include:
    * `ClassName.nestHost`
    * `ClassName.IsDotted`
    * `ClassName.IsUnder`
    * `ClassName.ShareTop`
    * `ClassName.IsRegular`

  Key theorems include:
    * `splitLastDot_parts`
    * `splitLastDot_append`
    * `takeWhile_ne_eq_iff`
    * `ClassName.isUnder_iff`
    * `ClassName.sameNest_iff`
    * `ClassName.shareTop_iff`
    * `Lookup.nests_share_tops`
-/

------------------------------------------------------------
-- Names and Their Parts
------------------------------------------------------------

namespace Linkage

variable {cs ds before after : List Char}

/- The parts of a split text make up the text. -/
theorem splitLastDot_parts
    (hSplit : splitLastDot cs = some (before, after)) :
    cs = before ++ '.' :: after ∧ '.' ∉ after := by
  induction cs generalizing before with
  | nil => cases hSplit
  | cons c cs ih =>
      cases hRest : splitLastDot cs with
      | some parts =>
          rcases parts with ⟨front, back⟩
          simp only [splitLastDot, hRest, Option.some.injEq,
            Prod.mk.injEq] at hSplit
          rcases hSplit with ⟨rfl, rfl⟩
          have hParts := ih hRest
          exact ⟨congrArg (c :: ·) hParts.1, hParts.2⟩
      | none =>
          have hNone := (splitLastDot_eq_none_iff cs).1 hRest
          simp only [splitLastDot, hRest] at hSplit
          by_cases hDot : c = '.'
          · rw [if_pos hDot] at hSplit
            cases hSplit
            exact ⟨congrArg (· :: after) hDot, hNone⟩
          · rw [if_neg hDot] at hSplit
            cases hSplit

/- A text is split at a dot after which there is none. -/
theorem splitLastDot_append
    (before : List Char)
    (hNone : '.' ∉ after) :
    splitLastDot (before ++ '.' :: after) =
      some (before, after) := by
  induction before with
  | nil =>
      have hRest := (splitLastDot_eq_none_iff after).2 hNone
      simp [splitLastDot, hRest]
  | cons c before ih => simp [splitLastDot, ih]

/-
  What precedes the first of some character is the text that
  has none of it and after which the whole ends or goes on
  with that character.
-/
theorem takeWhile_ne_eq_iff
    {c : Char} :
    cs.takeWhile (· ≠ c) = ds ↔
      c ∉ ds ∧ (cs = ds ∨ ds ++ [c] <+: cs) := by
  have hPass (u : List Char) (hNone : c ∉ u) :
      ∀ d ∈ u, decide (d ≠ c) = true := by
    intro d hMem
    exact decide_eq_true (ne_of_mem_of_not_mem hMem hNone)
  constructor
  · rintro rfl
    refine ⟨?_, ?_⟩
    · intro hMem
      have hOther := List.mem_takeWhile_imp hMem
      exact absurd rfl (of_decide_eq_true hOther)
    · have hWhole :=
        List.takeWhile_append_dropWhile (p := (· ≠ c)) (l := cs)
      cases hRest : cs.dropWhile (· ≠ c) with
      | nil =>
          rw [hRest, List.append_nil] at hWhole
          exact Or.inl hWhole.symm
      | cons d rest =>
          have hStop : d = c := by
            have hHead := List.head?_dropWhile_not (· ≠ c) cs
            rw [hRest] at hHead
            simpa using hHead
          rw [hRest, hStop] at hWhole
          refine Or.inr ⟨rest, ?_⟩
          rw [List.append_assoc]
          exact hWhole
  · rintro ⟨hNone, rfl | ⟨rest, rfl⟩⟩
    · exact List.takeWhile_eq_self_iff.2 (hPass _ hNone)
    · rw [List.append_assoc,
        List.takeWhile_append_of_pos (hPass _ hNone)]
      simp

namespace ClassName

variable {a b n : ClassName}
variable {top : List Char}

/- The simple name up to its first dollar sign. -/
def nestHost (n : ClassName) : List Char :=
  n.simpleName.takeWhile (· ≠ '$')

/- A name with a dot; what is before the last one may be empty. -/
def IsDotted (n : ClassName) : Prop :=
  '.' ∈ n.text.toList

/- The class of a simple name, or one nested in it. -/
def IsUnder
    (n : ClassName)
    (top : List Char) : Prop :=
  n.simpleName = top ∨ top ++ ['$'] <+: n.simpleName

/- One class, or classes under one top-level class. -/
def ShareTop (a b : ClassName) : Prop :=
  a = b ∨
    a.SamePackage b ∧
      ∃ top, top ≠ [] ∧ '$' ∉ top ∧ a.IsUnder top ∧ b.IsUnder top

/-
  A name whose simple name does not begin with a dollar sign
  and is not empty, and that does not begin with its only
  dot.
-/
def IsRegular (n : ClassName) : Prop :=
  n.nestHost ≠ [] ∧ (n.IsDotted → n.package ≠ [])

/- A class is under the name before the first dollar sign only. -/
theorem isUnder_iff
    (hTop : '$' ∉ top) :
    n.IsUnder top ↔ n.nestHost = top := by
  unfold nestHost
  rw [takeWhile_ne_eq_iff]
  exact (and_iff_right hTop).symm

theorem shape_of_dotted
    (hDotted : n.IsDotted) :
    n.text.toList = n.package ++ '.' :: n.simpleName ∧
      '.' ∉ n.simpleName ∧
      n.topLevel = n.package ++ '.' :: n.nestHost := by
  cases hSplit : splitLastDot n.text.toList with
  | none =>
      exact
        absurd hDotted ((splitLastDot_eq_none_iff _).1 hSplit)
  | some parts =>
      have hParts := splitLastDot_parts hSplit
      simp only [package, simpleName, topLevel, nestHost, hSplit]
      exact ⟨hParts.1, hParts.2, trivial⟩

theorem shape_of_undotted
    (hPlain : ¬n.IsDotted) :
    n.package = [] ∧
      n.simpleName = n.text.toList ∧
      n.topLevel = n.nestHost := by
  have hSplit := (splitLastDot_eq_none_iff _).2 hPlain
  simp [package, simpleName, topLevel, nestHost, hSplit]

/- The host is the beginning of a name that has no dot. -/
theorem dot_not_mem_nestHost (n : ClassName) :
    '.' ∉ n.nestHost := by
  intro hMem
  have hSimple : '.' ∈ n.simpleName :=
    (List.takeWhile_prefix _).subset hMem
  by_cases hDotted : n.IsDotted
  · exact (shape_of_dotted hDotted).2.1 hSimple
  · rw [(shape_of_undotted hDotted).2.1] at hSimple
    exact hDotted hSimple

/- A top-level class keeps the dot, if there is one. -/
theorem dot_mem_topLevel_iff :
    '.' ∈ n.topLevel ↔ n.IsDotted := by
  by_cases hDotted : n.IsDotted
  · rw [(shape_of_dotted hDotted).2.2]
    exact iff_of_true (by simp) hDotted
  · rw [(shape_of_undotted hDotted).2.2]
    exact iff_of_false n.dot_not_mem_nestHost hDotted

/-
  Classes are of one nest if both have a dot or neither has,
  and they agree on the package and on the host.
-/
theorem sameNest_iff :
    a.SameNest b ↔
      (a.IsDotted ↔ b.IsDotted) ∧
        a.SamePackage b ∧ a.nestHost = b.nestHost := by
  unfold SamePackage
  constructor
  · intro hNest
    have hDots : a.IsDotted ↔ b.IsDotted := by
      rw [← dot_mem_topLevel_iff, ← dot_mem_topLevel_iff,
        show a.topLevel = b.topLevel from hNest]
    refine ⟨hDots, ?_⟩
    by_cases ha : a.IsDotted
    · have hSplit :=
        splitLastDot_append a.package a.dot_not_mem_nestHost
      rw [← (shape_of_dotted ha).2.2,
        show a.topLevel = b.topLevel from hNest,
        (shape_of_dotted (hDots.1 ha)).2.2,
        splitLastDot_append b.package b.dot_not_mem_nestHost]
        at hSplit
      have hParts := Prod.mk.inj (Option.some.inj hSplit)
      exact ⟨hParts.1.symm, hParts.2.symm⟩
    · have hShapeA := shape_of_undotted ha
      have hShapeB := shape_of_undotted (mt hDots.2 ha)
      rw [hShapeA.1, hShapeB.1, ← hShapeA.2.2, ← hShapeB.2.2]
      exact ⟨rfl, hNest⟩
  · rintro ⟨hDots, hPackage, hHost⟩
    show a.topLevel = b.topLevel
    by_cases ha : a.IsDotted
    · rw [(shape_of_dotted ha).2.2,
        (shape_of_dotted (hDots.1 ha)).2.2, hPackage, hHost]
    · rw [(shape_of_undotted ha).2.2,
        (shape_of_undotted (mt hDots.2 ha)).2.2, hHost]

/- A common top-level class has the name of both hosts. -/
theorem shareTop_iff :
    a.ShareTop b ↔
      a = b ∨
        a.SamePackage b ∧
          a.nestHost = b.nestHost ∧ a.nestHost ≠ [] := by
  unfold ShareTop
  refine or_congr_right (and_congr_right fun _ => ?_)
  constructor
  · rintro ⟨top, hNe, hTop, ha, hb⟩
    rw [isUnder_iff hTop] at ha hb
    rw [ha, hb]
    exact ⟨rfl, hNe⟩
  · rintro ⟨hHost, hNe⟩
    have hTop : '$' ∉ a.nestHost :=
      (takeWhile_ne_eq_iff.1 rfl).1
    exact
      ⟨a.nestHost, hNe, hTop, (isUnder_iff hTop).2 rfl,
        (isUnder_iff hTop).2 hHost.symm⟩

/- A regular name has a dot if it has a package. -/
theorem IsRegular.isDotted_iff
    (hRegular : n.IsRegular) :
    n.IsDotted ↔ n.package ≠ [] := by
  refine ⟨hRegular.2, fun hPackage => ?_⟩
  by_contra hPlain
  exact hPackage (shape_of_undotted hPlain).1

/- Regular names are of one nest if they share a top-level class. -/
theorem IsRegular.sameNest_iff_shareTop
    (ha : a.IsRegular)
    (hb : b.IsRegular) :
    a.SameNest b ↔ a.ShareTop b := by
  rw [sameNest_iff, shareTop_iff, ha.isDotted_iff, hb.isDotted_iff]
  constructor
  · rintro ⟨-, hPackage, hHost⟩
    exact Or.inr ⟨hPackage, hHost, ha.1⟩
  · rintro (rfl | ⟨hPackage, hHost, -⟩)
    · exact ⟨Iff.rfl, rfl, rfl⟩
    · refine ⟨?_, hPackage, hHost⟩
      rw [show a.package = b.package from hPackage]

end ClassName

------------------------------------------------------------
-- Private Members
------------------------------------------------------------

namespace Lookup

/-
  Two classes are of one nest if both have a dot or neither
  has, and either a common top-level class is around them or
  both have nothing before the first dollar sign.  For
  regular names that is to have a common top-level class.
  Classes of one nest are of one package, and a private
  member is granted within the nest of its class only, so
  that a member of a class with a regular name is granted
  under its top-level class only.
-/
theorem nests_share_tops
    (a b : ClassName) :
    (a.SameNest b ↔
      (a.IsDotted ↔ b.IsDotted) ∧
        (a.ShareTop b ∨
          a.SamePackage b ∧ a.nestHost = [] ∧
            b.nestHost = [])) ∧
      (a.IsRegular → b.IsRegular →
        (a.SameNest b ↔ a.ShareTop b)) ∧
      (a.SameNest b → a.SamePackage b) ∧
      ∀ (T : ClassTable) (l : Lookup) (reference : ClassName)
        (flags : Flags),
        l.cls = b →
        flags.has .isPublic = false →
        flags.has .isPrivate = true →
        l.Grants T a reference flags →
          l.modes.has .privateAccess = true ∧
            a.SameNest b ∧ (a.nestHost ≠ [] → a.ShareTop b) := by
  refine ⟨?exact, ?regular, ?package, ?grants⟩
  case exact =>
    rw [ClassName.sameNest_iff, ClassName.shareTop_iff]
    constructor
    · rintro ⟨hDots, hPackage, hHost⟩
      refine ⟨hDots, ?_⟩
      by_cases hNe : a.nestHost = []
      · exact Or.inr ⟨hPackage, hNe, hHost ▸ hNe⟩
      · exact Or.inl (Or.inr ⟨hPackage, hHost, hNe⟩)
    · rintro ⟨hDots, (rfl | ⟨hPackage, hHost, -⟩) |
        ⟨hPackage, ha, hb⟩⟩
      · exact ⟨hDots, rfl, rfl⟩
      · exact ⟨hDots, hPackage, hHost⟩
      · exact ⟨hDots, hPackage, ha.trans hb.symm⟩
  case regular =>
    intro ha hb
    exact ha.sameNest_iff_shareTop hb
  case package =>
    intro hNest
    exact (ClassName.sameNest_iff.1 hNest).2.1
  case grants =>
    intro T l reference flags hLooks hPublic hPrivate hGrants
    subst hLooks
    have hAsked := (grants_iff.1 hGrants).2
    rw [hPublic, hPrivate, if_neg Bool.false_ne_true, if_pos rfl]
      at hAsked
    refine ⟨hAsked.1, hAsked.2, fun hNe => ?_⟩
    have hParts := ClassName.sameNest_iff.1 hAsked.2
    exact
      ClassName.shareTop_iff.2
        (Or.inr ⟨hParts.2.1, hParts.2.2, hNe⟩)

/- A private member is granted to a class nested in its own. -/
theorem nests_share_tops_neighbours :
    ClassName.IsRegular ⟨"a.Base"⟩ ∧
      ClassName.IsRegular ⟨"a.Base$Inner"⟩ ∧
      Grants neighbours (full ⟨"a.Base$Inner"⟩)
        ⟨"a.Base"⟩ ⟨"a.Base"⟩ ⟨2⟩ ∧
      ClassName.ShareTop ⟨"a.Base"⟩ ⟨"a.Base$Inner"⟩ ∧
      ClassName.SameNest ⟨"a.Base"⟩ ⟨"a.Base$Inner"⟩ ∧
      ClassName.SamePackage ⟨"a.Base"⟩ ⟨"a.Base$Inner"⟩ := by
  have hOuter : ClassName.IsRegular ⟨"a.Base"⟩ :=
    ⟨by decide +kernel, fun _ => by decide +kernel⟩
  have hInner : ClassName.IsRegular ⟨"a.Base$Inner"⟩ :=
    ⟨by decide +kernel, fun _ => by decide +kernel⟩
  have hGrants :
      Grants neighbours (full ⟨"a.Base$Inner"⟩)
        ⟨"a.Base"⟩ ⟨"a.Base"⟩ ⟨2⟩ := by
    decide +kernel
  have hTop : ClassName.ShareTop ⟨"a.Base"⟩ ⟨"a.Base$Inner"⟩ := by
    rw [ClassName.shareTop_iff]
    decide +kernel
  rcases nests_share_tops ⟨"a.Base"⟩ ⟨"a.Base$Inner"⟩ with
    ⟨-, hRegular, hPackage, hPrivate⟩
  rcases hPrivate neighbours (full ⟨"a.Base$Inner"⟩) _ _ rfl
      (by decide) (by decide) hGrants with
    ⟨-, hNest, hShare⟩
  exact
    ⟨hOuter, hInner, hGrants, hShare hOuter.1,
      (hRegular hOuter hInner).2 hTop, hPackage hNest⟩

/-
  Two classes whose names begin with a dollar sign share no
  top-level class, but a private member of the one is granted
  to the other.  A leading dot takes a class out of the nest
  that it shares.
-/
theorem nests_apart_from_tops :
    ClassName.SameNest ⟨"$Proxy0"⟩ ⟨"$Proxy1"⟩ ∧
      ¬ClassName.ShareTop ⟨"$Proxy0"⟩ ⟨"$Proxy1"⟩ ∧
      Grants ⟨[]⟩ (full ⟨"$Proxy0"⟩)
        ⟨"$Proxy1"⟩ ⟨"$Proxy1"⟩ ⟨2⟩ ∧
      ClassName.ShareTop ⟨".Top"⟩ ⟨"Top"⟩ ∧
      ¬ClassName.SameNest ⟨".Top"⟩ ⟨"Top"⟩ := by
  refine
    ⟨by decide +kernel, ?_, by decide +kernel, ?_,
      by decide +kernel⟩
  · rw [ClassName.shareTop_iff]
    decide +kernel
  · rw [ClassName.shareTop_iff]
    decide +kernel

end Lookup

end Linkage
