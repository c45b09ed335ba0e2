import Linkage.ClassTable.WellKnown
import Mathlib.Logic.Relation

/-
  The subclass relation is what can be reached by steps to
  direct supertypes.  It is transitive in every table in
  which the classes that every array belongs to have no
  supertype but `Object`; then so is assignability.

  Key definitions include:
    * `ClassTable.Reaches`
    * `ClassTable.Followed`
    * `ClassTable.PlainRoots`
    * `ClassTable.Transitive`

  Key theorems include:
    * `ClassTable.search_eq_true_iff`
    * `ClassTable.isSubclass_eq_true_iff`
    * `ClassTable.isSubclass_trans`
    * `ClassTable.isAssignable_trans`
-/

------------------------------------------------------------
-- Reachable Supertypes
------------------------------------------------------------

namespace Linkage

namespace ClassTable

/- Steps to direct supertypes lead from a class to another. -/
def Reaches
    (T : ClassTable) : ClassName → ClassName → Prop :=
  Relation.ReflTransGen T.Edge

variable {T : ClassTable}
variable {a b c goal : ClassName}
variable {seen queue : List ClassName}

/- What the search finds is reached from the queue. -/
theorem reaches_of_search
    (hSearch : T.search goal seen queue = true) :
    ∃ n ∈ queue, T.Reaches n goal := by
  induction seen, queue using ClassTable.search.induct T goal with
  | case1 seen =>
      unfold search at hSearch
      cases hSearch
  | case2 seen n rest hSeen ih =>
      unfold search at hSearch
      rw [if_pos hSeen] at hSearch
      rcases ih hSearch with ⟨m, hMem, hReaches⟩
      exact ⟨m, List.mem_cons_of_mem n hMem, hReaches⟩
  | case3 seen rest hSeen =>
      exact ⟨goal, List.mem_cons_self, .refl⟩
  | case4 seen n rest hSeen hGoal ih =>
      unfold search at hSearch
      rw [if_neg hSeen, if_neg hGoal] at hSearch
      rcases ih hSearch with ⟨m, hMem, hReaches⟩
      rcases List.mem_append.1 hMem with hRest | hParent
      · exact ⟨m, List.mem_cons_of_mem n hRest, hReaches⟩
      · exact ⟨n, List.mem_cons_self, .head hParent hReaches⟩

/- What the walk lists is reached from the queue, or was listed. -/
theorem reaches_of_mem_walk
    (hMem : goal ∈ T.walk seen queue) :
    goal ∈ seen ∨ ∃ n ∈ queue, T.Reaches n goal := by
  induction seen, queue using ClassTable.walk.induct T with
  | case1 seen =>
      unfold walk at hMem
      exact Or.inl (List.mem_reverse.1 hMem)
  | case2 seen n rest hSeen ih =>
      unfold walk at hMem
      rw [if_pos hSeen] at hMem
      rcases ih hMem with hOld | ⟨m, hm, hReaches⟩
      · exact Or.inl hOld
      · exact Or.inr ⟨m, List.mem_cons_of_mem n hm, hReaches⟩
  | case3 seen n rest hSeen ih =>
      unfold walk at hMem
      rw [if_neg hSeen] at hMem
      rcases ih hMem with hOld | ⟨m, hm, hReaches⟩
      · rcases List.mem_cons.1 hOld with rfl | hOld
        · exact Or.inr ⟨goal, List.mem_cons_self, .refl⟩
        · exact Or.inl hOld
      · rcases List.mem_append.1 hm with hRest | hParent
        · exact Or.inr ⟨m, List.mem_cons_of_mem n hRest, hReaches⟩
        · exact
            Or.inr ⟨n, List.mem_cons_self, .head hParent hReaches⟩

/- The direct supertypes of what is marked are marked or queued. -/
def Followed
    (T : ClassTable)
    (seen queue : List ClassName) : Prop :=
  ∀ n ∈ seen, ∀ m ∈ T.parents n, m ∈ seen ∨ m ∈ queue

/- A class that is marked already is passed over. -/
theorem Followed.skip
    {n : ClassName}
    {rest : List ClassName}
    (hFollowed : T.Followed seen (n :: rest))
    (hSeen : n ∈ seen) :
    T.Followed seen rest := by
  intro m hm p hp
  rcases hFollowed m hm p hp with hOld | hQueue
  · exact Or.inl hOld
  · rcases List.mem_cons.1 hQueue with rfl | hRest
    · exact Or.inl hSeen
    · exact Or.inr hRest

/- A class that is marked has its direct supertypes queued. -/
theorem Followed.visit
    {n : ClassName}
    {rest : List ClassName}
    (hFollowed : T.Followed seen (n :: rest)) :
    T.Followed (n :: seen) (rest ++ T.parents n) := by
  intro m hm p hp
  rcases List.mem_cons.1 hm with rfl | hOld
  · exact Or.inr (List.mem_append_right rest hp)
  · rcases hFollowed m hOld p hp with hSeen | hQueue
    · exact Or.inl (List.mem_cons_of_mem n hSeen)
    · rcases List.mem_cons.1 hQueue with rfl | hRest
      · exact Or.inl List.mem_cons_self
      · exact Or.inr (List.mem_append_left _ hRest)

/-
  A marked class is not the goal, and each of its direct
  supertypes is marked or in the queue.
-/
def Explored
    (T : ClassTable)
    (goal : ClassName)
    (seen queue : List ClassName) : Prop :=
  ∀ n ∈ seen,
    n ≠ goal ∧ ∀ m ∈ T.parents n, m ∈ seen ∨ m ∈ queue

theorem Explored.followed
    (hExplored : T.Explored goal seen queue) :
    T.Followed seen queue :=
  fun n hn => (hExplored n hn).2

theorem Explored.skip
    {n : ClassName}
    {rest : List ClassName}
    (hExplored : T.Explored goal seen (n :: rest))
    (hSeen : n ∈ seen) :
    T.Explored goal seen rest :=
  fun m hm =>
    ⟨(hExplored m hm).1, hExplored.followed.skip hSeen m hm⟩

/- The class that is marked was compared with the goal. -/
theorem Explored.visit
    {n : ClassName}
    {rest : List ClassName}
    (hExplored : T.Explored goal seen (n :: rest))
    (hGoal : n ≠ goal) :
    T.Explored goal (n :: seen) (rest ++ T.parents n) := by
  intro m hm
  refine ⟨?_, hExplored.followed.visit m hm⟩
  rcases List.mem_cons.1 hm with rfl | hOld
  · exact hGoal
  · exact (hExplored m hOld).1

/-
  The goal is found if it is reached from the queue.  When
  the queue is empty, no step leads out of the marked
  classes.
-/
theorem not_reaches_of_search
    (hExplored : T.Explored goal seen queue)
    (hSearch : T.search goal seen queue = false) :
    ∀ n, n ∈ seen ∨ n ∈ queue → ¬T.Reaches n goal := by
  induction seen, queue using ClassTable.search.induct T goal with
  | case1 seen =>
      intro n hMem hReaches
      induction hReaches using
        Relation.ReflTransGen.head_induction_on with
      | refl =>
          rcases hMem with hSeen | hQueue
          · exact (hExplored goal hSeen).1 rfl
          · cases hQueue
      | head hEdge _ ih =>
          rcases hMem with hSeen | hQueue
          · exact ih ((hExplored _ hSeen).2 _ hEdge)
          · cases hQueue
  | case2 seen n rest hSeen ih =>
      unfold search at hSearch
      rw [if_pos hSeen] at hSearch
      intro m hm
      apply ih (hExplored.skip hSeen) hSearch
      rcases hm with hSeen' | hQueue
      · exact Or.inl hSeen'
      · rcases List.mem_cons.1 hQueue with rfl | hRest
        · exact Or.inl hSeen
        · exact Or.inr hRest
  | case3 seen rest hSeen =>
      unfold search at hSearch
      rw [if_neg hSeen, if_pos rfl] at hSearch
      cases hSearch
  | case4 seen n rest hSeen hGoal ih =>
      unfold search at hSearch
      rw [if_neg hSeen, if_neg hGoal] at hSearch
      intro m hm
      apply ih (hExplored.visit hGoal) hSearch
      rcases hm with hSeen' | hQueue
      · exact Or.inl (List.mem_cons_of_mem n hSeen')
      · rcases List.mem_cons.1 hQueue with rfl | hRest
        · exact Or.inl List.mem_cons_self
        · exact Or.inr (List.mem_append_left _ hRest)

theorem search_eq_true_iff :
    T.search goal [] queue = true ↔
      ∃ n ∈ queue, T.Reaches n goal := by
  constructor
  · exact reaches_of_search
  · rintro ⟨n, hMem, hReaches⟩
    have hExplored : T.Explored goal [] queue := by
      intro m hm
      cases hm
    cases hSearch : T.search goal [] queue with
    | true => rfl
    | false =>
        have hNot :=
          not_reaches_of_search hExplored hSearch n (Or.inr hMem)
        exact absurd hReaches hNot

------------------------------------------------------------
-- Subclasses
------------------------------------------------------------

theorem isSubclass_eq_true_iff :
    T.isSubclass a b = true ↔ b = .object ∨ T.Reaches a b := by
  unfold isSubclass
  split
  · rename_i hCond
    refine ⟨fun _ => ?_, fun _ => rfl⟩
    rcases hCond with rfl | hObject
    · exact Or.inr .refl
    · exact Or.inl hObject
  · rename_i hCond
    rw [search_eq_true_iff]
    constructor
    · rintro ⟨n, hMem, hReaches⟩
      rw [List.mem_singleton.1 hMem] at hReaches
      exact Or.inr hReaches
    · intro hOr
      rcases hOr with hObject | hReaches
      · exact absurd (Or.inr hObject) hCond
      · exact ⟨a, List.mem_singleton.2 rfl, hReaches⟩

/-
  The classes that every array belongs to have no supertype
  but `Object`.
-/
def PlainRoots (T : ClassTable) : Prop :=
  ∀ n, isArraySupertype n = true →
    ∀ m ∈ T.parents n, m = .object

/- What is above such a class is one of them. -/
theorem PlainRoots.isArraySupertype_of_reaches
    (hRoots : T.PlainRoots)
    (ha : isArraySupertype a = true)
    (hReaches : T.Reaches a b) :
    isArraySupertype b = true := by
  induction hReaches with
  | refl => exact ha
  | tail _ hEdge ih =>
      rw [hRoots _ ih _ hEdge]
      rfl

/- Nothing is above `Object` but itself. -/
theorem PlainRoots.eq_object_of_reaches
    (hRoots : T.PlainRoots)
    (hReaches : T.Reaches .object b) :
    b = .object := by
  induction hReaches with
  | refl => rfl
  | tail _ hEdge ih =>
      subst ih
      exact hRoots .object rfl _ hEdge

/- The classes above a class are what it is a subclass of. -/
theorem isSubclass_of_mem_supertypes
    (hMem : b ∈ T.supertypes a) :
    T.isSubclass a b = true := by
  rcases reaches_of_mem_walk hMem with hNone | ⟨n, hn, hReaches⟩
  · cases hNone
  · rw [List.mem_singleton.1 hn] at hReaches
    exact isSubclass_eq_true_iff.2 (Or.inr hReaches)

theorem isSubclass_trans
    (hRoots : T.PlainRoots)
    (hab : T.isSubclass a b = true)
    (hbc : T.isSubclass b c = true) :
    T.isSubclass a c = true := by
  rw [isSubclass_eq_true_iff] at hab hbc ⊢
  rcases hbc with hObject | hbc
  · exact Or.inl hObject
  · rcases hab with rfl | hab
    · exact Or.inl (hRoots.eq_object_of_reaches hbc)
    · exact Or.inr (Relation.ReflTransGen.trans hab hbc)

theorem isArraySupertype_of_isSubclass
    (hRoots : T.PlainRoots)
    (ha : isArraySupertype a = true)
    (hab : T.isSubclass a b = true) :
    isArraySupertype b = true := by
  rcases isSubclass_eq_true_iff.1 hab with rfl | hReaches
  · rfl
  · exact hRoots.isArraySupertype_of_reaches ha hReaches

------------------------------------------------------------
-- Assignable Types
------------------------------------------------------------

/- What is assignable to an array is an array. -/
theorem eq_array_of_isAssignable
    {s p : Ty}
    (hAssign : T.isAssignable s (.array p) = true) :
    ∃ q, s = .array q ∧
      (q = p ∨
        q.IsRef = true ∧ p.IsRef = true ∧
          T.isAssignable q p = true) := by
  cases s with
  | prim k =>
      unfold isAssignable at hAssign
      cases hAssign
  | cls n =>
      unfold isAssignable at hAssign
      cases hAssign
  | array q =>
      unfold isAssignable at hAssign
      simp only [Bool.or_eq_true, Bool.and_eq_true,
        decide_eq_true_eq] at hAssign
      refine ⟨q, rfl, ?_⟩
      rcases hAssign with hEq | ⟨⟨hq, hp⟩, hInner⟩
      · exact Or.inl hEq
      · exact Or.inr ⟨hq, hp, hInner⟩

/- Elements of an array are values of the wider component. -/
theorem isAssignable_component
    {p q : Ty}
    (hAssign : T.isAssignable (.array q) (.array p) = true) :
    T.isAssignable q p = true := by
  rcases eq_array_of_isAssignable hAssign with ⟨r, hEq, hOr⟩
  cases hEq
  rcases hOr with rfl | ⟨_, _, hInner⟩
  · exact isAssignable_refl T q
  · exact hInner

/- What a reference is assignable to is a reference type. -/
theorem isRef_of_isAssignable
    {s t : Ty}
    (hAssign : T.isAssignable s t = true)
    (hs : s.IsRef = true) :
    t.IsRef = true := by
  cases t with
  | cls n => rfl
  | array p => rfl
  | prim k =>
      cases s with
      | prim l => cases hs
      | cls n => cases hAssign
      | array p => cases hAssign

theorem isAssignable_trans
    {s t u : Ty}
    (hRoots : T.PlainRoots)
    (hst : T.isAssignable s t = true)
    (htu : T.isAssignable t u = true) :
    T.isAssignable s u = true := by
  induction s generalizing t u with
  | prim k =>
      cases t with
      | prim l =>
          unfold isAssignable at hst
          rw [of_decide_eq_true hst]
          exact htu
      | cls n => cases hst
      | array p => cases hst
  | cls n =>
      cases t with
      | prim l => cases hst
      | array p => cases hst
      | cls m =>
          cases u with
          | prim l => cases htu
          | array p => cases htu
          | cls o => exact isSubclass_trans hRoots hst htu
  | array p ih =>
      cases t with
      | prim l => cases hst
      | cls m =>
          cases u with
          | prim l => cases htu
          | array q => cases htu
          | cls o =>
              exact isArraySupertype_of_isSubclass hRoots hst htu
      | array q =>
          cases u with
          | prim l => cases htu
          | cls o => exact htu
          | array r =>
              rcases eq_array_of_isAssignable hst with
                ⟨p', hp', hInner⟩
              rcases eq_array_of_isAssignable htu with
                ⟨q', hq', hOuter⟩
              cases hp'
              cases hq'
              unfold isAssignable
              simp only [Bool.or_eq_true, Bool.and_eq_true,
                decide_eq_true_eq]
              rcases hInner with rfl | ⟨hp, _, hpq⟩
              · rcases hOuter with rfl | ⟨hp, hr, hpr⟩
                · exact Or.inl rfl
                · exact Or.inr ⟨⟨hp, hr⟩, hpr⟩
              · rcases hOuter with rfl | ⟨_, hr, hqr⟩
                · exact Or.inr ⟨⟨hp, by assumption⟩, hpq⟩
                · exact Or.inr ⟨⟨hp, hr⟩, ih hpq hqr⟩

/- What is assignable in two steps is assignable in one. -/
def Transitive (T : ClassTable) : Prop :=
  ∀ s t u,
    T.isAssignable s t = true →
      T.isAssignable t u = true → T.isAssignable s u = true

theorem PlainRoots.transitive
    (hRoots : T.PlainRoots) :
    T.Transitive :=
  fun _ _ _ => isAssignable_trans hRoots

theorem plainRoots_wellKnown : wellKnown.PlainRoots := by
  intro n hn m hm
  simp only [isArraySupertype, decide_eq_true_eq] at hn
  rcases hn with rfl | rfl | rfl
  all_goals
    have hNone : m ∈ ([] : List ClassName) := hm
    cases hNone

end ClassTable

end Linkage
