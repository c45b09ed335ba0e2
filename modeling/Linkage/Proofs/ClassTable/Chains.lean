import Linkage.World
import Mathlib.Logic.Relation

/-
  Chains of superclasses.  A class has at most one chain, and
  the chain of a class on it is the rest of the chain from
  there on, so that no class is on a chain twice.  Only a
  class that is its own superclass, in some steps, has none.

  Key definitions include:
    * `ClassTable.superclass?`
    * `ClassTable.Extends`
    * `ClassTable.IsBelow`
    * `ClassTable.Descends`
    * `ClassTable.Acyclic`
    * `ClassTable.Knotted`
    * `ClassTable.Chain`

  Key theorems include:
    * `ClassTable.Chain.split`
    * `ClassTable.Chain.nodup`
    * `ClassTable.Chain.mem_iff`
    * `ClassTable.chain_of_superclasses?`
    * `ClassTable.Acyclic.exists_superclasses`
    * `ClassTable.Acyclic.exists_chain`
    * `ClassTable.acyclic_of_rank`
-/

------------------------------------------------------------
-- Superclasses
------------------------------------------------------------

namespace Linkage

namespace ClassTable

variable {T : ClassTable}
variable {n m : ClassName}
variable {ns ms : List ClassName}

/- The superclass that a class is known with, if any. -/
def superclass?
    (T : ClassTable)
    (n : ClassName) : Option ClassName :=
  (T.find? n).bind ClassInfo.superclass

/- The one class is the superclass of the other. -/
def Extends
    (T : ClassTable)
    (n m : ClassName) : Prop :=
  T.superclass? n = some m

/- A superclass is come to in one step or more. -/
def IsBelow (T : ClassTable) : ClassName → ClassName → Prop :=
  Relation.TransGen T.Extends

/- A class is another one, or below it. -/
def Descends (T : ClassTable) : ClassName → ClassName → Prop :=
  Relation.ReflTransGen T.Extends

/- No class is a superclass of itself, however far above. -/
def Acyclic (T : ClassTable) : Prop :=
  ∀ n, ¬T.IsBelow n n

/- A class from which one that is above itself is come to. -/
def Knotted
    (T : ClassTable)
    (n : ClassName) : Prop :=
  ∃ m, T.Descends n m ∧ T.IsBelow m m

/- Without a knot anywhere there is none above a class. -/
theorem Acyclic.not_knotted
    (hAcyclic : T.Acyclic)
    (n : ClassName) :
    ¬T.Knotted n := by
  rintro ⟨m, -, hBelow⟩
  exact hAcyclic m hBelow

------------------------------------------------------------
-- Chains
------------------------------------------------------------

/- A class and its superclasses, up to one that has none. -/
inductive Chain (T : ClassTable) :
    ClassName → List ClassName → Prop
| last
    {n : ClassName}
    (hLast : T.superclass? n = none) :
    Chain T n [n]
| step
    {n m : ClassName}
    {ms : List ClassName}
    (hExtends : T.Extends n m)
    (hRest : Chain T m ms) :
    Chain T n (n :: ms)

namespace Chain

theorem head
    (hChain : T.Chain n ns) :
    ∃ rest, ns = n :: rest := by
  cases hChain with
  | last _ => exact ⟨_, rfl⟩
  | step _ _ => exact ⟨_, rfl⟩

/- After a class comes the chain of its superclass. -/
theorem tail
    (hChain : T.Chain n ns)
    (hExtends : T.Extends n m) :
    ∃ ms, ns = n :: ms ∧ T.Chain m ms := by
  unfold Extends at hExtends
  cases hChain with
  | last hLast =>
      rw [hLast] at hExtends
      cases hExtends
  | step hExtends' hRest =>
      unfold Extends at hExtends'
      rw [hExtends] at hExtends'
      cases hExtends'
      exact ⟨_, rfl, hRest⟩

/- A class has one superclass at most, and so one chain. -/
theorem unique
    (hChain : T.Chain n ns)
    (hOther : T.Chain n ms) :
    ms = ns := by
  induction hChain generalizing ms with
  | last hLast =>
      cases hOther with
      | last _ => rfl
      | step hExtends _ =>
          unfold Extends at hExtends
          rw [hLast] at hExtends
          cases hExtends
  | step hExtends _ ih =>
      rcases hOther.tail hExtends with ⟨rest, rfl, hRest⟩
      rw [ih hRest]

/-
  From a class on a chain, the rest of it is the chain of
  that class.  The classes before it are below it.
-/
theorem split
    (hChain : T.Chain n ns)
    (hMem : m ∈ ns) :
    ∃ before after,
      ns = before ++ after ∧ T.Chain m after ∧
        ∀ k ∈ before, T.IsBelow k m := by
  induction hChain with
  | last hLast =>
      cases List.mem_singleton.1 hMem
      exact ⟨[], _, rfl, .last hLast, List.forall_mem_nil _⟩
  | @step n p ps hExtends hRest ih =>
      rcases List.mem_cons.1 hMem with rfl | hLater
      · exact
          ⟨[], _, rfl, .step hExtends hRest,
            List.forall_mem_nil _⟩
      · rcases ih hLater with
          ⟨before, after, rfl, hAfter, hBefore⟩
        refine ⟨n :: before, after, rfl, hAfter, ?_⟩
        rw [List.forall_mem_cons]
        refine ⟨?_, hBefore⟩
        -- The next class is the one we look for, or below it.
        rcases before with _ | ⟨k, rest⟩
        · rcases hAfter.head with ⟨_, rfl⟩
          rcases hRest.head with ⟨_, hHead⟩
          cases hHead
          exact .single hExtends
        · rcases hRest.head with ⟨_, hHead⟩
          cases hHead
          exact .head hExtends (hBefore _ List.mem_cons_self)

/- A class that came again would have two chains. -/
theorem nodup
    (hChain : T.Chain n ns) :
    ns.Nodup := by
  induction hChain with
  | last _ => simp
  | @step n p ps hExtends hRest ih =>
      rw [List.nodup_cons]
      refine ⟨fun hMem => ?_, ih⟩
      rcases hRest.split hMem with
        ⟨before, after, rfl, hAfter, -⟩
      have hSame := hAfter.unique (.step hExtends hRest)
      have hLength := congrArg List.length hSame
      simp at hLength
      omega

/- The classes on a chain are those above its first. -/
theorem mem_iff
    (hChain : T.Chain n ns) :
    m ∈ ns ↔ T.Descends n m := by
  constructor
  · intro hMem
    rcases hChain.split hMem with
      ⟨before, after, rfl, hAfter, hBefore⟩
    rcases hChain.head with ⟨_, hHead⟩
    cases before with
    | nil =>
        rcases hAfter.head with ⟨_, rfl⟩
        cases hHead
        exact .refl
    | cons k before =>
        cases hHead
        exact (hBefore _ List.mem_cons_self).to_reflTransGen
  · intro hDescends
    induction hDescends using
      Relation.ReflTransGen.head_induction_on generalizing ns with
    | refl =>
        rcases hChain.head with ⟨_, rfl⟩
        exact List.mem_cons_self
    | head hExtends _ ih =>
        rcases hChain.tail hExtends with ⟨rest, rfl, hRest⟩
        exact List.mem_cons_of_mem _ (ih hRest)

end Chain

------------------------------------------------------------
-- Walks to the Last Superclass
------------------------------------------------------------

/- A walk goes from a class to its superclass, if that is new. -/
theorem superclassesFrom?_eq
    {seen : List ClassName}
    (hNew : n ∉ seen) :
    T.superclassesFrom? seen n =
      match T.superclass? n with
      | none => some [n]
      | some m =>
          (T.superclassesFrom? (n :: seen) m).map (n :: ·) := by
  rw [superclassesFrom?, dif_neg hNew]
  unfold superclass?
  split
  · rename_i hFind
    simp [hFind]
  · rename_i c hFind
    cases hSuper : c.superclass with
    | none => simp [hFind, hSuper]
    | some m => simp [hFind, hSuper]

/- What a walk gives is a chain. -/
theorem chain_of_superclassesFrom?
    {seen ns : List ClassName}
    {n : ClassName}
    (hSome : T.superclassesFrom? seen n = some ns) :
    T.Chain n ns := by
  have hNew : n ∉ seen := by
    intro hMem
    rw [superclassesFrom?, dif_pos hMem] at hSome
    cases hSome
  rw [superclassesFrom?_eq hNew] at hSome
  cases hSuper : T.superclass? n with
  | none =>
      rw [hSuper] at hSome
      cases hSome
      exact .last hSuper
  | some m =>
      rw [hSuper] at hSome
      rcases Option.map_eq_some_iff.1 hSome with
        ⟨ms, hRest, rfl⟩
      exact .step hSuper (chain_of_superclassesFrom? hRest)
termination_by ns.length

/-
  A walk ends if no class that was met on the way to a class
  is above that class again.
-/
theorem exists_superclassesFrom
    {seen : List ClassName}
    {n : ClassName}
    (hFree : ¬T.Knotted n)
    (hSeen : ∀ k ∈ seen, T.IsBelow k n) :
    ∃ ns, T.superclassesFrom? seen n = some ns := by
  have hNew : n ∉ seen :=
    fun hMem => hFree ⟨n, .refl, hSeen n hMem⟩
  rw [superclassesFrom?_eq hNew]
  cases hSuper : T.superclass? n with
  | none => exact ⟨_, rfl⟩
  | some m =>
      have hLater : ∀ k ∈ n :: seen, T.IsBelow k m := by
        rw [List.forall_mem_cons]
        exact
          ⟨.single hSuper, fun k hk => (hSeen k hk).tail hSuper⟩
      have hAbove : ¬T.Knotted m := by
        rintro ⟨k, hDescends, hBelow⟩
        exact hFree ⟨k, .head hSuper hDescends, hBelow⟩
      rcases exists_superclassesFrom hAbove hLater with
        ⟨ms, hRest⟩
      exact ⟨n :: ms, congrArg (Option.map (n :: ·)) hRest⟩
termination_by (T.unvisited seen).length
decreasing_by
  refine T.unvisited_cons_lt n seen ?_ hNew
  intro hFind
  unfold superclass? at hSuper
  rw [hFind] at hSuper
  cases hSuper

theorem chain_of_superclasses?
    (hSome : T.superclasses? n = some ns) :
    T.Chain n ns :=
  chain_of_superclassesFrom? hSome

theorem Acyclic.exists_superclasses
    (hAcyclic : T.Acyclic)
    (n : ClassName) :
    ∃ ns, T.superclasses? n = some ns :=
  exists_superclassesFrom (hAcyclic.not_knotted n)
    (List.forall_mem_nil _)

/- In such a table a walk gives the one chain of a class. -/
theorem Acyclic.superclasses?_eq
    (hAcyclic : T.Acyclic)
    (hChain : T.Chain n ns) :
    T.superclasses? n = some ns := by
  rcases hAcyclic.exists_superclasses n with ⟨ms, hWalk⟩
  rw [hWalk, hChain.unique (chain_of_superclasses? hWalk)]

theorem Acyclic.exists_chain
    (hAcyclic : T.Acyclic)
    (n : ClassName) :
    ∃ ns, T.Chain n ns := by
  rcases hAcyclic.exists_superclasses n with ⟨ns, hWalk⟩
  exact ⟨ns, chain_of_superclasses? hWalk⟩

------------------------------------------------------------
-- Ranks
------------------------------------------------------------

/- Classes may be numbered so that superclasses come first. -/
theorem IsBelow.rank_lt
    {rank : ClassName → Nat}
    (hRank :
      ∀ c ∈ T.classes, ∀ m ∈ c.superclass, rank m < rank c.name)
    (hBelow : T.IsBelow n m) :
    rank m < rank n := by
  have hStep (a b : ClassName) (hExtends : T.Extends a b) :
      rank b < rank a := by
    rcases Option.bind_eq_some_iff.1 hExtends with
      ⟨c, hFind, hSuper⟩
    have hName : c.name = a := by
      simpa using List.find?_some hFind
    rw [← hName]
    exact hRank c (List.mem_of_find?_eq_some hFind) b hSuper
  induction hBelow with
  | single hExtends => exact hStep _ _ hExtends
  | tail _ hExtends ih => exact Nat.lt_trans (hStep _ _ hExtends) ih

theorem acyclic_of_rank
    {rank : ClassName → Nat}
    (hRank :
      ∀ c ∈ T.classes, ∀ m ∈ c.superclass, rank m < rank c.name) :
    T.Acyclic :=
  fun n hBelow => Nat.lt_irrefl (rank n) (hBelow.rank_lt hRank)

end ClassTable

end Linkage
