import Linkage.ClassTable.WellKnown
import Linkage.Proofs.ClassTable.Chains
import Linkage.Proofs.Keeps
import Mathlib.Data.List.Nodup
import Mathlib.Data.List.Perm.Subperm

/-
  Classes whose layout cannot be told.  The walk to the last
  superclass of a class does not remember where it has been,
  so it ends if it ends soon, and never if it comes to a class
  that is above itself.  Then no field of such a class can be
  declared, and no instance made.  A class that is added to a
  table without knots ties one exactly if its superclass is
  below it.

  Key definitions include:
    * `ClassTable.superclassesWithin`

  Key theorems include:
    * `ClassTable.superclassesWithin_eq_some_iff`
    * `ClassTable.superclasses?_eq_some_iff`
    * `ClassTable.superclasses?_eq_none_iff`
    * `ClassTable.Chain.length_le`
    * `ClassTable.Acyclic.add_iff`
    * `World.layouts_end_unless_knotted`
-/

------------------------------------------------------------
-- Rounds of the Walk
------------------------------------------------------------

namespace Linkage

namespace ClassTable

variable {T : ClassTable}
variable {n m : ClassName}
variable {ns ms : List ClassName}
variable {k : Nat}
variable {c : ClassInfo}

/-
  The walk from a class to its last superclass, given up after
  a number of rounds.  The classes that were passed are kept
  for the answer, and are not asked for on the way.
-/
def superclassesWithin
    (T : ClassTable) :
    Nat → List ClassName → Option ClassName →
      Option (List ClassName)
| _, passed, none => some passed
| 0, _, some _ => none
| k + 1, passed, some n =>
    T.superclassesWithin k (passed ++ [n]) (T.superclass? n)

/- A round passes one class of the chain. -/
theorem superclassesWithin_eq_some_iff
    {passed : List ClassName} :
    T.superclassesWithin k passed (some n) = some ms ↔
      ∃ ns, T.Chain n ns ∧ ns.length ≤ k ∧ ms = passed ++ ns := by
  induction k generalizing passed n with
  | zero =>
      constructor
      · intro hSome
        cases hSome
      · rintro ⟨ns, hChain, hLength, -⟩
        rcases hChain.head with ⟨rest, rfl⟩
        cases hLength
  | succ k ih =>
      unfold superclassesWithin
      cases hSuper : T.superclass? n with
      | none =>
          constructor
          · intro hSome
            unfold superclassesWithin at hSome
            cases hSome
            exact ⟨[n], .last hSuper, Nat.le_add_left 1 k, rfl⟩
          · rintro ⟨ns, hChain, -, rfl⟩
            unfold superclassesWithin
            rw [hChain.unique (.last hSuper)]
      | some m =>
          rw [ih]
          constructor
          · rintro ⟨ns, hChain, hLength, rfl⟩
            refine
              ⟨n :: ns, .step hSuper hChain,
                Nat.succ_le_succ hLength, ?_⟩
            rw [List.append_assoc]
            rfl
          · rintro ⟨ns, hChain, hLength, rfl⟩
            rcases hChain.tail hSuper with ⟨rest, rfl, hRest⟩
            refine
              ⟨rest, hRest, Nat.le_of_succ_le_succ hLength, ?_⟩
            rw [List.append_assoc]
            rfl

------------------------------------------------------------
-- Chains and Knots
------------------------------------------------------------

/- No class on a chain is above itself. -/
theorem Chain.not_knotted
    (hChain : T.Chain n ns) :
    ¬T.Knotted n := by
  rintro ⟨m, hDescends, hBelow⟩
  rcases hChain.split (hChain.mem_iff.2 hDescends) with
    ⟨before, after, -, hOwn, -⟩
  rcases Relation.TransGen.head'_iff.1 hBelow with
    ⟨p, hExtends, hBack⟩
  rcases hOwn.tail hExtends with ⟨rest, rfl, hRest⟩
  exact
    (List.nodup_cons.1 hOwn.nodup).1 (hRest.mem_iff.2 hBack)

/- A walk to the end finds the chain, if there is one. -/
theorem superclasses?_eq_some_iff :
    T.superclasses? n = some ns ↔ T.Chain n ns := by
  constructor
  · exact chain_of_superclasses?
  · intro hChain
    rcases
      exists_superclassesFrom hChain.not_knotted
        (List.forall_mem_nil _)
      with ⟨ms, hWalk⟩
    rw [← hChain.unique (chain_of_superclasses? hWalk)]
    exact hWalk

theorem superclasses?_eq_none_iff :
    T.superclasses? n = none ↔ T.Knotted n := by
  constructor
  · intro hNone
    by_contra hFree
    rcases
      exists_superclassesFrom hFree (List.forall_mem_nil _)
      with ⟨ns, hWalk⟩
    unfold superclasses? at hNone
    rw [hNone] at hWalk
    cases hWalk
  · intro hKnotted
    cases hWalk : T.superclasses? n with
    | none => rfl
    | some ns =>
        have hChain := superclasses?_eq_some_iff.1 hWalk
        exact absurd hKnotted hChain.not_knotted

theorem exists_chain_iff : (∃ ns, T.Chain n ns) ↔ ¬T.Knotted n := by
  rw [← superclasses?_eq_none_iff, ← Ne, Option.ne_none_iff_exists']
  simp only [superclasses?_eq_some_iff]

/- All classes of a chain but the last one are known. -/
theorem Chain.mem_dropLast
    (hChain : T.Chain n ns)
    (hMem : m ∈ ns.dropLast) :
    m ∈ T.classes.map ClassInfo.name := by
  induction hChain with
  | last _ => cases hMem
  | @step n p ps hExtends hRest ih =>
      rcases hRest.head with ⟨rest, rfl⟩
      rw [List.dropLast_cons_cons] at hMem
      rcases List.mem_cons.1 hMem with rfl | hLater
      · rcases Option.bind_eq_some_iff.1 hExtends with
          ⟨c, hFind, -⟩
        have hName : c.name = m := by
          simpa using List.find?_some hFind
        rw [← hName]
        exact List.mem_map_of_mem (List.mem_of_find?_eq_some hFind)
      · exact ih hLater

/- A chain has no more classes than the table, and one. -/
theorem Chain.length_le
    (hChain : T.Chain n ns) :
    ns.length ≤ T.size + 1 := by
  have hNodup : ns.dropLast.Nodup :=
    hChain.nodup.sublist (List.dropLast_sublist ns)
  have hKnown :=
    (hNodup.subperm (fun _ => hChain.mem_dropLast)).length_le
  rw [List.length_dropLast, List.length_map] at hKnown
  unfold size
  omega

------------------------------------------------------------
-- Adding Classes
------------------------------------------------------------

theorem superclass?_add_self
    (T : ClassTable)
    (c : ClassInfo) :
    (T.add c).superclass? c.name = c.superclass := by
  unfold superclass?
  rw [find?_add_self]
  rfl

theorem superclass?_add_ne
    (T : ClassTable)
    (hOther : n ≠ c.name) :
    (T.add c).superclass? n = T.superclass? n := by
  unfold superclass?
  rw [find?_add_ne T c n hOther]

/- The way up to a class that is added stays as it was. -/
theorem Descends.add
    (hDescends : T.Descends n c.name) :
    (T.add c).Descends n c.name := by
  induction hDescends using
    Relation.ReflTransGen.head_induction_on with
  | refl => exact .refl
  | @head a b hExtends _ ih =>
      by_cases hSame : a = c.name
      · rw [hSame]
        exact .refl
      · refine .head ?_ ih
        unfold Extends
        rw [superclass?_add_ne T hSame]
        exact hExtends

/- A chain that the class is not on stays as it was. -/
theorem Chain.add
    (hChain : T.Chain n ns)
    (hOut : c.name ∉ ns) :
    (T.add c).Chain n ns := by
  induction hChain with
  | @last n hLast =>
      rw [List.mem_singleton] at hOut
      apply Chain.last
      rw [superclass?_add_ne T (Ne.symm hOut)]
      exact hLast
  | @step n m ms hExtends hRest ih =>
      rw [List.mem_cons, not_or] at hOut
      refine .step ?_ (ih hOut.2)
      unfold Extends
      rw [superclass?_add_ne T (Ne.symm hOut.1)]
      exact hExtends

/-
  A class ties a knot in a table that has none exactly if its
  superclass is the class, or below it.
-/
theorem Acyclic.add_iff
    (hAcyclic : T.Acyclic)
    (c : ClassInfo) :
    (T.add c).Acyclic ↔
      ∀ m ∈ c.superclass, ¬T.Descends m c.name := by
  constructor
  · intro hAfter m hm hDescends
    have hExtends : (T.add c).Extends c.name m := by
      unfold Extends
      rw [superclass?_add_self]
      exact hm
    exact hAfter c.name (.head' hExtends hDescends.add)
  · intro hFree
    have hOwn : ∃ ns, (T.add c).Chain c.name ns := by
      have hSuper := superclass?_add_self T c
      cases hParent : c.superclass with
      | none =>
          rw [hParent] at hSuper
          exact ⟨_, .last hSuper⟩
      | some m =>
          rw [hParent] at hSuper
          rcases hAcyclic.exists_chain m with ⟨ms, hChain⟩
          have hOut : c.name ∉ ms := by
            rw [hChain.mem_iff]
            exact hFree m hParent
          exact ⟨_, .step hSuper (hChain.add hOut)⟩
    have hAll (n : ClassName) : ∃ ns, (T.add c).Chain n ns := by
      rcases hAcyclic.exists_chain n with ⟨ns, hChain⟩
      induction hChain with
      | @last n hLast =>
          by_cases hSame : n = c.name
          · rw [hSame]
            exact hOwn
          · rw [← superclass?_add_ne T hSame] at hLast
            exact ⟨_, .last hLast⟩
      | @step n m ms hExtends _ ih =>
          by_cases hSame : n = c.name
          · rw [hSame]
            exact hOwn
          · rcases ih with ⟨ns, hChain⟩
            unfold Extends at hExtends
            rw [← superclass?_add_ne T hSame] at hExtends
            exact ⟨_, .step hExtends hChain⟩
    intro n hBelow
    exact exists_chain_iff.1 (hAll n) ⟨n, .refl, hBelow⟩

/- Nowhere is there a knot if no class is above itself. -/
theorem acyclic_iff : T.Acyclic ↔ ∀ n, ¬T.Knotted n := by
  constructor
  · exact Acyclic.not_knotted
  · intro hFree n hBelow
    exact hFree n ⟨n, .refl, hBelow⟩

end ClassTable

------------------------------------------------------------
-- Layouts
------------------------------------------------------------

namespace World

variable {w : World}
variable {n : ClassName}
variable {ns : List ClassName}
variable {rt : Runtime}

theorem layout?_of_chain
    (hChain : w.classes.Chain n ns) :
    w.layout? n =
      some (ns.reverse.flatMap (entryOf · w.layouts)) := by
  unfold layout?
  rw [ClassTable.superclasses?_eq_some_iff.2 hChain]
  rfl

theorem layout?_eq_none_iff :
    w.layout? n = none ↔ w.classes.Knotted n := by
  unfold layout?
  rw [Option.map_eq_none_iff, ClassTable.superclasses?_eq_none_iff]

/-
  What asks for the layout of a class comes to an end: to
  declare a field, to make an instance, and to construct one.
-/
structure LaysOut
    (w : World)
    (n : ClassName) : Prop where
  declares :
    ∀ (name : String) (t : Ty) (flags : Flags),
      ∃ w', w.addField n name t flags = some w'
  allocates :
    ∀ h, ∃ o h',
      w.allocate n h = some (.ok o, h') ∧ o.shape = .plain n
  constructs :
    ∀ (rt : Runtime) (s : State),
      rt.host = w.host → ∃ o s', Run.allocate rt n s = .ok o s'

/-
  Nothing that asks for the layout of a class comes to an
  end, and a constructor is not called.
-/
structure Hangs
    (w : World)
    (n : ClassName) : Prop where
  declares :
    ∀ (name : String) (t : Ty) (flags : Flags),
      flags.has .isStatic = false → w.addField n name t flags = none
  allocates : ∀ h, w.allocate n h = none
  constructs :
    ∀ (rt : Runtime) (m : Method) (entry : Code)
      (args : List Value) (s : State),
      rt.host = w.host → m.declaring = n →
        runDirect rt m .isConstructor entry args s =
          .error .unfinished (s.log (.allocated n))

theorem laysOut_of_layout?
    {ts : List Ty}
    (hLayout : w.layout? n = some ts) :
    w.LaysOut n := by
  have hAllocate (h : Heap) :
      w.allocate n h =
        some (.ok (h.allocInstance n ts).1,
          (h.allocInstance n ts).2) := by
    unfold allocate
    rw [hLayout]
    rfl
  constructor
  · intro name t flags
    unfold addField
    dsimp only
    split
    · exact ⟨_, rfl⟩
    · rw [hLayout]
      exact ⟨_, rfl⟩
  · intro h
    exact ⟨_, _, hAllocate h, rfl⟩
  · intro rt s hHost
    unfold Run.allocate
    rw [hHost]
    have hAnswer := hAllocate s.heap
    change w.host.allocate n s.heap = _ at hAnswer
    simp only [hAnswer]
    exact ⟨_, _, rfl⟩

theorem hangs_of_layout?
    (hNone : w.layout? n = none) :
    w.Hangs n := by
  have hAllocate (h : Heap) : w.allocate n h = none := by
    unfold allocate
    rw [hNone]
    rfl
  constructor
  · intro name t flags hInstance
    unfold addField
    dsimp only
    rw [if_neg (Bool.eq_false_iff.1 hInstance), hNone]
    rfl
  · exact hAllocate
  · rintro rt m entry args s hHost rfl
    have hStops :
        Run.allocate rt m.declaring s =
          .error .unfinished (s.log (.allocated m.declaring)) := by
      unfold Run.allocate
      rw [hHost]
      have hAnswer := hAllocate s.heap
      change w.host.allocate m.declaring s.heap = none at hAnswer
      simp only [hAnswer]
    exact Run.bind_error hStops _

/-
  The walk to the last superclass of a class ends exactly if
  no class is above itself that is the class or above it.  If
  it ends it does so within a round for each class of the
  table and one more, has passed no class twice, and the
  layout is made of what it passed.  Else there is no layout,
  and what asks for one does not end.  A table without such
  classes stays one when a class is added, unless the class
  is below itself through its superclass.
-/
theorem layouts_end_unless_knotted
    (w : World)
    (n : ClassName) :
    ((∃ k ns,
        w.classes.superclassesWithin k [] (some n) = some ns) ↔
      ¬w.classes.Knotted n) ∧
      (∀ k ns,
        w.classes.superclassesWithin k [] (some n) = some ns →
          w.classes.superclassesWithin (w.classes.size + 1) []
              (some n) =
            some ns ∧
            ns.Nodup ∧
            w.layout? n =
              some (ns.reverse.flatMap (entryOf · w.layouts))) ∧
      (¬w.classes.Knotted n → w.LaysOut n) ∧
      (w.classes.Knotted n → w.layout? n = none ∧ w.Hangs n) ∧
      ((∀ m, ¬w.classes.Knotted m) →
        ∀ c,
          (∀ m, ¬(w.classes.add c).Knotted m) ↔
            ∀ m ∈ c.superclass, ¬w.classes.Descends m c.name) := by
  have hWithin (k : Nat) (ns : List ClassName) :
      w.classes.superclassesWithin k [] (some n) = some ns ↔
        w.classes.Chain n ns ∧ ns.length ≤ k := by
    rw [ClassTable.superclassesWithin_eq_some_iff]
    simp
  refine ⟨?ends, ?soon, ?free, ?knotted, ?adding⟩
  case ends =>
    rw [← ClassTable.exists_chain_iff]
    constructor
    · rintro ⟨k, ns, hEnd⟩
      exact ⟨ns, ((hWithin k ns).1 hEnd).1⟩
    · rintro ⟨ns, hChain⟩
      exact ⟨_, ns, (hWithin _ ns).2 ⟨hChain, Nat.le_refl _⟩⟩
  case soon =>
    intro k ns hEnd
    have hChain := ((hWithin k ns).1 hEnd).1
    exact
      ⟨(hWithin _ ns).2 ⟨hChain, hChain.length_le⟩, hChain.nodup,
        layout?_of_chain hChain⟩
  case free =>
    intro hFree
    rcases ClassTable.exists_chain_iff.2 hFree with ⟨ns, hChain⟩
    exact laysOut_of_layout? (layout?_of_chain hChain)
  case knotted =>
    intro hKnotted
    have hNone := layout?_eq_none_iff.2 hKnotted
    exact ⟨hNone, hangs_of_layout? hNone⟩
  case adding =>
    intro hFree c
    rw [← ClassTable.acyclic_iff] at hFree ⊢
    exact hFree.add_iff c

/- A class that is its own superclass. -/
def loop : ClassInfo :=
  { ClassInfo.ofClass ⟨"a.Loop"⟩ with superclass := some ⟨"a.Loop"⟩ }

theorem add_loop_extends (T : ClassTable) :
    (T.add loop).Extends loop.name loop.name :=
  ClassTable.superclass?_add_self T loop

/- It ties a knot in the table that has no class. -/
theorem layouts_end_unless_knotted_loop :
    (∀ m, ¬ClassTable.empty.Knotted m) ∧
      ClassTable.empty.superclassesWithin 1 [] (some .object) =
        some [.object] ∧
      (initial .empty).layout? .object = some [] ∧
      (initial .empty).LaysOut .object ∧
      (ClassTable.empty.add loop).Knotted loop.name ∧
      (initial (ClassTable.empty.add loop)).Hangs loop.name ∧
      ¬∀ m, ¬(ClassTable.empty.add loop).Knotted m := by
  have hChain (m : ClassName) : ClassTable.empty.Chain m [m] :=
    .last rfl
  have hFree (m : ClassName) : ¬ClassTable.empty.Knotted m :=
    (hChain m).not_knotted
  have hKnotted : (ClassTable.empty.add loop).Knotted loop.name :=
    ⟨loop.name, .refl, .single (add_loop_extends .empty)⟩
  rcases layouts_end_unless_knotted (initial .empty) .object with
    ⟨-, hSoon, hLaysOut, -, hAdding⟩
  rcases
    layouts_end_unless_knotted (initial (ClassTable.empty.add loop))
      loop.name
    with ⟨-, -, -, hHangs, -⟩
  rcases hSoon 1 _ rfl with ⟨-, -, hLayout⟩
  refine
    ⟨hFree, rfl, hLayout, hLaysOut (hFree _), hKnotted,
      (hHangs hKnotted).2, ?_⟩
  intro hNone
  exact (hAdding hFree loop).1 hNone loop.name rfl .refl

/- The well-known classes, and that one. -/
def looped : ClassTable :=
  ClassTable.wellKnown.add loop

/-
  The walk from such a class never ends, while the supertypes
  of the class are listed, and it is a class of objects.
-/
theorem layout_of_own_superclass_endless :
    (¬∃ k ns,
      looped.superclassesWithin k [] (some loop.name) = some ns) ∧
      (World.initial looped).allocate loop.name .empty = none ∧
      looped.supertypes loop.name = [loop.name] ∧
      looped.isSubclass loop.name .object = true := by
  have hKnotted : looped.Knotted loop.name :=
    ⟨loop.name, .refl, .single (add_loop_extends _)⟩
  have hParents : looped.parents loop.name = [loop.name] := by
    unfold ClassTable.parents
    rw [show looped.find? loop.name = some loop from
      ClassTable.find?_add_self ClassTable.wellKnown loop]
    rfl
  refine ⟨?_, ?_, ?_, ClassTable.isSubclass_object _ _⟩
  · rintro ⟨k, ns, hEnd⟩
    rcases ClassTable.superclassesWithin_eq_some_iff.1 hEnd with
      ⟨ns, hChain, -, -⟩
    exact hChain.not_knotted hKnotted
  · have hNone : (World.initial looped).layout? loop.name = none :=
      layout?_eq_none_iff.2 hKnotted
    exact (hangs_of_layout? hNone).allocates .empty
  · unfold ClassTable.supertypes
    rw [ClassTable.walk, if_neg List.not_mem_nil, hParents,
      List.nil_append, ClassTable.walk,
      if_pos List.mem_cons_self, ClassTable.walk]
    rfl

end World

end Linkage
