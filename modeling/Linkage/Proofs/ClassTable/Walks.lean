import Linkage.Proofs.ClassTable
import Mathlib.Data.List.Nodup

/-
  The two walks over the supertypes of a class.  Both end
  after a number of rounds that the edges of the table
  bound, whatever cycles the table has.  The search for a
  class finds it if it is reached, and the list of the
  supertypes has each class that is reached, once.

  Key definitions include:
    * `ClassTable.edgesLeft`
    * `ClassTable.searchWithin`
    * `ClassTable.walkWithin`

  Key theorems include:
    * `ClassTable.parents_and_edgesLeft_le`
    * `ClassTable.searchWithin_eq`
    * `ClassTable.walkWithin_eq`
    * `ClassTable.nodup_walk`
    * `ClassTable.mem_supertypes_iff`
    * `ClassTable.supertypes_congr`
    * `ClassTable.walks_find_what_is_reached`
-/

------------------------------------------------------------
-- What Is Left To Do
------------------------------------------------------------

namespace Linkage

namespace ClassTable

variable {T : ClassTable}
variable {a b n goal : ClassName}
variable {seen done queue rest : List ClassName}
variable {k : Nat}

/- The edges that lead out of a list of classes. -/
def edges : List ClassInfo → Nat
| [] => 0
| c :: cs => c.parents.length + edges cs

/- The edges of a table that no walk has followed yet. -/
def edgesLeft
    (T : ClassTable)
    (seen : List ClassName) : Nat :=
  edges (T.unvisited seen)

/- Every edge of a table. -/
def edgeCount (T : ClassTable) : Nat :=
  edges T.classes

theorem edgesLeft_nil : T.edgesLeft [] = T.edgeCount := by
  unfold edgesLeft edgeCount unvisited
  congr 1
  exact List.filter_eq_self.2 (fun c _ => by simp)

/- To pass over classes leaves no more edges. -/
theorem edges_filter_le
    (p : ClassInfo → Bool)
    (cs : List ClassInfo) :
    edges (cs.filter p) ≤ edges cs := by
  induction cs with
  | nil => exact Nat.le_refl 0
  | cons c cs ih =>
      rw [List.filter_cons]
      split
      · exact Nat.add_le_add_left ih _
      · exact Nat.le_trans ih (Nat.le_add_left _ _)

/- A class that is passed over takes its own edges with it. -/
theorem edges_filter_mem
    {p : ClassInfo → Bool}
    {c : ClassInfo}
    {cs : List ClassInfo}
    (hMem : c ∈ cs)
    (hOut : p c = false) :
    c.parents.length + edges (cs.filter p) ≤ edges cs := by
  induction cs with
  | nil => cases hMem
  | cons d cs ih =>
      rcases List.mem_cons.1 hMem with rfl | hRest
      · rw [List.filter_cons_of_neg (by rw [hOut]; simp)]
        exact Nat.add_le_add_left (edges_filter_le p cs) _
      · have hLe := ih hRest
        rw [List.filter_cons]
        split
        · simp only [edges]
          omega
        · simp only [edges]
          omega

/- What is unvisited after one more class was visited. -/
theorem unvisited_cons :
    T.unvisited (n :: seen) =
      (T.unvisited seen).filter (fun c => c.name ≠ n) := by
  unfold unvisited
  rw [List.filter_filter]
  apply List.filter_congr
  intro c _
  simp

/-
  What a visit queues was among the edges that were left, so
  the queue and the edges together do not grow.
-/
theorem parents_and_edgesLeft_le (hNew : n ∉ seen) :
    (T.parents n).length + T.edgesLeft (n :: seen) ≤
      T.edgesLeft seen := by
  unfold edgesLeft
  rw [unvisited_cons]
  cases hFind : T.find? n with
  | none =>
      rw [T.find?_none_parents n hFind, List.length_nil,
        Nat.zero_add]
      exact edges_filter_le _ _
  | some c =>
      have hName : c.name = n := by
        simpa using List.find?_some hFind
      have hMem : c ∈ T.unvisited seen := by
        refine List.mem_filter.2
          ⟨List.mem_of_find?_eq_some hFind, ?_⟩
        rw [hName]
        exact decide_eq_true hNew
      have hParents : T.parents n = c.parents := by
        unfold parents
        rw [hFind]
      rw [hParents]
      exact edges_filter_mem hMem (by simp [hName])

------------------------------------------------------------
-- Rounds
------------------------------------------------------------

/-
  The search for a class, given up after a number of rounds.
  There is no answer if the search has not ended by then.
-/
def searchWithin
    (T : ClassTable)
    (goal : ClassName) :
    Nat → List ClassName → List ClassName → Option Bool
| 0, _, _ => none
| _ + 1, _, [] => some false
| k + 1, seen, n :: rest =>
    if n ∈ seen then T.searchWithin goal k seen rest
    else if n = goal then some true
    else
      T.searchWithin goal k (n :: seen) (rest ++ T.parents n)

/- The subclass relation, given up after so many rounds. -/
def isSubclassWithin
    (T : ClassTable)
    (k : Nat)
    (sub sup : ClassName) : Option Bool :=
  if sub = sup ∨ sup = .object
  then some true
  else T.searchWithin sup k [] [sub]

/- The walk, given up after a number of rounds. -/
def walkWithin
    (T : ClassTable) :
    Nat → List ClassName → List ClassName →
      Option (List ClassName)
| 0, _, _ => none
| _ + 1, done, [] => some done.reverse
| k + 1, done, n :: rest =>
    if n ∈ done then T.walkWithin k done rest
    else T.walkWithin k (n :: done) (rest ++ T.parents n)

/- The supertypes of a class, given up after so many rounds. -/
def supertypesWithin
    (T : ClassTable)
    (k : Nat)
    (n : ClassName) : Option (List ClassName) :=
  T.walkWithin k [] [n]

/-
  A round takes one class from the queue, and what it queues
  was left among the edges.
-/
theorem searchWithin_eq
    (hEnough : queue.length + T.edgesLeft seen < k) :
    T.searchWithin goal k seen queue =
      some (T.search goal seen queue) := by
  induction k generalizing seen queue with
  | zero => omega
  | succ k ih =>
      unfold search
      cases queue with
      | nil => rfl
      | cons n rest =>
          unfold searchWithin
          rw [List.length_cons] at hEnough
          by_cases hSeen : n ∈ seen
          · simp only [if_pos hSeen]
            exact ih (by omega)
          · simp only [if_neg hSeen]
            by_cases hGoal : n = goal
            · simp only [if_pos hGoal]
            · simp only [if_neg hGoal]
              have hLeft := T.parents_and_edgesLeft_le hSeen
              apply ih
              rw [List.length_append]
              omega

theorem walkWithin_eq
    (hEnough : queue.length + T.edgesLeft done < k) :
    T.walkWithin k done queue = some (T.walk done queue) := by
  induction k generalizing done queue with
  | zero => omega
  | succ k ih =>
      unfold walk
      cases queue with
      | nil => rfl
      | cons n rest =>
          unfold walkWithin
          rw [List.length_cons] at hEnough
          by_cases hDone : n ∈ done
          · simp only [if_pos hDone]
            exact ih (by omega)
          · simp only [if_neg hDone]
            have hLeft := T.parents_and_edgesLeft_le hDone
            apply ih
            rw [List.length_append]
            omega

/- From one class, a round for each edge and two more will do. -/
theorem isSubclassWithin_eq
    (hEnough : T.edgeCount + 2 ≤ k) :
    T.isSubclassWithin k a b = some (T.isSubclass a b) := by
  unfold isSubclassWithin isSubclass
  split
  · rfl
  · apply searchWithin_eq
    rw [edgesLeft_nil, List.length_singleton]
    omega

theorem supertypesWithin_eq
    (hEnough : T.edgeCount + 2 ≤ k) :
    T.supertypesWithin k a = some (T.supertypes a) := by
  unfold supertypesWithin supertypes
  apply walkWithin_eq
  rw [edgesLeft_nil, List.length_singleton]
  omega

------------------------------------------------------------
-- The List Of Supertypes
------------------------------------------------------------

/- The walk lists what was listed before first. -/
theorem reverse_isPrefix_walk :
    done.reverse <+: T.walk done queue := by
  induction done, queue using ClassTable.walk.induct T with
  | case1 done =>
      unfold walk
      exact List.prefix_refl _
  | case2 done n rest hDone ih =>
      unfold walk
      rw [if_pos hDone]
      exact ih
  | case3 done n rest hDone ih =>
      unfold walk
      rw [if_neg hDone]
      rw [List.reverse_cons] at ih
      exact (List.prefix_append _ _).trans ih

/- No class is listed twice. -/
theorem nodup_walk (hNodup : done.Nodup) :
    (T.walk done queue).Nodup := by
  induction done, queue using ClassTable.walk.induct T with
  | case1 done =>
      unfold walk
      exact List.nodup_reverse.2 hNodup
  | case2 done n rest hDone ih =>
      unfold walk
      rw [if_pos hDone]
      exact ih hNodup
  | case3 done n rest hDone ih =>
      unfold walk
      rw [if_neg hDone]
      exact ih (List.nodup_cons.2 ⟨hDone, hNodup⟩)

/-
  What is reached from a class that is listed or queued is in
  the list.  When the queue is empty, no step leads out of
  the list.
-/
theorem mem_walk_of_reaches
    (hFollowed : T.Followed done queue)
    (hFrom : a ∈ done ∨ a ∈ queue)
    (hReaches : T.Reaches a b) :
    b ∈ T.walk done queue := by
  induction done, queue using ClassTable.walk.induct T with
  | case1 done =>
      unfold walk
      rw [List.mem_reverse]
      induction hReaches with
      | refl =>
          rcases hFrom with hDone | hQueue
          · exact hDone
          · cases hQueue
      | tail _ hEdge ih =>
          rcases hFollowed _ ih _ hEdge with hDone | hQueue
          · exact hDone
          · cases hQueue
  | case2 done n rest hDone ih =>
      unfold walk
      rw [if_pos hDone]
      apply ih (hFollowed.skip hDone)
      rcases hFrom with hOld | hQueue
      · exact Or.inl hOld
      · rcases List.mem_cons.1 hQueue with rfl | hRest
        · exact Or.inl hDone
        · exact Or.inr hRest
  | case3 done n rest hDone ih =>
      unfold walk
      rw [if_neg hDone]
      apply ih hFollowed.visit
      rcases hFrom with hOld | hQueue
      · exact Or.inl (List.mem_cons_of_mem n hOld)
      · rcases List.mem_cons.1 hQueue with rfl | hRest
        · exact Or.inl List.mem_cons_self
        · exact Or.inr (List.mem_append_left _ hRest)

/- The supertypes of a class begin with the class. -/
theorem head?_supertypes :
    (T.supertypes a).head? = some a := by
  have hFirst : T.supertypes a = T.walk [a] (T.parents a) := by
    unfold supertypes
    rw [walk, if_neg List.not_mem_nil, List.nil_append]
  have hListed : [a].reverse <+: T.walk [a] (T.parents a) :=
    T.reverse_isPrefix_walk
  rcases hListed with ⟨later, hLater⟩
  rw [hFirst, ← hLater]
  rfl

theorem nodup_supertypes : (T.supertypes a).Nodup :=
  nodup_walk List.nodup_nil

/- What the class itself has is found first. -/
theorem findSome?_supertypes
    {α : Type}
    {f : ClassName → Option α}
    {x : α}
    (hOwn : f a = some x) :
    (T.supertypes a).findSome? f = some x := by
  rcases List.head?_eq_some_iff.1 (head?_supertypes (T := T)) with
    ⟨rest, hList⟩
  rw [hList, List.findSome?_cons, hOwn]

/- The supertypes are the classes that are reached. -/
theorem mem_supertypes_iff :
    b ∈ T.supertypes a ↔ T.Reaches a b := by
  constructor
  · intro hMem
    rcases reaches_of_mem_walk hMem with hNone | ⟨n, hn, hReaches⟩
    · cases hNone
    · rw [List.mem_singleton.1 hn] at hReaches
      exact hReaches
  · intro hReaches
    have hNothing : T.Followed [] [a] := by
      intro m hm
      cases hm
    exact
      mem_walk_of_reaches hNothing
        (Or.inr (List.mem_singleton.2 rfl)) hReaches

/- A walk does not look at classes that it does not reach. -/
theorem walk_congr
    {T' : ClassTable}
    (hSame :
      ∀ n ∈ queue, ∀ m, T.Reaches n m → T'.parents m = T.parents m) :
    T'.walk done queue = T.walk done queue := by
  induction done, queue using ClassTable.walk.induct T with
  | case1 done =>
      unfold walk
      rfl
  | case2 done n rest hDone ih =>
      rw [List.forall_mem_cons] at hSame
      unfold walk
      rw [if_pos hDone, if_pos hDone]
      exact ih hSame.2
  | case3 done n rest hDone ih =>
      rw [List.forall_mem_cons] at hSame
      unfold walk
      rw [if_neg hDone, if_neg hDone, hSame.1 n .refl]
      apply ih
      intro p hp m hReaches
      rcases List.mem_append.1 hp with hRest | hParent
      · exact hSame.2 p hRest m hReaches
      · exact hSame.1 m (.head hParent hReaches)

theorem supertypes_congr
    {T' : ClassTable}
    (hSame : ∀ m, T.Reaches a m → T'.parents m = T.parents m) :
    T'.supertypes a = T.supertypes a :=
  walk_congr (List.forall_mem_singleton.2 hSame)

/- All supertypes of a class but the class itself. -/
theorem mem_supertypes_tail_iff :
    b ∈ (T.supertypes a).drop 1 ↔ T.Reaches a b ∧ b ≠ a := by
  have hHead : (T.supertypes a).head? = some a := head?_supertypes
  have hNodup : (T.supertypes a).Nodup := nodup_supertypes
  rw [← mem_supertypes_iff]
  cases hList : T.supertypes a with
  | nil =>
      rw [hList] at hHead
      cases hHead
  | cons n rest =>
      rw [hList] at hHead hNodup
      cases hHead
      rw [List.drop_one, List.tail_cons]
      have hOut := (List.nodup_cons.1 hNodup).1
      constructor
      · intro hMem
        refine ⟨List.mem_cons_of_mem _ hMem, ?_⟩
        rintro rfl
        exact hOut hMem
      · rintro ⟨hMem, hOther⟩
        exact (List.mem_cons.1 hMem).resolve_left hOther

------------------------------------------------------------
-- Both Walks
------------------------------------------------------------

/-
  In every table both walks end, within a round for each edge
  and two more.  A class is a subclass of `Object` and of what
  is reached from it by steps to direct supertypes, of which
  an unknown class has none.  The list of its supertypes
  begins with the class, and has each class that is reached
  from it once and no other.  So the two agree on every class
  but `Object`.
-/
theorem walks_find_what_is_reached
    (T : ClassTable)
    (a b : ClassName) :
    (∀ n, T.find? n = none → ∀ m, ¬T.Edge n m) ∧
      (∀ k, T.edgeCount + 2 ≤ k →
        T.isSubclassWithin k a b = some (T.isSubclass a b) ∧
          T.supertypesWithin k a = some (T.supertypes a)) ∧
      (T.isSubclass a b = true ↔
        b = .object ∨ T.Reaches a b) ∧
      (T.supertypes a).head? = some a ∧
      (T.supertypes a).Nodup ∧
      (b ∈ T.supertypes a ↔ T.Reaches a b) ∧
      (b ≠ .object →
        (b ∈ T.supertypes a ↔ T.isSubclass a b = true)) := by
  refine ⟨?_, ?_, isSubclass_eq_true_iff, head?_supertypes,
    nodup_supertypes, mem_supertypes_iff, ?_⟩
  · intro n hUnknown m hEdge
    unfold Edge at hEdge
    rw [T.find?_none_parents n hUnknown] at hEdge
    cases hEdge
  · intro k hEnough
    exact ⟨isSubclassWithin_eq hEnough, supertypesWithin_eq hEnough⟩
  · intro hOther
    rw [mem_supertypes_iff, isSubclass_eq_true_iff]
    constructor
    · intro hReaches
      exact Or.inr hReaches
    · intro hSub
      rcases hSub with hObject | hReaches
      · exact absurd hObject hOther
      · exact hReaches

end ClassTable

end Linkage
