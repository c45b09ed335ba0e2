import Linkage.Proofs.Invoke.Counted
import Linkage.World

/-
  Worlds as hosts.  A body never makes a handle, and a new
  instance is none, so a world makes no targets of its own.

  Key theorems include:
    * `Body.run_target`
    * `World.host_makesNoTargets`
-/

------------------------------------------------------------
-- Handles that Bodies Make
------------------------------------------------------------

namespace Linkage

variable {args : List Value}
variable {h : Heap}
variable {i : Nat}
variable {t : Target}

namespace Body

variable {b : Body}

theorem throwNew_target
    {n : ClassName}
    {message : Option String}
    (hAt : (throwNew n message h).2.at? i = some (.target t)) :
    h.at? i = some (.target t) := by
  have hNew :
      (h.allocThrowable n message).2.at? i = some (.target t) :=
    hAt
  exact Heap.at?_allocThrowable_target hNew

theorem storeFields_target
    {o : Obj}
    {pairs : List (Nat × Nat)}
    (hAt :
      (b.storeFields o args pairs h).2.at? i =
        some (.target t)) :
    h.at? i = some (.target t) := by
  induction pairs generalizing h with
  | nil => exact hAt
  | cons p rest ih =>
      unfold storeFields at hAt
      split at hAt
      · exact Heap.at?_storeCell_target (ih hAt)
      · exact hAt

/- A handle after a body was there before. -/
theorem run_target
    (hAt : (b.run args h).2.at? i = some (.target t)) :
    h.at? i = some (.target t) := by
  cases b with
  | const v => exact hAt
  | arg j =>
      unfold run at hAt
      dsimp only at hAt
      split at hAt
      · exact hAt
      · exact hAt
  | add => exact hAt
  | sub => exact hAt
  | neg => exact hAt
  | div =>
      unfold run at hAt
      dsimp only at hAt
      split at hAt
      · split at hAt
        · exact throwNew_target hAt
        · exact hAt
      · exact hAt
  | isPositive => exact hAt
  | throw n m => exact throwNew_target hAt
  | rethrow =>
      unfold run at hAt
      dsimp only at hAt
      split at hAt
      · exact hAt
      · exact hAt
  | message =>
      unfold run at hAt
      dsimp only at hAt
      split at hAt
      · exact hAt
      · split at hAt
        · rename_i m _
          have hNew :
              (h.allocText m).2.at? i = some (.target t) :=
            hAt
          exact Heap.at?_allocText_target hNew
        · exact hAt
  | fail f => exact hAt
  | setFields pairs =>
      unfold run at hAt
      dsimp only at hAt
      split at hAt
      · exact storeFields_target hAt
      · exact hAt
  | getField offset =>
      unfold run at hAt
      dsimp only at hAt
      split at hAt
      · exact hAt
      · exact hAt
  | arrayLength =>
      unfold run at hAt
      dsimp only at hAt
      split at hAt
      · exact hAt
      · exact hAt
  | setElement j k =>
      unfold run at hAt
      dsimp only at hAt
      split at hAt
      · split at hAt
        · exact Heap.at?_setElement_target hAt
        · exact hAt
      · exact hAt

end Body

------------------------------------------------------------
-- Worlds
------------------------------------------------------------

namespace World

/- A new instance is no handle. -/
theorem allocate_target
    {w : World}
    {n : ClassName}
    {h' : Heap}
    {r : Except Fault Obj}
    (hAllocate : w.allocate n h = some (r, h'))
    (hAt : h'.at? i = some (.target t)) :
    h.at? i = some (.target t) := by
  unfold allocate at hAllocate
  rcases Option.map_eq_some_iff.1 hAllocate with ⟨fields, _, hEq⟩
  have hHeap : (h.allocInstance n fields).2 = h' :=
    congrArg Prod.snd hEq
  rw [← hHeap] at hAt
  exact Heap.at?_allocInstance_target hAt

theorem host_makesNoTargets (w : World) :
    w.host.MakesNoTargets where
  call := by
    intro code args h i t hAt
    refine ⟨i, t, ?_, .refl t⟩
    change (w.runBody code args h).2.at? i = _ at hAt
    unfold runBody at hAt
    split at hAt
    · exact Body.run_target hAt
    · exact hAt
  allocate := by
    intro n h r h' i t hAllocate hAt
    exact ⟨i, t, allocate_target hAllocate hAt, .refl t⟩

end World

end Linkage
