import Linkage.Proofs.Caching.Lookups

/-
  Behaviours that enter nothing agree: code of the host, reads
  and writes of the heap, and edits of arguments come to one
  result in both runs.  The host must be blind to the targets
  of handles or be given the same heaps, and must not make
  handles of its own.

  Key theorems include:
    * `Agree.call`
    * `Agree.runDirect`
    * `Agree.runFieldSet`
    * `Agree.runArraySet`
    * `Agree.spreadArgs`
-/

------------------------------------------------------------
-- Code of the Host
------------------------------------------------------------

namespace Linkage

variable {α : Type}
variable {rt : Runtime}
variable {b : Bool}
variable {w v : Pairing}
variable {s s' : State}
variable {sig : Signature}
variable {args : List Value}
variable {Q : Pairing → α → α → Prop}

/-
  The host is blind to the targets of handles, or it is given
  the very same heaps.
-/
def Host.SameOrBlind
    (H : Host)
    (w : Pairing) : Prop :=
  w.same ∨ H.IsBlind

namespace Host.SameOrBlind

variable {H : Host}
variable {h k : Heap}

theorem later
    (hSees : H.SameOrBlind w)
    (hLe : w ≤ v) :
    H.SameOrBlind v := by
  unfold SameOrBlind
  rw [hLe.2.2]
  exact hSees

theorem call
    (hSees : H.SameOrBlind w)
    (code : Code)
    (args : List Value)
    (hHeaps : HeapTwins w h k) :
    (H.call code args k).1 = (H.call code args h).1 ∧
      (H.call code args h).2.Alike (H.call code args k).2 := by
  rcases hSees with hSame | hBlind
  · rw [hHeaps.same hSame]
    exact ⟨rfl, .refl _⟩
  · exact hBlind.call code args h k hHeaps.alike

theorem allocate
    (hSees : H.SameOrBlind w)
    (n : ClassName)
    (hHeaps : HeapTwins w h k) :
    Option.Rel (fun x y => y.1 = x.1 ∧ x.2.Alike y.2)
      (H.allocate n h) (H.allocate n k) := by
  rcases hSees with hSame | hBlind
  · rw [hHeaps.same hSame]
    cases H.allocate n h with
    | none => exact .none
    | some p => exact .some ⟨rfl, .refl _⟩
  · exact hBlind.allocate n h k hHeaps.alike

end Host.SameOrBlind

namespace Agree

theorem fault
    (f : Fault) :
    Agree rt b w (Run.fault f) (Run.fault f) Q :=
  throw _

/- A host whose handles are all of listed targets. -/
theorem call
    {code : Code}
    (hHost : rt.host.MakesNoTargets)
    (hSees : rt.host.SameOrBlind w) :
    Agree rt b w (Run.call rt code args)
      (Run.call (rt.memoizing b) code args)
      (fun _ a a' => a' = a) := by
  unfold Run.call
  refine bind_same (change ?_ rfl) ?_
  · intro s s' hTwins
    apply hTwins.log (.called code args hTwins.heap)
    intro hSame
    rw [(hTwins.same hSame).1]
  · intro v hv _ s s' hTwins
    rw [Run.onHeap_eq, Run.onHeap_eq]
    apply Meets.fromHeap Halt.fault hTwins
    rcases (hSees.later hv).call code args hTwins.heaps with
      ⟨hEq, hAlike⟩
    refine ⟨hEq, hAlike, ?_, ?_, ?_⟩
    · intro i t hAt
      exact hTwins.left.holds (hHost.call code args _ i t hAt)
    · intro i t hAt
      exact hTwins.right.holds (hHost.call code args _ i t hAt)
    · intro hSame
      rw [(hTwins.same hSame).1]
      rfl

theorem allocate
    {n : ClassName}
    (hHost : rt.host.MakesNoTargets)
    (hSees : rt.host.SameOrBlind w) :
    Agree rt b w (Run.allocate rt n)
      (Run.allocate (rt.memoizing b) n)
      (fun _ a a' => a' = a) := by
  intro s s' hTwins
  have hLogged := hTwins.log (.allocated n) (fun _ => rfl)
  have hRel := hSees.allocate n hTwins.heaps
  have hLeft :
      ∀ r h, rt.host.allocate n s.heap = some (r, h) →
        ∀ i t, h.at? i = some (.target t) → t ∈ w.left.made := by
    intro r h hEq i t hAt
    exact hTwins.left.holds (hHost.allocate n _ r h i t hEq hAt)
  have hRight :
      ∀ r h, rt.host.allocate n s'.heap = some (r, h) →
        ∀ i t, h.at? i = some (.target t) → t ∈ w.right.made := by
    intro r h hEq i t hAt
    exact hTwins.right.holds (hHost.allocate n _ r h i t hEq hAt)
  have hEqual :
      w.same →
        rt.host.allocate n s'.heap = rt.host.allocate n s.heap := by
    intro hSame
    rw [(hTwins.same hSame).1]
  unfold Run.allocate Runtime.memoizing
  dsimp only
  generalize rt.host.allocate n s.heap = x at hRel hLeft hEqual
  generalize rt.host.allocate n s'.heap = y at hRel hRight hEqual
  cases hRel with
  | none => exact .error (le_refl w) hLogged
  | @some p q hpq =>
      rcases p with ⟨r, h⟩
      rcases q with ⟨r', k⟩
      rcases hpq with ⟨hEq, hAlike⟩
      have hSame : r' = r := hEq
      subst hSame
      have hHeap : w.same → k = h := by
        intro hSame
        cases hEqual hSame
        rfl
      have hTwins' :=
        hLogged.withHeap
          ⟨hAlike, hLeft r' h rfl, hRight r' k rfl, hHeap⟩
      cases r' with
      | ok o => exact .ok (le_refl w) hTwins' rfl
      | error f => exact .error (le_refl w) hTwins'

theorem receiverOf
    {m : Method} :
    Agree rt b w (receiverOf m args) (receiverOf m args)
      (fun _ a a' => a' = a) := by
  unfold Linkage.receiverOf
  split
  · exact pure rfl
  · exact fault _
  · exact fault _
  · exact fault _

theorem runDirect
    {m : Method}
    {how : MethodKind}
    {entry : Code}
    (hHost : rt.host.MakesNoTargets)
    (hSees : rt.host.SameOrBlind w) :
    Agree rt b w (runDirect rt m how entry args)
      (runDirect (rt.memoizing b) m how entry args)
      (fun _ a a' => a' = a) := by
  have hInstance :
      Agree rt b w
        (do
          let _ ← Linkage.receiverOf m args
          Run.call rt entry args)
        (do
          let _ ← Linkage.receiverOf m args
          Run.call (rt.memoizing b) entry args)
        (fun _ a a' => a' = a) := by
    refine bind_same receiverOf ?_
    intro v hv _
    exact call hHost (hSees.later hv)
  cases how with
  | isStatic => exact call hHost hSees
  | isConstructor =>
      unfold Linkage.runDirect
      refine bind_same (allocate hHost hSees) ?_
      intro v hv o
      refine bind_same (call hHost (hSees.later hv)) ?_
      intro z _ _
      exact pure rfl
  | isVirtual => exact hInstance
  | isInterface => exact hInstance
  | isSpecial => exact hInstance

theorem runVirtual
    {m : Method}
    {slot : Nat}
    (hHost : rt.host.MakesNoTargets)
    (hSees : rt.host.SameOrBlind w) :
    Agree rt b w (runVirtual rt m slot args)
      (runVirtual (rt.memoizing b) m slot args)
      (fun _ a a' => a' = a) := by
  unfold Linkage.runVirtual Runtime.memoizing
  refine bind_same receiverOf ?_
  intro v hv o
  dsimp only
  cases rt.host.virtualEntry o.type slot with
  | some code => exact call hHost (hSees.later hv)
  | none => exact fault _

theorem runInterface
    {m : Method}
    {slot : Nat}
    (hHost : rt.host.MakesNoTargets)
    (hSees : rt.host.SameOrBlind w) :
    Agree rt b w (runInterface rt m slot args)
      (runInterface (rt.memoizing b) m slot args)
      (fun _ a a' => a' = a) := by
  unfold Linkage.runInterface Runtime.memoizing
  refine bind_same receiverOf ?_
  intro v hv o
  apply ite
  · intro _
    dsimp only
    cases rt.host.interfaceEntry o.type m.declaring slot with
    | some code => exact call hHost (hSees.later hv)
    | none => exact fault _
  · intro _
    exact fault _

------------------------------------------------------------
-- Fields
------------------------------------------------------------

theorem fieldPlace
    {f : Field}
    {offset : Nat} :
    Agree rt b w (fieldPlace rt f offset args)
      (fieldPlace (rt.memoizing b) f offset args)
      (fun _ a a' => a' = a) := by
  unfold Linkage.fieldPlace
  apply ite
  · intro _
    exact pure rfl
  · intro _
    refine bind_same ?_ (fun v _ o => pure rfl)
    unfold Linkage.fieldReceiver
    split
    · exact pure rfl
    · exact fault _

theorem runFieldGet
    {f : Field}
    {offset : Nat} :
    Agree rt b w (runFieldGet rt f offset args)
      (runFieldGet (rt.memoizing b) f offset args)
      (fun _ a a' => a' = a) := by
  unfold Linkage.runFieldGet
  refine bind_same fieldPlace ?_
  intro v _ place
  apply get_bind
  intro s s' hTwins
  have hCell : s'.heap.cell? = s.heap.cell? :=
    funext hTwins.heap.cell?_eq
  rw [hCell]
  cases place.bind s.heap.cell? with
  | some c => exact pure rfl
  | none => exact fault _

theorem runFieldSet
    {f : Field}
    {offset : Nat} :
    Agree rt b w (runFieldSet rt f offset args)
      (runFieldSet (rt.memoizing b) f offset args)
      (fun _ a a' => a' = a) := by
  unfold Linkage.runFieldSet
  dsimp only
  refine bind_same fieldPlace ?_
  intro v _ place
  cases place with
  | none => exact fault _
  | some r =>
      apply get_bind
      intro s s' hTwins
      rw [hTwins.heap.cell?_eq]
      cases s.heap.cell? r with
      | none => exact fault _
      | some _ =>
          refine
            bind (changeHeap (fun h => h.storeCell r _) ?_)
              (fun _ _ _ _ _ => pure rfl)
          intro h k hHeaps
          exact hHeaps.storeCell r _

------------------------------------------------------------
-- Arrays
------------------------------------------------------------

theorem arrayOf :
    Agree rt b w (arrayOf args) (arrayOf args)
      (fun _ a a' => a' = a) := by
  unfold Linkage.arrayOf
  split
  · rename_i o _
    apply get_bind
    intro s s' hTwins
    rw [hTwins.heap.elements?_eq]
    cases s.heap.elements? o with
    | some vs => exact pure rfl
    | none => exact fault _
  · exact fault _

theorem elementOf :
    Agree rt b w (elementOf args) (elementOf args)
      (fun _ a a' => a' = a) := by
  unfold Linkage.elementOf
  refine bind_same arrayOf ?_
  rintro v _ ⟨o, vs⟩
  dsimp only
  split
  · apply ite
    · intro _
      exact pure rfl
    · intro _
      exact fault _
  · exact fault _
  · exact fault _

theorem runArrayGet :
    Agree rt b w (runArrayGet args) (runArrayGet args)
      (fun _ a a' => a' = a) := by
  unfold Linkage.runArrayGet
  refine bind_same elementOf ?_
  rintro v _ ⟨o, vs, i⟩
  dsimp only
  cases vs[i]? with
  | some a => exact pure rfl
  | none => exact fault _

theorem runArraySet :
    Agree rt b w (runArraySet rt args)
      (runArraySet (rt.memoizing b) args)
      (fun _ a a' => a' = a) := by
  unfold Linkage.runArraySet
  dsimp only
  refine bind_same elementOf ?_
  rintro v _ ⟨o, vs, i⟩
  apply ite
  · intro _
    refine
      bind (changeHeap (fun h => h.setElement o i _) ?_)
        (fun _ _ _ _ _ => pure rfl)
    intro h k hHeaps
    exact hHeaps.setElement o i _
  · intro _
    exact fault _

theorem runArrayLength :
    Agree rt b w (runArrayLength args) (runArrayLength args)
      (fun _ a a' => a' = a) := by
  unfold Linkage.runArrayLength
  exact bind_same arrayOf (fun _ _ _ => pure rfl)

theorem runThrow :
    Agree rt b w (runThrow args) (runThrow args)
      (fun _ a a' => a' = a) := by
  unfold Linkage.runThrow
  split
  · exact fault _
  · exact fault _

------------------------------------------------------------
-- Edits of Arguments
------------------------------------------------------------

theorem leadingArgs
    {n : Nat} :
    Agree rt b w (leadingArgs sig n args) (leadingArgs sig n args)
      (fun _ a a' => a' = a) := by
  unfold Linkage.leadingArgs
  apply ite
  · intro _
    exact pure rfl
  · intro _
    exact fault _

theorem collectArgs
    {component : Ty}
    {count : Nat} :
    Agree rt b w (collectArgs sig component count args)
      (collectArgs sig component count args)
      (fun _ a a' => a' = a) := by
  unfold Linkage.collectArgs
  apply ite
  · intro _
    exact fault _
  · intro _
    dsimp only
    refine bind_same (onHeap ?_) (fun _ _ _ => pure rfl)
    intro h k hHeaps
    have hNew :=
      hHeaps.alloc (.array component)
        (.elements (args.drop (args.length - count))) nofun
    exact ⟨congrArg Except.ok hNew.1, hNew.2⟩

theorem spreadArgs
    {count : Nat} :
    Agree rt b w (spreadArgs sig count args)
      (spreadArgs sig count args) (fun _ a a' => a' = a) := by
  unfold Linkage.spreadArgs
  split
  · exact fault _
  · apply ite
    · intro _
      exact pure rfl
    · intro _
      exact fault _
  · rename_i o _
    apply get_bind
    intro s s' hTwins
    rw [hTwins.heap.elements?_eq]
    cases s.heap.elements? o with
    | none => exact fault _
    | some vs =>
        apply ite
        · intro _
          exact pure rfl
        · intro _
          exact fault _
  · exact fault _

theorem permuteArgs
    {order : List Nat} :
    Agree rt b w (permuteArgs sig args order)
      (permuteArgs sig args order) (fun _ a a' => a' = a) := by
  induction order generalizing w with
  | nil => exact pure rfl
  | cons i is ih =>
      unfold Linkage.permuteArgs
      cases args[i]? with
      | none => exact fault _
      | some a => exact bind_same ih (fun _ _ _ => pure rfl)

theorem insertArgs
    {pos : Nat}
    {values : List Value} :
    Agree rt b w (insertArgs pos values args)
      (insertArgs pos values args) (fun _ a a' => a' = a) := by
  unfold Linkage.insertArgs
  apply ite
  · intro _
    exact pure rfl
  · intro _
    exact throw _

theorem dropArgs
    {pos count : Nat} :
    Agree rt b w (dropArgs pos count args)
      (dropArgs pos count args) (fun _ a a' => a' = a) := by
  unfold Linkage.dropArgs
  apply ite
  · intro _
    exact pure rfl
  · intro _
    exact throw _

theorem convertArgs
    {cs : List Conversion} :
    Agree rt b w (Run.onHeap (applyAll rt.classes cs args))
      (Run.onHeap (applyAll (rt.memoizing b).classes cs args))
      (fun _ a a' => a' = a) := by
  apply onHeap
  intro h k hHeaps
  apply
    HeapTwins.of_blind (f := applyAll rt.classes cs args)
      (applyAll_blind cs args) _ hHeaps
  intro h i t hAt
  exact applyAll_holds hAt

theorem convertValue
    {c : Conversion}
    {a : Value} :
    Agree rt b w (Run.onHeap (c.apply rt.classes a))
      (Run.onHeap (c.apply (rt.memoizing b).classes a))
      (fun _ a a' => a' = a) := by
  apply onHeap
  intro h k hHeaps
  apply
    HeapTwins.of_blind (f := c.apply rt.classes a)
      (Conversion.apply_blind c a) _ hHeaps
  intro h i t hAt
  exact Conversion.apply_holds hAt

/- The throwable object of a fault is one object. -/
theorem throwable
    {f : Fault} :
    Agree rt b w (Run.throwable f) (Run.throwable f)
      (fun _ a a' => a' = a) := by
  unfold Run.throwable
  split
  · exact pure rfl
  · apply onHeap
    intro h k hHeaps
    have hNew :=
      hHeaps.alloc (.throwable f.exceptionClass (some f.message))
        .fixed nofun
    exact ⟨congrArg Except.ok hNew.1, hNew.2⟩

end Agree

end Linkage
