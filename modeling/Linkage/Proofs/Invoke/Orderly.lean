import Linkage.Proofs.Invoke.Counted

/-
  Orderly runs.  From a sound state a run comes to a sound
  state; if it is entered in line with a signature, all that
  it enters is counted, no edit falls outside, and there are
  no shortages but those that the host makes up.  Here are
  the behaviours that enter nothing else.

  Key definitions include:
    * `CountedSince`
    * `Proper`
    * `Orderly`

  Key theorems include:
    * `Orderly.call`
    * `Orderly.runDirect`
    * `Orderly.runFieldSet`
    * `Orderly.runArraySet`
-/

------------------------------------------------------------
-- Orderly Runs
------------------------------------------------------------

namespace Linkage

/-
  Since given events, whatever was entered was counted.  The
  proposition `aligned` says that the run was entered in line
  with a signature.
-/
def CountedSince
    (aligned : Prop)
    (base : List Event) : Surroundings :=
  fun _ _ es =>
    aligned →
      ∀ t args, Event.entered t args ∈ es →
        Event.entered t args ∈ base ∨ t.Counted args

/-
  A run that was entered in line does not edit outside its
  arguments, and has shortages only from the host.
-/
def Proper
    (aligned : Prop)
    (H : Host)
    (e : Halt) : Prop :=
  aligned →
    e ≠ .outside ∧
      (H.NeverShort → ∀ f, e = .fault f → ¬f.IsShortage)

/- A run from a known state comes to a known one. -/
def Orderly
    {α : Type}
    (aligned : Prop)
    (rt : Runtime)
    (base : List Event)
    (c : Catalog)
    (m : Run α)
    (Q : α → Prop) : Prop :=
  Keeps (Known rt (CountedSince aligned base)) (fun _ => Q)
    (fun _ => Proper aligned rt.host) c m

variable {α β : Type}
variable {aligned : Prop}
variable {rt : Runtime}
variable {base : List Event}
variable {c d : Catalog}
variable {m : Run α}
variable {Q : α → Prop}
variable {R : β → Prop}
variable {args : List Value}
variable {sig : Signature}
variable {t u : Target}

namespace Orderly

theorem pure
    {a : α}
    (hPost : Q a) :
    Orderly aligned rt base c (Pure.pure a) Q :=
  Keeps.pure hPost

theorem unfinished :
    Orderly aligned rt base c
      (MonadExcept.throw (ε := Halt) .unfinished) Q := by
  apply Keeps.throw
  intro _
  refine ⟨nofun, ?_⟩
  intro _ f hEq
  cases hEq

/- A fault that is no shortage when the run is in line. -/
theorem fault
    {f : Fault}
    (hFault : aligned → ¬f.IsShortage) :
    Orderly aligned rt base c (Run.fault f) Q := by
  apply Keeps.throw
  intro hAligned
  refine ⟨nofun, ?_⟩
  intro _ g hEq
  cases hEq
  exact hFault hAligned

theorem bind
    {m : Run β}
    {f : β → Run α}
    (hFirst : Orderly aligned rt base c m R)
    (hSecond :
      ∀ d, c ≤ d → ∀ b, R b → Orderly aligned rt base d (f b) Q) :
    Orderly aligned rt base c (m >>= f) Q :=
  Keeps.bind hFirst hSecond

theorem imp
    {Q' : α → Prop}
    (hOrderly : Orderly aligned rt base c m Q)
    (hPost : ∀ a, Q a → Q' a) :
    Orderly aligned rt base c m Q' :=
  hOrderly.imp_ok (fun _ _ => hPost)

theorem holding
    (rs : List Root)
    (hOrderly : Orderly aligned rt base c m Q) :
    Orderly aligned rt base c (Run.holding rs m) Q :=
  Keeps.holding Known.withHeld rs hOrderly

/- Using the heap without making handles of new targets. -/
theorem onHeap
    {f : Heap → Except Fault α × Heap}
    (hHandles :
      ∀ h i t, (f h).2.at? i = some (.target t) → h.Holds t)
    (hFault :
      ∀ h e, (f h).1 = .error e →
        rt.host.NeverShort → ¬e.IsShortage)
    (hOk : ∀ h a, (f h).1 = .ok a → Q a) :
    Orderly aligned rt base c (Run.onHeap f) Q := by
  intro s hKnown
  have hSound :
      ({ s with heap := (f s.heap).2 } : State).Sound rt c := by
    apply hKnown.sound.withHeap
    intro i t hAt
    exact hKnown.sound.holds (hHandles s.heap i t hAt)
  have hKnown' :
      Known rt (CountedSince aligned base) c
        { s with heap := (f s.heap).2 } :=
    ⟨hKnown.fits, hSound, hKnown.around⟩
  unfold Run.onHeap
  split
  · rename_i a h hRun
    rw [hRun] at hKnown'
    refine ⟨c, le_refl c, hKnown', hOk s.heap a ?_⟩
    rw [hRun]
  · rename_i e h hRun
    rw [hRun] at hKnown'
    refine ⟨c, le_refl c, hKnown', ?_⟩
    intro _
    refine ⟨nofun, ?_⟩
    intro hHost g hEq
    cases hEq
    apply hFault s.heap e _ hHost
    rw [hRun]

/- A heap that changes nothing about handles holds the same. -/
theorem holds_of_at?
    {h : Heap}
    {i : Nat}
    (hAt : h.at? i = some (.target t)) :
    h.Holds t :=
  ⟨i, t, hAt, .refl t⟩

/- A change of the heap that makes no handles. -/
theorem changeHeap
    {Q : PUnit → Prop}
    (f : Heap → Heap)
    (hHandles :
      ∀ h i t, (f h).at? i = some (.target t) →
        h.at? i = some (.target t))
    (hPost : Q ⟨⟩) :
    Orderly aligned rt base c
      (modify (fun s => { s with heap := f s.heap })) Q := by
  apply Keeps.change
  · intro s hKnown
    refine ⟨hKnown.fits, ?_, hKnown.around⟩
    apply hKnown.sound.withHeap
    intro i t hAt
    exact hKnown.sound.handles i t (hHandles s.heap i t hAt)
  · exact hPost

/- What the state says may be relied on. -/
theorem reading
    {f : State → Run α}
    (hRest :
      ∀ s, Known rt (CountedSince aligned base) c s →
        Orderly aligned rt base c (f s) Q) :
    Orderly aligned rt base c (MonadState.get >>= f) Q :=
  Keeps.get_bind hRest

/- A link operation in a run. -/
theorem ofLink
    {P : Catalog → α → Prop}
    {m : Link α}
    {f : Fault}
    (hMakes :
      Makes rt (CountedSince aligned base) c m P)
    (hFault : ¬f.IsShortage) :
    Keeps (Known rt (CountedSince aligned base)) P
      (fun _ => Proper aligned rt.host) c (Run.ofLink m f) := by
  apply Keeps.ofLink hMakes
  intro _ _
  refine ⟨nofun, ?_⟩
  intro _ g hEq
  cases hEq
  exact hFault

------------------------------------------------------------
-- Code of the Host
------------------------------------------------------------

/- A fault that is no mismatch at all. -/
theorem otherFault
    {f : Fault}
    (hNe : ∀ e g, f ≠ .typeMismatch e g) :
    Orderly aligned rt base c (Run.fault f) Q :=
  fault (fun _ => Fault.not_isShortage_of_ne hNe)

theorem call
    {code : Code}
    (hHost : rt.host.MakesNoTargets) :
    Orderly aligned rt base c (Run.call rt code args)
      (fun _ => True) := by
  unfold Run.call
  refine Orderly.bind (R := fun _ => True) ?_ ?_
  · apply Keeps.change
    · intro s hKnown
      refine
        ⟨hKnown.fits, hKnown.sound.withTrace _, ?_⟩
      intro hAligned u as hMem
      rcases List.mem_cons.1 hMem with hEq | hOld
      · cases hEq
      · exact hKnown.around hAligned u as hOld
    · trivial
  · intro d _ _ _
    apply onHeap
    · intro h i u hAt
      exact hHost.call code args h i u hAt
    · intro h e hError hShort
      exact hShort.call code args h e hError
    · intro _ _ _
      trivial

theorem allocate
    {n : ClassName}
    (hHost : rt.host.MakesNoTargets) :
    Orderly aligned rt base c (Run.allocate rt n)
      (fun _ => True) := by
  intro s hKnown
  have hCounted :
      CountedSince aligned base s.heap s.sites
        (.allocated n :: s.trace) := by
    intro hAligned u as hMem
    rcases List.mem_cons.1 hMem with hEq | hOld
    · cases hEq
    · exact hKnown.around hAligned u as hOld
  have hHeap :
      ∀ r h, rt.host.allocate n s.heap = some (r, h) →
        Known rt (CountedSince aligned base) c
          { s.log (.allocated n) with heap := h } := by
    intro r h hEq
    refine ⟨hKnown.fits, ?_, hCounted⟩
    apply (hKnown.sound.withTrace _).withHeap
    intro i u hAt
    exact
      hKnown.sound.holds (hHost.allocate n s.heap r h i u hEq hAt)
  unfold Run.allocate
  dsimp only
  split
  · refine ⟨c, le_refl c, ?_, ?_⟩
    · exact ⟨hKnown.fits, hKnown.sound.withTrace _, hCounted⟩
    · intro _
      refine ⟨nofun, ?_⟩
      intro _ g hEq
      cases hEq
  · rename_i o h hEq
    exact ⟨c, le_refl c, hHeap _ h hEq, trivial⟩
  · rename_i f h hEq
    refine ⟨c, le_refl c, hHeap _ h hEq, ?_⟩
    intro _
    refine ⟨nofun, ?_⟩
    intro hShort g hFault
    cases hFault
    exact hShort.allocate n s.heap f h hEq

/- A receiver is missing, or it is no object. -/
theorem receiverOf
    {m : Method} :
    Orderly aligned rt base c (receiverOf m args)
      (fun _ => True) := by
  unfold Linkage.receiverOf
  split
  · exact pure trivial
  · exact otherFault nofun
  · exact otherFault nofun
  · rename_i v hRef _ _
    apply fault
    intro _
    apply Fault.typeText_not_isShortage
    cases v with
    | ref o => exact absurd rfl (hRef o)
    | _ => rfl

theorem runDirect
    {m : Method}
    {how : MethodKind}
    {entry : Code}
    (hHost : rt.host.MakesNoTargets) :
    Orderly aligned rt base c (runDirect rt m how entry args)
      (fun _ => True) := by
  have hInstance :
      Orderly aligned rt base c
        (do
          let _ ← Linkage.receiverOf m args
          Run.call rt entry args)
        (fun _ => True) := by
    refine Orderly.bind receiverOf ?_
    intro d _ _ _
    exact call hHost
  cases how with
  | isStatic => exact call hHost
  | isConstructor =>
      refine Orderly.bind (allocate hHost) ?_
      intro d _ o _
      refine Orderly.bind (call hHost) ?_
      intro e _ _ _
      exact pure trivial
  | isVirtual => exact hInstance
  | isInterface => exact hInstance
  | isSpecial => exact hInstance

theorem runVirtual
    {m : Method}
    {slot : Nat}
    (hHost : rt.host.MakesNoTargets) :
    Orderly aligned rt base c (runVirtual rt m slot args)
      (fun _ => True) := by
  refine Orderly.bind receiverOf ?_
  intro d _ o _
  split
  · exact call hHost
  · exact otherFault nofun

theorem runInterface
    {m : Method}
    {slot : Nat}
    (hHost : rt.host.MakesNoTargets) :
    Orderly aligned rt base c (runInterface rt m slot args)
      (fun _ => True) := by
  refine Orderly.bind receiverOf ?_
  intro d _ o _
  split
  · split
    · exact call hHost
    · exact otherFault nofun
  · exact otherFault nofun

------------------------------------------------------------
-- Fields and Arrays
------------------------------------------------------------

theorem fieldPlace
    {f : Field}
    {offset : Nat} :
    Orderly aligned rt base c (fieldPlace rt f offset args)
      (fun _ => True) := by
  unfold Linkage.fieldPlace
  split
  · exact pure trivial
  · refine Orderly.bind (R := fun _ => True) ?_ ?_
    · unfold fieldReceiver
      split
      · exact pure trivial
      · apply otherFault
        intro _ _ hEq
        cases hEq
    · intro d _ o _
      exact pure trivial

theorem runFieldGet
    {f : Field}
    {offset : Nat} :
    Orderly aligned rt base c (runFieldGet rt f offset args)
      (fun _ => True) := by
  refine Orderly.bind fieldPlace ?_
  intro d _ place _
  apply reading
  intro s _
  split
  · exact pure trivial
  · apply otherFault
    intro _ _ hEq
    cases hEq

theorem runFieldSet
    {f : Field}
    {offset : Nat} :
    Orderly aligned rt base c (runFieldSet rt f offset args)
      (fun _ => True) := by
  unfold Linkage.runFieldSet
  refine Orderly.bind fieldPlace ?_
  intro d _ place _
  split
  · exact otherFault nofun
  · rename_i r
    apply reading
    intro s _
    split
    · exact otherFault nofun
    · refine Orderly.bind (R := fun _ => True) ?_ ?_
      · apply changeHeap
          (fun h => h.storeCell r (splitLast args).1)
        · intro h i u hAt
          exact Heap.at?_storeCell_target hAt
        · trivial
      · intro e _ _ _
        exact pure trivial

theorem arrayOf :
    Orderly aligned rt base c (arrayOf args)
      (fun _ => True) := by
  unfold Linkage.arrayOf
  split
  · apply reading
    intro s _
    split
    · exact pure trivial
    · apply fault
      intro _
      exact Fault.not_isShortage_of_expected (by decide)
  · apply otherFault
    intro _ _ hEq
    cases hEq

theorem elementOf :
    Orderly aligned rt base c (elementOf args)
      (fun _ => True) := by
  unfold Linkage.elementOf
  refine Orderly.bind arrayOf ?_
  rintro d _ ⟨o, vs⟩ _
  dsimp only
  split
  · split
    · exact pure trivial
    · exact otherFault nofun
  · apply fault
    intro _
    exact Fault.not_isShortage_of_expected (by decide)
  · apply fault
    intro _
    exact Fault.not_isShortage_of_expected (by decide)

theorem runArrayGet :
    Orderly aligned rt base c (runArrayGet args)
      (fun _ => True) := by
  unfold Linkage.runArrayGet
  refine Orderly.bind elementOf ?_
  rintro d _ ⟨o, vs, i⟩ _
  dsimp only
  split
  · exact pure trivial
  · apply otherFault
    intro _ _ hEq
    cases hEq

theorem runArraySet :
    Orderly aligned rt base c (runArraySet rt args)
      (fun _ => True) := by
  unfold Linkage.runArraySet
  refine Orderly.bind elementOf ?_
  rintro d _ ⟨o, vs, i⟩ _
  dsimp only
  split
  · refine Orderly.bind (R := fun _ => True) ?_ ?_
    · apply changeHeap
        (fun h => h.setElement o i (splitLast args).1)
      · intro h j u hAt
        exact Heap.at?_setElement_target hAt
      · trivial
    · intro e _ _ _
      exact pure trivial
  · exact otherFault nofun

theorem runArrayLength :
    Orderly aligned rt base c (runArrayLength args)
      (fun _ => True) := by
  unfold Linkage.runArrayLength
  refine Orderly.bind arrayOf ?_
  rintro d _ ⟨o, vs⟩ _
  exact pure trivial

theorem runThrow :
    Orderly aligned rt base c (runThrow args)
      (fun _ => True) := by
  unfold Linkage.runThrow
  split
  · apply otherFault
    intro _ _ hEq
    cases hEq
  · apply otherFault
    intro _ _ hEq
    cases hEq

end Orderly

end Linkage
