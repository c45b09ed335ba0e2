import Linkage.Proofs.Invoke.Entering

/-
  Ways of calling.  A call whose arguments match the
  signature is in line with it; the other ways first retype
  the target, or collect trailing arguments, and then make
  such a call.

  Key theorems include:
    * `Entering.invokeFlexibly`
    * `orderly_interpret`
    * `orderly_enterStub`
-/

------------------------------------------------------------
-- Calls with any Arguments
------------------------------------------------------------

namespace Linkage

variable {aligned : Prop}
variable {rt : Runtime}
variable {base : List Event}
variable {c : Catalog}
variable {enter : Enter}
variable {args : List Value}
variable {t : Target}

namespace Orderly

theorem callType :
    Orderly aligned rt base c (t.callType args)
      (fun _ => True) := by
  unfold Target.callType
  dsimp only
  split
  · apply Orderly.fault
    intro _
    exact Fault.arguments_not_isShortage _ _
  · split
    · exact Orderly.pure trivial
    · apply Orderly.fault
      intro _
      exact Fault.arguments_not_isShortage _ _

/-
  The target of another number of arguments is listed: it is
  the one that collects, what it delegates to, or new.
-/
theorem arityAdapted
    (ht : t ∈ c.made) :
    Keeps (Known rt (CountedSince aligned base))
      (fun d u => u ∈ d.made)
      (fun _ => Proper aligned rt.host) c
      (t.arityAdapted rt args) := by
  have hRefused :
      ¬(Fault.arguments t.signature args).IsShortage :=
    Fault.arguments_not_isShortage _ _
  apply Keeps.relying
  intro s hKnown
  have hWrapped := hKnown.sound.valid.closed t ht
  unfold Target.arityAdapted
  unfold Target.wrapped at hWrapped
  split
  · rename_i u array hForm
    have hu : u ∈ c.made := by
      apply hWrapped
      rw [hForm]
      exact List.mem_singleton.2 rfl
    have hCollect :
        ∀ n,
          Makes rt (CountedSince aligned base) c
            (u.asCollector rt array n) (fun d v => v ∈ d.made) := by
      intro n
      refine (Makes.asCollector hu).imp ?_
      intro d _ v hv
      exact hv.1
    apply Keeps.ite
    · intro _
      exact Keeps.pure hu
    · intro _
      apply Keeps.ite
      · intro _
        apply Keeps.throw
        intro _
        refine ⟨nofun, ?_⟩
        intro _ g hEq
        cases hEq
        exact hRefused
      · intro _
        exact Orderly.ofLink (hCollect _) hRefused
  · exact Keeps.pure ht

end Orderly

theorem Entering.invokeFlexibly
    (hEnter : Entering aligned rt base enter)
    (ht : t ∈ c.made) :
    Orderly aligned rt base c (t.invokeFlexibly rt enter args)
      (fun _ => True) := by
  unfold Target.invokeFlexibly
  refine Keeps.bind
    (Keeps.holding Known.withHeld (rootsOf args)
      (Orderly.arityAdapted ht)) ?_
  intro d _ u hu
  apply Orderly.holding
  refine Orderly.bind Orderly.callType ?_
  intro e he sig _
  exact Entering.invokeTyped hEnter (Catalog.mem_of_le he hu)

------------------------------------------------------------
-- Calls around the Target's own Stub
------------------------------------------------------------

/- Running a target without its stub. -/
theorem orderly_interpret
    {fuel : Nat}
    (hHost : rt.host.MakesNoTargets)
    (hCompile : aligned → rt.compile = .checking)
    (ht : t ∈ c.made)
    (hCount : aligned → args.length = t.count) :
    Orderly aligned rt base c (t.interpret rt fuel args)
      (fun _ => True) :=
  Entering.behave hHost (entering_enter hHost hCompile fuel) ht
    hCount

/-
  Entering a listed target through any stub, with any
  arguments: nothing is then said about what is entered.
-/
theorem orderly_enterStub
    {fuel : Nat}
    {stub : Stub}
    (hHost : rt.host.MakesNoTargets)
    (ht : t ∈ c.made) :
    Orderly False rt base c (enterStub rt fuel stub t args)
      (fun _ => True) := by
  cases fuel with
  | zero => exact Orderly.unfinished
  | succ n =>
      have hEnter :
          Entering False rt base
            (fun u => enterStub rt n u.stub u) :=
        entering_enter hHost False.elim n
      exact
        Entering.throughStub hHost hEnter ht False.elim False.elim
          False.elim

end Linkage
