import Linkage.Proofs.Session.Folding
import Linkage.Proofs.Session.RoundTrip

/-
  Guards that throw again what they catch.  Such a guard gives
  the values of its target, and fails if that fails.  What it
  throws is of the exception class of the fault that it caught,
  so all guards around it treat both alike; what was thrown as
  an object is thrown as the same object.  All other faults
  are passed on as they are.

  Key definitions include:
    * `Fault.PassedAs`
    * `Run.PassedOn`
    * `Target.ThrowsAgain`

  Key theorems include:
    * `Run.throwable_passes`
    * `Run.PassedOn.catching`
    * `Target.ThrowsAgain.enter`
    * `Session.rethrowing_transparent`
-/

------------------------------------------------------------
-- Faults that are Passed on
------------------------------------------------------------

namespace Linkage

variable {α : Type}
variable {T : ClassTable}
variable {rt : Runtime}
variable {c : Catalog}
variable {s : State}
variable {f f' : Fault}
variable {caught : ClassName}
variable {t k g : Target}
variable {ts : List Target}
variable {args : List Value}

/-
  A fault is passed on as another one of its exception class,
  which all guards treat alike.  An object that was thrown is
  thrown again.
-/
structure Fault.PassedAs
    (T : ClassTable)
    (f f' : Fault) : Prop where
  class_eq : f'.exceptionClass = f.exceptionClass
  caught_eq : ∀ n, f'.isInstance T n = f.isInstance T n
  thrown_eq : ∀ o, f = .thrown o → f' = .thrown o

theorem Fault.PassedAs.of_class_eq
    (hClass : f'.exceptionClass = f.exceptionClass)
    (hThrown : ∀ o, f = .thrown o → f' = .thrown o) :
    f.PassedAs T f' := by
  refine ⟨hClass, fun n => ?_, hThrown⟩
  unfold isInstance
  rw [hClass]

theorem Fault.PassedAs.refl (f : Fault) :
    f.PassedAs T f :=
  .of_class_eq rfl (fun _ hEq => hEq)

/- The heap, which may have the throwable of a fault besides. -/
def Heap.WithThrowable
    (f : Fault)
    (h h' : Heap) : Prop :=
  h' = h ∨
    h' = (h.allocThrowable f.exceptionClass (some f.message)).2

/-
  An outcome is passed on: a value as it is, a fault as one
  that guards treat alike, and any other halt as it is.
-/
inductive Run.PassedOn
    (T : ClassTable) :
    EStateM.Result Halt State α →
      EStateM.Result Halt State α → Prop
| value
    {a : α}
    {z z' : State} :
    z.Same z' → PassedOn T (.ok a z) (.ok a z')
| fault
    {f f' : Fault}
    {h : Heap}
    {z z' : State} :
    f.PassedAs T f' → z.heap.WithThrowable f h →
      State.Same { z with heap := h } z' →
        PassedOn T (.error (.fault f) z) (.error (.fault f') z')
| halt
    {e : Halt}
    {z z' : State} :
    (∀ f, e ≠ .fault f) → z.Same z' →
      PassedOn T (.error e z) (.error e z')

/- A throwable of a fault stands for it. -/
theorem Run.throwable_passes
    (T : ClassTable)
    (f : Fault)
    (s : State) :
    ∃ o h,
      Run.throwable f s = .ok o { s with heap := h } ∧
        f.PassedAs T (.thrown o) ∧ s.heap.WithThrowable f h := by
  cases f with
  | thrown o => exact ⟨o, s.heap, rfl, .refl _, .inl rfl⟩
  | _ => exact ⟨_, _, rfl, .of_class_eq rfl nofun, .inr rfl⟩

namespace Run.PassedOn

variable {r r' x x' : EStateM.Result Halt State α}

theorem of_same
    (hSame : Run.Same r r') :
    Run.PassedOn T r r' := by
  cases hSame with
  | ok hStates => exact .value hStates
  | @error e z z' hStates =>
      cases e with
      | fault f => exact .fault (.refl f) (.inl rfl) hStates
      | outside => exact .halt nofun hStates
      | unfinished => exact .halt nofun hStates

theorem congr
    (hLeft : Run.Same x r)
    (hPassed : Run.PassedOn T r r')
    (hRight : Run.Same r' x') :
    Run.PassedOn T x x' := by
  cases hPassed with
  | value hStates =>
      cases hLeft with
      | ok hBefore =>
          cases hRight with
          | ok hAfter =>
              exact .value ((hBefore.trans hStates).trans hAfter)
  | @fault f f' h z z' hAs hHeap hStates =>
      cases hLeft with
      | @error _ y _ hBefore =>
          cases hRight with
          | error hAfter =>
              refine .fault (h := h) hAs (hBefore.heap_eq ▸ hHeap) ?_
              have hFirst :
                  State.Same { y with heap := h }
                    { z with heap := h } :=
                ⟨rfl, hBefore.sites_eq, hBefore.calls_eq⟩
              exact (hFirst.trans hStates).trans hAfter
  | halt hOther hStates =>
      cases hLeft with
      | error hBefore =>
          cases hRight with
          | error hAfter =>
              exact
                .halt hOther ((hBefore.trans hStates).trans hAfter)

/- An end is passed on as an end. -/
theorem ended_iff
    (hPassed : Run.PassedOn T r r') :
    Run.Ended r ↔ Run.Ended r' := by
  unfold Run.Ended
  cases hPassed with
  | value _ => exact Iff.rfl
  | fault _ _ _ => exact ⟨fun _ => nofun, fun _ => nofun⟩
  | halt _ _ => exact Iff.rfl

/- So are all outcomes if a guard only passes faults on. -/
theorem catching
    {m : Run α}
    {handler : Fault → Run α}
    (hHandler :
      ∀ f z, Run.PassedOn T (.error (.fault f) z) (handler f z))
    (caught : ClassName)
    (s : State) :
    Run.PassedOn T (m s) (Run.catching T caught m handler s) := by
  unfold Run.catching
  cases m s with
  | ok a z => exact of_same (.refl _)
  | error e z =>
      cases e with
      | outside => exact of_same (.refl _)
      | unfinished => exact of_same (.refl _)
      | fault f =>
          dsimp only
          split
          · exact hHandler f z
          · exact of_same (.refl _)

end Run.PassedOn

------------------------------------------------------------
-- Guards that Throw again
------------------------------------------------------------

namespace Target

/- A guard of a target that throws again what it catches. -/
structure ThrowsAgain
    (g : Target)
    (caught : ClassName)
    (k t : Target) : Prop where
  guards : g.form = .rescue t caught k
  throws : k.form = .throw
  params_eq : k.params = [.cls caught]
  signature_eq : g.signature = t.signature

/- A target that throws its argument. -/
theorem enter_throw
    (hForm : k.form = .throw)
    (hArity : k.stub.arity = 1)
    (o : Obj)
    (n : Nat)
    (s : State) :
    enter rt (n + 1) k [.ref o] s =
      .error (.fault (.thrown o)) (s.passed (some k) [.ref o]) := by
  have hCount : [Value.ref o].length = k.stub.arity := hArity.symm
  rw [enter_succ hCount,
    Run.bind_ok (pass_eq (some k) [.ref o] s)]
  unfold behave
  rw [hForm]
  rfl

namespace ThrowsAgain

variable (hThrows : g.ThrowsAgain caught k t)
include hThrows

theorem behave_eq
    (e : Enter)
    (args : List Value) :
    g.behave rt e args =
      Run.catching rt.classes caught (Run.holding [] (e t args))
        (fun f =>
          Run.holding f.roots
            (Run.throwable f >>= fun o => e k [.ref o])) := by
  have hKept : k.count - 1 = 0 := by
    unfold count Signature.count
    change k.params.length - 1 = 0
    rw [hThrows.params_eq]
    rfl
  unfold behave
  rw [hThrows.guards]
  dsimp only
  rw [Course.runRescue_eq, hKept]
  rfl

/- What is thrown again is what the fault is passed on as. -/
theorem throws_again
    (hArity : k.stub.arity = 1)
    (n : Nat)
    (f : Fault)
    (z : State) :
    Run.PassedOn T (.error (.fault f) z)
      (Run.holding f.roots
        (Run.throwable f >>= fun o =>
          Target.enter rt (n + 1) k [.ref o]) z) := by
  rcases
    Run.throwable_passes T f { z with held := f.roots ++ z.held }
    with ⟨o, h, hRun, hAs, hHeap⟩
  unfold Run.holding
  rw [Run.bind_ok hRun, enter_throw hThrows.throws hArity]
  exact .fault (h := h) hAs hHeap ⟨rfl, rfl, rfl⟩

/- What comes of the target is passed on by the guard. -/
theorem enter
    (hChecking : rt.compile = .checking)
    (hHost : rt.host.MakesNoTargets)
    (hSound : s.Sound rt c)
    (hg : g ∈ c.made)
    (hCount : args.length = t.count)
    (n : Nat) :
    Run.PassedOn rt.classes (Target.enter rt (n + 1) t args s)
      (Target.enter rt (n + 2) g args s) := by
  have hValid := hSound.valid
  have ht : t ∈ c.made :=
    hValid.delegate hg hThrows.guards (by simp [Form.targets])
  have hk : k ∈ c.made :=
    hValid.delegate hg hThrows.guards (by simp [Form.targets])
  have hOne : k.stub.arity = 1 := by
    rw [(hValid.serves k hk).arity_eq hChecking]
    change k.params.length = 1
    rw [hThrows.params_eq]
    rfl
  have hArity : args.length = g.stub.arity := by
    rw [(hValid.serves g hg).arity_eq hChecking,
      hThrows.signature_eq]
    exact hCount
  rw [enter_succ hArity, hThrows.behave_eq,
    Run.bind_ok (pass_eq (some g) args s)]
  have hPassed := (State.Same.refl s).logEntry g args
  have hInner :
      Run.Same (Target.enter rt (n + 1) t args s)
        (Run.holding [] (Target.enter rt (n + 1) t args)
          (s.passed (some g) args)) :=
    Run.Same.holding
      (enter_same hChecking hHost (hPassed.withHeld _) hSound
        ((sound_passed hSound (some g) args).withHeld _) ht ht
        (n + 1) args)
  exact
    .congr hInner
      (.catching (hThrows.throws_again hOne n) caught _) (.refl _)

end ThrowsAgain

/- In all ways of calling, the guard passes on what comes. -/
theorem ThrowsAgain.callsRelate
    (hThrows : g.ThrowsAgain caught k t)
    (hChecking : rt.compile = .checking)
    (hHost : rt.host.MakesNoTargets)
    (hKnows : s.Knows rt [t, g])
    (hAdmits : admits rt.classes t.signature args = true) :
    CallsRelate rt args (Run.PassedOn rt.classes) t s g s := by
  rcases hKnows with ⟨c, hFits, hSound, hMade⟩
  have ht := hMade t (by simp)
  have hg := hMade g (by simp)
  have hAdmits' : admits rt.classes g.signature args = true := by
    rw [hThrows.signature_eq]
    exact hAdmits
  intro e e' hSuits hSuits'
  rcases
    Entry.run_enters hChecking hHost hFits hSound ht hAdmits hSuits
    with ⟨i, j, hEnters⟩
  rcases
    Entry.run_enters hChecking hHost hFits hSound hg hAdmits' hSuits'
    with ⟨i', j', hEnters'⟩
  apply
    Entry.comesTo_of_related (j := i' + 1 + j) (k := i + 2 + j')
      (fun _ _ hPassed => hPassed.ended_iff)
  intro n
  have hLeft := hEnters (n + i' + 1)
  have hRight := hEnters' (n + i + 2)
  have hHere :=
    hThrows.enter hChecking hHost hSound hg
      (length_of_admits hAdmits) (n + i + i')
  have hDepth : n + i' + 1 + i = n + i + i' + 1 := by omega
  have hDepth' : n + i + 2 + i' = n + i + i' + 2 := by omega
  rw [hDepth] at hLeft
  rw [hDepth'] at hRight
  have hBoth := hHere.congr hLeft.symm hRight
  simp only [Nat.add_assoc] at hBoth ⊢
  exact hBoth

end Target

------------------------------------------------------------
-- Making such Guards
------------------------------------------------------------

namespace State.Knows

variable (hKnows : s.Knows rt ts)
variable (hChecking : rt.compile = .checking)
variable (hThrowable : rt.classes.isThrowable caught = true)
include hKnows hChecking hThrowable

/- A throwable class may be thrown in place of any result. -/
theorem throwException_ok (ret : Ty) :
    ∃ k s',
      Target.throwException rt ret caught s = .ok k s' ∧
        s'.Knows rt (k :: ts) ∧ k.params = [.cls caught] ∧
        k.ret = ret ∧ k.form = .throw := by
  have hAdmissible : Admissible [.cls caught] :=
    ⟨List.forall_mem_singleton.2 rfl, Nat.le_of_ble_eq_true rfl⟩
  have hBuild :
      Target.throwException rt ret caught s =
        (do
          let sig ←
            Link.ofSignature (Signature.build ret [.cls caught])
          Target.build rt sig .throw : Link Target) s := by
    unfold Target.throwException
    rw [hThrowable]
    rfl
  rcases
    hKnows.elementary_ok hChecking hAdmissible hBuild rfl
      (fun _ => Makes.throwException)
    with ⟨k, s', hRun, hKnows', hForm, hParams, hRet⟩
  exact ⟨k, s', hRun, hKnows', hParams, hRet, hForm⟩

/- What throws its argument may handle what is caught. -/
theorem catchException_ok
    (ht : t ∈ ts)
    (hk : k ∈ ts)
    (hParams : k.params = [.cls caught])
    (hRet : k.ret = t.ret)
    (hForm : k.form = .throw) :
    ∃ g s',
      t.catchException rt caught k s = .ok g s' ∧
        s'.Knows rt (g :: ts) ∧ g.ThrowsAgain caught k t := by
  have hTargets : ∀ u ∈ (Form.rescue t caught k).targets, u ∈ ts :=
    List.forall_mem_cons.2
      ⟨ht, List.forall_mem_singleton.2 hk⟩
  have hBuild :
      t.catchException rt caught k s =
        Target.build rt t.signature (.rescue t caught k) s := by
    have hOne : 1 ≤ k.signature.count := by
      change 1 ≤ k.params.length
      rw [hParams]
      exact Nat.le_refl 1
    rcases Signature.dropParams_ok (Nat.zero_le 1) hOne with
      ⟨rest, hRest, hLeft, _⟩
    have hNone : rest.params = [] := by
      rw [hLeft]
      change ([] : List Ty) ++ k.params.drop 1 = []
      rw [hParams]
      rfl
    have hLeading : checkLeading rest.params t.signature = pure () :=
      checkLeading_ok (hNone ▸ List.nil_prefix)
    unfold Target.catchException
    rw [hThrowable, hParams, hRest, hRet]
    dsimp only [List.head?_cons]
    rw [if_neg (by decide), if_neg (fun hNot => hNot rfl),
      if_neg (fun hNot => hNot rfl)]
    change (checkLeading rest.params t.signature >>= _) s = _
    rw [hLeading]
    rfl
  rcases
    hKnows.buildKeyed_ok hChecking hBuild hTargets (Or.inl rfl)
      (fun _ hMade => Makes.catchException (hMade t ht) (hMade k hk))
    with ⟨g, s', hRun, hKnows', hGuards, hSig⟩
  exact
    ⟨g, s', hRun, hKnows', hGuards, hForm, hParams, hSig⟩

end State.Knows

------------------------------------------------------------
-- Guards of Named Targets
------------------------------------------------------------

namespace Session

variable {s : Session}

/-
  A named target, and a guard of it that throws again what it
  catches of a throwable class.  The guard can be made in any
  state that knows the target, and is of its signature.  On
  arguments that match, it gives what the target gives, and
  fails if that fails: with a fault of the same exception
  class, with the same object if one was thrown.
-/
theorem rethrowing_transparent
    (hFresh : s.IsFresh)
    (hChecking : s.context.runtime.compile = .checking)
    (hHost : s.context.runtime.host.MakesNoTargets)
    (xs : List Step)
    (hNamed : (s.after xs).context.Names t)
    (hThrowable :
      s.context.runtime.classes.isThrowable caught = true) :
    let rt := s.context.runtime
    (s.after xs).state.Knows rt [t] ∧
      ∀ r : State, r.Knows rt [t] →
        ∃ k r',
          Target.throwException rt t.ret caught r = .ok k r' ∧
          r'.Knows rt [k, t] ∧
          ∀ z : State, z.Knows rt [k, t] →
            ∃ g z',
              t.catchException rt caught k z = .ok g z' ∧
                z'.Knows rt [g, k, t] ∧
                g.signature = t.signature ∧
                ∀ (q : State) (args : List Value),
                  q.Knows rt [t, g] →
                    Target.admits rt.classes t.signature args =
                        true →
                      Target.CallsRelate rt args
                        (Run.PassedOn rt.classes) t q g q := by
  intro rt
  rcases named_after hFresh hHost xs with ⟨c, hFits, hSound, hMade⟩
  refine
    ⟨⟨c, hFits, hSound,
      List.forall_mem_singleton.2 (hMade t hNamed)⟩, ?_⟩
  intro r hKnows
  rcases hKnows.throwException_ok hChecking hThrowable t.ret with
    ⟨k, r', hThrow, hKnows', hParams, hRet, hForm⟩
  refine ⟨k, r', hThrow, hKnows', ?_⟩
  intro z hNow
  rcases
    hNow.catchException_ok hChecking hThrowable (.tail k (.head _))
      (.head _) hParams hRet hForm
    with ⟨g, z', hCatch, hLater, hThrows⟩
  refine ⟨g, z', hCatch, hLater, hThrows.signature_eq, ?_⟩
  intro q args hBoth hAdmits
  exact hThrows.callsRelate hChecking hHost hBoth hAdmits

/- A target that reads elements of an array. -/
def reading : List Step :=
  [.make (.arrayGetter (.array .int)) (some "get")]

/- No array to read from. -/
def nowhere : List Value :=
  [.null, .prim (.int 0)]

def nullPointer : ClassName :=
  ⟨"java.lang.NullPointerException"⟩

/- Whether an outcome is a fault of a class. -/
def isFaultOf
    (n : ClassName) : EStateM.Result Halt State Value → Bool
| .error (.fault f) _ => f.exceptionClass = n
| _ => false

theorem exists_of_isFaultOf
    {n : ClassName}
    {r : EStateM.Result Halt State Value}
    (hFault : isFaultOf n r = true) :
    ∃ f z, r = .error (.fault f) z ∧ f.exceptionClass = n := by
  unfold isFaultOf at hFault
  split at hFault
  · rename_i f z
    exact ⟨f, z, rfl, of_decide_eq_true hFault⟩
  · cases hFault

/-
  Whether a named target takes no array, but fails for the
  lack of one when a guard for throwables has been made.
-/
def failsNowhere
    (s : Session)
    (n : String) : Bool :=
  let rt := s.context.runtime
  match s.context.names.targets.lookup n with
  | none => false
  | some t =>
      rt.classes.isThrowable .throwable &&
        Target.admits rt.classes t.signature nowhere &&
        match Target.throwException rt t.ret .throwable s.state with
        | .error _ _ => false
        | .ok k r =>
            match t.catchException rt .throwable k r with
            | .error _ _ => false
            | .ok _ z =>
                isFaultOf nullPointer
                  ((Entry.way .exact).run rt 9 t nowhere z)

/- The guard fails with a fault of the same class. -/
theorem rethrowing_transparent_null :
    ∃ t k g r z f q,
      (known.after reading).context.Names t ∧
        Target.throwException known.context.runtime t.ret
          .throwable (known.after reading).state = .ok k r ∧
        t.catchException known.context.runtime .throwable k r =
          .ok g z ∧
        (Entry.way .exact).ComesTo known.context.runtime g nowhere z
          (.error (.fault f) q) ∧
        f.exceptionClass = nullPointer := by
  have hCheck : failsNowhere (known.after reading) "get" = true := by
    decide +kernel
  unfold failsNowhere at hCheck
  rw [runtime_after] at hCheck
  dsimp only at hCheck
  split at hCheck
  · cases hCheck
  · rename_i t hLookup
    have hNamed := names_of_lookup hLookup
    have hHost := World.host_makesNoTargets (.initial .wellKnown)
    simp only [Bool.and_eq_true] at hCheck
    rcases hCheck with ⟨⟨hThrowable, hAdmits⟩, hCheck⟩
    rcases
      rethrowing_transparent known_isFresh rfl hHost reading hNamed
        hThrowable
      with ⟨hKnows, hMade⟩
    rcases hMade _ hKnows with ⟨k, r, hThrow, hKnows', hGuarded⟩
    rcases hGuarded r hKnows' with
      ⟨g, z, hCatch, hLater, _, hRelates⟩
    rw [hThrow] at hCheck
    dsimp only at hCheck
    rw [hCatch] at hCheck
    rcases exists_of_isFaultOf hCheck with ⟨f, y, hRun, hClass⟩
    have hComes :
        (Entry.way .exact).ComesTo known.context.runtime t nowhere z
          (.error (.fault f) y) :=
      ⟨nofun, 9, hRun⟩
    rcases
      hRelates z nowhere (hLater.mono (by simp)) hAdmits
        (.way .exact) (.way .exact) ⟨trivial, by simp⟩
        ⟨trivial, by simp⟩
      with ⟨hEnds, hAlike⟩
    rcases hEnds.1 ⟨_, hComes⟩ with ⟨p, hOther⟩
    cases hAlike _ _ hComes hOther with
    | @fault _ f' _ _ q hAs _ _ =>
        exact
          ⟨t, k, g, r, z, f', q, hNamed, hThrow, hCatch, hOther,
            hAs.class_eq.trans hClass⟩
    | halt hNot _ => exact absurd rfl (hNot f)

end Session

end Linkage
