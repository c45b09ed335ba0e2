import Linkage.Proofs.Caching.Behaviours

/-
  Entering related targets agrees if it does so for their
  delegates: one result or one fault, the same calls of the
  host in the same order.  For targets that are alike it
  agrees at every depth, and targets that are alike are
  entered on the way.  Nothing is asked of the arguments.
  The stubs may be different objects, but they have one key,
  so they take as many arguments.

  Key definitions include:
    * `Together`

  Key theorems include:
    * `Together.behave`
    * `Together.throughStub`
    * `Together.throughStubs`
    * `together_enter`
    * `agree_enterStub`
    * `Together.invokeFlexibly`
-/

------------------------------------------------------------
-- Ways of Entering
------------------------------------------------------------

namespace Linkage

/- Two ways to enter that agree on all that is related. -/
def Together
    (K : Pairing → Target → Target → Prop)
    (rt : Runtime)
    (b : Bool)
    (enter enter' : Enter) : Prop :=
  ∀ w t u args, Kin K w t u →
    Agree rt b w (enter t args) (enter' u args)
      (fun _ a a' => a' = a)

variable {rt : Runtime}
variable {b : Bool}
variable {w v : Pairing}
variable {enter enter' : Enter}
variable {sig : Signature}
variable {args : List Value}
variable {t u x y : Target}
variable {K : Pairing → Target → Target → Prop}
variable [Bond K]

namespace Together

------------------------------------------------------------
-- Filters, Folds, Guards and Handlers
------------------------------------------------------------

/- Filters that were twins before are so in what follows. -/
theorem runFilters
    {i : Nat}
    {fs gs : List (Option Target)}
    (hEnter : Together K rt b enter enter')
    (hFilters : List.Forall₂ (Option.Rel (Kin K w)) fs gs)
    (hLe : w ≤ v) :
    Agree rt b v (runFilters enter sig i fs args)
      (runFilters enter' sig i gs args)
      (fun _ a a' => a' = a) := by
  induction hFilters generalizing i args v with
  | nil => exact .pure rfl
  | cons hop _ ih =>
      cases hop with
      | none => exact ih hLe
      | some hxy =>
          unfold Linkage.runFilters
          cases args[i]? with
          | none => exact .fault _
          | some a =>
              refine .bind_same
                (.holding _ _ (hEnter v _ _ _ (hxy.later hLe))) ?_
              intro z hz c
              exact ih (le_trans hLe hz)

theorem runFold
    (hEnter : Together K rt b enter enter')
    (ht : Kin K w t u)
    (hx : Kin K w x y) :
    Agree rt b w (runFold enter sig t x args)
      (runFold enter' sig u y args) (fun _ a a' => a' = a) := by
  unfold Linkage.runFold
  rw [hx.count_eq, hx.ret_eq]
  refine .bind_same .leadingArgs ?_
  intro v hv first
  refine .bind_same
    (.holding _ _ (hEnter v _ _ _ (hx.later hv))) ?_
  intro z hz a
  have ht' := ht.later (le_trans hv hz)
  apply Agree.ite
  · intro _
    exact hEnter z _ _ _ ht'
  · intro _
    exact hEnter z _ _ _ ht'

theorem runGuard
    {c d : Target}
    (hEnter : Together K rt b enter enter')
    (hc : Kin K w c d)
    (ht : Kin K w t u)
    (hx : Kin K w x y) :
    Agree rt b w (runGuard enter c t x sig args)
      (runGuard enter' d u y sig args)
      (fun _ a a' => a' = a) := by
  unfold Linkage.runGuard
  rw [hc.count_eq]
  refine .bind_same .leadingArgs ?_
  intro v hv first
  refine .bind_same
    (.holding _ _ (hEnter v _ _ _ (hc.later hv))) ?_
  intro z hz a
  have hLe := le_trans hv hz
  split
  · exact hEnter z _ _ _ (ht.later hLe)
  · exact hEnter z _ _ _ (hx.later hLe)
  · exact .fault _

/-
  A handler is run after one and the same fault, in states
  that are twins.
-/
theorem runRescue
    {caught : ClassName}
    (hEnter : Together K rt b enter enter')
    (ht : Kin K w t u)
    (hx : Kin K w x y) :
    Agree rt b w (runRescue rt enter sig t caught x args)
      (runRescue (rt.memoizing b) enter' sig u caught y args)
      (fun _ a a' => a' = a) := by
  unfold Linkage.runRescue
  rw [hx.count_eq]
  refine .bind_same .leadingArgs ?_
  intro v hv first s s' hTwins
  have hMeets :=
    Agree.holding (rootsOf first) (rootsOf first)
      (hEnter v _ _ args (ht.later hv)) s s' hTwins
  dsimp only
  generalize
    Run.holding (rootsOf first) (enter t args) s = r at hMeets
  generalize
    Run.holding (rootsOf first) (enter' u args) s' = r' at hMeets
  cases hMeets with
  | ok hk hTwins' hPost => exact .ok hk hTwins' hPost
  | @error e z z' k hk hTwins' =>
      cases e with
      | outside => exact .error hk hTwins'
      | unfinished => exact .error hk hTwins'
      | fault f =>
          have hx' := hx.later (le_trans hv hk)
          have hHandler :
              Agree rt b k
                (Run.holding f.roots
                  (do
                    let o ← Run.throwable f
                    enter x (.ref o :: first)))
                (Run.holding f.roots
                  (do
                    let o ← Run.throwable f
                    enter' y (.ref o :: first)))
                (fun _ a a' => a' = a) := by
            refine .holding _ _ (.bind_same .throwable ?_)
            intro g hg o
            exact hEnter g _ _ _ (hx'.later hg)
          unfold Runtime.memoizing
          dsimp only
          by_cases hCaught : f.isInstance rt.classes caught = true
          · rw [if_pos hCaught, if_pos hCaught]
            exact (hHandler z z' hTwins').earlier hk
          · rw [if_neg hCaught, if_neg hCaught]
            exact .error hk hTwins'

------------------------------------------------------------
-- Call Sites and Handles
------------------------------------------------------------

theorem runSite
    {i : SiteId}
    (hEnter : Together K rt b enter enter')
    (ht : Kin K w t u) :
    Agree rt b w (runSite enter i args) (runSite enter' i args)
      (fun _ a a' => a' = a) := by
  unfold Linkage.runSite
  apply Agree.get_bind
  intro s s' hTwins
  have hSite := hTwins.siteTwin i
  generalize s.site? i = o at hSite
  generalize s'.site? i = o' at hSite
  cases hSite with
  | none => exact .throw _
  | some hxy =>
      exact .holding _ _ (hEnter w _ _ _ (ht.of_twin hxy.target))

theorem invokeExact
    (hEnter : Together K rt b enter enter')
    (ht : Kin K w t u) :
    Agree rt b w (t.invokeExact rt enter args)
      (u.invokeExact (rt.memoizing b) enter' args)
      (fun _ a a' => a' = a) := by
  unfold Target.invokeExact Target.checkArguments
  rw [ht.signature_eq]
  refine .bind_same (.ite ?_ ?_) ?_
  · intro _
    exact .pure rfl
  · intro _
    exact .fault _
  · intro v hv _
    exact hEnter v _ _ _ (ht.later hv)

theorem invokeExactTyped
    (hEnter : Together K rt b enter enter')
    (ht : Kin K w t u) :
    Agree rt b w (t.invokeExactTyped rt enter sig args)
      (u.invokeExactTyped (rt.memoizing b) enter' sig args)
      (fun _ a a' => a' = a) := by
  unfold Target.invokeExactTyped
  rw [ht.signature_eq]
  apply Agree.ite
  · intro _
    exact invokeExact hEnter ht
  · intro _
    exact .fault _

/- The retyping that is invoked may be remembered or new. -/
theorem invokeTyped
    (hChecking : rt.compile = .checking)
    (hEnter : Together K rt b enter enter')
    (ht : Kin K w t u) :
    Agree rt b w (t.invokeTyped rt enter sig args)
      (u.invokeTyped (rt.memoizing b) enter' sig args)
      (fun _ a a' => a' = a) := by
  unfold Target.invokeTyped
  rw [ht.signature_eq]
  refine .bind
    (.holding _ _ (.ofLink _ (.asType hChecking ht))) ?_
  intro v _ x y hxy
  exact .holding _ _ (invokeExact hEnter hxy)

theorem runInvoker
    {whole : Signature}
    {exact : Bool}
    (hChecking : rt.compile = .checking)
    (hEnter : Together K rt b enter enter')
    (ht : Kin K w t u) :
    Agree rt b w (runInvoker rt enter whole exact sig args)
      (runInvoker (rt.memoizing b) enter' whole exact sig args)
      (fun _ a a' => a' = a) := by
  unfold Linkage.runInvoker
  split
  · exact .fault _
  · rename_i o rest
    apply Agree.get_bind
    intro s s' hTwins
    have hHandle := hTwins.handle? o
    generalize s.heap.handle? o = h at hHandle
    generalize s'.heap.handle? o = h' at hHandle
    cases hHandle with
    | none => exact .fault _
    | some hxy =>
        have hKin := ht.of_twin hxy
        apply Agree.holding
        apply Agree.ite
        · intro _
          exact invokeExactTyped hEnter hKin
        · intro _
          exact invokeTyped hChecking hEnter hKin
  · exact .fault _

------------------------------------------------------------
-- All Behaviours
------------------------------------------------------------

/- What nodes without delegates do. -/
theorem behaveLeaf
    {f : Form Target}
    {i j : Nat}
    {c d : Stub}
    (hChecking : rt.compile = .checking)
    (hHost : rt.host.MakesNoTargets)
    (hSees : rt.host.SameOrBlind w)
    (hEnter : Together K rt b enter enter')
    (ht : Kin K w t u)
    (hLeaf : f.targets = []) :
    Agree rt b w
      ((Target.node i sig c f).behave rt enter args)
      ((Target.node j sig d f).behave (rt.memoizing b) enter'
        args)
      (fun _ a a' => a' = a) := by
  cases f with
  | direct m how entry => exact .runDirect hHost hSees
  | virtual m slot => exact .runVirtual hHost hSees
  | interface m slot => exact .runInterface hHost hSees
  | fieldGet f offset => exact .runFieldGet
  | fieldSet f offset => exact .runFieldSet
  | site i => exact runSite hEnter ht
  | constant a => exact .pure rfl
  | identity =>
      unfold Target.behave
      dsimp only [Target.form, Target.signature]
      cases args.head? with
      | some a => exact .pure rfl
      | none => exact .fault _
  | throw => exact .runThrow
  | arrayGet => exact .runArrayGet
  | arraySet => exact .runArraySet
  | arrayLength => exact .runArrayLength
  | invoker exact s => exact runInvoker hChecking hEnter ht
  | unlinked => exact .fault _
  | _ => cases hLeaf

/-
  What related targets of related forms do with the same
  arguments.
-/
theorem behave
    (hChecking : rt.compile = .checking)
    (hHost : rt.host.MakesNoTargets)
    (hSees : rt.host.SameOrBlind w)
    (hEnter : Together K rt b enter enter')
    (ht : Kin K w t u)
    (hForm : t.form.Rel (Kin K w) u.form) :
    Agree rt b w (t.behave rt enter args)
      (u.behave (rt.memoizing b) enter' args)
      (fun _ a a' => a' = a) := by
  have hSig := ht.signature_eq
  rcases t with ⟨i, sig, c, f⟩
  rcases u with ⟨j, sig', d, g⟩
  have hSame : sig' = sig := hSig
  subst hSame
  change f.Rel (Kin K w) g at hForm
  cases hForm with
  | leaf hLeaf =>
      exact behaveLeaf hChecking hHost hSees hEnter ht hLeaf
  | bound a hu => exact hEnter w _ _ _ hu
  | convertArguments cs hu =>
      refine .bind_same .convertArgs ?_
      intro v hv as
      exact hEnter v _ _ _ (hu.later hv)
  | convertReturn c hu =>
      refine .bind_same (hEnter w _ _ _ hu) ?_
      intro v _ a
      exact .convertValue
  | filterReturn hu hf =>
      unfold Target.behave
      dsimp only [Target.form]
      rw [hu.ret_eq]
      refine .bind_same (hEnter w _ _ _ hu) ?_
      intro v hv a
      exact hEnter v _ _ _ (hf.later hv)
  | filterArguments pos hu hfs =>
      refine .bind_same (runFilters hEnter hfs (le_refl w)) ?_
      intro v hv as
      exact hEnter v _ _ _ (hu.later hv)
  | collect component count hu =>
      refine .bind_same .collectArgs ?_
      intro v hv as
      exact hEnter v _ _ _ (hu.later hv)
  | spread count hu =>
      refine .bind_same .spreadArgs ?_
      intro v hv as
      exact hEnter v _ _ _ (hu.later hv)
  | permute order hu =>
      refine .bind_same .permuteArgs ?_
      intro v hv as
      exact .holding _ _ (hEnter v _ _ _ (hu.later hv))
  | insert pos vs hu =>
      refine .bind_same .insertArgs ?_
      intro v hv as
      exact hEnter v _ _ _ (hu.later hv)
  | drop pos count hu =>
      refine .bind_same .dropArgs ?_
      intro v hv as
      exact hEnter v _ _ _ (hu.later hv)
  | fold hu hc => exact runFold hEnter hu hc
  | guard hc hu he => exact runGuard hEnter hc hu he
  | rescue caught hu hh => exact runRescue hEnter hu hh
  | varargs array hu => exact hEnter w _ _ _ hu

------------------------------------------------------------
-- Stubs
------------------------------------------------------------

/- Stubs of one key that take as many arguments. -/
theorem throughStub
    {n : Nat}
    {stub stub' : Stub}
    (hChecking : rt.compile = .checking)
    (hHost : rt.host.MakesNoTargets)
    (hSees : rt.host.SameOrBlind w)
    (hEnter :
      Together K rt b (fun u => enterStub rt n u.stub u)
        (fun u => enterStub (rt.memoizing b) n u.stub u))
    (hKey : stub'.key = stub.key)
    (hArity : stub'.arity = stub.arity)
    (hAlike : t.Alike u)
    (ht : Kin K w t u) :
    Agree rt b w (enterStub rt (n + 1) stub t args)
      (enterStub (rt.memoizing b) (n + 1) stub' u args)
      (fun _ a a' => a' = a) := by
  have hWrong : wrongCount stub' args = wrongCount stub args := by
    unfold wrongCount
    rw [hKey, hArity]
  unfold enterStub
  rw [hArity, hWrong]
  refine .bind_same (.change ?_ rfl) ?_
  · intro s s' hTwins
    exact hTwins.log (.entered args hAlike) (fun _ => rfl)
  · intro v hv _
    apply Agree.ite
    · intro _
      have ht' : Kin K v t u := ht.later hv
      apply Agree.relying
      intro s s' hTwins
      apply
        behave hChecking hHost (hSees.later hv) hEnter ht'
          (ht'.delegates hTwins _)
      exact hAlike.form.imp (fun _ _ => ht'.congruence.of_alike)
    · intro _
      exact .fault _

/-
  Entering through the targets' own stubs agrees at every
  depth, if what is related is alike, and the host sees the
  same or is blind.
-/
theorem throughStubs
    (hChecking : rt.compile = .checking)
    (hHost : rt.host.MakesNoTargets)
    (hAlike : ∀ w t u, K w t u → t.Alike u)
    (hSees : ∀ w t u, K w t u → rt.host.SameOrBlind w)
    (fuel : Nat) :
    Together K rt b (Target.enter rt fuel)
      (Target.enter (rt.memoizing b) fuel) := by
  change
    Together K rt b (fun u => enterStub rt fuel u.stub u)
      (fun u => enterStub (rt.memoizing b) fuel u.stub u)
  induction fuel with
  | zero =>
      intro w t u args _
      exact .throw _
  | succ n ih =>
      intro w t u args ht
      apply Agree.relying
      intro s s' hTwins
      have hLeft := hTwins.left.valid.serves t ht.left
      have hRight := hTwins.right.valid.serves u ht.right
      have hChecking' : (rt.memoizing b).compile = .checking :=
        hChecking
      have hArity : u.stub.arity = t.stub.arity := by
        rw [hLeft.arity_eq hChecking, hRight.arity_eq hChecking',
          ht.signature_eq]
      have htu : t.Alike u := hAlike w t u ht.alike
      exact
        throughStub hChecking hHost (hSees w t u ht.alike) ih
          htu.key_eq hArity htu ht

end Together

theorem together_enter
    (hChecking : rt.compile = .checking)
    (hHost : rt.host.MakesNoTargets)
    (hBlind : rt.host.IsBlind)
    (fuel : Nat) :
    Together (fun _ => Target.Alike) rt b (Target.enter rt fuel)
      (Target.enter (rt.memoizing b) fuel) :=
  .throughStubs hChecking hHost (fun _ _ _ h => h)
    (fun _ _ _ _ => .inr hBlind) fuel

/- Entering twins through stubs of one key, at any depth. -/
theorem agree_enterStub
    {fuel : Nat}
    {stub stub' : Stub}
    (hChecking : rt.compile = .checking)
    (hHost : rt.host.MakesNoTargets)
    (hBlind : rt.host.IsBlind)
    (hKey : stub'.key = stub.key)
    (hArity : stub'.arity = stub.arity)
    (ht : Twin w t u) :
    Agree rt b w (enterStub rt fuel stub t args)
      (enterStub (rt.memoizing b) fuel stub' u args)
      (fun _ a a' => a' = a) := by
  cases fuel with
  | zero => exact .throw _
  | succ n =>
      exact
        Together.throughStub hChecking hHost (.inr hBlind)
          (together_enter hChecking hHost hBlind n) hKey hArity
          ht.alike ht

------------------------------------------------------------
-- Calls with any Arguments
------------------------------------------------------------

namespace Together

theorem callType
    (ht : Kin K w t u) :
    Agree rt b w (t.callType args) (u.callType args)
      (fun _ a a' => a' = a) := by
  unfold Target.callType
  rw [ht.signature_eq, ht.count_eq,
    ht.ret_eq, ht.params_eq]
  apply Agree.ite
  · intro _
    exact .fault _
  · intro _
    cases
      Signature.build t.ret (List.zipWith Target.slotType args t.params)
    with
    | ok s => exact .pure rfl
    | error e => exact .fault _

theorem arityAdapted
    (hChecking : rt.compile = .checking)
    (ht : Kin K w t u)
    (hForm : t.form.Rel (Kin K w) u.form) :
    Agree rt b w (t.arityAdapted rt args)
      (u.arityAdapted (rt.memoizing b) args) (Kin K) := by
  unfold Target.arityAdapted
  rw [ht.signature_eq, ht.count_eq,
    ht.params_eq]
  generalize t.form = f at hForm
  generalize u.form = g at hForm
  cases hForm with
  | varargs array hxy =>
      dsimp only
      apply Agree.ite
      · intro _
        exact .pure hxy
      · intro _
        apply Agree.ite
        · intro _
          exact .fault _
        · intro _
          exact .ofLink _ (.asCollector hChecking hxy)
  | leaf hLeaf =>
      cases f with
      | varargs x array => cases hLeaf
      | _ => exact .pure ht
  | _ => exact .pure ht

/- Calls of targets that adapt to the arguments alike. -/
theorem invokeFlexibly
    (hChecking : rt.compile = .checking)
    (hEnter : Together K rt b enter enter')
    (hAdapted :
      Agree rt b w (t.arityAdapted rt args)
        (u.arityAdapted (rt.memoizing b) args) (Kin K)) :
    Agree rt b w (t.invokeFlexibly rt enter args)
      (u.invokeFlexibly (rt.memoizing b) enter' args)
      (fun _ a a' => a' = a) := by
  unfold Target.invokeFlexibly
  refine .bind (.holding _ _ hAdapted) ?_
  intro v _ x y hxy
  refine .holding _ _ (.bind_same (callType hxy) ?_)
  intro z hz sig
  exact invokeTyped hChecking hEnter (hxy.later hz)

end Together

end Linkage
