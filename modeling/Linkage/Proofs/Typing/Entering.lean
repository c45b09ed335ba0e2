import Linkage.Proofs.Invoke.Entering
import Linkage.Proofs.Typing.Edits
import Linkage.Proofs.Typing.Watch

/-
  Entering targets keeps types.  Each behaviour enters its
  delegates with arguments of their parameter types, because
  its form fits its signature, and so gives a value of its
  own result type.  By induction on the fuel, a watched run
  never stops outside.

  Key definitions include:
    * `Target.Ready`
    * `TypedEntry`

  Key theorems include:
    * `TypedEntry.runRescue`
    * `TypedEntry.runInvoker`
    * `TypedEntry.behave`
    * `typedEntry_enterWatched`
-/

------------------------------------------------------------
-- Ways of Entering
------------------------------------------------------------

namespace Linkage

/- A listed target that holds only what is in play. -/
structure Target.Ready
    (w : Stage)
    (t : Target) : Prop where
  listed : t ∈ w.catalog.made
  good : t.Good w.store

/-
  A way to enter targets with arguments that fit, for results
  that fit, from a store on.
-/
def TypedEntry
    (rt : Runtime)
    (L : Layout)
    (S : Store)
    (enter : Enter) : Prop :=
  ∀ (w : Stage) (u : Target) (as : List Value),
    S ≤ w.store → u.Ready w →
      ArgsFit rt.classes w.store as u.params →
        Safe rt L w (enter u as)
          (fun v a => a.Fits rt.classes v.store u.ret)

variable {rt : Runtime}
variable {L : Layout}
variable {S : Store}
variable {w v : Stage}
variable {enter : Enter}
variable {args : List Value}
variable {ps qs : List Ty}
variable {sig : Signature}
variable {t u : Target}

theorem Target.Ready.later
    (hReady : t.Ready w)
    (hLe : w ≤ v) :
    t.Ready v :=
  ⟨Catalog.mem_of_le hLe.1 hReady.listed,
    hReady.good.later hLe.2⟩

namespace TypedEntry

------------------------------------------------------------
-- Filters, Folds, Guards and Handlers
------------------------------------------------------------

/- Filters turn the outer arguments into the inner ones. -/
theorem runFilters
    {i : Nat}
    {fs : List (Option Target)}
    (hEnter : TypedEntry rt L S enter)
    (hLe : S ≤ w.store)
    (hReady : ∀ f, some f ∈ fs → f.Ready w)
    (hFiltered : Filtered i fs ps qs)
    (hArgs : ArgsFit rt.classes w.store args ps) :
    Safe rt L w (runFilters enter sig i fs args)
      (fun v vs => ArgsFit rt.classes v.store vs qs) := by
  induction fs generalizing i args ps w with
  | nil =>
      apply Safe.pure
      rw [← hFiltered.done]
      exact hArgs
  | cons o fs ih =>
      have hRest : ∀ f, some f ∈ fs → f.Ready w := by
        intro f hf
        exact hReady f (List.mem_cons_of_mem o hf)
      cases o with
      | none => exact ih hLe hRest hFiltered.skip hArgs
      | some f =>
          rcases hFiltered.filtered 0 f rfl with
            ⟨p, hSingle, hOuter, _⟩
          rcases hArgs.exists_get hOuter with ⟨a, hGet, hFits⟩
          rw [Nat.add_zero] at hGet
          unfold Linkage.runFilters
          rw [hGet]
          have hArg :
              ArgsFit rt.classes w.store [a] f.params := by
            rw [hSingle]
            exact .cons hFits .nil
          refine Safe.bind
            (Safe.holding _
              (hEnter w f [a] hLe
                (hReady f List.mem_cons_self) hArg)) ?_
          intro v hv b hb
          apply ih (le_trans hLe hv.2)
          · intro g hg
            exact (hRest g hg).later hv
          · exact hFiltered.pass
          · exact (ArgsFit.later hArgs hv.2).set hb

theorem runFold
    (hEnter : TypedEntry rt L S enter)
    (hLe : S ≤ w.store)
    (ht : t.Ready w)
    (hu : u.Ready w)
    (hInner : t.params = Target.filterParams u.ret ++ ps)
    (hLeading : u.params <+: ps)
    (hArgs : ArgsFit rt.classes w.store args ps) :
    Safe rt L w (runFold enter sig t u args)
      (fun v a => a.Fits rt.classes v.store t.ret) := by
  unfold Linkage.runFold
  refine Safe.bind
    (Safe.leadingArgs hArgs hLeading (Target.count_eq u)) ?_
  rintro _ _ first ⟨rfl, hFirst⟩
  refine Safe.bind
    (Safe.holding _ (hEnter _ u first hLe hu hFirst)) ?_
  intro v hv a ha
  have hLe' := le_trans hLe hv.2
  have hArgs' := ArgsFit.later hArgs hv.2
  unfold Target.filterParams at hInner
  split
  · rename_i hVoid
    rw [if_pos hVoid] at hInner
    apply hEnter v t args hLe' (ht.later hv)
    rw [hInner]
    exact hArgs'
  · rename_i hVoid
    rw [if_neg hVoid] at hInner
    apply hEnter v t _ hLe' (ht.later hv)
    rw [hInner]
    exact .cons ha hArgs'

theorem runGuard
    {test yes no : Target}
    (hEnter : TypedEntry rt L S enter)
    (hLe : S ≤ w.store)
    (hTest : test.Ready w)
    (hYes : yes.Ready w)
    (hNo : no.Ready w)
    (hLeading : test.params <+: sig.params)
    (hYesSig : yes.signature = sig)
    (hNoSig : no.signature = sig)
    (hArgs : ArgsFit rt.classes w.store args sig.params) :
    Safe rt L w (runGuard enter test yes no sig args)
      (fun v a => a.Fits rt.classes v.store sig.ret) := by
  unfold Linkage.runGuard
  refine Safe.bind
    (Safe.leadingArgs hArgs hLeading (Target.count_eq test)) ?_
  rintro _ _ first ⟨rfl, hFirst⟩
  refine Safe.bind
    (Safe.holding _ (hEnter _ test first hLe hTest hFirst)) ?_
  intro v hv a _
  have hLe' := le_trans hLe hv.2
  have hArgs' := ArgsFit.later hArgs hv.2
  split
  · subst hYesSig
    exact hEnter v yes args hLe' (hYes.later hv) hArgs'
  · subst hNoSig
    exact hEnter v no args hLe' (hNo.later hv) hArgs'
  · exact Safe.plainFault nofun

/-
  A handler is entered with an object of the class that it
  catches: what is thrown is an object of a class.
-/
theorem runRescue
    {caught : ClassName}
    (hEnter : TypedEntry rt L S enter)
    (hLe : S ≤ w.store)
    (ht : t.Ready w)
    (hu : u.Ready w)
    (hTarget : t.signature = sig)
    (hHandler : u.params = .cls caught :: ps)
    (hLeading : ps <+: sig.params)
    (hRet : u.ret = sig.ret)
    (hArgs : ArgsFit rt.classes w.store args sig.params) :
    Safe rt L w (runRescue rt enter sig t caught u args)
      (fun v a => a.Fits rt.classes v.store sig.ret) := by
  have hCount : u.count - 1 = ps.length := by
    rw [Target.count_eq, hHandler]
    rfl
  unfold Linkage.runRescue
  refine Safe.bind (Safe.leadingArgs hArgs hLeading hCount) ?_
  rintro _ _ first ⟨rfl, hFirst⟩ s hStaged
  subst hTarget
  have hRun :=
    Safe.holding (rootsOf first) (hEnter _ t args hLe ht hArgs) s
      hStaged
  dsimp only
  cases hEq : Run.holding (rootsOf first) (enter t args) s with
  | ok a s' =>
      rw [hEq] at hRun
      exact hRun
  | error e s' =>
      rw [hEq] at hRun
      rcases hRun with ⟨v, hv, hStaged', hFair⟩
      cases e with
      | outside => exact ⟨v, hv, hStaged', hFair⟩
      | unfinished => exact ⟨v, hv, hStaged', hFair⟩
      | fault f =>
          dsimp only
          split
          · rename_i hCaught
            refine Leaves.earlier hv ?_
            refine Safe.holding _ ?_ s' hStaged'
            refine Safe.bind (Safe.throwable hFair hCaught) ?_
            intro x hx o ho
            have hLater := le_trans hv hx
            have hThrown :
                ArgsFit rt.classes x.store (.ref o :: first)
                  u.params := by
              rw [hHandler]
              exact .cons ho (ArgsFit.later hFirst hLater.2)
            rw [← hRet]
            exact
              hEnter x u _ (le_trans hLe hLater.2)
                (hu.later hLater) hThrown
          · exact ⟨v, hv, hStaged', hFair⟩

------------------------------------------------------------
-- Call Sites and Handles
------------------------------------------------------------

theorem runSite
    {i : SiteId}
    (hEnter : TypedEntry rt L S enter)
    (hLe : S ≤ w.store)
    (hSite : w.catalog.sites[i.index]? = some sig)
    (hPlay : w.store.sites i.index)
    (hArgs : ArgsFit rt.classes w.store args sig.params) :
    Safe rt L w (runSite enter i args)
      (fun v a => a.Fits rt.classes v.store sig.ret) := by
  unfold Linkage.runSite
  apply Safe.reading
  intro s hStaged
  split
  · rename_i x hx
    rcases hStaged.sound.site i x hx with ⟨hSig, hListed, hEq⟩
    rw [hSite] at hSig
    have hTarget : x.target.signature = sig :=
      hEq.trans (Option.some.inj hSig).symm
    subst hTarget
    have hReady : x.target.Ready w :=
      ⟨hListed, hStaged.site hPlay hx⟩
    exact Safe.holding _ (hEnter w x.target args hLe hReady hArgs)
  · exact Safe.unfinished

/- Arguments are checked before a target is entered. -/
theorem invokeExact
    (hEnter : TypedEntry rt L S enter)
    (hLe : S ≤ w.store)
    (ht : t.Ready w)
    (hIn : ∀ a ∈ args, a.In w.store) :
    Safe rt L w (t.invokeExact rt enter args)
      (fun v a => a.Fits rt.classes v.store t.ret) := by
  unfold Target.invokeExact
  refine Safe.bind
    (R := fun v _ =>
      v = w ∧ ArgsFit rt.classes w.store args t.params) ?_ ?_
  · unfold Target.checkArguments
    split
    · rename_i hAdmits
      exact Safe.pure ⟨rfl, ArgsFit.of_admits hAdmits hIn⟩
    · exact Safe.plainFault nofun
  · rintro v _ _ ⟨rfl, hArgs⟩
    exact hEnter v t args hLe ht hArgs

/- A handle is retyped implicitly, so without unchecked casts. -/
theorem invokeTyped
    (hEnter : TypedEntry rt L S enter)
    (hLe : S ≤ w.store)
    (ht : t.Ready w)
    (hIn : ∀ a ∈ args, a.In w.store) :
    Safe rt L w (t.invokeTyped rt enter sig args)
      (fun v a => a.Fits rt.classes v.store sig.ret) := by
  unfold Target.invokeTyped
  refine Safe.bind
    (Safe.holding _
      (Safe.ofLink (Makes.asType ht.listed) nofun)) ?_
  rintro v hv x ⟨_, hx, hSig, hOr⟩
  subst hSig
  have hReady : x.Ready v := by
    refine ⟨hx, ?_⟩
    rcases hOr with rfl | hRetyped
    · exact ht.good.later hv.2
    · exact (ht.good.later hv.2).retyped hRetyped
  apply Safe.holding
  apply hEnter.invokeExact (le_trans hLe hv.2) hReady
  intro a ha
  exact (hIn a ha).later hv.2

theorem runInvoker
    {whole : Signature}
    {exact : Bool}
    (hEnter : TypedEntry rt L S enter)
    (hLe : S ≤ w.store)
    (hArgs :
      ArgsFit rt.classes w.store args (.methodHandle :: ps)) :
    Safe rt L w (runInvoker rt enter whole exact sig args)
      (fun v a => a.Fits rt.classes v.store sig.ret) := by
  cases hArgs with
  | cons hFirst hRest =>
      unfold Linkage.runInvoker
      rcases Value.conforms_ref hFirst.conforms rfl with
        rfl | ⟨o, rfl, _⟩
      · exact Safe.plainFault nofun
      · apply Safe.reading
        intro s hStaged
        split
        · exact Safe.plainFault nofun
        · rename_i x hHandle
          have hAt := Heap.at?_of_handle? hHandle
          have hShape :
              w.store.shape o.id = some .handle := by
            rw [hFirst.inPlay o rfl]
            unfold Heap.handle? at hHandle
            split at hHandle
            · rename_i hEq
              rw [hEq]
            · cases hHandle
          have hReady : x.Ready w :=
            ⟨hStaged.sound.handles _ _ hAt,
              hStaged.heap.handles _ _ hShape hAt⟩
          have hIn := ArgsFit.inPlay hRest
          apply Safe.holding
          split
          · unfold Target.invokeExactTyped
            split
            · rename_i hEq
              subst hEq
              exact hEnter.invokeExact hLe hReady hIn
            · exact Safe.plainFault nofun
          · exact hEnter.invokeTyped hLe hReady hIn

------------------------------------------------------------
-- All Behaviours
------------------------------------------------------------

/- A delegate of the same result type, after an edit. -/
theorem afterEdit
    {m : Run (List Value)}
    (hEnter : TypedEntry rt L S enter)
    (hLe : S ≤ w.store)
    (hu : u.Ready w)
    (hRet : u.ret = sig.ret)
    (hEdit :
      Safe rt L w m
        (fun v vs => ArgsFit rt.classes v.store vs u.params)) :
    Safe rt L w (m >>= fun vs => enter u vs)
      (fun v a => a.Fits rt.classes v.store sig.ret) := by
  rw [← hRet]
  refine Safe.bind hEdit ?_
  intro v hv vs hvs
  exact hEnter v u vs (le_trans hLe hv.2) (hu.later hv) hvs

/-
  A behaviour gives a value of the result type for arguments
  of the parameter types, if the form fits the signature.
-/
theorem behave
    (hRoots : rt.classes.PlainRoots)
    (hHost : rt.host.MakesNoTargets)
    (hHonors : rt.host.Honors rt.classes L S)
    (hEnter : TypedEntry rt L S enter)
    (hLe : S ≤ w.store)
    (ht : t.Ready w)
    (hArgs : ArgsFit rt.classes w.store args t.params) :
    Safe rt L w (t.behave rt enter args)
      (fun v a => a.Fits rt.classes v.store t.ret) := by
  apply Safe.known
  intro hCatalog hValid
  have hFits := hCatalog t ht.listed
  have hGood := ht.good.form
  have hReady : ∀ u ∈ t.form.targets, u.Ready w := by
    intro u hu
    exact ⟨hValid.closed t ht.listed u hu, ht.good.wrapped hu⟩
  rcases t with ⟨i, sig, stub, form⟩
  change form.Fits rt w.catalog.sites sig at hFits
  change form.Good w.store at hGood
  change ∀ u ∈ form.targets, u.Ready w at hReady
  change ArgsFit rt.classes w.store args sig.params at hArgs
  change
    Safe rt L w _
      (fun v (a : Value) => a.Fits rt.classes v.store sig.ret)
  have hFirst :
      ∀ u us, form.targets = u :: us → u.Ready w := by
    intro u us hEq
    apply hReady
    rw [hEq]
    exact List.mem_cons_self
  cases hFits with
  | static hResolve hSlot hSig =>
      subst hSig
      have hAnswers :=
        hHonors.static _ _ _ _ _ _ hResolve hSlot
      exact Safe.call hHost hAnswers hLe hArgs
  | constructor hResolve hSlot hSig =>
      subst hSig
      exact
        Safe.runConstructor hHost hHonors hLe hResolve hSlot hArgs
  | method hHow hResolve hReceiver hParams hRet hCalls =>
      rw [hParams] at hArgs
      rw [hRet]
      exact
        Safe.runMethod hRoots hHost hHonors hLe hHow hResolve
          hReceiver hCalls rfl hArgs
  | special hResolve hSelects hReceiver hParams hRet =>
      rw [hParams] at hArgs
      rw [hRet]
      exact
        Safe.runSpecial hRoots hHost hHonors hLe hResolve
          hSelects hReceiver hArgs
  | fieldGet hResolve hSlot hSig =>
      exact
        Safe.runFieldGet hHonors hLe hResolve hSlot hSig hArgs
  | fieldSet hResolve hSlot hSig =>
      exact
        Safe.runFieldSet hHonors hLe hResolve hSlot hSig hArgs
  | @bound u a p hParams hRet hValue =>
      have hBound : a.In w.store :=
        hGood.values a List.mem_cons_self
      rw [← hRet]
      apply hEnter w u _ hLe (hFirst u _ rfl)
      rw [hParams]
      exact .cons ⟨hValue, hBound⟩ hArgs
  | @convertArguments u ks how hPlan hCount hRet =>
      apply hEnter.afterEdit hLe (hFirst u _ rfl) hRet
      exact
        Safe.convertArgs hRoots hPlan hCount hGood.checks hArgs
  | @convertReturn u k how hParams hClass =>
      rw [← hParams] at hArgs
      refine Safe.bind (hEnter w u args hLe (hFirst u _ rfl) hArgs)
        ?_
      intro v hv a ha
      exact
        Safe.convertValue hRoots hClass
          (hGood.checks k (List.mem_singleton.2 rfl)) ha
  | @filterReturn u f hParams hFilter hRet =>
      rw [← hParams] at hArgs
      refine Safe.bind (hEnter w u args hLe (hFirst u _ rfl) hArgs)
        ?_
      intro v hv a ha
      have hf : f.Ready w := hReady f (by simp [Form.targets])
      rw [← hRet]
      apply hEnter v f _ (le_trans hLe hv.2) (hf.later hv)
      rw [hFilter]
      unfold Target.filterParams
      split
      · exact .nil
      · exact .cons ha .nil
  | @filterArguments u pos fs hFiltered hRet =>
      apply hEnter.afterEdit hLe (hFirst u _ rfl) hRet
      refine hEnter.runFilters hLe ?_ hFiltered hArgs
      intro f hf
      exact hReady f (by simp [Form.targets, hf])
  | @collect u component last count fixed hParams hSig hArray
      hRet =>
      apply hEnter.afterEdit hLe (hFirst u _ rfl) hRet
      rw [hSig] at hArgs
      rw [hParams]
      exact Safe.collectArgs hArray hArgs
  | @spread u component count fixed hParams hSig hRet =>
      apply hEnter.afterEdit hLe (hFirst u _ rfl) hRet
      rw [hSig] at hArgs
      rw [hParams]
      exact Safe.spreadArgs hRoots hArgs
  | @permute u order hOrder hRet =>
      refine Safe.bind (Safe.permuteArgs hArgs hOrder) ?_
      rintro v hv vs ⟨rfl, hvs⟩
      rw [← hRet]
      exact
        Safe.holding _ (hEnter _ u vs hLe (hFirst u _ rfl) hvs)
  | @insert u pos values types hPos hParams hValues hRet =>
      apply hEnter.afterEdit hLe (hFirst u _ rfl) hRet
      have hConstants :=
        ArgsFit.of_conforms hValues hGood.values
      refine (Safe.insertArgs hPos hArgs hConstants).imp ?_
      rintro v _ vs ⟨rfl, hvs⟩
      rw [hParams]
      exact hvs
  | @drop u pos count types hPos hParams hCount hRet =>
      apply hEnter.afterEdit hLe (hFirst u _ rfl) hRet
      rw [hParams] at hArgs
      subst hCount
      refine (Safe.dropArgs hPos hArgs).imp ?_
      rintro v _ vs ⟨rfl, hvs⟩
      exact hvs
  | @fold u c hParams hLeading hRet =>
      rw [← hRet]
      exact
        hEnter.runFold hLe (hReady u (by simp [Form.targets]))
          (hReady c (by simp [Form.targets])) hParams hLeading
          hArgs
  | @guard test yes no hTest hLeading hYes hNo =>
      exact
        hEnter.runGuard hLe
          (hReady test (by simp [Form.targets]))
          (hReady yes (by simp [Form.targets]))
          (hReady no (by simp [Form.targets])) hLeading hYes hNo
          hArgs
  | @rescue u handler caught rest hTarget hCaught hHandler
      hLeading hRet =>
      exact
        hEnter.runRescue hLe (hReady u (by simp [Form.targets]))
          (hReady handler (by simp [Form.targets])) hTarget
          hHandler hLeading hRet hArgs
  | @varargs u component element fixed _ hTarget hParams
      hArray =>
      subst hTarget
      exact hEnter w u args hLe (hFirst u _ rfl) hArgs
  | @site i hSite =>
      have hPlay := hGood.sites i List.mem_cons_self
      exact hEnter.runSite hLe hSite hPlay hArgs
  | @constant a hParams hValue =>
      exact
        Safe.pure
          ⟨hValue, hGood.values a List.mem_cons_self⟩
  | identity hParams =>
      rw [hParams] at hArgs
      cases hArgs with
      | cons hHead _ => exact Safe.pure hHead
  | throw hThrown hParams =>
      rw [hParams] at hArgs
      exact Safe.runThrow hRoots hThrown hArgs
  | arrayGet hParams =>
      rw [hParams] at hArgs
      exact Safe.runArrayGet hRoots hArgs
  | arraySet hParams hRet =>
      rw [hParams] at hArgs
      rw [hRet]
      exact Safe.runArraySet hRoots hArgs
  | arrayLength hParams hRet =>
      rw [hParams] at hArgs
      rw [hRet]
      exact Safe.runArrayLength hRoots hArgs
  | invoker hParams hRet =>
      rw [hParams] at hArgs
      rw [hRet]
      exact hEnter.runInvoker hLe hArgs
  | unlinked =>
      apply Safe.plainFault
      intro o hEq
      cases hEq

end TypedEntry

------------------------------------------------------------
-- Watched Runs
------------------------------------------------------------

/- What fits passes the watch. -/
theorem Safe.watch
    {m : Run Value}
    (hArgs : ArgsFit rt.classes w.store args t.params)
    (hSafe :
      Safe rt L w m
        (fun v a => a.Fits rt.classes v.store t.ret)) :
    Safe rt L w (t.watch rt.classes args m)
      (fun v a => a.Fits rt.classes v.store t.ret) := by
  unfold Target.watch
  rw [if_pos (ArgsFit.admits hArgs)]
  refine Safe.bind hSafe ?_
  intro v _ a ha
  rw [if_pos ha.conforms]
  exact Safe.pure ha

/- Entering and watching keeps types, with any fuel. -/
theorem typedEntry_enterWatched
    (hRoots : rt.classes.PlainRoots)
    (hHost : rt.host.MakesNoTargets)
    (hHonors : rt.host.Honors rt.classes L S)
    (fuel : Nat) :
    TypedEntry rt L S (Target.enterWatched rt fuel) := by
  induction fuel with
  | zero =>
      intro w t args _ _ _
      exact Safe.unfinished
  | succ n ih =>
      intro w t args hLe ht hArgs
      apply Safe.watch hArgs
      refine Safe.bind (R := fun v _ => v = w) ?_ ?_
      · apply Keeps.change
        · intro s hStaged
          apply hStaged.logged
          intro u as hEq
          cases hEq
          exact ArgsFit.admits hArgs
        · rfl
      · rintro v _ _ rfl
        split
        · exact
            TypedEntry.behave hRoots hHost hHonors ih hLe ht hArgs
        · exact Safe.plainFault nofun

end Linkage
