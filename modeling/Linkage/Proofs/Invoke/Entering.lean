import Linkage.Proofs.Invoke.Orderly

/-
  Entering targets is orderly.  Each behaviour enters its
  delegates with as many arguments as they have parameters,
  because its form fits its signature; a stub serves its
  signature, so it takes this many.  Hence, by induction on
  the fuel, all that a run enters is counted.

  Key definitions include:
    * `Entering`

  Key theorems include:
    * `Entering.invokeExact`
    * `Entering.invokeTyped`
    * `Entering.behave`
    * `Entering.throughStub`
    * `entering_enter`
-/

------------------------------------------------------------
-- Ways of Entering
------------------------------------------------------------

namespace Linkage

/- A way to enter listed targets in an orderly manner. -/
def Entering
    (aligned : Prop)
    (rt : Runtime)
    (base : List Event)
    (enter : Enter) : Prop :=
  ∀ c u as, u ∈ c.made → (aligned → as.length = u.count) →
    Orderly aligned rt base c (enter u as) (fun _ => True)

variable {α β : Type}
variable {aligned : Prop}
variable {rt : Runtime}
variable {base : List Event}
variable {c d : Catalog}
variable {m : Run α}
variable {Q : α → Prop}
variable {enter : Enter}
variable {args : List Value}
variable {sig : Signature}
variable {t u : Target}

theorem Target.count_eq (t : Target) :
    t.count = t.params.length :=
  rfl

namespace Orderly

/- What the catalog says may be relied on. -/
theorem known
    (hOrderly :
      c.Fits rt → c.Valid rt → Orderly aligned rt base c m Q) :
    Orderly aligned rt base c m Q := by
  intro s hKnown
  exact hOrderly hKnown.fits hKnown.sound.valid s hKnown

------------------------------------------------------------
-- Edits of Arguments
------------------------------------------------------------

/- A complaint that is never made when a run is in line. -/
theorem shortage
    {n : Nat}
    (hNever : ¬aligned) :
    Orderly aligned rt base c (Run.fault (.tooFew sig n)) Q :=
  fault (fun hAligned => absurd hAligned hNever)

theorem leadingArgs
    {n : Nat}
    (hRange : aligned → n ≤ args.length) :
    Orderly aligned rt base c (leadingArgs sig n args)
      (fun vs => vs = args.take n) := by
  unfold Linkage.leadingArgs
  split
  · exact pure rfl
  · rename_i hShort
    exact shortage (fun hAligned => hShort (hRange hAligned))

theorem insertArgs
    {pos : Nat}
    {values : List Value}
    (hRange : aligned → pos ≤ args.length) :
    Orderly aligned rt base c (insertArgs pos values args)
      (fun vs => vs.length = values.length + args.length) := by
  unfold Linkage.insertArgs
  split
  · rename_i hPos
    apply pure
    rw [List.length_append, List.length_append,
      List.length_take_of_le hPos, List.length_drop]
    omega
  · rename_i hOutside
    apply Keeps.throw
    intro hAligned
    exact absurd (hRange hAligned) hOutside

theorem dropArgs
    {pos count : Nat}
    (hRange : aligned → pos + count ≤ args.length) :
    Orderly aligned rt base c (dropArgs pos count args)
      (fun vs => vs.length = args.length - count) := by
  unfold Linkage.dropArgs
  split
  · rename_i hWithin
    apply pure
    rw [List.length_append, List.length_take, List.length_drop]
    omega
  · rename_i hOutside
    apply Keeps.throw
    intro hAligned
    exact absurd (hRange hAligned) hOutside

theorem permuteArgs
    {order : List Nat}
    (hRange : aligned → ∀ j ∈ order, j < args.length) :
    Orderly aligned rt base c (permuteArgs sig args order)
      (fun vs => vs.length = order.length) := by
  induction order with
  | nil => exact pure rfl
  | cons j js ih =>
      unfold Linkage.permuteArgs
      split
      · rename_i hNone
        apply shortage
        intro hAligned
        have hj := hRange hAligned j List.mem_cons_self
        rw [List.getElem?_eq_getElem hj] at hNone
        cases hNone
      · refine Orderly.bind (ih ?_) ?_
        · intro hAligned k hk
          exact hRange hAligned k (List.mem_cons_of_mem j hk)
        · intro d _ vs hvs
          apply pure
          rw [List.length_cons, List.length_cons, hvs]

theorem collectArgs
    {component : Ty}
    {count : Nat}
    (hRange : aligned → count ≤ args.length) :
    Orderly aligned rt base c
      (collectArgs sig component count args)
      (fun vs => vs.length = args.length - count + 1) := by
  unfold Linkage.collectArgs
  split
  · rename_i hShort
    apply shortage
    intro hAligned
    exact absurd (hRange hAligned) (Nat.not_le_of_lt hShort)
  · refine Orderly.bind (R := fun _ => True) ?_ ?_
    · apply onHeap
      · intro h i v hAt
        have hNew :
            (h.allocArray component
              (args.drop (args.length - count))).2.at? i =
                some (.target v) :=
          hAt
        exact holds_of_at? (Heap.at?_allocArray_target hNew)
      · intro h e hError
        cases hError
      · intro _ _ _
        trivial
    · intro d _ o _
      apply pure
      rw [List.length_append, List.length_take]
      simp only [List.length_cons, List.length_nil]
      omega

theorem spreadArgs
    {count : Nat}
    (hRange : aligned → 0 < args.length) :
    Orderly aligned rt base c (spreadArgs sig count args)
      (fun vs => vs.length = args.length - 1 + count) := by
  unfold Linkage.spreadArgs
  split
  · rename_i hLast
    apply shortage
    intro hAligned
    have hPos := hRange hAligned
    rw [List.getLast?_eq_none_iff.1 hLast] at hPos
    cases hPos
  · split
    · rename_i hCount
      apply pure
      rw [List.length_dropLast, hCount, Nat.add_zero]
    · exact otherFault nofun
  · apply reading
    intro s _
    split
    · exact otherFault nofun
    · split
      · rename_i hCount
        apply pure
        rw [List.length_append, List.length_dropLast, hCount]
      · exact otherFault nofun
  · apply fault
    intro _
    exact Fault.not_isShortage_of_expected (by decide)

/- Conversions of as many arguments as there are. -/
theorem convertArgs
    {cs : List Conversion}
    (hRange : aligned → cs.length = args.length) :
    Orderly aligned rt base c
      (Run.onHeap (applyAll rt.classes cs args))
      (fun vs => aligned → vs.length = args.length) := by
  apply onHeap
  · intro h i v hAt
    exact holds_of_at? (applyAll_holds hAt)
  · intro h e hError _
    exact applyAll_not_isShortage hError
  · intro h vs hOk hAligned
    rw [length_applyAll hOk, hRange hAligned, Nat.min_self]

theorem convertValue
    {k : Conversion}
    {v : Value} :
    Orderly aligned rt base c
      (Run.onHeap (k.apply rt.classes v)) (fun _ => True) := by
  apply onHeap
  · intro h i u hAt
    exact holds_of_at? (Conversion.apply_holds hAt)
  · intro h e hError _
    exact Conversion.apply_not_isShortage hError
  · intro _ _ _
    trivial

end Orderly

theorem length_planParams
    {T : ClassTable}
    {how : Strength}
    {i : Nat}
    {callers callees : List Ty}
    {cs : List Conversion}
    (hPlan : planParams T how i callers callees = .ok cs) :
    cs.length = min callers.length callees.length := by
  induction callers generalizing i callees cs with
  | nil =>
      cases hPlan
      simp
  | cons a as ih =>
      cases callees with
      | nil =>
          cases hPlan
          simp
      | cons b bs =>
          unfold planParams at hPlan
          split at hPlan
          · cases hPlan
          · split at hPlan
            · cases hPlan
            · rename_i hRest
              cases hPlan
              rw [List.length_cons, List.length_cons,
                List.length_cons, Nat.add_min_add_right,
                ih hRest]

namespace Entering

------------------------------------------------------------
-- Filters, Folds, Guards and Handlers
------------------------------------------------------------

/- Filters leave the number of arguments as it is. -/
theorem runFilters
    {i : Nat}
    {fs : List (Option Target)}
    (hEnter : Entering aligned rt base enter)
    (hFilters :
      ∀ f, some f ∈ fs → f ∈ c.made ∧ (aligned → f.count = 1))
    (hRange : aligned → i + fs.length ≤ args.length) :
    Orderly aligned rt base c (runFilters enter sig i fs args)
      (fun vs => vs.length = args.length) := by
  induction fs generalizing i args c with
  | nil => exact Orderly.pure rfl
  | cons o fs ih =>
      have hNext : aligned → i + 1 + fs.length ≤ args.length := by
        intro hAligned
        have hAll := hRange hAligned
        rw [List.length_cons] at hAll
        omega
      cases o with
      | none =>
          refine ih ?_ hNext
          intro f hf
          exact hFilters f (List.mem_cons_of_mem _ hf)
      | some f =>
          unfold Linkage.runFilters
          rcases hFilters f List.mem_cons_self with ⟨hf, hOne⟩
          split
          · rename_i hNone
            apply Orderly.shortage
            intro hAligned
            have hi : i < args.length := by
              have hAll := hNext hAligned
              omega
            rw [List.getElem?_eq_getElem hi] at hNone
            cases hNone
          · rename_i v _
            dsimp only
            refine Orderly.bind
              (Orderly.holding _ (hEnter c f [v] hf ?_)) ?_
            · intro hAligned
              exact (hOne hAligned).symm
            · intro d hd w _
              have hLength : (args.set i w).length = args.length :=
                List.length_set
              refine (ih ?_ ?_).imp ?_
              · intro g hg
                have hOld :=
                  hFilters g (List.mem_cons_of_mem _ hg)
                exact ⟨Catalog.mem_of_le hd hOld.1, hOld.2⟩
              · rw [hLength]
                exact hNext
              · intro vs hvs
                exact hvs.trans hLength

theorem runFold
    (hEnter : Entering aligned rt base enter)
    (ht : t ∈ c.made)
    (hu : u ∈ c.made)
    (hLeading : aligned → u.count ≤ args.length)
    (hCount :
      aligned →
        (Target.filterParams u.ret).length + args.length =
          t.count) :
    Orderly aligned rt base c (runFold enter sig t u args)
      (fun _ => True) := by
  unfold Linkage.runFold
  refine Orderly.bind (Orderly.leadingArgs hLeading) ?_
  intro d hd first hFirst
  have hu' := Catalog.mem_of_le hd hu
  refine Orderly.bind
    (Orderly.holding _ (hEnter d u first hu' ?_)) ?_
  · intro hAligned
    rw [hFirst]
    exact List.length_take_of_le (hLeading hAligned)
  · intro e he v _
    have ht' := Catalog.mem_of_le (le_trans hd he) ht
    unfold Target.filterParams at hCount
    split
    · rename_i hVoid
      apply hEnter e t args ht'
      intro hAligned
      have hAll := hCount hAligned
      rw [if_pos hVoid, List.length_nil, Nat.zero_add] at hAll
      exact hAll
    · rename_i hVoid
      apply hEnter e t _ ht'
      intro hAligned
      have hAll := hCount hAligned
      rw [if_neg hVoid, List.length_singleton, Nat.add_comm]
        at hAll
      exact hAll

theorem runGuard
    {test yes no : Target}
    (hEnter : Entering aligned rt base enter)
    (hTest : test ∈ c.made)
    (hYes : yes ∈ c.made)
    (hNo : no ∈ c.made)
    (hLeading : aligned → test.count ≤ args.length)
    (hYesCount : aligned → args.length = yes.count)
    (hNoCount : aligned → args.length = no.count) :
    Orderly aligned rt base c
      (runGuard enter test yes no sig args) (fun _ => True) := by
  unfold Linkage.runGuard
  refine Orderly.bind (Orderly.leadingArgs hLeading) ?_
  intro d hd first hFirst
  have hTest' := Catalog.mem_of_le hd hTest
  refine Orderly.bind
    (Orderly.holding _ (hEnter d test first hTest' ?_)) ?_
  · intro hAligned
    rw [hFirst]
    exact List.length_take_of_le (hLeading hAligned)
  · intro e he v _
    have hLe := le_trans hd he
    split
    · exact hEnter e yes args (Catalog.mem_of_le hLe hYes) hYesCount
    · exact hEnter e no args (Catalog.mem_of_le hLe hNo) hNoCount
    · apply Orderly.fault
      intro _
      exact Fault.not_isShortage_of_expected (by decide)

/- Making a throwable object puts no handle into the heap. -/
theorem throwable
    {f : Fault} :
    Orderly aligned rt base c (Run.throwable f)
      (fun _ => True) := by
  unfold Run.throwable
  split
  · exact Orderly.pure trivial
  · apply Orderly.onHeap
    · intro h i v hAt
      have hNew :
          (h.allocThrowable f.exceptionClass
            (some f.message)).2.at? i = some (.target v) :=
        hAt
      exact
        Orderly.holds_of_at? (Heap.at?_allocThrowable_target hNew)
    · intro h e hError
      cases hError
    · intro _ _ _
      trivial

/-
  A handler is run after a failure, in the state in which the
  target failed.
-/
theorem runRescue
    {caught : ClassName}
    (hEnter : Entering aligned rt base enter)
    (ht : t ∈ c.made)
    (hu : u ∈ c.made)
    (hLeading : aligned → u.count - 1 ≤ args.length)
    (hPos : aligned → 0 < u.count)
    (hCount : aligned → args.length = t.count) :
    Orderly aligned rt base c
      (runRescue rt enter sig t caught u args)
      (fun _ => True) := by
  unfold Linkage.runRescue
  refine Orderly.bind (Orderly.leadingArgs hLeading) ?_
  intro d hd first hFirst s hKnown
  have ht' := Catalog.mem_of_le hd ht
  have hTarget :=
    Orderly.holding (rootsOf first) (hEnter d t args ht' hCount)
      s hKnown
  dsimp only
  cases hRun : Run.holding (rootsOf first) (enter t args) s with
  | ok v s' =>
      rw [hRun] at hTarget
      exact hTarget
  | error e s' =>
      rw [hRun] at hTarget
      rcases hTarget with ⟨e', he, hKnown', hProper⟩
      have hu' := Catalog.mem_of_le (le_trans hd he) hu
      cases e with
      | outside => exact ⟨e', he, hKnown', hProper⟩
      | unfinished => exact ⟨e', he, hKnown', hProper⟩
      | fault f =>
          dsimp only
          split
          · refine Leaves.earlier he ?_
            refine Orderly.holding _ ?_ s' hKnown'
            refine Orderly.bind throwable ?_
            intro g hg o _
            apply hEnter g u _ (Catalog.mem_of_le hg hu')
            intro hAligned
            have hTake :=
              List.length_take_of_le (hLeading hAligned)
            have hOne := hPos hAligned
            rw [List.length_cons, hFirst, hTake]
            omega
          · exact ⟨e', he, hKnown', hProper⟩

------------------------------------------------------------
-- Call Sites and Handles
------------------------------------------------------------

theorem runSite
    {i : SiteId}
    (hEnter : Entering aligned rt base enter)
    (hSite : c.sites[i.index]? = some sig)
    (hCount : aligned → args.length = sig.count) :
    Orderly aligned rt base c (runSite enter i args)
      (fun _ => True) := by
  unfold Linkage.runSite
  apply Orderly.reading
  intro s hKnown
  split
  · rename_i x hx
    rcases hKnown.sound.site i x hx with ⟨hSig, hTarget, hEq⟩
    rw [hSite] at hSig
    refine Orderly.holding _ (hEnter c x.target args hTarget ?_)
    intro hAligned
    unfold Target.count
    rw [hEq, ← Option.some.inj hSig]
    exact hCount hAligned
  · exact Orderly.unfinished

/- Checked arguments are as many as there are parameters. -/
theorem invokeExact
    (hEnter : Entering aligned rt base enter)
    (ht : t ∈ c.made) :
    Orderly aligned rt base c (t.invokeExact rt enter args)
      (fun _ => True) := by
  unfold Target.invokeExact
  refine Orderly.bind
    (R := fun _ => args.length = t.count) ?_ ?_
  · unfold Target.checkArguments
    split
    · rename_i hAdmits
      exact Orderly.pure (Target.length_of_admits hAdmits)
    · apply Orderly.fault
      intro _
      exact Fault.arguments_not_isShortage _ _
  · intro d hd _ hCount
    exact hEnter d t args (Catalog.mem_of_le hd ht) (fun _ => hCount)

theorem invokeExactTyped
    (hEnter : Entering aligned rt base enter)
    (ht : t ∈ c.made) :
    Orderly aligned rt base c
      (t.invokeExactTyped rt enter sig args)
      (fun _ => True) := by
  unfold Target.invokeExactTyped
  split
  · exact invokeExact hEnter ht
  · apply Orderly.fault
    intro _
    exact Fault.callType_not_isShortage _ _

theorem invokeTyped
    (hEnter : Entering aligned rt base enter)
    (ht : t ∈ c.made) :
    Orderly aligned rt base c (t.invokeTyped rt enter sig args)
      (fun _ => True) := by
  unfold Target.invokeTyped
  have hMakes :
      Makes rt (CountedSince aligned base) c (t.asType rt sig)
        (fun d v =>
          v ∈ d.made ∧ v.signature = sig ∧
            (v = t ∨ t.Retyped rt.classes v)) :=
    Makes.asType ht
  have hAdapt :=
    Orderly.ofLink hMakes
      (Fault.callType_not_isShortage t.signature sig)
  refine Keeps.bind
    (Keeps.holding Known.withHeld (rootsOf args) hAdapt) ?_
  intro d _ adapted hAdapted
  exact Orderly.holding _ (invokeExact hEnter hAdapted.1)

theorem runInvoker
    {whole : Signature}
    {exact : Bool}
    (hEnter : Entering aligned rt base enter)
    (hRange : aligned → 0 < args.length) :
    Orderly aligned rt base c
      (runInvoker rt enter whole exact sig args)
      (fun _ => True) := by
  unfold Linkage.runInvoker
  split
  · apply Orderly.shortage
    intro hAligned
    exact absurd (hRange hAligned) (Nat.lt_irrefl 0)
  · apply Orderly.reading
    intro s hKnown
    split
    · exact Orderly.otherFault nofun
    · rename_i v hHandle
      have hv : v ∈ c.made :=
        hKnown.sound.handles _ _ (Heap.at?_of_handle? hHandle)
      apply Orderly.holding
      split
      · exact invokeExactTyped hEnter hv
      · exact invokeTyped hEnter hv
  · exact Orderly.otherFault nofun

------------------------------------------------------------
-- All Behaviours
------------------------------------------------------------

/- A delegate that takes the arguments as they are. -/
theorem passOn
    (hEnter : Entering aligned rt base enter)
    (hu : u ∈ c.made)
    (hParams : u.params = t.params)
    (hCount : aligned → args.length = t.count) :
    Orderly aligned rt base c (enter u args) (fun _ => True) := by
  apply hEnter c u args hu
  intro hAligned
  rw [Target.count_eq, hParams]
  exact hCount hAligned

/- A delegate that takes the arguments after an edit. -/
theorem afterEdit
    {m : Run (List Value)}
    (hEnter : Entering aligned rt base enter)
    (hu : u ∈ c.made)
    (hEdit :
      Orderly aligned rt base c m
        (fun vs => aligned → vs.length = u.count)) :
    Orderly aligned rt base c (m >>= fun vs => enter u vs)
      (fun _ => True) := by
  refine Orderly.bind hEdit ?_
  intro d hd vs hCount
  exact hEnter d u vs (Catalog.mem_of_le hd hu) hCount

/-
  A behaviour enters its delegates in line, if the node itself
  was entered in line.
-/
theorem behave
    (hHost : rt.host.MakesNoTargets)
    (hEnter : Entering aligned rt base enter)
    (ht : t ∈ c.made)
    (hCount : aligned → args.length = t.count) :
    Orderly aligned rt base c (t.behave rt enter args)
      (fun _ => True) := by
  apply Orderly.known
  intro hCatalog hValid
  have hFits := hCatalog t ht
  have hWrapped := hValid.closed t ht
  have hRange : aligned → t.form.InRange args := by
    intro hAligned
    exact hFits.inRange (hCount hAligned)
  unfold Target.behave
  unfold Target.wrapped at hWrapped
  have hParams : aligned → args.length = t.params.length := hCount
  dsimp only
  generalize t.form = form at hFits hWrapped hRange ⊢
  have hLater :
      ∀ d, c ≤ d → ∀ v, v ∈ form.targets → v ∈ d.made := by
    intro d hd v hv
    exact Catalog.mem_of_le hd (hWrapped v hv)
  cases hFits with
  | static _ _ _ => exact Orderly.runDirect hHost
  | constructor _ _ _ => exact Orderly.runDirect hHost
  | special _ _ _ _ _ => exact Orderly.runDirect hHost
  | method _ _ _ _ _ hCalls =>
      cases hCalls with
      | direct a _ => exact Orderly.runDirect hHost
      | virtual n _ => exact Orderly.runVirtual hHost
      | interface n _ => exact Orderly.runInterface hHost
  | fieldGet _ _ _ => exact Orderly.runFieldGet
  | fieldSet _ _ _ => exact Orderly.runFieldSet
  | bound hInner _ _ =>
      apply hEnter c _ _ (hWrapped _ List.mem_cons_self)
      intro hAligned
      rw [Target.count_eq, hInner, List.length_cons,
        List.length_cons, hParams hAligned]
      rfl
  | @convertArguments u cs how hPlan hSame _ =>
      have hLength := length_planParams hPlan
      unfold Signature.count at hSame
      apply afterEdit hEnter (hWrapped _ List.mem_cons_self)
      refine (Orderly.convertArgs ?_).imp ?_
      · intro hAligned
        have hAll := hParams hAligned
        unfold Target.params at hAll
        rw [hLength, hAll, hSame, Target.count_eq, Nat.min_self]
      · intro vs hvs hAligned
        rw [hvs hAligned, hParams hAligned]
        exact hSame
  | convertReturn hInner _ =>
      refine Orderly.bind
        (passOn hEnter (hWrapped _ List.mem_cons_self) hInner
          hCount) ?_
      intro d _ v _
      exact Orderly.convertValue
  | filterReturn hInner hFilter _ =>
      refine Orderly.bind
        (passOn hEnter (hWrapped _ List.mem_cons_self) hInner
          hCount) ?_
      intro d hd v _
      apply hEnter d _ _ (hLater d hd _ (by simp [Form.targets]))
      intro _
      rw [Target.count_eq, hFilter]
      unfold Target.filterParams
      split
      · rfl
      · rfl
  | @filterArguments u pos fs hFiltered _ =>
      apply afterEdit hEnter (hWrapped _ List.mem_cons_self)
      refine (runFilters hEnter ?_ hRange).imp ?_
      · intro f hf
        refine ⟨hWrapped f (by simp [Form.targets, hf]), ?_⟩
        intro _
        rcases List.getElem?_of_mem hf with ⟨j, hj⟩
        rcases hFiltered.filtered j f hj with ⟨p, hSingle, _⟩
        rw [Target.count_eq, hSingle]
        rfl
      · intro vs hvs hAligned
        rw [hvs, hParams hAligned]
        exact hFiltered.length_eq
  | collect hInner hSig _ _ =>
      apply afterEdit hEnter (hWrapped _ List.mem_cons_self)
      refine (Orderly.collectArgs hRange).imp ?_
      intro vs hvs hAligned
      have hAll := hParams hAligned
      unfold Target.params at hAll
      rw [hSig, List.length_append, List.length_replicate] at hAll
      rw [hvs, Target.count_eq, hInner, List.length_append, hAll,
        Nat.add_sub_cancel]
      rfl
  | spread hInner hSig _ =>
      apply afterEdit hEnter (hWrapped _ List.mem_cons_self)
      refine (Orderly.spreadArgs hRange).imp ?_
      intro vs hvs hAligned
      have hAll := hParams hAligned
      unfold Target.params at hAll
      rw [hSig, List.length_append] at hAll
      rw [hvs, Target.count_eq, hInner, List.length_append,
        List.length_replicate, hAll]
      rfl
  | permute hOrder _ =>
      refine Orderly.bind (Orderly.permuteArgs hRange) ?_
      intro d hd vs hvs
      refine Orderly.holding _ (hEnter d _ vs ?_ ?_)
      · exact hLater d hd _ List.mem_cons_self
      · intro _
        rw [hvs, hOrder.length_eq]
        rfl
  | insert hPos hInner hValues _ =>
      apply afterEdit hEnter (hWrapped _ List.mem_cons_self)
      refine (Orderly.insertArgs hRange).imp ?_
      intro vs hvs hAligned
      have hAll := hParams hAligned
      unfold Target.params at hAll
      rw [hvs, Target.count_eq, hInner, List.length_append,
        List.length_append, List.length_take_of_le hPos,
        List.length_drop, hValues.length_eq, hAll]
      unfold Signature.count at hPos
      omega
  | drop hPos hOuter hTypes _ =>
      apply afterEdit hEnter (hWrapped _ List.mem_cons_self)
      refine (Orderly.dropArgs hRange).imp ?_
      intro vs hvs hAligned
      have hAll := hParams hAligned
      unfold Target.params at hAll
      rw [Target.count_eq] at hPos ⊢
      rw [hOuter, List.length_append, List.length_append, hTypes,
        List.length_take, List.length_drop] at hAll
      rw [hvs, hAll]
      unfold Target.params at hPos ⊢
      omega
  | fold hInner _ _ =>
      refine runFold hEnter (hWrapped _ (by simp [Form.targets]))
        (hWrapped _ (by simp [Form.targets])) hRange ?_
      intro hAligned
      rw [hParams hAligned, Target.count_eq, hInner,
        List.length_append]
      rfl
  | guard _ _ hYes hNo =>
      refine runGuard hEnter (hWrapped _ (by simp [Form.targets]))
        (hWrapped _ (by simp [Form.targets]))
        (hWrapped _ (by simp [Form.targets])) hRange ?_ ?_
      · intro hAligned
        unfold Target.count
        rw [hYes]
        exact hCount hAligned
      · intro hAligned
        unfold Target.count
        rw [hNo]
        exact hCount hAligned
  | rescue hTarget _ hHandler _ _ =>
      refine runRescue hEnter
        (hWrapped _ (by simp [Form.targets]))
        (hWrapped _ (by simp [Form.targets])) hRange ?_ ?_
      · intro _
        rw [Target.count_eq, hHandler]
        exact Nat.succ_pos _
      · intro hAligned
        unfold Target.count
        rw [hTarget]
        exact hCount hAligned
  | varargs _ hTarget _ _ =>
      apply hEnter c _ _ (hWrapped _ List.mem_cons_self)
      intro hAligned
      unfold Target.count
      rw [hTarget]
      exact hCount hAligned
  | site hSite => exact runSite hEnter hSite hCount
  | constant _ _ => exact Orderly.pure trivial
  | identity _ =>
      dsimp only
      split
      · exact Orderly.pure trivial
      · rename_i hNone
        apply Orderly.shortage
        intro hAligned
        have hPos : 0 < args.length := hRange hAligned
        rw [List.head?_eq_none_iff.1 hNone] at hPos
        cases hPos
  | throw _ _ => exact Orderly.runThrow
  | arrayGet _ => exact Orderly.runArrayGet
  | arraySet _ _ => exact Orderly.runArraySet
  | arrayLength _ _ => exact Orderly.runArrayLength
  | invoker _ _ => exact runInvoker hEnter hRange
  | unlinked =>
      apply Orderly.otherFault
      intro e g hEq
      cases hEq

end Entering

------------------------------------------------------------
-- Stubs
------------------------------------------------------------

/-
  A stub counts the arguments of a listed target and hands
  them over.  It need not be the target's own; if the run is
  in line, then it takes as many as there are parameters.
-/
theorem Entering.counting
    {stub : Stub}
    (hHost : rt.host.MakesNoTargets)
    (hEnter : Entering aligned rt base enter)
    (ht : t ∈ c.made)
    (hArity : aligned → t.stub.arity = t.count)
    (hStub : aligned → stub.arity = t.count)
    (hCount : aligned → args.length = t.count) :
    Orderly aligned rt base c
      (do
        modify (fun s => s.log (.entered t args))
        if args.length = stub.arity
        then t.behave rt enter args
        else Run.fault (wrongCount stub args))
      (fun _ => True) := by
  apply Orderly.known
  intro hFits hValid
  have hCounted : aligned → t.Counted args := by
    intro hAligned
    have hAll := hCount hAligned
    exact ⟨hAll, hArity hAligned, (hFits t ht).inRange hAll⟩
  refine Orderly.bind (R := fun _ => True) ?_ ?_
  · apply Keeps.change
    · intro s hKnown
      refine ⟨hKnown.fits, hKnown.sound.withTrace _, ?_⟩
      intro hAligned u as hMem
      rcases List.mem_cons.1 hMem with hEq | hOld
      · cases hEq
        exact Or.inr (hCounted hAligned)
      · exact hKnown.around hAligned u as hOld
    · trivial
  · intro d hd _ _
    split
    · exact
        Entering.behave hHost hEnter (Catalog.mem_of_le hd ht)
          hCount
    · rename_i hWrong
      apply Orderly.fault
      intro hAligned
      have hAll := hCount hAligned
      exact absurd (hAll.trans (hStub hAligned).symm) hWrong

theorem Entering.throughStub
    {n : Nat}
    {stub : Stub}
    (hHost : rt.host.MakesNoTargets)
    (hEnter :
      Entering aligned rt base (fun u => enterStub rt n u.stub u))
    (ht : t ∈ c.made)
    (hArity : aligned → t.stub.arity = t.count)
    (hStub : aligned → stub.arity = t.count)
    (hCount : aligned → args.length = t.count) :
    Orderly aligned rt base c (enterStub rt (n + 1) stub t args)
      (fun _ => True) :=
  Entering.counting hHost hEnter ht hArity hStub hCount

/-
  Entering with any fuel is orderly.  A target's own stub
  takes as many arguments as the target has parameters if it
  was compiled by the checking compiler; this is only asked
  for when the run is in line.
-/
theorem entering_enter
    (hHost : rt.host.MakesNoTargets)
    (hCompile : aligned → rt.compile = .checking)
    (fuel : Nat) :
    Entering aligned rt base (Target.enter rt fuel) := by
  change Entering aligned rt base
    (fun u => enterStub rt fuel u.stub u)
  induction fuel with
  | zero =>
      intro c t args _ _
      exact Orderly.unfinished
  | succ n ih =>
      intro c t args ht hCount
      apply Orderly.known
      intro _ hValid
      have hArity : aligned → t.stub.arity = t.count := by
        intro hAligned
        exact (hValid.serves t ht).arity_eq (hCompile hAligned)
      exact
        Entering.throughStub hHost ih ht hArity hArity hCount

end Linkage
