import Linkage.Proofs.Heap
import Linkage.Proofs.Link.Makes

/-
  The adapters make nodes that fit: each of them computes the
  signature that the behaviour of its form asks for.

  Key definitions include:
    * `Surroundings.AllowsBoxes`
    * `Makes.Replaces`

  Key theorems include:
    * `Makes.asCollector`
    * `Makes.asSpreader`
    * `Makes.filterArguments`
    * `Makes.permuteArguments`
    * `Makes.insertArguments`
    * `Makes.foldArguments`
    * `Makes.catchException`
    * `Makes.invoker`
-/

------------------------------------------------------------
-- Checks
------------------------------------------------------------

namespace Linkage

/- A fact about the heap stays known when a box is made. -/
def Surroundings.AllowsBoxes (F : Surroundings) : Prop :=
  ∀ h xs es p, F h xs es → F (h.allocBox p).2 xs es

variable {rt : Runtime}
variable {F : Surroundings}
variable {c d : Catalog}
variable {sig : Signature}
variable {t u : Target}

theorem componentOf_inspects (array : Ty) :
    (componentOf array).Inspects (fun a => array = .array a) := by
  unfold componentOf
  cases array with
  | prim k => exact .throw _
  | cls n => exact .throw _
  | array a => exact .pure rfl

/- Lists without a difference are equal as far as they go. -/
theorem prefix_of_firstDifference
    {i : Nat}
    {ts ps : List Ty}
    (hDiff : firstDifference i ts ps = none)
    (hLength : ts.length ≤ ps.length) :
    ts <+: ps := by
  induction ts generalizing i ps with
  | nil => exact List.nil_prefix
  | cons a as ih =>
      cases ps with
      | nil => simp at hLength
      | cons b bs =>
          unfold firstDifference at hDiff
          split at hDiff
          · rename_i hEq
            subst hEq
            have hRest :=
              ih hDiff (Nat.le_of_succ_le_succ hLength)
            exact (List.prefix_cons_inj a).2 hRest
          · cases hDiff

theorem checkLeading_inspects
    (ts : List Ty)
    (s : Signature) :
    (checkLeading ts s).Inspects (fun _ => ts <+: s.params) := by
  unfold checkLeading
  split
  · exact .throw _
  · rename_i hCount
    split
    · exact .throw _
    · rename_i hDiff
      apply Link.Inspects.pure
      exact
        prefix_of_firstDifference hDiff (Nat.le_of_not_lt hCount)

theorem Ty.exists_of_isArray
    {p : Ty}
    (hArray : p.IsArray = true) :
    ∃ component, p = .array component := by
  cases p with
  | prim k => cases hArray
  | cls n => cases hArray
  | array component => exact ⟨component, rfl⟩

/- The last parameter takes arrays of the given type. -/
theorem checkTrailingArray_inspects
    (rt : Runtime)
    (t : Target)
    (array : Ty) :
    (t.checkTrailingArray rt array).Inspects
      (fun _ =>
        ∃ component element,
          array = .array component ∧
            t.params = t.params.dropLast ++ [.array element] ∧
            rt.classes.isAssignable (.array component)
              (.array element) = true) := by
  unfold Target.checkTrailingArray
  split
  · exact .throw _
  · rename_i hArray
    have hIsArray : array.IsArray = true := by
      simpa using hArray
    rcases Ty.exists_of_isArray hIsArray with ⟨component, rfl⟩
    split
    · rename_i last hLast
      split
      · rename_i hCond
        rw [Bool.and_eq_true] at hCond
        rcases Ty.exists_of_isArray hCond.1 with ⟨element, rfl⟩
        apply Link.Inspects.pure
        exact
          ⟨component, element, rfl,
            (List.dropLast_append_getLast? _ hLast).symm, hCond.2⟩
      · exact .throw _
    · exact .throw _

/- All of one or two targets are in the catalog. -/
theorem Catalog.all_one
    (ht : t ∈ c.made) :
    ∀ v ∈ [t], v ∈ c.made := by
  intro v hv
  rw [List.mem_singleton.1 hv]
  exact ht

theorem Catalog.all_two
    (ht : t ∈ c.made)
    (hu : u ∈ c.made) :
    ∀ v ∈ [t, u], v ∈ c.made := by
  intro v hv
  rcases List.mem_cons.1 hv with rfl | hRest
  · exact ht
  · rw [List.mem_singleton.1 hRest]
    exact hu

namespace Makes

------------------------------------------------------------
-- Collecting and Spreading
------------------------------------------------------------

/- The collected arguments become the trailing array. -/
theorem asCollector
    {array : Ty}
    {count : Nat}
    (ht : t ∈ c.made) :
    Makes rt F c (t.asCollector rt array count)
      (fun d u =>
        u ∈ d.made ∧
          ∃ sig component, u.Is sig (.collect t component count)) := by
  unfold Target.asCollector
  refine check_bind (checkTrailingArray_inspects rt t array) ?_
  rintro _ ⟨component, element, rfl, hParams, hAssign⟩
  refine check_bind (componentOf_inspects _) ?_
  intro _ hArray
  cases hArray
  refine check_bind (.ofSignature _) ?_
  intro shorter hShorter
  refine check_bind (.ofSignature _) ?_
  intro sig hSig
  rcases Signature.of_dropParams hShorter with
    ⟨_, _, hFixed, hShorterRet⟩
  rcases Signature.of_appendParams hSig with ⟨hSigParams, hSigRet⟩
  have hShorterParams : shorter.params = t.params.dropLast := by
    rw [hFixed, List.dropLast_eq_take]
    change _ ++ List.drop t.params.length t.params = _
    rw [List.drop_length, List.append_nil]
    rfl
  rw [hShorterParams] at hSigParams
  have hFits :
      (Form.collect t component count).Fits rt c.sites sig :=
    .collect hParams hSigParams hAssign
      (hShorterRet.symm.trans hSigRet.symm)
  refine (build ?_ hFits).imp ?_
  · exact Catalog.all_one ht
  · intro d _ u hu
    exact ⟨hu.1, sig, component, hu.2⟩

theorem asSpreader
    {array : Ty}
    {count : Nat}
    (ht : t ∈ c.made) :
    Makes rt F c (t.asSpreader rt array count)
      (fun d u => u ∈ d.made) := by
  unfold Target.asSpreader
  refine check_bind (componentOf_inspects array) ?_
  intro component hArray
  subst hArray
  split
  · exact Makes.throw _
  · dsimp only
    refine check_bind (.ofSignature _) ?_
    intro wanted hWanted
    refine Makes.bind (asType ht) ?_
    intro d _ adapted hAdapted
    refine check_bind (.ofSignature _) ?_
    intro sig hSig
    rcases Signature.params_of_build hWanted with
      ⟨hWantedParams, hWantedRet⟩
    rcases Signature.params_of_build hSig with
      ⟨hSigParams, hSigRet⟩
    rw [← hAdapted.2.1] at hWantedParams hWantedRet
    have hFits :
        (Form.spread adapted count).Fits rt d.sites sig :=
      .spread hWantedParams hSigParams
        (hWantedRet.trans hSigRet.symm)
    exact build_mem (Catalog.all_one hAdapted.1) hFits

/-
  What a collector of trailing arguments delegates to has the
  same signature.
-/
theorem asFixedArity_mem
    (hFits : c.Fits rt)
    (hValid : c.Valid rt)
    (ht : t ∈ c.made) :
    t.asFixedArity ∈ c.made ∧
      t.asFixedArity.signature = t.signature := by
  unfold Target.asFixedArity
  split
  · rename_i u array hForm
    have hWrapped : u ∈ t.wrapped := by
      unfold Target.wrapped
      rw [hForm]
      exact List.mem_singleton.2 rfl
    have hNode := hFits t ht
    rw [hForm] at hNode
    refine ⟨hValid.closed t ht u hWrapped, ?_⟩
    cases hNode with
    | varargs _ hTarget _ _ => exact hTarget
    | method _ _ _ _ _ hCalls => cases hCalls
  · exact ⟨ht, rfl⟩

/- It collects no trailing arguments itself. -/
theorem isVarargs_asFixedArity
    (hFits : c.Fits rt)
    (ht : t ∈ c.made) :
    t.asFixedArity.isVarargs = false := by
  unfold Target.asFixedArity
  split
  · rename_i u array hForm
    have hNode := hFits t ht
    rw [hForm] at hNode
    cases hNode with
    | varargs hPlain _ _ _ => exact hPlain
    | method _ _ _ _ _ hCalls => cases hCalls
  · rename_i hOther
    unfold Target.isVarargs
    split
    · rename_i u array hForm
      exact absurd hForm (hOther u array)
    · rfl

theorem asVarargsCollector
    {array : Ty}
    (ht : t ∈ c.made) :
    Makes rt F c (t.asVarargsCollector rt array)
      (fun d u => u ∈ d.made) := by
  unfold Target.asVarargsCollector
  refine check_bind (checkTrailingArray_inspects rt t array) ?_
  rintro _ ⟨component, element, rfl, hParams, hArray⟩
  split
  · split
    · exact Makes.pure ht
    · apply known
      intro hFits hValid
      rcases asFixedArity_mem hFits hValid ht with ⟨hMem, hSig⟩
      have hPlain := isVarargs_asFixedArity hFits ht
      exact
        build_mem (Catalog.all_one hMem)
          (.varargs hPlain hSig hParams hArray)
  · rename_i hOther
    have hPlain : t.isVarargs = false := by
      unfold Target.isVarargs
      split
      · rename_i u other hForm
        exact absurd hForm (hOther u other)
      · rfl
    exact
      build_mem (Catalog.all_one ht)
        (.varargs hPlain rfl hParams hArray)

------------------------------------------------------------
-- Filters
------------------------------------------------------------

theorem filterReturn
    (ht : t ∈ c.made)
    (hu : u ∈ c.made) :
    Makes rt F c (t.filterReturn rt u)
      (fun d v => v ∈ d.made) := by
  unfold Target.filterReturn
  split
  · rename_i hFilter
    have hFits :
        (Form.filterReturn t u).Fits rt c.sites
          (t.signature.withRet u.ret) :=
      .filterReturn rfl hFilter rfl
    exact build_mem (Catalog.all_two ht hu) hFits
  · exact Makes.throw _

/-
  The signature in which filters stand, from a position on:
  each filter replaces the parameter at its position by its
  own, and all others stay.
-/
structure Replaces
    (params : List Ty)
    (i : Nat)
    (sig : Signature)
    (fs : List (Option Target))
    (final : Signature) : Prop where
  ret_eq : final.ret = sig.ret
  length_eq : final.params.length = sig.params.length
  kept :
    ∀ k, (∀ f, i ≤ k → fs[k - i]? ≠ some (some f)) →
      final.params[k]? = sig.params[k]?
  replaced :
    ∀ j f, fs[j]? = some (some f) →
      ∃ p,
        f.params = [p] ∧ final.params[i + j]? = some p ∧
          f.ret = params.getD (i + j) .void

namespace Replaces

variable {params : List Ty}
variable {i : Nat}
variable {next final : Signature}
variable {o : Option Target}
variable {fs : List (Option Target)}

theorem nil : Replaces params i sig [] sig where
  ret_eq := rfl
  length_eq := rfl
  kept := fun _ _ => rfl
  replaced := by
    intro j f hf
    cases hf

/- What no filter replaces, the later ones do not replace. -/
theorem kept_of_succ
    (hNext : Replaces params (i + 1) next fs final)
    {k : Nat}
    (hk : ∀ f, i ≤ k → (o :: fs)[k - i]? ≠ some (some f)) :
    final.params[k]? = next.params[k]? := by
  apply hNext.kept
  intro f hik hf
  apply hk f (by omega)
  have hIndex : k - i = k - (i + 1) + 1 := by omega
  rw [hIndex]
  exact hf

/- The later filters replace what stands after the first one. -/
theorem replaced_succ
    (hNext : Replaces params (i + 1) next fs final)
    {j : Nat}
    {f : Target}
    (hf : fs[j]? = some (some f)) :
    ∃ p,
      f.params = [p] ∧ final.params[i + (j + 1)]? = some p ∧
        f.ret = params.getD (i + (j + 1)) .void := by
  have hIndex : i + (j + 1) = i + 1 + j := by omega
  rw [hIndex]
  exact hNext.replaced j f hf

theorem skip
    (hNext : Replaces params (i + 1) sig fs final) :
    Replaces params i sig (none :: fs) final where
  ret_eq := hNext.ret_eq
  length_eq := hNext.length_eq
  kept := fun _ hk => hNext.kept_of_succ hk
  replaced := by
    intro j f hf
    cases j with
    | zero => cases hf
    | succ j => exact hNext.replaced_succ hf

theorem cons
    {f : Target}
    {p : Ty}
    (hParams : f.params = [p])
    (hRet : f.ret = params.getD i .void)
    (hi : i < sig.params.length)
    (hSet : next.params = sig.params.set i p)
    (hNextRet : next.ret = sig.ret)
    (hNext : Replaces params (i + 1) next fs final) :
    Replaces params i sig (some f :: fs) final where
  ret_eq := hNext.ret_eq.trans hNextRet
  length_eq := by
    rw [hNext.length_eq, hSet, List.length_set]
  kept := by
    intro k hk
    have hNe : i ≠ k := by
      intro hEq
      subst hEq
      exact hk f (Nat.le_refl i) (by simp)
    rw [hNext.kept_of_succ hk, hSet, List.getElem?_set_ne hNe]
  replaced := by
    intro j g hg
    cases j with
    | zero =>
        cases hg
        refine ⟨p, hParams, ?_, hRet⟩
        rw [Nat.add_zero, hNext.kept i, hSet]
        · exact List.getElem?_set_self hi
        · intro g hik
          omega
    | succ j => exact hNext.replaced_succ hg

end Replaces

theorem filteredSignature_inspects
    (params : List Ty)
    (i : Nat)
    (sig : Signature)
    (fs : List (Option Target)) :
    (Target.filteredSignature params i sig fs).Inspects
      (Replaces params i sig fs) := by
  induction fs generalizing i sig with
  | nil => exact .pure .nil
  | cons o fs ih =>
      cases o with
      | none =>
          unfold Target.filteredSignature
          refine (ih (i + 1) sig).imp ?_
          intro final hNext
          exact hNext.skip
      | some f =>
          unfold Target.filteredSignature
          dsimp only
          split
          · rename_i p hParams
            split
            · rename_i hRet
              refine Link.Inspects.bind (.ofSignature _) ?_
              intro next hNext
              rcases Signature.of_setParam hNext with
                ⟨hi, hSet, hNextRet⟩
              refine (ih (i + 1) next).imp ?_
              intro final hRest
              exact hRest.cons hParams hRet hi hSet hNextRet
            · exact .throw _
          · exact .throw _

theorem filterArguments
    {pos : Nat}
    {fs : List (Option Target)}
    (ht : t ∈ c.made)
    (hFilters : ∀ f, some f ∈ fs → f ∈ c.made) :
    Makes rt F c (t.filterArguments rt pos fs)
      (fun d u => u ∈ d.made) := by
  unfold Target.filterArguments
  split
  · exact Makes.throw _
  · rename_i hCount
    refine check_bind (filteredSignature_inspects _ _ _ _) ?_
    rintro sig ⟨hRet, hLength, hKept, hFiltered⟩
    split
    · exact Makes.pure ht
    · have hWithin : pos + fs.length ≤ t.params.length :=
        Nat.le_of_not_lt hCount
      have hSpec : Filtered pos fs sig.params t.params := by
        refine ⟨hLength, hWithin, hKept, ?_⟩
        intro j f hf
        rcases hFiltered j f hf with ⟨p, hp, hOuter, hInner⟩
        refine ⟨p, hp, hOuter, ?_⟩
        have hj : j < fs.length :=
          (List.getElem?_eq_some_iff.1 hf).1
        have hBound : pos + j < t.params.length := by omega
        have hGet := List.getElem?_eq_getElem hBound
        rw [hInner, List.getD_eq_getElem?_getD, hGet]
        rfl
      refine build_mem ?_ (.filterArguments hSpec hRet.symm)
      intro u hu
      rcases List.mem_cons.1 hu with rfl | hFilter
      · exact ht
      · rcases List.mem_filterMap.1 hFilter with ⟨o, ho, hEq⟩
        rw [id_eq] at hEq
        subst hEq
        exact hFilters u ho

------------------------------------------------------------
-- Moving and Ignoring Arguments
------------------------------------------------------------

/- Each parameter has the type of its source. -/
theorem checkOrder_inspects
    (sig : Signature)
    (i : Nat)
    (order : List Nat)
    (ts : List Ty)
    (hLength : order.length = ts.length) :
    (Target.checkOrder sig i order ts).Inspects
      (fun _ =>
        List.Forall₂ (fun j t => sig.params[j]? = some t) order
          ts) := by
  induction order generalizing i ts with
  | nil =>
      cases ts with
      | nil => exact .pure .nil
      | cons t ts => simp at hLength
  | cons j js ih =>
      cases ts with
      | nil => simp at hLength
      | cons wanted rest =>
          unfold Target.checkOrder
          split
          · exact .throw _
          · rename_i source hSource
            split
            · rename_i hEq
              subst hEq
              refine (ih (i + 1) rest ?_).imp ?_
              · exact Nat.succ_inj.1 hLength
              · intro _ hRest
                exact .cons hSource hRest
            · exact .throw _

theorem permuteArguments
    {order : List Nat}
    (ht : t ∈ c.made) :
    Makes rt F c (t.permuteArguments rt sig order)
      (fun d u => u ∈ d.made) := by
  unfold Target.permuteArguments
  split
  · exact Makes.throw _
  · rename_i hLength
    split
    · exact Makes.throw _
    · rename_i hRet
      have hOrder := checkOrder_inspects sig 0 order t.params
        (not_not.1 hLength)
      refine check_bind hOrder ?_
      intro _ hForall
      have hFits : (Form.permute t order).Fits rt c.sites sig :=
        .permute hForall (not_not.1 hRet).symm
      exact build_mem (Catalog.all_one ht) hFits

theorem dropArguments
    {pos : Nat}
    {types : List Ty}
    (ht : t ∈ c.made) :
    Makes rt F c (t.dropArguments rt pos types)
      (fun d u => u ∈ d.made) := by
  unfold Target.dropArguments
  split
  · exact Makes.pure ht
  · refine check_bind (.ofSignature _) ?_
    intro sig hSig
    rcases Signature.of_insertParams hSig with
      ⟨hPos, hParams, hRet⟩
    have hFits :
        (Form.drop t pos types.length).Fits rt c.sites sig :=
      .drop hPos hParams rfl hRet.symm
    exact build_mem (Catalog.all_one ht) hFits

------------------------------------------------------------
-- Combining Targets
------------------------------------------------------------

theorem foldedSignature_inspects
    (t : Target)
    (ret : Ty) :
    (t.foldedSignature ret).Inspects
      (fun sig =>
        t.params = Target.filterParams ret ++ sig.params ∧
          t.ret = sig.ret) := by
  unfold Target.foldedSignature Target.filterParams
  split
  · exact .pure ⟨rfl, rfl⟩
  · split
    · exact .throw _
    · rename_i first hFirst
      split
      · rename_i hEq
        subst hEq
        apply (Link.Inspects.ofSignature _).imp
        intro sig hSig
        rcases Signature.of_dropFirst hSig with ⟨p, hParams, hRet⟩
        refine ⟨?_, hRet.symm⟩
        unfold Target.params at hFirst ⊢
        rw [hParams] at hFirst ⊢
        cases hFirst
        rfl
      · exact .throw _

theorem foldArguments
    (ht : t ∈ c.made)
    (hu : u ∈ c.made) :
    Makes rt F c (t.foldArguments rt u)
      (fun d v => v ∈ d.made) := by
  unfold Target.foldArguments
  refine check_bind (foldedSignature_inspects t u.ret) ?_
  rintro sig ⟨hParams, hRet⟩
  refine check_bind (checkLeading_inspects _ _) ?_
  intro _ hLeading
  have hFits : (Form.fold t u).Fits rt c.sites sig :=
    .fold hParams hLeading hRet
  exact build_mem (Catalog.all_two hu ht) hFits

theorem guardWithTest
    {test yes no : Target}
    (hTest : test ∈ c.made)
    (hYes : yes ∈ c.made)
    (hNo : no ∈ c.made) :
    Makes rt F c (Target.guardWithTest rt test yes no)
      (fun d u => u ∈ d.made) := by
  unfold Target.guardWithTest
  split
  · exact Makes.throw _
  · rename_i hBranches
    split
    · exact Makes.throw _
    · rename_i hRet
      refine check_bind (checkLeading_inspects _ _) ?_
      intro _ hLeading
      have hFits :
          (Form.guard test yes no).Fits rt c.sites
            yes.signature :=
        .guard (not_not.1 hRet) hLeading rfl
          (not_not.1 hBranches).symm
      refine build_mem ?_ hFits
      intro u hu
      rcases List.mem_cons.1 hu with rfl | hRest
      · exact hTest
      · exact Catalog.all_two hYes hNo u hRest

theorem catchException
    {caught : ClassName}
    (ht : t ∈ c.made)
    (hu : u ∈ c.made) :
    Makes rt F c (t.catchException rt caught u)
      (fun d v => v ∈ d.made) := by
  unfold Target.catchException
  split
  · exact Makes.throw _
  · rename_i hCaught
    split
    · exact Makes.throw _
    · rename_i first hFirst
      split
      · exact Makes.throw _
      · rename_i hClass
        split
        · exact Makes.throw _
        · rename_i hRet
          refine check_bind (.ofSignature _) ?_
          intro rest hRest
          refine check_bind (checkLeading_inspects _ _) ?_
          intro _ hLeading
          rcases Signature.of_dropFirst hRest with ⟨p, hParams, _⟩
          have hHandler : u.params = .cls caught :: rest.params := by
            unfold Target.params at hFirst ⊢
            rw [hParams] at hFirst ⊢
            cases hFirst
            rw [not_not.1 hClass]
          have hThrowable :
              rt.classes.isThrowable caught = true := by
            simpa using hCaught
          have hFits :
              (Form.rescue t caught u).Fits rt c.sites
                t.signature :=
            .rescue rfl hThrowable hHandler hLeading
              (not_not.1 hRet)
          exact build_mem (Catalog.all_two ht hu) hFits

------------------------------------------------------------
-- Constants
------------------------------------------------------------

/-
  A constant that is converted has its type; at most a box is
  put into the heap.
-/
theorem convertConstant
    {v : Value}
    {p : Ty}
    (hBoxes : F.AllowsBoxes) :
    Makes rt F c (Link.onHeap (convertConstant rt.classes v p))
      (fun d o =>
        d = c ∧ ∀ w, o = some w → w.conforms rt.classes p) := by
  intro s hKnown
  have hHeap := convertConstant_heap rt.classes v p s.heap
  unfold Link.onHeap
  cases hRun : Linkage.convertConstant rt.classes v p s.heap with
  | mk o h =>
      rw [hRun] at hHeap
      refine ⟨c, le_refl c, ?_, rfl, ?_⟩
      · rcases hHeap with hSame | ⟨q, hBox⟩
        · have hEq : h = s.heap := hSame
          subst hEq
          exact hKnown
        · have hEq : h = (s.heap.allocBox q).2 := hBox
          subst hEq
          refine ⟨hKnown.fits, ?_, hBoxes _ _ _ q hKnown.around⟩
          apply hKnown.sound.withHeap
          intro i u hu
          exact
            hKnown.sound.handles i u (Heap.at?_allocBox_target hu)
      · intro w hw
        subst hw
        exact (convertConstant_eq hRun).1

theorem bindTo
    {v : Value}
    (hBoxes : F.AllowsBoxes)
    (ht : t ∈ c.made) :
    Makes rt F c (t.bindTo rt v)
      (fun d u => u ∈ d.made) := by
  unfold Target.bindTo
  split
  · exact Makes.throw _
  · rename_i first hFirst
    split
    · exact Makes.throw _
    · refine Makes.bind (convertConstant hBoxes) ?_
      rintro d _ o ⟨rfl, hValue⟩
      cases o with
      | none => exact Makes.throw _
      | some w =>
          refine check_bind (.ofSignature _) ?_
          intro sig hSig
          rcases Signature.of_dropFirst hSig with
            ⟨p, hParams, hRet⟩
          have hEq : p = first := by
            unfold Target.params at hFirst
            rw [hParams] at hFirst
            exact Option.some.inj hFirst
          subst hEq
          have hFits : (Form.bound t w).Fits rt d.sites sig :=
            .bound hParams hRet.symm (hValue w rfl)
          exact build_mem (Catalog.all_one ht) hFits

/-
  Constants are converted one by one, up to the shorter of
  the two lists.
-/
theorem convertConstants
    {i : Nat}
    {vs : List Value}
    {ts : List Ty}
    (hBoxes : F.AllowsBoxes)
    (hLength : vs.length ≤ ts.length) :
    Makes rt F c (Target.convertConstants rt i vs ts)
      (fun d ws =>
        d = c ∧
          List.Forall₂
            (fun w t => w.conforms rt.classes t = true) ws
            (ts.take vs.length)) := by
  induction vs generalizing i ts with
  | nil =>
      unfold Target.convertConstants
      exact Makes.pure ⟨rfl, .nil⟩
  | cons v vs ih =>
      cases ts with
      | nil => simp at hLength
      | cons t ts =>
          unfold Target.convertConstants
          refine Makes.bind (convertConstant hBoxes) ?_
          rintro d _ o ⟨rfl, hValue⟩
          cases o with
          | none => exact Makes.throw _
          | some w =>
              refine Makes.bind (ih ?_) ?_
              · exact Nat.le_of_succ_le_succ hLength
              · rintro e _ ws ⟨rfl, hRest⟩
                exact Makes.pure ⟨rfl, .cons (hValue w rfl) hRest⟩

theorem insertArguments
    {pos : Nat}
    {values : List Value}
    (hBoxes : F.AllowsBoxes)
    (ht : t ∈ c.made) :
    Makes rt F c (t.insertArguments rt pos values)
      (fun d u => u ∈ d.made) := by
  unfold Target.insertArguments
  split
  · exact Makes.throw _
  · rename_i hCount
    split
    · exact Makes.pure ht
    · have hWithin : pos + values.length ≤ t.params.length :=
        Nat.le_of_not_lt hCount
      refine Makes.bind (convertConstants hBoxes ?_) ?_
      · rw [List.length_drop]
        omega
      · rintro d _ ws ⟨rfl, hValues⟩
        refine check_bind (.ofSignature _) ?_
        intro sig hSig
        rcases Signature.of_dropParams hSig with
          ⟨_, hStop, hParams, hRet⟩
        have hLength := hValues.length_eq
        rw [List.length_take, List.length_drop] at hLength
        have hTake : (t.params.take pos).length = pos := by
          rw [List.length_take]
          omega
        have hPos : pos ≤ sig.count := by
          unfold Signature.count
          rw [hParams, List.length_append]
          change pos ≤ (t.params.take pos).length + _
          rw [hTake]
          exact Nat.le_add_right _ _
        have hFits :
            (Form.insert t pos ws).Fits rt d.sites sig := by
          apply Form.Fits.insert hPos _ hValues hRet.symm
          rw [hParams]
          change t.params =
            (t.params.take pos ++ t.params.drop _).take pos ++ _ ++
              (t.params.take pos ++ t.params.drop _).drop pos
          rw [List.take_left' hTake, List.drop_left' hTake]
          have hCut :
              t.params.drop (pos + ws.length) =
                (t.params.drop pos).drop values.length := by
            rw [List.drop_drop, hLength]
            congr 1
            omega
          rw [hCut, List.append_assoc, List.take_append_drop,
            List.take_append_drop]
        exact build_mem (Catalog.all_one ht) hFits

theorem constant
    {p : Ty}
    {v : Value}
    (hBoxes : F.AllowsBoxes) :
    Makes rt F c (Target.constant rt p v)
      (fun d u => u ∈ d.made) := by
  unfold Target.constant
  split
  · exact Makes.throw _
  · refine Makes.bind (convertConstant hBoxes) ?_
    rintro d _ o ⟨rfl, hValue⟩
    cases o with
    | none => exact Makes.throw _
    | some w =>
        refine check_bind (.ofSignature _) ?_
        intro sig hSig
        rcases Signature.params_of_build hSig with ⟨hParams, hRet⟩
        have hFits : (Form.constant w).Fits rt d.sites sig := by
          apply Form.Fits.constant hParams
          rw [hRet]
          exact hValue w rfl
        refine build_mem ?_ hFits
        intro u hu
        cases hu

------------------------------------------------------------
-- Elementary Targets
------------------------------------------------------------

/- A node without delegates, of a signature that is built. -/
theorem elementary
    {ret : Ty}
    {params : List Ty}
    {form : Form Target}
    (hTargets : form.targets = [])
    (hFits :
      ∀ sig : Signature, sig.params = params → sig.ret = ret →
        form.Fits rt c.sites sig) :
    Makes rt F c
      (do
        let sig ← Link.ofSignature (Signature.build ret params)
        Target.build rt sig form)
      (fun d u => u ∈ d.made) := by
  refine check_bind (.ofSignature _) ?_
  intro sig hSig
  rcases Signature.params_of_build hSig with ⟨hParams, hRet⟩
  refine build_mem ?_ (hFits sig hParams hRet)
  intro u hu
  rw [hTargets] at hu
  cases hu

theorem identity
    {p : Ty} :
    Makes rt F c (Target.identity rt p)
      (fun d u => u ∈ d.made) := by
  unfold Target.identity
  split
  · exact Makes.throw _
  · apply elementary rfl
    intro sig hParams hRet
    apply Form.Fits.identity
    rw [hParams, hRet]

theorem zero
    {p : Ty} :
    Makes rt F c (Target.zero rt p)
      (fun d u => u ∈ d.made) := by
  unfold Target.zero
  apply elementary rfl
  intro sig hParams hRet
  apply Form.Fits.constant hParams
  rw [hRet]
  exact Value.conforms_zero rt.classes p

theorem throwException
    {ret : Ty}
    {n : ClassName} :
    Makes rt F c (Target.throwException rt ret n)
      (fun d u => u ∈ d.made) := by
  unfold Target.throwException
  split
  · exact Makes.throw _
  · rename_i hThrowable
    apply elementary rfl
    intro sig hParams _
    apply Form.Fits.throw _ hParams
    simpa using hThrowable

theorem arrayGetter
    {array : Ty} :
    Makes rt F c (Target.arrayGetter rt array)
      (fun d u => u ∈ d.made) := by
  unfold Target.arrayGetter
  refine check_bind (componentOf_inspects array) ?_
  rintro component rfl
  apply elementary rfl
  intro sig hParams hRet
  apply Form.Fits.arrayGet
  rw [hParams, hRet]

theorem arraySetter
    {array : Ty} :
    Makes rt F c (Target.arraySetter rt array)
      (fun d u => u ∈ d.made) := by
  unfold Target.arraySetter
  refine check_bind (componentOf_inspects array) ?_
  rintro component rfl
  apply elementary rfl
  intro sig hParams hRet
  exact .arraySet hParams hRet

theorem arrayLength
    {array : Ty} :
    Makes rt F c (Target.arrayLength rt array)
      (fun d u => u ∈ d.made) := by
  unfold Target.arrayLength
  refine check_bind (componentOf_inspects array) ?_
  rintro component rfl
  apply elementary rfl
  intro sig hParams hRet
  exact .arrayLength hParams hRet

/- The first slot of an invoker, a handle, is kept exact. -/
theorem invoker
    {exact : Bool} :
    Makes rt F c (Target.invoker rt sig exact)
      (fun d u => u ∈ d.made) := by
  unfold Target.invoker
  refine check_bind (.ofSignature _) ?_
  intro whole hWhole
  rcases Signature.of_insertParams hWhole with ⟨_, hParams, hRet⟩
  have hFits :
      (Form.invoker exact sig).Fits rt c.sites whole :=
    .invoker hParams hRet
  refine (buildKeyed ?_ hFits ?_).imp ?_
  · intro u hu
    cases hu
  · refine Or.inr ⟨rfl, ?_⟩
    rw [hParams]
    rfl
  · intro d _ u hu
    exact hu.1

end Makes

end Linkage
