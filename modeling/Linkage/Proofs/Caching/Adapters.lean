import Linkage.Proofs.Caching.Agree
import Linkage.Proofs.Link.Lookups

/-
  The adapters agree: given twins they make twins or fail with
  one error, whatever the caches hold and whatever is
  remembered.  All that they check are signatures, which twins
  share; all that they make is a node of the form that the
  other one makes.

  Key theorems include:
    * `Agree.buildKeyed`
    * `Agree.asType`
    * `Agree.asVarargsCollector`
    * `Agree.filterArguments`
    * `Agree.insertArguments`
    * `Agree.invoker`
-/

------------------------------------------------------------
-- New Nodes
------------------------------------------------------------

namespace Linkage

variable {rt : Runtime}
variable {b : Bool}
variable {w v : Pairing}
variable {s s' : State}
variable {sig : Signature}
variable {t u x y : Target}
variable {f g : Form Target}
variable {K : Pairing → Target → Target → Prop}
variable [Bond K]

namespace Agree

/- Nodes of one signature and of forms that are related. -/
theorem buildKeyed
    [Target.Congruence (K w)]
    {exact : SlotRange}
    {extra : Option Stub.Extra}
    (hChecking : rt.compile = .checking)
    (hForm : f.Rel (Kin K w) g)
    (hExact : exact.Suits sig) :
    Agree rt b w (Target.buildKeyed rt sig f exact extra)
      (Target.buildKeyed (rt.memoizing b) sig g exact extra)
      (Kin K) := by
  intro s s' hTwins
  rcases Kin.made hForm with ⟨hLeft, hRight⟩
  rcases
    hTwins.left.buildKeyed_ok hChecking sig extra hLeft hExact
    with ⟨x, z, hRun, hGrown, hSig, hx, hKey⟩
  rcases
    hTwins.right.buildKeyed_ok hChecking sig extra hRight hExact
    with ⟨y, z', hRun', hGrown', hSig', hy, hKey'⟩
  rw [hRun, hRun']
  have hAlike : K w x y := by
    apply Target.Congruence.of_parts
    · exact hSig'.trans hSig.symm
    · exact hKey'.trans hKey.symm
    · rw [hx, hy]
      exact hForm.imp (fun _ _ hKin => hKin.alike)
  have hLe :
      w ≤ ⟨w.left.addNode x, w.right.addNode y, w.same⟩ :=
    ⟨hGrown.le, hGrown'.le, rfl⟩
  have hKin :
      Kin K ⟨w.left.addNode x, w.right.addNode y, w.same⟩ x y :=
    ⟨Catalog.mem_addNode.2 (Or.inr rfl),
      Catalog.mem_addNode.2 (Or.inr rfl), Bond.later hLe hAlike⟩
  exact .ok hLe (hTwins.grown rfl hGrown hGrown') hKin

theorem build
    [Target.Congruence (K w)]
    (hChecking : rt.compile = .checking)
    (hForm : f.Rel (Kin K w) g) :
    Agree rt b w (Target.build rt sig f)
      (Target.build (rt.memoizing b) sig g) (Kin K) :=
  buildKeyed hChecking hForm (Or.inl rfl)

------------------------------------------------------------
-- Retyping
------------------------------------------------------------

theorem convert
    {p : Plan}
    (hChecking : rt.compile = .checking)
    (ht : Kin K w t u) :
    Agree rt b w (t.convert rt sig p)
      (u.convert (rt.memoizing b) sig p) (Kin K) := by
  intro s s' hTwins
  rcases
    hTwins.left.convert_ok hChecking sig p ht.left
    with ⟨x, c, z, hRun, hGrown, hx, hConverted⟩
  rcases
    hTwins.right.convert_ok hChecking sig p ht.right
    with ⟨y, d, z', hRun', hGrown', hy, hConverted'⟩
  rw [hRun, hRun']
  have hLe : w ≤ ⟨c, d, w.same⟩ :=
    ⟨hGrown.le, hGrown'.le, rfl⟩
  have hAlike : K w x y :=
    ht.congruence.of_converted ht.alike hConverted hConverted'
  have hKin : Kin K ⟨c, d, w.same⟩ x y :=
    ⟨hx, hy, Bond.later hLe hAlike⟩
  exact .ok hLe (hTwins.grown rfl hGrown hGrown') hKin

/-
  Retypings agree, whether they are remembered or made anew:
  both are conversions along the one plan that there is.
-/
theorem asType
    (hChecking : rt.compile = .checking)
    (ht : Kin K w t u) :
    Agree rt b w (t.asType rt sig)
      (u.asType (rt.memoizing b) sig) (Kin K) := by
  by_cases hSig : t.signature = sig
  · have hSig' : u.signature = sig :=
      ht.signature_eq.trans hSig
    unfold Target.asType
    rw [if_pos hSig, if_pos hSig']
    exact pure ht
  · have hSig' : u.signature ≠ sig := by
      rw [ht.signature_eq]
      exact hSig
    intro s s' hTwins
    have hLeft := hTwins.left.asType_outcome hChecking ht.left hSig
    have hRight :=
      hTwins.right.asType_outcome hChecking ht.right hSig'
    have hClasses : (rt.memoizing b).classes = rt.classes := rfl
    rw [ht.signature_eq, hClasses] at hRight
    cases hPlan :
        planSignature rt.classes sig t.signature .implicit with
    | error e =>
        rw [hPlan] at hLeft hRight
        dsimp only at hLeft hRight
        rw [hLeft, hRight]
        exact .error (le_refl w) hTwins
    | ok p =>
        rw [hPlan] at hLeft hRight
        rcases hLeft with ⟨x, c, z, hRun, hGrown, hx, hConverted⟩
        rcases hRight with
          ⟨y, d, z', hRun', hGrown', hy, hConverted'⟩
        rw [hRun, hRun']
        have hLe : w ≤ ⟨c, d, w.same⟩ :=
          ⟨hGrown.le, hGrown'.le, rfl⟩
        have hAlike : K w x y :=
          ht.congruence.of_converted ht.alike hConverted
            hConverted'
        have hKin : Kin K ⟨c, d, w.same⟩ x y :=
          ⟨hx, hy, Bond.later hLe hAlike⟩
        exact .ok hLe (hTwins.grown rfl hGrown hGrown') hKin

theorem explicitCast
    (hChecking : rt.compile = .checking)
    (ht : Twin w t u) :
    Agree rt b w (t.explicitCast rt sig)
      (u.explicitCast (rt.memoizing b) sig) Twin := by
  unfold Target.explicitCast
  rw [ht.alike.signature_eq]
  apply ite
  · intro _
    exact pure ht
  · intro _
    refine check_bind (.ofSignature _) ?_
    intro p _
    exact convert hChecking ht

------------------------------------------------------------
-- Receivers and Trailing Arrays
------------------------------------------------------------

/- A constant is converted in the same way. -/
theorem convertConstant
    (a : Value)
    (p : Ty) :
    Agree rt b w (Link.onHeap (convertConstant rt.classes a p))
      (Link.onHeap (convertConstant (rt.memoizing b).classes a p))
      (fun _ o o' => o' = o) := by
  apply linkOnHeap
  intro h k hHeaps
  refine
    HeapTwins.of_blind (f := Linkage.convertConstant rt.classes a p)
      (convertConstant_blind a p) ?_ hHeaps
  intro h i t hAt
  rcases convertConstant_heap rt.classes a p h with hSame | hBox
  · rw [hSame] at hAt
    exact hAt
  · rcases hBox with ⟨q, hEq⟩
    rw [hEq] at hAt
    exact Heap.at?_allocBox_target hAt

theorem bindTo
    {a : Value}
    (hChecking : rt.compile = .checking)
    (ht : Twin w t u) :
    Agree rt b w (t.bindTo rt a) (u.bindTo (rt.memoizing b) a)
      Twin := by
  unfold Target.bindTo
  rw [ht.alike.params_eq, ht.alike.signature_eq]
  cases t.params.head? with
  | none => exact throw _
  | some first =>
      dsimp only
      apply guarded
      intro _
      refine bind_same (convertConstant a first) ?_
      intro v hv o
      cases o with
      | none => exact throw _
      | some c =>
          refine check_bind (.ofSignature _) ?_
          intro sig _
          exact build hChecking (.bound c (ht.later hv))

theorem checkTrailingArray_eq
    (array : Ty)
    (hParams : u.params = t.params) :
    u.checkTrailingArray (rt.memoizing b) array =
      t.checkTrailingArray rt array := by
  unfold Target.checkTrailingArray
  rw [hParams]
  rfl

theorem asCollector
    {array : Ty}
    {count : Nat}
    (hChecking : rt.compile = .checking)
    (ht : Kin K w t u) :
    Agree rt b w (t.asCollector rt array count)
      (u.asCollector (rt.memoizing b) array count) (Kin K) := by
  have hLaws := ht.congruence
  unfold Target.asCollector
  rw [checkTrailingArray_eq array ht.params_eq, ht.signature_eq,
    ht.count_eq]
  refine check_bind (checkTrailingArray_inspects rt t array) ?_
  intro _ _
  refine check_bind (componentOf_inspects array) ?_
  intro component _
  refine check_bind (.ofSignature _) ?_
  intro shorter _
  refine check_bind (.ofSignature _) ?_
  intro sig _
  exact build hChecking (.collect component count ht)

theorem asSpreader
    {array : Ty}
    {count : Nat}
    (hChecking : rt.compile = .checking)
    (ht : Twin w t u) :
    Agree rt b w (t.asSpreader rt array count)
      (u.asSpreader (rt.memoizing b) array count) Twin := by
  unfold Target.asSpreader
  rw [ht.alike.params_eq, ht.alike.ret_eq, ht.alike.count_eq]
  refine check_bind (componentOf_inspects array) ?_
  intro component _
  apply guarded
  intro _
  dsimp only
  refine check_bind (.ofSignature _) ?_
  intro wanted _
  refine bind (asType hChecking ht) ?_
  intro v hv x y hxy
  refine check_bind (.ofSignature _) ?_
  intro sig _
  exact build hChecking (.spread count hxy)

/- What collectors of trailing arguments delegate to. -/
theorem asFixedArity
    (hTwins : Twins rt b w s s')
    (ht : Twin w t u) :
    Twin w t.asFixedArity u.asFixedArity := by
  have hForm := ht.form hTwins
  unfold Target.asFixedArity
  generalize t.form = f at hForm
  generalize u.form = g at hForm
  cases hForm with
  | varargs array hxy => exact hxy
  | leaf hLeaf =>
      cases f with
      | varargs x array => cases hLeaf
      | _ => exact ht
  | _ => exact ht

theorem asVarargsCollector
    {array : Ty}
    (hChecking : rt.compile = .checking)
    (ht : Twin w t u) :
    Agree rt b w (t.asVarargsCollector rt array)
      (u.asVarargsCollector (rt.memoizing b) array) Twin := by
  unfold Target.asVarargsCollector
  rw [checkTrailingArray_eq array ht.params_eq,
    ht.signature_eq]
  refine check_bind (checkTrailingArray_inspects rt t array) ?_
  intro _ _
  apply relying
  intro s s' hTwins
  have hForm := ht.form hTwins
  have hFixed := asFixedArity hTwins ht
  generalize t.form = f at hForm
  generalize u.form = g at hForm
  cases hForm with
  | varargs other hxy =>
      apply ite
      · intro _
        exact pure ht
      · intro _
        exact build hChecking (.varargs array hFixed)
  | leaf hLeaf =>
      cases f with
      | varargs x other => cases hLeaf
      | _ => exact build hChecking (.varargs array ht)
  | _ => exact build hChecking (.varargs array ht)

------------------------------------------------------------
-- Filters
------------------------------------------------------------

theorem filterReturn
    (hChecking : rt.compile = .checking)
    (ht : Twin w t u)
    (hx : Twin w x y) :
    Agree rt b w (t.filterReturn rt x)
      (u.filterReturn (rt.memoizing b) y) Twin := by
  unfold Target.filterReturn
  rw [ht.alike.ret_eq, ht.alike.signature_eq, hx.alike.params_eq,
    hx.alike.ret_eq]
  apply ite
  · intro _
    exact build hChecking (.filterReturn ht hx)
  · intro _
    exact throw _

/- The signature depends on the signatures of the filters. -/
theorem filteredSignature_eq
    {fs gs : List (Option Target)}
    (params : List Ty)
    (i : Nat)
    (sig : Signature)
    (hFilters : List.Forall₂ (Option.Rel (Twin w)) fs gs) :
    Target.filteredSignature params i sig gs =
      Target.filteredSignature params i sig fs := by
  induction hFilters generalizing i sig with
  | nil => rfl
  | cons hop _ ih =>
      cases hop with
      | none =>
          unfold Target.filteredSignature
          exact ih (i + 1) sig
      | some hxy =>
          unfold Target.filteredSignature
          rw [hxy.alike.params_eq, hxy.alike.ret_eq]
          simp only [ih]

theorem all_isNone_eq
    {fs gs : List (Option Target)}
    (hFilters : List.Forall₂ (Option.Rel (Twin w)) fs gs) :
    gs.all Option.isNone = fs.all Option.isNone := by
  induction hFilters with
  | nil => rfl
  | cons hop _ ih =>
      rw [List.all_cons, List.all_cons, ih]
      cases hop with
      | _ => rfl

theorem filterArguments
    {pos : Nat}
    {fs gs : List (Option Target)}
    (hChecking : rt.compile = .checking)
    (ht : Twin w t u)
    (hFilters : List.Forall₂ (Option.Rel (Twin w)) fs gs) :
    Agree rt b w (t.filterArguments rt pos fs)
      (u.filterArguments (rt.memoizing b) pos gs) Twin := by
  unfold Target.filterArguments
  rw [ht.alike.count_eq, ht.alike.params_eq,
    ht.alike.signature_eq, ← hFilters.length_eq,
    filteredSignature_eq _ _ _ hFilters, all_isNone_eq hFilters]
  apply guarded
  intro _
  refine check_bind (Makes.filteredSignature_inspects _ _ _ _) ?_
  intro sig _
  apply ite
  · intro _
    exact pure ht
  · intro _
    exact build hChecking (.filterArguments pos ht hFilters)

------------------------------------------------------------
-- Moving, Fixing and Ignoring Arguments
------------------------------------------------------------

theorem permuteArguments
    {order : List Nat}
    (hChecking : rt.compile = .checking)
    (ht : Twin w t u) :
    Agree rt b w (t.permuteArguments rt sig order)
      (u.permuteArguments (rt.memoizing b) sig order) Twin := by
  unfold Target.permuteArguments
  rw [ht.alike.count_eq, ht.alike.ret_eq, ht.alike.params_eq]
  apply guarded
  intro hLength
  apply guarded
  intro _
  have hOrder :=
    Makes.checkOrder_inspects sig 0 order t.params
      (not_not.1 hLength)
  refine check_bind hOrder ?_
  intro _ _
  exact build hChecking (.permute order ht)

theorem convertConstants
    {i : Nat}
    {as : List Value}
    {ps : List Ty} :
    Agree rt b w (Target.convertConstants rt i as ps)
      (Target.convertConstants (rt.memoizing b) i as ps)
      (fun _ cs cs' => cs' = cs) := by
  induction as generalizing i ps w with
  | nil => exact pure rfl
  | cons a as ih =>
      cases ps with
      | nil => exact pure rfl
      | cons p ps =>
          unfold Target.convertConstants
          refine bind_same (convertConstant a p) ?_
          intro v _ o
          cases o with
          | none => exact throw _
          | some c =>
              refine bind_same ih ?_
              intro z _ cs
              exact pure rfl

theorem insertArguments
    {pos : Nat}
    {as : List Value}
    (hChecking : rt.compile = .checking)
    (ht : Twin w t u) :
    Agree rt b w (t.insertArguments rt pos as)
      (u.insertArguments (rt.memoizing b) pos as) Twin := by
  unfold Target.insertArguments
  rw [ht.alike.count_eq, ht.alike.params_eq,
    ht.alike.signature_eq]
  apply guarded
  intro _
  apply ite
  · intro _
    exact pure ht
  · intro _
    refine bind_same convertConstants ?_
    intro v hv cs
    refine check_bind (.ofSignature _) ?_
    intro sig _
    exact build hChecking (.insert pos cs (ht.later hv))

theorem dropArguments
    {pos : Nat}
    {types : List Ty}
    (hChecking : rt.compile = .checking)
    (ht : Twin w t u) :
    Agree rt b w (t.dropArguments rt pos types)
      (u.dropArguments (rt.memoizing b) pos types) Twin := by
  unfold Target.dropArguments
  rw [ht.alike.signature_eq]
  apply ite
  · intro _
    exact pure ht
  · intro _
    refine check_bind (.ofSignature _) ?_
    intro sig _
    exact build hChecking (.drop pos types.length ht)

------------------------------------------------------------
-- Combining Targets
------------------------------------------------------------

theorem foldArguments
    (hChecking : rt.compile = .checking)
    (ht : Twin w t u)
    (hx : Twin w x y) :
    Agree rt b w (t.foldArguments rt x)
      (u.foldArguments (rt.memoizing b) y) Twin := by
  have hFolded :
      u.foldedSignature x.ret = t.foldedSignature x.ret := by
    unfold Target.foldedSignature
    rw [ht.alike.signature_eq, ht.alike.params_eq]
  unfold Target.foldArguments
  rw [hx.alike.ret_eq, hx.alike.params_eq, hFolded]
  refine check_bind (Makes.foldedSignature_inspects t x.ret) ?_
  intro sig _
  refine check_bind (checkLeading_inspects _ _) ?_
  intro _ _
  exact build hChecking (.fold ht hx)

theorem guardWithTest
    {c d : Target}
    (hChecking : rt.compile = .checking)
    (hc : Twin w c d)
    (ht : Twin w t u)
    (hx : Twin w x y) :
    Agree rt b w (Target.guardWithTest rt c t x)
      (Target.guardWithTest (rt.memoizing b) d u y) Twin := by
  unfold Target.guardWithTest
  rw [ht.alike.signature_eq, hx.alike.signature_eq,
    hc.alike.ret_eq, hc.alike.params_eq]
  apply guarded
  intro _
  apply guarded
  intro _
  refine check_bind (checkLeading_inspects _ _) ?_
  intro _ _
  exact build hChecking (.guard hc ht hx)

theorem catchException
    {n : ClassName}
    (hChecking : rt.compile = .checking)
    (ht : Twin w t u)
    (hx : Twin w x y) :
    Agree rt b w (t.catchException rt n x)
      (u.catchException (rt.memoizing b) n y) Twin := by
  unfold Target.catchException
  rw [ht.alike.signature_eq, ht.alike.ret_eq,
    hx.alike.signature_eq, hx.alike.ret_eq, hx.alike.params_eq]
  apply guarded
  intro _
  cases x.params.head? with
  | none => exact throw _
  | some first =>
      dsimp only
      apply guarded
      intro _
      apply guarded
      intro _
      refine check_bind (.ofSignature _) ?_
      intro rest _
      refine check_bind (checkLeading_inspects _ _) ?_
      intro _ _
      exact build hChecking (.rescue n ht hx)

------------------------------------------------------------
-- Elementary Targets
------------------------------------------------------------

/- A node without delegates, of a signature that is built. -/
theorem elementary
    {ret : Ty}
    {params : List Ty}
    (hChecking : rt.compile = .checking)
    (hTargets : f.targets = []) :
    Agree rt b w
      (do
        let sig ← Link.ofSignature (Signature.build ret params)
        Target.build rt sig f)
      (do
        let sig ← Link.ofSignature (Signature.build ret params)
        Target.build (rt.memoizing b) sig f)
      Twin := by
  refine check_bind (.ofSignature _) ?_
  intro sig _
  exact build hChecking (.leaf hTargets)

theorem constant
    {p : Ty}
    {a : Value}
    (hChecking : rt.compile = .checking) :
    Agree rt b w (Target.constant rt p a)
      (Target.constant (rt.memoizing b) p a) Twin := by
  unfold Target.constant
  apply guarded
  intro _
  refine bind_same (convertConstant a p) ?_
  intro v _ o
  cases o with
  | none => exact throw _
  | some c => exact elementary hChecking rfl

theorem identity
    {p : Ty}
    (hChecking : rt.compile = .checking) :
    Agree rt b w (Target.identity rt p)
      (Target.identity (rt.memoizing b) p) Twin := by
  unfold Target.identity
  apply guarded
  intro _
  exact elementary hChecking rfl

theorem zero
    {p : Ty}
    (hChecking : rt.compile = .checking) :
    Agree rt b w (Target.zero rt p)
      (Target.zero (rt.memoizing b) p) Twin :=
  elementary hChecking rfl

theorem throwException
    {p : Ty}
    {n : ClassName}
    (hChecking : rt.compile = .checking) :
    Agree rt b w (Target.throwException rt p n)
      (Target.throwException (rt.memoizing b) p n) Twin := by
  unfold Target.throwException
  apply guarded
  intro _
  exact elementary hChecking rfl

/- A node without delegates that is about a component. -/
theorem ofComponent
    {array : Ty}
    {ret : Ty → Ty}
    {params : Ty → List Ty}
    (hChecking : rt.compile = .checking)
    (hTargets : f.targets = []) :
    Agree rt b w
      (do
        let c ← componentOf array
        let sig ←
          Link.ofSignature (Signature.build (ret c) (params c))
        Target.build rt sig f)
      (do
        let c ← componentOf array
        let sig ←
          Link.ofSignature (Signature.build (ret c) (params c))
        Target.build (rt.memoizing b) sig f)
      Twin := by
  refine check_bind (componentOf_inspects array) ?_
  intro c _
  exact elementary hChecking hTargets

theorem invoker
    {exact : Bool}
    (hChecking : rt.compile = .checking) :
    Agree rt b w (Target.invoker rt sig exact)
      (Target.invoker (rt.memoizing b) sig exact) Twin := by
  unfold Target.invoker
  refine check_bind (.ofSignature _) ?_
  intro whole hWhole
  refine buildKeyed hChecking (.leaf rfl) (Or.inr ⟨rfl, ?_⟩)
  rcases Signature.of_insertParams hWhole with ⟨_, hParams, _⟩
  rw [hParams]
  rfl

end Agree

end Linkage
