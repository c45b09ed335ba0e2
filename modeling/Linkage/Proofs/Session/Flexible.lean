import Linkage.Proofs.Invoke.Depth
import Linkage.Proofs.Session.Retyping
import Linkage.Proofs.Session.Sites

/-
  Flexible calls with arguments that match.  The types that
  arguments have at run time make a call type of their own,
  and the target is retyped to it.  If each argument is a
  value of its parameter, then there is such a call type, the
  plan of the retyping keeps all values as they are, and the
  arguments match the call type again.  So a flexible call
  comes to the same as an exact one; only the nodes that are
  entered on the way differ.

  Key definitions include:
    * `Ty.Passes`
    * `Target.PassesArray`

  Key theorems include:
    * `Value.slotTypes_conform`
    * `Value.slotTypes_pass`
    * `Target.callType_eq`
    * `Target.callType_of_admits`
    * `Target.arityAdapted_of_admits`
    * `Target.invokeFlexibly_same`
    * `Session.flexible_agrees`
-/

------------------------------------------------------------
-- Types whose Values Pass
------------------------------------------------------------

namespace Linkage

/-
  Values of one type pass as values of another as they are:
  the types are the same, or the one is a type of references
  that is assigned to the other.
-/
inductive Ty.Passes
    (T : ClassTable)
    (a : Ty) : Ty → Prop
| same :
    Passes T a a
| upcast {b : Ty} :
    a.IsRef = true →
    T.isAssignable a b = true →
    Passes T a b

variable {T : ClassTable}
variable {a b : Ty}
variable {as bs : List Ty}
variable {v : Value}
variable {args : List Value}
variable {sig : Signature}

theorem Shape.isRef_type (x : Shape) :
    x.type.IsRef = true := by
  cases x with
  | _ => rfl

/- References take one slot, and are not `void`. -/
theorem Ty.slots_of_isRef
    (hRef : a.IsRef = true) :
    a.slots = 1 ∧ a.IsVoid = false := by
  cases a with
  | prim k => cases hRef
  | cls n => exact ⟨rfl, rfl⟩
  | array c => exact ⟨rfl, rfl⟩

namespace Ty.Passes

theorem slots_eq
    (hPasses : a.Passes T b) :
    a.slots = b.slots ∧ a.IsVoid = b.IsVoid := by
  cases hPasses with
  | same => exact ⟨rfl, rfl⟩
  | upcast ha hAssign =>
      have hb := ClassTable.isRef_of_isAssignable hAssign ha
      rcases Ty.slots_of_isRef ha with ⟨haSlots, haVoid⟩
      rcases Ty.slots_of_isRef hb with ⟨hbSlots, hbVoid⟩
      exact ⟨haSlots.trans hbSlots.symm, haVoid.trans hbVoid.symm⟩

/- The conversion between the types keeps the value. -/
theorem classify
    (hPasses : a.Passes T b)
    (how : Strength) :
    ∃ c,
      Linkage.classify T a b how = some c ∧
        c.isIdentity = true := by
  cases hPasses with
  | same => exact ⟨.identity, classify_self T a how, rfl⟩
  | upcast ha hAssign =>
      have hb := ClassTable.isRef_of_isAssignable hAssign ha
      have hCast : classifyCast T a b how = some .upcast :=
        if_pos hAssign
      unfold Linkage.classify
      split
      · exact ⟨.identity, rfl, rfl⟩
      · refine ⟨.upcast, ?_, rfl⟩
        split
        · cases ha
        · cases hb
        · cases ha
        · cases ha
        · cases hb
        · exact hCast

/- Lists of types whose values pass take as many slots. -/
theorem slotCount_eq
    (hPass : List.Forall₂ (Ty.Passes T) as bs) :
    slotCount as = slotCount bs := by
  unfold slotCount
  induction hPass with
  | nil => rfl
  | cons hFirst _ ih =>
      rw [List.map_cons, List.map_cons, List.sum_cons,
        List.sum_cons, ih, hFirst.slots_eq.1]

theorem admissible
    (hPass : List.Forall₂ (Ty.Passes T) as bs)
    (hAdmissible : Admissible bs) :
    Admissible as where
  noVoid := by
    intro a ha
    rcases List.getElem?_of_mem ha with ⟨i, hi⟩
    have hRel := getElem?_forall₂ hPass i
    rw [hi] at hRel
    generalize hb : bs[i]? = o at hRel
    cases hRel with
    | some hPasses =>
        rw [hPasses.slots_eq.2]
        exact hAdmissible.noVoid _ (List.mem_of_getElem? hb)
  slots_le := by
    rw [slotCount_eq hPass]
    exact hAdmissible.slots_le

/- The plan between such lists keeps all values. -/
theorem planParams
    (hPass : List.Forall₂ (Ty.Passes T) as bs)
    (how : Strength)
    (i : Nat) :
    ∃ cs,
      Linkage.planParams T how i as bs = .ok cs ∧
        cs.length = as.length ∧
        ∀ c ∈ cs, c.isIdentity = true := by
  induction hPass generalizing i with
  | nil => exact ⟨[], rfl, rfl, nofun⟩
  | cons hFirst _ ih =>
      rcases hFirst.classify how with ⟨c, hc, hKeeps⟩
      rcases ih (i + 1) with ⟨cs, hcs, hLength, hAll⟩
      refine ⟨c :: cs, ?_, congrArg Nat.succ hLength, ?_⟩
      · unfold Linkage.planParams
        rw [hc, hcs]
      · exact List.forall_mem_cons.2 ⟨hKeeps, hAll⟩

end Ty.Passes

------------------------------------------------------------
-- Call Types of Arguments
------------------------------------------------------------

/- Each argument is a value of the type that it gives. -/
theorem Value.conforms_slotType
    (T : ClassTable)
    (v : Value)
    (a : Ty) :
    v.conforms T (Target.slotType v a) = true := by
  cases v with
  | void => rfl
  | null =>
      change (if a.IsRef = true then a else .object).IsRef = true
      split
      · assumption
      · rfl
  | prim p => exact decide_eq_true rfl
  | ref o => exact T.isAssignable_refl o.type

theorem Value.slotTypes_conform
    (T : ClassTable)
    (hLength : args.length = as.length) :
    List.Forall₂ (fun v a => v.conforms T a = true) args
      (List.zipWith Target.slotType args as) := by
  induction args generalizing as with
  | nil => exact .nil
  | cons v args ih =>
      cases as with
      | nil => cases hLength
      | cons a as =>
          exact
            .cons (conforms_slotType T v a)
              (ih (Nat.succ.inj hLength))

/- The type that an argument gives to a slot it matches. -/
theorem Value.slotType_passes
    (hValue : v.conforms T a = true) :
    (Target.slotType v a).Passes T a := by
  cases v with
  | void =>
      have hEq : a = .void := of_decide_eq_true hValue
      subst hEq
      exact .same
  | null =>
      have hSlot : Target.slotType .null a = a := if_pos hValue
      rw [hSlot]
      exact .same
  | prim p =>
      have hEq : a = .prim p.kind := of_decide_eq_true hValue
      subst hEq
      exact .same
  | ref o => exact .upcast o.shape.isRef_type hValue

theorem Value.slotTypes_pass
    (hMatch :
      List.Forall₂ (fun v a => v.conforms T a = true) args as) :
    List.Forall₂ (Ty.Passes T)
      (List.zipWith Target.slotType args as) as := by
  induction hMatch with
  | nil => exact .nil
  | cons hFirst _ ih => exact .cons (slotType_passes hFirst) ih

namespace Target

variable {rt : Runtime}
variable {t u : Target}
variable {c : Catalog}
variable {s : State}

/- The call type of arguments, if there is one. -/
theorem callType_eq
    (hLength : args.length = t.count)
    (hTypes :
      Admissible (List.zipWith slotType args t.params)) :
    t.callType args = pure ⟨_, t.ret, hTypes⟩ := by
  unfold callType
  rw [if_neg (not_not.2 hLength),
    Signature.build_of_admissible t.ret hTypes]

/-
  The call type of arguments that match: they match it too,
  and its values pass as values of the parameters.
-/
theorem callType_of_admits
    (hAdmits : admits T t.signature args = true) :
    ∃ sig : Signature,
      t.callType args = pure sig ∧
        sig.ret = t.ret ∧
        List.Forall₂ (Ty.Passes T) sig.params t.params ∧
        admits T sig args = true := by
  have hLength : args.length = t.count := length_of_admits hAdmits
  have hPass := Value.slotTypes_pass (admits_iff.1 hAdmits)
  have hTypes := Ty.Passes.admissible hPass t.signature.admissible
  exact
    ⟨_, callType_eq hLength hTypes, rfl, hPass,
      admits_iff.2 (Value.slotTypes_conform T hLength)⟩

/- The plan from such a call type keeps all values. -/
theorem plan_of_passes
    (hRet : sig.ret = t.ret)
    (hPass : List.Forall₂ (Ty.Passes T) sig.params t.params) :
    ∃ p : Plan,
      planSignature T sig t.signature .implicit = .ok p ∧
        p.ret = .identity ∧ p.params.length = sig.count ∧
        ∀ c ∈ p.params, c.isIdentity = true := by
  rcases Ty.Passes.planParams hPass .implicit 0 with
    ⟨cs, hParams, hLength, hKeep⟩
  refine ⟨⟨cs, .identity⟩, ?_, rfl, hLength, hKeep⟩
  have hCount : ¬sig.count ≠ t.signature.count :=
    not_not.2 hPass.length_eq
  have hParams' :
      planParams T .implicit 0 sig.params t.signature.params =
        .ok cs :=
    hParams
  have hSelf :
      classify T t.signature.ret sig.ret .implicit =
        some .identity := by
    rw [hRet]
    exact classify_self T t.ret .implicit
  unfold planSignature
  rw [if_neg hCount, hParams']
  dsimp only
  rw [hSelf]

/-
  A plan that keeps all values enters the target with the
  arguments as they are; nodes are passed on the way.
-/
theorem followPlan_kept
    {p : Plan}
    {enter : Enter}
    (w : Wrapping)
    (s : State)
    (hRet : p.ret = .identity)
    (hCount : args.length = p.params.length)
    (hKeep : ∀ c ∈ p.params, c.isIdentity = true) :
    ∃ es,
      hostEvents es = hostEvents s.trace ∧
        t.followPlan rt p w enter args s =
          enter t args { s with trace := es } := by
  have hEnter :
      (do
        let v ← enter t args
        Run.onHeap (p.ret.apply rt.classes v)) =
        enter t args := by
    rw [hRet]
    exact bind_pure (enter t args)
  unfold followPlan
  rw [Run.convertEach_identity hKeep hCount]
  simp only [pure_bind]
  rw [hEnter]
  cases w.outer with
  | none =>
      cases w.inner with
      | none => exact ⟨_, rfl, rfl⟩
      | some x => exact ⟨_ :: _, rfl, rfl⟩
  | some x =>
      cases w.inner with
      | none => exact ⟨_ :: _, rfl, rfl⟩
      | some y => exact ⟨_ :: _ :: _, rfl, rfl⟩

------------------------------------------------------------
-- Collectors
------------------------------------------------------------

/-
  The last argument may stand for the array, so that nothing
  is gathered.
-/
def PassesArray
    (T : ClassTable)
    (k : Nat)
    (last : Ty)
    (args : List Value) : Prop :=
  args.length = k + 1 ∧
    ∃ v, args[k]? = some v ∧ v.conforms T last = true

theorem passesArray_iff
    {k : Nat}
    (hLast : as[k]? = some a) :
    (if args.length = k + 1 then
        match args[k]?, as[k]? with
        | some v, some p => v.conforms T p
        | _, _ => false
      else false) = true ↔
      PassesArray T k a args := by
  unfold PassesArray
  rw [hLast]
  split
  · rename_i hLength
    cases args[k]? with
    | none => simp [hLength]
    | some v => simp [hLength]
  · rename_i hLength
    simp [hLength]

/- A target that gathers nothing takes its arguments as they are. -/
theorem arityAdapted_plain
    (hPlain : t.isVarargs = false) :
    t.arityAdapted rt args = pure t := by
  unfold arityAdapted
  unfold isVarargs at hPlain
  split
  · rename_i hForm
    rw [hForm] at hPlain
    cases hPlain
  · rfl

section Adapted

variable {array last : Ty}
variable {fixed : List Ty}
variable (hForm : t.form = .varargs u array)
variable (hParams : t.params = fixed ++ [last])

include hParams in
theorem last_param :
    t.count = fixed.length + 1 ∧
      t.params[fixed.length]? = some last := by
  constructor
  · rw [count_eq, hParams, List.length_append]
    rfl
  · rw [hParams]
    simp

include hForm hParams

theorem arityAdapted_passed
    (hPasses : PassesArray rt.classes fixed.length last args) :
    t.arityAdapted rt args = pure u := by
  rcases last_param hParams with ⟨hCount, hLast⟩
  unfold arityAdapted
  rw [hForm]
  dsimp only
  rw [hCount, Nat.add_sub_cancel]
  exact if_pos ((passesArray_iff hLast).2 hPasses)

theorem arityAdapted_few
    (hFew : args.length < fixed.length) :
    t.arityAdapted rt args =
      Run.fault (.arguments t.signature args) := by
  rcases last_param hParams with ⟨hCount, hLast⟩
  have hPasses :
      ¬PassesArray rt.classes fixed.length last args := by
    rintro ⟨hLength, _⟩
    omega
  unfold arityAdapted
  rw [hForm]
  dsimp only
  rw [hCount, Nat.add_sub_cancel, if_pos hFew]
  exact if_neg (mt (passesArray_iff hLast).1 hPasses)

theorem arityAdapted_collects
    (hPasses :
      ¬PassesArray rt.classes fixed.length last args)
    (hEnough : fixed.length ≤ args.length) :
    t.arityAdapted rt args =
      Run.ofLink
        (u.asCollector rt array (args.length - fixed.length))
        (.arguments t.signature args) := by
  rcases last_param hParams with ⟨hCount, hLast⟩
  unfold arityAdapted
  rw [hForm]
  dsimp only
  rw [hCount, Nat.add_sub_cancel,
    if_neg (Nat.not_lt.2 hEnough)]
  exact if_neg (mt (passesArray_iff hLast).1 hPasses)

end Adapted

/-
  Arguments that match a collector of trailing arguments are
  passed on, since the last one may stand for the array.
-/
theorem arityAdapted_of_admits
    (hFits : c.Fits rt)
    (ht : t ∈ c.made)
    (hAdmits : admits rt.classes t.signature args = true) :
    t.arityAdapted rt args = pure t.asFixedArity := by
  have hNode := hFits t ht
  cases hForm : t.form with
  | varargs u array =>
      have hFixed : t.asFixedArity = u := by
        unfold asFixedArity
        rw [hForm]
      rw [hForm] at hNode
      cases hNode with
      | method _ _ _ _ _ hCalls => cases hCalls
      | @varargs u component element fixed _ _ hParams _ =>
          change t.params = fixed ++ [.array element] at hParams
          rcases last_param hParams with ⟨hCount, hLast⟩
          have hLength : args.length = t.count :=
            length_of_admits hAdmits
          have hMatch :
              Option.Rel _ args[fixed.length]?
                t.params[fixed.length]? :=
            getElem?_forall₂ (admits_iff.1 hAdmits) fixed.length
          rw [hLast] at hMatch
          rw [hFixed]
          apply arityAdapted_passed hForm hParams
          refine ⟨hLength.trans hCount, ?_⟩
          generalize args[fixed.length]? = o at hMatch
          cases hMatch with
          | some hValue => exact ⟨_, rfl, hValue⟩
  | _ =>
      unfold arityAdapted asFixedArity
      rw [hForm]

/- A collector that is entered enters its target. -/
theorem enter_asFixedArity
    (hChecking : rt.compile = .checking)
    (hHost : rt.host.MakesNoTargets)
    (hSound : s.Sound rt c)
    (ht : t ∈ c.made)
    (hCount : args.length = t.count) :
    ∃ j, ∀ n,
      Run.Same (enter rt (n + j) t args s)
        (enter rt n t.asFixedArity args s) := by
  unfold asFixedArity
  cases hForm : t.form with
  | varargs u array =>
      have hu : u ∈ c.made :=
        hSound.valid.delegate ht hForm List.mem_cons_self
      have hArity : args.length = t.stub.arity := by
        rw [(hSound.valid.serves t ht).arity_eq hChecking]
        exact hCount
      refine ⟨1, ?_⟩
      intro n
      have hRun :
          enter rt (n + 1) t args s =
            enter rt n u args (s.log (.entered t args)) := by
        rw [enter_succ hArity]
        unfold behave
        rw [hForm]
        rfl
      rw [hRun]
      exact
        enter_same hChecking hHost
          ((State.Same.refl s).logEntry t args).symm
          (hSound.withTrace _) hSound hu hu n args
  | _ =>
      exact
        ⟨0, fun n =>
          enter_same hChecking hHost (.refl s) hSound hSound ht ht n
            args⟩

------------------------------------------------------------
-- Exact and Flexible Calls
------------------------------------------------------------

/- A call type without a plan is refused. -/
theorem invokeTyped_refused
    {err : SignatureError}
    (hChecking : rt.compile = .checking)
    (hSound : s.Sound rt c)
    (hu : u ∈ c.made)
    (hPlan :
      planSignature rt.classes sig u.signature .implicit =
        .error err)
    (enter : Enter) :
    u.invokeTyped rt enter sig args s =
      .error (.fault (.callType u.signature sig)) s := by
  have hHeld := hSound.withHeld (rootsOf args ++ s.held)
  rcases hHeld.retypeAs_cases hChecking hu .implicit sig with
    ⟨_, _, _, hRun⟩ | ⟨p, _, _, _, hNone, _⟩
  · change u.asType rt sig _ = _ at hRun
    have hAdapted :
        Run.ofLink (u.asType rt sig) (.callType u.signature sig)
            { s with held := rootsOf args ++ s.held } =
          .error (.fault (.callType u.signature sig))
            { s with held := rootsOf args ++ s.held } := by
      unfold Run.ofLink
      rw [hRun]
    exact Run.bind_error (Run.holding_error s hAdapted) _
  · rw [hPlan] at hNone
    cases hNone

/-
  A call type with a plan is followed to the target.  The
  retyped target is held meanwhile.
-/
theorem invokeTyped_follows
    {p : Plan}
    (hChecking : rt.compile = .checking)
    (hSound : s.Sound rt c)
    (hu : u ∈ c.made)
    (hPlan :
      planSignature rt.classes sig u.signature .implicit = .ok p)
    (hAdmits : admits rt.classes sig args = true) :
    ∃ (w : Wrapping) (x : Target) (d : Catalog) (s' : State),
      State.Grown rt c
          { s with held := rootsOf args ++ s.held } d s' ∧
        (∀ y ∈ w.nodes, sizeOf u < sizeOf y) ∧
        ∀ n,
          u.invokeTyped rt (enter rt (n + w.depth)) sig args s =
            Run.holding [.target x]
              (u.followPlan rt p w (enter rt n) args)
              { s' with held := s.held } := by
  have hHeld := hSound.withHeld (rootsOf args ++ s.held)
  rcases hHeld.retypeAs_ok hChecking hu hPlan with
    ⟨x, d, s', hRun, hGrown, hx, hConverted⟩
  rcases
    hConverted.follows_through hGrown.sound.valid hChecking hx hPlan
    with ⟨w, _, hLarger, hFollows⟩
  refine ⟨w, x, d, s', hGrown, hLarger, ?_⟩
  intro n
  change u.asType rt sig _ = _ at hRun
  have hAdapted :
      Run.ofLink (u.asType rt sig) (.callType u.signature sig)
          { s with held := rootsOf args ++ s.held } =
        .ok x s' := by
    unfold Run.ofLink
    rw [hRun]
  unfold invokeTyped
  rw [Run.bind_ok (Run.holding_ok hAdapted),
    hFollows n args hAdmits]

/-
  A target is retyped to the call type of arguments that match
  it, and called.  That comes to what entering it comes to.
-/
theorem invokeTyped_same
    (hChecking : rt.compile = .checking)
    (hHost : rt.host.MakesNoTargets)
    (hSound : s.Sound rt c)
    (hu : u ∈ c.made)
    (hRet : sig.ret = u.ret)
    (hPass :
      List.Forall₂ (Ty.Passes rt.classes) sig.params u.params)
    (hAdmits : admits rt.classes sig args = true) :
    ∃ k, ∀ n,
      Run.Same (enter rt n u args s)
        (u.invokeTyped rt (enter rt (n + k)) sig args s) := by
  rcases plan_of_passes hRet hPass with
    ⟨p, hPlan, hKeepsRet, hLength, hKeep⟩
  rcases invokeTyped_follows hChecking hSound hu hPlan hAdmits with
    ⟨w, x, d, s', hGrown, _, hTyped⟩
  refine ⟨w.depth, ?_⟩
  intro n
  rw [hTyped]
  apply Run.Same.holding
  have hCount : args.length = p.params.length :=
    (length_of_admits hAdmits).trans hLength.symm
  have hKept :
      ∃ es,
        hostEvents es = hostEvents s'.trace ∧
          u.followPlan rt p w (enter rt n) args
              { s' with held := [.target x] ++ s.held } =
            enter rt n u args
              { s' with
                held := [.target x] ++ s.held, trace := es } :=
    followPlan_kept w
      { s' with held := [.target x] ++ s.held } hKeepsRet hCount
      hKeep
  rcases hKept with ⟨es, hEvents, hEq⟩
  rw [hEq]
  apply enter_same hChecking hHost _ hSound _ hu
    (Catalog.mem_of_le hGrown.le hu)
  · refine ⟨hGrown.heap_eq, hGrown.sites_eq, ?_⟩
    have hTrace : s'.trace = s.trace := hGrown.trace_eq
    rw [← hTrace]
    exact hEvents
  · exact
      (hGrown.sound.withHeld ([.target x] ++ s.held)).withTrace es

/-
  On arguments that match, a flexible call comes to the same
  as an exact one.
-/
theorem invokeFlexibly_same
    (hFits : c.Fits rt)
    (hChecking : rt.compile = .checking)
    (hHost : rt.host.MakesNoTargets)
    (hSound : s.Sound rt c)
    (ht : t ∈ c.made)
    (hAdmits : admits rt.classes t.signature args = true) :
    ∃ j k, ∀ n,
      Run.Same (t.invokeExact rt (enter rt (n + j)) args s)
        (t.invokeFlexibly rt (enter rt (n + k)) args s) := by
  rcases Makes.asFixedArity_mem hFits hSound.valid ht with
    ⟨hu, hSig⟩
  have hAdapted := arityAdapted_of_admits hFits ht hAdmits
  have hCount : args.length = t.count := length_of_admits hAdmits
  generalize hx : t.asFixedArity = u at hu hSig hAdapted
  have hAdmits' : admits rt.classes u.signature args = true := by
    rw [hSig]
    exact hAdmits
  rcases callType_of_admits hAdmits' with
    ⟨sig, hCall, hRet, hPass, hAgain⟩
  rcases
    enter_asFixedArity hChecking hHost hSound ht hCount
    with ⟨j, hEntered⟩
  have hHeld := hSound.withHeld (.target u :: s.held)
  rcases
    invokeTyped_same hChecking hHost hHeld hu hRet hPass hAgain
    with ⟨k, hTyped⟩
  refine ⟨j, k, ?_⟩
  intro n
  have hFlexible :
      t.invokeFlexibly rt (enter rt (n + k)) args s =
        Run.holding [.target u]
          (u.invokeTyped rt (enter rt (n + k)) sig args) s := by
    unfold invokeFlexibly
    rw [hAdapted]
    change
      Run.holding [.target u]
          (u.callType args >>= fun sig =>
            u.invokeTyped rt (enter rt (n + k)) sig args) s = _
    rw [hCall]
    rfl
  rw [invokeExact_of_admits hAdmits, hFlexible]
  apply Run.Same.holding
  have hHere := hEntered n
  rw [hx] at hHere
  refine hHere.trans (.trans ?_ (hTyped n))
  exact
    enter_same hChecking hHost ((State.Same.refl s).withHeld _)
      hSound hHeld hu hu n args

end Target

------------------------------------------------------------
-- Calls of Named Targets
------------------------------------------------------------

namespace Session

variable {s : Session}
variable {t : Target}

/-
  However a session went on, on arguments that match a named
  target a flexible call comes to an end if an exact one does,
  and their ends are the same: one result or one failure, one
  heap, and the same calls of the host in the same order.
-/
theorem flexible_agrees
    (hFresh : s.IsFresh)
    (hChecking : s.context.runtime.compile = .checking)
    (hHost : s.context.runtime.host.MakesNoTargets)
    (xs : List Step)
    (hNamed : (s.after xs).context.Names t)
    (args : List Value)
    (hAdmits :
      Target.admits s.context.runtime.classes t.signature args =
        true)
    (held : List Root) :
    let rt := s.context.runtime
    let now :=
      { (s.after xs).state with trace := [], held := held }
    ((∃ r, (Entry.way .exact).ComesTo rt t args now r) ↔
      ∃ r, (Entry.way .flexible).ComesTo rt t args now r) ∧
    ∀ r r',
      (Entry.way .exact).ComesTo rt t args now r →
        (Entry.way .flexible).ComesTo rt t args now r' →
          Run.Same r r' := by
  intro rt now
  rcases listed_after hFresh hHost xs with ⟨c, hKnown, hNames⟩
  rw [runtime_after] at hKnown
  have hSound : now.Sound rt c :=
    (hKnown.sound.withTrace []).withHeld held
  rcases
    Target.invokeFlexibly_same hKnown.fits hChecking hHost hSound
      (hNames t hNamed) hAdmits
    with ⟨j, k, hSame⟩
  exact Entry.comesTo_of_same hSame

/- A collector over a target that was retyped before. -/
def gathering : List Step :=
  [.make (.identity .object) (some "same"),
   .make (.dropArguments "same" 1 [.array .int]) (some "first"),
   .make (.asVarargsCollector "first" (.array .int)) (some "all"),
   .make (.asType "first" ⟨[.string, .array .int], .object⟩) none]

/- A text, and null in place of the array. -/
def textAndNull : List Value :=
  [.ref ⟨0, .text "a"⟩, .null]

/- Whether a run gives the text. -/
def isText : EStateM.Result Halt State Value → Bool
| .ok a _ => a = .ref ⟨0, .text "a"⟩
| .error _ _ => false

/-
  The text passes for an object, and null for the array, so
  that nothing is collected.
-/
theorem flexible_agrees_collector :
    ∃ t,
      (plain.after gathering).context.Names t ∧
        t.isVarargs = true ∧
        Target.admits plain.context.runtime.classes t.signature
          textAndNull = true ∧
        (plain.after gathering).Gives .exact t textAndNull
          (.ref ⟨0, .text "a"⟩) ∧
        (plain.after gathering).Gives .flexible t textAndNull
          (.ref ⟨0, .text "a"⟩) := by
  have hLast :
      (plain.after gathering).context.names.targets.head?.map
          (fun p =>
            p.2.isVarargs &&
              Target.admits plain.context.runtime.classes
                p.2.signature textAndNull &&
              isText
                ((Entry.way .exact).run plain.context.runtime 9 p.2
                  textAndNull
                  { (plain.after gathering).state with
                    trace := [] })) =
        some true := by
    decide +kernel
  rcases Option.map_eq_some_iff.1 hLast with
    ⟨⟨n, t⟩, hHead, hEq⟩
  simp only [Bool.and_eq_true] at hEq
  rcases hEq with ⟨⟨hVarargs, hAdmits⟩, hText⟩
  have hNamed : (plain.after gathering).context.Names t :=
    ⟨n, List.mem_of_head? hHead⟩
  have hGives :
      ∀ w a z,
        (Entry.way w).ComesTo plain.context.runtime t textAndNull
            { (plain.after gathering).state with trace := [] }
            (.ok a z) →
          (plain.after gathering).Gives w t textAndNull a := by
    intro w a z hComes
    unfold Gives
    rw [runtime_after]
    exact ⟨z, hComes⟩
  have hHost := World.host_makesNoTargets (.initial .empty)
  rcases
    flexible_agrees plain_isFresh rfl hHost gathering hNamed
      textAndNull hAdmits (plain.after gathering).state.held
    with ⟨hEnds, hAlike⟩
  unfold isText at hText
  split at hText
  · rename_i a z hRun
    rw [of_decide_eq_true hText] at hRun
    have hExact :
        (Entry.way .exact).ComesTo plain.context.runtime t
          textAndNull
          { (plain.after gathering).state with trace := [] }
          (.ok (.ref ⟨0, .text "a"⟩) z) :=
      ⟨nofun, 9, hRun⟩
    rcases hEnds.1 ⟨_, hExact⟩ with ⟨r, hFlexible⟩
    cases hAlike _ _ hExact hFlexible with
    | @ok _ _ z' _ =>
        exact
          ⟨t, hNamed, hVarargs, hAdmits, hGives _ _ z hExact,
            hGives _ _ z' hFlexible⟩
  · cases hText

end Session

end Linkage
