import Linkage.Proofs.Link.Adapters
import Linkage.Proofs.Lookup

/-
  Adapters check before they build.  A request for an adapter
  fails in one of two ways: a stub is missing, or a check is
  not passed.  All checks come before the first stub that is
  asked for, and before a retyping is remembered, so a check
  that fails leaves the stubs, the memory of retypings, the
  call sites and the trace as they were.  Only the heap may
  have changed, by the boxes of constants.

  The spreader is the one adapter with a check after a node:
  it retypes its target first and computes its own signature
  afterwards.  The signature it retypes to has no fewer slots,
  so what is left to check is settled by then, unless nothing
  is spread; and then the target is its own retyping.

  Key definitions include:
    * `Adapter.Request`
    * `Adapter.Request.make`
    * `State.SameButHeap`
    * `Link.Boxes`
    * `Link.ChecksFirst`

  Key theorems include:
    * `Link.ChecksFirst.after`
    * `Link.ChecksFirst.before`
    * `Target.asType_checksFirst`
    * `Signature.build_spread`
    * `Target.asSpreader_checksFirst`
    * `Adapter.Request.make_checksFirst`
    * `Adapter.Request.failed_check_spares`
-/

------------------------------------------------------------
-- Requests
------------------------------------------------------------

namespace Linkage

/- What an adapter may be asked of. -/
inductive Adapter.Request where
| asType (t : Target) (sig : Signature)
| explicitCast (t : Target) (sig : Signature)
| bindTo (t : Target) (receiver : Value)
| asCollector (t : Target) (array : Ty) (count : Nat)
| asSpreader (t : Target) (array : Ty) (count : Nat)
| asVarargsCollector (t : Target) (array : Ty)
| filterReturn (t filter : Target)
| filterArguments
    (t : Target) (pos : Nat) (filters : List (Option Target))
| permuteArguments
    (t : Target) (sig : Signature) (order : List Nat)
| insertArguments (t : Target) (pos : Nat) (values : List Value)
| dropArguments (t : Target) (pos : Nat) (types : List Ty)
| foldArguments (t combiner : Target)
| guardWithTest (test yes no : Target)
| catchException (t : Target) (caught : ClassName) (handler : Target)
| constant (type : Ty) (v : Value)
| identity (type : Ty)
| zero (type : Ty)
| throwException (ret : Ty) (n : ClassName)
| arrayGetter (array : Ty)
| arraySetter (array : Ty)
| arrayLength (array : Ty)
| invoker (sig : Signature) (exact : Bool)

/- The operation that answers a request. -/
def Adapter.Request.make
    (rt : Runtime) : Adapter.Request → Link Target
| asType t sig => t.asType rt sig
| explicitCast t sig => t.explicitCast rt sig
| bindTo t receiver => t.bindTo rt receiver
| asCollector t array count => t.asCollector rt array count
| asSpreader t array count => t.asSpreader rt array count
| asVarargsCollector t array => t.asVarargsCollector rt array
| filterReturn t filter => t.filterReturn rt filter
| filterArguments t pos filters => t.filterArguments rt pos filters
| permuteArguments t sig order => t.permuteArguments rt sig order
| insertArguments t pos values => t.insertArguments rt pos values
| dropArguments t pos types => t.dropArguments rt pos types
| foldArguments t combiner => t.foldArguments rt combiner
| guardWithTest test yes no => Target.guardWithTest rt test yes no
| catchException t caught handler =>
    t.catchException rt caught handler
| constant type v => Target.constant rt type v
| identity type => Target.identity rt type
| zero type => Target.zero rt type
| throwException ret n => Target.throwException rt ret n
| arrayGetter array => Target.arrayGetter rt array
| arraySetter array => Target.arraySetter rt array
| arrayLength array => Target.arrayLength rt array
| invoker sig exact => Target.invoker rt sig exact

------------------------------------------------------------
-- Operations that Check before They Build
------------------------------------------------------------

/- All of a state but the heap is as it was. -/
def State.SameButHeap (s s' : State) : Prop :=
  s' = { s with heap := s'.heap }

theorem State.SameButHeap.refl (s : State) : s.SameButHeap s :=
  rfl

theorem State.SameButHeap.trans
    {s s' s'' : State}
    (h : s.SameButHeap s')
    (h' : s'.SameButHeap s'') :
    s.SameButHeap s'' := by
  unfold State.SameButHeap at h h' ⊢
  rw [h', h]

namespace Link

variable {α β : Type}
variable {P : β → Prop}

/- An operation that changes the heap at most. -/
def Boxes
    (m : Link β)
    (P : β → Prop) : Prop :=
  ∀ s,
    match m s with
    | .ok b s' => P b ∧ s.SameButHeap s'
    | .error _ s' => s.SameButHeap s'

/-
  A failure of an operation is a missing stub, or leaves all
  but the heap.
-/
def ChecksFirst (m : Link α) : Prop :=
  ∀ s,
    match m s with
    | .ok _ _ => True
    | .error e s' =>
        (∃ f, e = .stubFailed f) ∨ s.SameButHeap s'

theorem Inspects.boxes
    {m : Link β}
    (hInspects : m.Inspects P) :
    m.Boxes P := by
  rcases hInspects with ⟨x, hx, hOk⟩
  intro s
  rw [hx]
  cases x with
  | ok b => exact ⟨hOk b rfl, .refl s⟩
  | error e => exact .refl s

theorem onHeap_boxes (f : Heap → β × Heap) :
    (Link.onHeap f).Boxes (fun _ => True) :=
  fun _ => ⟨trivial, rfl⟩

theorem Boxes.bind
    {Q : α → Prop}
    {m : Link β}
    {f : β → Link α}
    (hFirst : m.Boxes P)
    (hSecond : ∀ b, P b → (f b).Boxes Q) :
    Boxes (m >>= f) Q := by
  intro s
  change
    match EStateM.bind m f s with
    | .ok a s' => Q a ∧ s.SameButHeap s'
    | .error _ s' => s.SameButHeap s'
  have hM := hFirst s
  unfold EStateM.bind
  cases hRun : m s with
  | ok b s₁ =>
      rw [hRun] at hM
      have hF := hSecond b hM.1 s₁
      dsimp only
      cases hRest : f b s₁ with
      | ok a s₂ =>
          rw [hRest] at hF
          exact ⟨hF.1, hM.2.trans hF.2⟩
      | error e s₂ =>
          rw [hRest] at hF
          exact hM.2.trans hF
  | error e s₁ =>
      rw [hRun] at hM
      exact hM

namespace ChecksFirst

theorem pure (a : α) : ChecksFirst (Pure.pure a : Link α) :=
  fun _ => trivial

theorem throw (e : LinkError) :
    ChecksFirst (MonadExcept.throw e : Link α) :=
  fun s => Or.inr (.refl s)

/- An operation that asks for stubs and checks nothing. -/
theorem of_compiles
    {Q : α → Prop}
    {m : Link α}
    (hCompiles : m.Compiles Q) :
    m.ChecksFirst := by
  intro s
  have hM := hCompiles s
  cases hRun : m s with
  | ok a s' => trivial
  | error e s' =>
      rw [hRun] at hM
      exact Or.inl hM

/- Checks and boxes may come before an operation. -/
theorem after
    {m : Link β}
    {f : β → Link α}
    (hFirst : m.Boxes P)
    (hSecond : ∀ b, P b → (f b).ChecksFirst) :
    ChecksFirst (m >>= f) := by
  intro s
  change
    match EStateM.bind m f s with
    | .ok _ _ => True
    | .error e s' =>
        (∃ f, e = .stubFailed f) ∨ s.SameButHeap s'
  have hM := hFirst s
  unfold EStateM.bind
  cases hRun : m s with
  | ok b s₁ =>
      rw [hRun] at hM
      have hF := hSecond b hM.1 s₁
      dsimp only
      cases hRest : f b s₁ with
      | ok a s₂ => trivial
      | error e s₂ =>
          rw [hRest] at hF
          exact hF.imp_right hM.2.trans
  | error e s₁ =>
      rw [hRun] at hM
      exact Or.inr hM

/- What checks nothing may come after an operation. -/
theorem before
    {m : Link β}
    {f : β → Link α}
    (hFirst : m.ChecksFirst)
    (hSecond : ∀ b, (f b).Compiles (fun _ => True)) :
    ChecksFirst (m >>= f) := by
  intro s
  change
    match EStateM.bind m f s with
    | .ok _ _ => True
    | .error e s' =>
        (∃ f, e = .stubFailed f) ∨ s.SameButHeap s'
  have hM := hFirst s
  unfold EStateM.bind
  cases hRun : m s with
  | ok b s₁ =>
      have hF := hSecond b s₁
      dsimp only
      cases hRest : f b s₁ with
      | ok a s₂ => trivial
      | error e s₂ =>
          rw [hRest] at hF
          exact Or.inl hF
  | error e s₁ =>
      rw [hRun] at hM
      exact hM

/- An operation may go by the state it starts from. -/
theorem read
    {f : State → Link α}
    (hRest : ∀ s, (f s).ChecksFirst) :
    ChecksFirst (get >>= f) :=
  fun s => hRest s s

end ChecksFirst

theorem Compiles.pure
    {Q : α → Prop}
    {a : α}
    (hPost : Q a) :
    Compiles (Pure.pure a : Link α) Q :=
  fun _ => hPost

end Link

namespace Target

open Link (ChecksFirst)

variable (rt : Runtime)

theorem buildKeyed_compiles
    (sig : Signature)
    (form : Form Target)
    (exact : SlotRange)
    (extra : Option Stub.Extra) :
    (buildKeyed rt sig form exact extra).Compiles
      (fun _ => True) := by
  intro s
  unfold buildKeyed
  dsimp only
  split
  · trivial
  · rename_i hRun
    split at hRun
    · cases hRun
      exact ⟨_, rfl⟩
    · cases hRun

theorem build_checksFirst
    (sig : Signature)
    (form : Form Target) :
    (build rt sig form).ChecksFirst :=
  .of_compiles (build_compiles rt sig form)

------------------------------------------------------------
-- Retyping
------------------------------------------------------------

/- A plan that was made is followed without a check. -/
theorem convert_compiles
    (t : Target)
    (sig : Signature)
    (p : Plan) :
    (t.convert rt sig p).Compiles (fun _ => True) := by
  have hResult :
      (t.convertResult rt sig.ret p.ret).Compiles
        (fun _ => True) := by
    unfold convertResult
    split
    · exact .pure trivial
    · exact buildKeyed_compiles rt _ _ _ _
  unfold convert
  refine hResult.bind ?_
  intro u _
  unfold convertParams
  split
  · exact .pure trivial
  · exact buildKeyed_compiles rt _ _ _ _

theorem retype_checksFirst
    (t : Target)
    (sig : Signature) :
    (t.retype rt sig).ChecksFirst := by
  unfold retype
  refine .after (Link.Inspects.ofSignature _).boxes ?_
  intro plan _
  apply ChecksFirst.of_compiles (Q := fun _ => True)
  refine (convert_compiles rt t sig plan).bind ?_
  intro adapted _
  split
  · intro s
    trivial
  · exact .pure trivial

theorem asType_checksFirst
    (t : Target)
    (sig : Signature) :
    (t.asType rt sig).ChecksFirst := by
  unfold asType
  split
  · exact .pure t
  · refine .read ?_
    intro s
    cases t.remembered? rt sig s with
    | some u => exact .pure u
    | none => exact retype_checksFirst rt t sig

theorem explicitCast_checksFirst
    (t : Target)
    (sig : Signature) :
    (t.explicitCast rt sig).ChecksFirst := by
  unfold explicitCast
  split
  · exact .pure t
  · refine .after (Link.Inspects.ofSignature _).boxes ?_
    intro plan _
    exact .of_compiles (convert_compiles rt t sig plan)

end Target

------------------------------------------------------------
-- Spreading
------------------------------------------------------------

/-
  A signature that takes elements one by one takes as many
  slots as one that takes them in an array, or more, once
  there is an element.
-/
theorem Signature.build_spread
    {ret component : Ty}
    {fixed : List Ty}
    {count : Nat}
    {wanted : Signature}
    (hCount : 0 < count)
    (hWanted :
      build ret (fixed ++ List.replicate count component) =
        .ok wanted) :
    ∃ sig, build ret (fixed ++ [.array component]) = .ok sig := by
  have hAdmissible := wanted.admissible
  rw [(params_of_build hWanted).1] at hAdmissible
  have hComponent : component.IsVoid = false := by
    apply hAdmissible.noVoid
    simp only [List.mem_append, List.mem_replicate]
    exact Or.inr ⟨Nat.ne_of_gt hCount, trivial⟩
  have hSlot : 1 ≤ component.slots := by
    cases component with
    | prim k =>
        cases k with
        | void => cases hComponent
        | _ => decide
    | cls n => exact Nat.le_refl 1
    | array c => exact Nat.le_refl 1
  have hSlots := hAdmissible.slots_le
  rw [slotCount_append] at hSlots
  have hElements :
      1 ≤ slotCount (List.replicate count component) := by
    cases count with
    | zero => cases hCount
    | succ n =>
        simp only [slotCount, List.replicate_succ, List.map_cons,
          List.sum_cons]
        omega
  refine ⟨_, build_of_admissible ret ⟨?_, ?_⟩⟩
  · intro p hp
    rcases List.mem_append.1 hp with hFixed | hArray
    · exact hAdmissible.noVoid p (List.mem_append_left _ hFixed)
    · rw [List.mem_singleton.1 hArray]
      rfl
  · rw [slotCount_append]
    have hArray : slotCount [.array component] = 1 := rfl
    omega

namespace Target

open Link (ChecksFirst)

variable (rt : Runtime)

/-
  With no element to spread the target is retyped to its own
  signature, which asks for nothing.
-/
theorem asType_self
    {t : Target}
    {component : Ty}
    {wanted : Signature}
    (hWanted :
      Signature.build t.ret
        (t.params.take (t.count - 0) ++
          List.replicate 0 component) =
        .ok wanted) :
    t.asType rt wanted = pure t := by
  rcases Signature.params_of_build hWanted with ⟨hParams, hRet⟩
  have hTake : t.params.take (t.count - 0) = t.params :=
    List.take_length
  rw [hTake, List.replicate_zero, List.append_nil] at hParams
  have hSame : t.signature = wanted :=
    Signature.eq_of_parts hParams.symm hRet.symm
  unfold asType
  rw [if_pos hSame]

theorem asSpreader_checksFirst
    (t : Target)
    (array : Ty)
    (count : Nat) :
    (t.asSpreader rt array count).ChecksFirst := by
  unfold asSpreader
  refine .after (componentOf_inspects array).boxes ?_
  intro component hArray
  subst hArray
  split
  · exact .throw _
  · dsimp only
    refine .after (Link.Inspects.ofSignature _).boxes ?_
    intro wanted hWanted
    cases count with
    | zero =>
        rw [asType_self rt hWanted, pure_bind]
        refine .after (Link.Inspects.ofSignature _).boxes ?_
        intro sig _
        exact build_checksFirst rt _ _
    | succ n =>
        rcases Signature.build_spread n.succ_pos hWanted with
          ⟨sig, hSig⟩
        refine .before (asType_checksFirst rt t wanted) ?_
        intro adapted
        rw [hSig]
        exact buildKeyed_compiles rt sig _ _ _

------------------------------------------------------------
-- Other Adapters
------------------------------------------------------------

theorem bindTo_checksFirst
    (t : Target)
    (receiver : Value) :
    (t.bindTo rt receiver).ChecksFirst := by
  unfold bindTo
  split
  · exact .throw _
  · split
    · exact .throw _
    · refine .after (Link.onHeap_boxes _) ?_
      intro v _
      cases v with
      | none => exact .throw _
      | some w =>
          refine .after (Link.Inspects.ofSignature _).boxes ?_
          intro sig _
          exact build_checksFirst rt _ _

theorem asCollector_checksFirst
    (t : Target)
    (array : Ty)
    (count : Nat) :
    (t.asCollector rt array count).ChecksFirst := by
  unfold asCollector
  refine .after (checkTrailingArray_inspects rt t array).boxes ?_
  intro _ _
  refine .after (componentOf_inspects array).boxes ?_
  intro component _
  refine .after (Link.Inspects.ofSignature _).boxes ?_
  intro shorter _
  refine .after (Link.Inspects.ofSignature _).boxes ?_
  intro sig _
  exact build_checksFirst rt _ _

theorem asVarargsCollector_checksFirst
    (t : Target)
    (array : Ty) :
    (t.asVarargsCollector rt array).ChecksFirst := by
  unfold asVarargsCollector
  refine .after (checkTrailingArray_inspects rt t array).boxes ?_
  intro _ _
  split
  · split
    · exact .pure t
    · exact build_checksFirst rt _ _
  · exact build_checksFirst rt _ _

theorem filterReturn_checksFirst
    (t filter : Target) :
    (t.filterReturn rt filter).ChecksFirst := by
  unfold filterReturn
  split
  · exact build_checksFirst rt _ _
  · exact .throw _

theorem filterArguments_checksFirst
    (t : Target)
    (pos : Nat)
    (filters : List (Option Target)) :
    (t.filterArguments rt pos filters).ChecksFirst := by
  unfold filterArguments
  split
  · exact .throw _
  · refine
      .after (Makes.filteredSignature_inspects _ _ _ _).boxes ?_
    intro sig _
    split
    · exact .pure t
    · exact build_checksFirst rt _ _

theorem permuteArguments_checksFirst
    (t : Target)
    (sig : Signature)
    (order : List Nat) :
    (t.permuteArguments rt sig order).ChecksFirst := by
  unfold permuteArguments
  split
  · exact .throw _
  · rename_i hLength
    split
    · exact .throw _
    · have hOrder : order.length = t.params.length :=
        Decidable.not_not.1 hLength
      refine
        .after (Makes.checkOrder_inspects sig 0 order _ hOrder).boxes ?_
      intro _ _
      exact build_checksFirst rt _ _

/- Constants are checked one by one, and may leave boxes. -/
theorem convertConstants_boxes
    (i : Nat)
    (vs : List Value)
    (ts : List Ty) :
    (convertConstants rt i vs ts).Boxes (fun _ => True) := by
  induction vs generalizing i ts with
  | nil => exact fun _ => ⟨trivial, rfl⟩
  | cons v vs ih =>
      cases ts with
      | nil => exact fun _ => ⟨trivial, rfl⟩
      | cons t ts =>
          unfold convertConstants
          refine (Link.onHeap_boxes _).bind ?_
          intro w _
          cases w with
          | none => exact fun _ => rfl
          | some w =>
              refine (ih (i + 1) ts).bind ?_
              intro ws _
              exact fun _ => ⟨trivial, rfl⟩

theorem insertArguments_checksFirst
    (t : Target)
    (pos : Nat)
    (values : List Value) :
    (t.insertArguments rt pos values).ChecksFirst := by
  unfold insertArguments
  split
  · exact .throw _
  · split
    · exact .pure t
    · refine .after (convertConstants_boxes rt pos values _) ?_
      intro converted _
      refine .after (Link.Inspects.ofSignature _).boxes ?_
      intro sig _
      exact build_checksFirst rt _ _

theorem dropArguments_checksFirst
    (t : Target)
    (pos : Nat)
    (types : List Ty) :
    (t.dropArguments rt pos types).ChecksFirst := by
  unfold dropArguments
  split
  · exact .pure t
  · refine .after (Link.Inspects.ofSignature _).boxes ?_
    intro sig _
    exact build_checksFirst rt _ _

theorem foldArguments_checksFirst
    (t combiner : Target) :
    (t.foldArguments rt combiner).ChecksFirst := by
  unfold foldArguments
  refine
    .after (Makes.foldedSignature_inspects t combiner.ret).boxes ?_
  intro sig _
  refine .after (checkLeading_inspects _ _).boxes ?_
  intro _ _
  exact build_checksFirst rt _ _

theorem guardWithTest_checksFirst
    (test yes no : Target) :
    (guardWithTest rt test yes no).ChecksFirst := by
  unfold guardWithTest
  split
  · exact .throw _
  · split
    · exact .throw _
    · refine .after (checkLeading_inspects _ _).boxes ?_
      intro _ _
      exact build_checksFirst rt _ _

theorem catchException_checksFirst
    (t : Target)
    (caught : ClassName)
    (handler : Target) :
    (t.catchException rt caught handler).ChecksFirst := by
  unfold catchException
  split
  · exact .throw _
  · split
    · exact .throw _
    · split
      · exact .throw _
      · split
        · exact .throw _
        · refine .after (Link.Inspects.ofSignature _).boxes ?_
          intro rest _
          refine .after (checkLeading_inspects _ _).boxes ?_
          intro _ _
          exact build_checksFirst rt _ _

theorem constant_checksFirst
    (type : Ty)
    (v : Value) :
    (constant rt type v).ChecksFirst := by
  unfold constant
  split
  · exact .throw _
  · refine .after (Link.onHeap_boxes _) ?_
    intro w _
    cases w with
    | none => exact .throw _
    | some w =>
        refine .after (Link.Inspects.ofSignature _).boxes ?_
        intro sig _
        exact build_checksFirst rt _ _

/- A node of a signature that is derived just before. -/
theorem derived_checksFirst
    (x : Except SignatureError Signature)
    (form : Form Target) :
    Link.ChecksFirst
      (do
        let sig ← Link.ofSignature x
        build rt sig form) := by
  refine .after (Link.Inspects.ofSignature _).boxes ?_
  intro sig _
  exact build_checksFirst rt _ _

/- A node on arrays of a type. -/
theorem ofArray_checksFirst
    (array : Ty)
    (f : Ty → Except SignatureError Signature)
    (form : Form Target) :
    Link.ChecksFirst
      (do
        let component ← componentOf array
        let sig ← Link.ofSignature (f component)
        build rt sig form) := by
  refine .after (componentOf_inspects array).boxes ?_
  intro component _
  exact derived_checksFirst rt _ _

end Target

------------------------------------------------------------
-- All Requests
------------------------------------------------------------

namespace Adapter.Request

/- Every request passes its checks before it builds. -/
theorem make_checksFirst
    (rt : Runtime)
    (q : Adapter.Request) :
    (q.make rt).ChecksFirst := by
  cases q with
  | asType t sig => exact Target.asType_checksFirst rt t sig
  | explicitCast t sig =>
      exact Target.explicitCast_checksFirst rt t sig
  | bindTo t receiver =>
      exact Target.bindTo_checksFirst rt t receiver
  | asCollector t array count =>
      exact Target.asCollector_checksFirst rt t array count
  | asSpreader t array count =>
      exact Target.asSpreader_checksFirst rt t array count
  | asVarargsCollector t array =>
      exact Target.asVarargsCollector_checksFirst rt t array
  | filterReturn t filter =>
      exact Target.filterReturn_checksFirst rt t filter
  | filterArguments t pos filters =>
      exact Target.filterArguments_checksFirst rt t pos filters
  | permuteArguments t sig order =>
      exact Target.permuteArguments_checksFirst rt t sig order
  | insertArguments t pos values =>
      exact Target.insertArguments_checksFirst rt t pos values
  | dropArguments t pos types =>
      exact Target.dropArguments_checksFirst rt t pos types
  | foldArguments t combiner =>
      exact Target.foldArguments_checksFirst rt t combiner
  | guardWithTest test yes no =>
      exact Target.guardWithTest_checksFirst rt test yes no
  | catchException t caught handler =>
      exact Target.catchException_checksFirst rt t caught handler
  | constant type v => exact Target.constant_checksFirst rt type v
  | identity type =>
      simp only [make, Target.identity]
      split
      · exact .throw _
      · exact Target.derived_checksFirst rt _ _
  | zero type => exact Target.derived_checksFirst rt _ _
  | throwException ret n =>
      simp only [make, Target.throwException]
      split
      · exact .throw _
      · exact Target.derived_checksFirst rt _ _
  | arrayGetter array =>
      exact Target.ofArray_checksFirst rt array _ _
  | arraySetter array =>
      exact Target.ofArray_checksFirst rt array _ _
  | arrayLength array =>
      exact Target.ofArray_checksFirst rt array _ _
  | invoker sig exact =>
      refine .after (Link.Inspects.ofSignature _).boxes ?_
      intro whole _
      exact .of_compiles (Target.buildKeyed_compiles rt _ _ _ _)

/-
  A request that fails for another reason than a missing stub
  leaves the stubs, their order of use and their counters,
  and what each target remembers of its last retyping.  The
  heap is all that it may have changed.
-/
theorem failed_check_spares
    (rt : Runtime)
    (q : Adapter.Request)
    (s s' : State)
    (e : LinkError)
    (hFails : q.make rt s = .error e s')
    (hCheck : ∀ f, e ≠ .stubFailed f) :
    s'.cache = s.cache ∧
      (∀ t, s'.memoOf t = s.memoOf t) ∧
      s' = { s with heap := s'.heap } := by
  have hFirst := make_checksFirst rt q s
  rw [hFails] at hFirst
  rcases hFirst with ⟨f, hStub⟩ | hSame
  · exact absurd hStub (hCheck f)
  · refine ⟨?_, ?_, hSame⟩
    · rw [hSame]
    · intro t
      rw [hSame]
      rfl

/- A target that takes an object and an integer. -/
def mixed : Target :=
  .node 0 ⟨[.object, .int], .void, ⟨by decide, by decide⟩⟩
    ⟨0, ⟨"(LI)V", none⟩, 2⟩ .throw

/-
  The first constant is boxed for its parameter, and the
  second one is no integer: the box stays, and no stub is
  asked for.
-/
theorem failed_check_spares_boxing :
    ∃ s',
      (insertArguments mixed 0 [.prim (.int 5), .null]).make
          Lookup.Request.vault (.initial .empty none) =
        .error (.illegalArgument (.insertMismatch "null" 1 .int))
          s' ∧
      s'.heap.size = 1 ∧
      s'.cache = .new none ∧ s'.memo = [] := by
  have hFails :
      ∃ s',
        (insertArguments mixed 0 [.prim (.int 5), .null]).make
            Lookup.Request.vault (.initial .empty none) =
          .error (.illegalArgument (.insertMismatch "null" 1 .int))
            s' ∧
        s'.heap.size = 1 :=
    ⟨_, rfl, rfl⟩
  rcases hFails with ⟨s', hFails, hBoxed⟩
  have hSpares :=
    failed_check_spares Lookup.Request.vault _ _ s' _ hFails
      (fun _ => LinkError.noConfusion)
  refine ⟨s', hFails, hBoxed, hSpares.1, ?_⟩
  rw [hSpares.2.2]
  rfl

end Adapter.Request

end Linkage
