import Linkage.Proofs.Conversion.Plan
import Linkage.Proofs.Invoke.Course
import Linkage.Proofs.Invoke.Entering

/-
  Runs of retyped targets.  A retyping puts a target under at
  most two nodes: an inner one for the conversion of the
  result, and an outer one for those of the arguments.  Both
  may be left out.  In every case the retyped target runs as
  its plan tells: the arguments are converted from left to
  right, up to the first that fails; then the target is
  entered once with what they became; and then its result is
  converted.

  Key definitions include:
    * `Target.Above`
    * `Target.Wrapping`
    * `Target.followPlan`

  Key theorems include:
    * `Run.onHeap_applyAll`
    * `Target.Converted.follows_through`
    * `Target.Converted.follows`
-/

------------------------------------------------------------
-- Conversions of Arguments
------------------------------------------------------------

namespace Linkage

variable {α β : Type}
variable {rt : Runtime}
variable {T : ClassTable}
variable {how : Strength}
variable {sig : Signature}
variable {p : Plan}
variable {t u v : Target}
variable {args : List Value}
variable {n : Nat}

/- Each value is converted by its conversion, in order. -/
def Run.convertEach
    (T : ClassTable)
    (cs : List Conversion)
    (vs : List Value) : Run (List Value) :=
  (cs.zip vs).mapM (fun (c, v) => Run.onHeap (c.apply T v))

theorem Run.convertEach_cons
    (T : ClassTable)
    (c : Conversion)
    (cs : List Conversion)
    (v : Value)
    (vs : List Value) :
    Run.convertEach T (c :: cs) (v :: vs) =
      (do
        let w ← Run.onHeap (c.apply T v)
        let ws ← Run.convertEach T cs vs
        pure (w :: ws)) := by
  unfold Run.convertEach
  rw [List.zip_cons_cons, List.mapM_cons]

theorem Run.onHeap_applyAll
    (T : ClassTable)
    (cs : List Conversion)
    (vs : List Value) :
    Run.onHeap (applyAll T cs vs) = Run.convertEach T cs vs := by
  induction cs generalizing vs with
  | nil => rfl
  | cons c cs ih =>
      cases vs with
      | nil => rfl
      | cons v vs =>
          rw [← Course.onHeap_applyAll_cons, ih,
            Run.convertEach_cons]

/- Conversions that keep values keep the arguments. -/
theorem Run.convertEach_identity
    {cs : List Conversion}
    (hKeep : ∀ c ∈ cs, c.isIdentity = true)
    (hCount : args.length = cs.length) :
    Run.convertEach T cs args = pure args := by
  induction cs generalizing args with
  | nil =>
      rw [List.length_eq_zero_iff.1 hCount]
      rfl
  | cons c cs ih =>
      cases args with
      | nil => cases hCount
      | cons v vs =>
          have hFirst :
              Run.onHeap (c.apply T v) = (pure v : Run Value) := by
            have hIdentity := hKeep c List.mem_cons_self
            cases c with
            | identity => rfl
            | upcast => rfl
            | _ => cases hIdentity
          have hRest :=
            ih (fun k hk => hKeep k (List.mem_cons_of_mem _ hk))
              (Nat.succ.inj hCount)
          rw [Run.convertEach_cons, hRest, hFirst]
          rfl

/- The plan that keeps a signature keeps the arguments. -/
theorem Run.convertEach_same
    (T : ClassTable)
    (hCount : args.length = n) :
    Run.convertEach T (List.replicate n .identity) args =
      pure args := by
  apply Run.convertEach_identity
  · intro c hc
    rw [List.eq_of_mem_replicate hc]
    rfl
  · rw [List.length_replicate]
    exact hCount

theorem Run.length_of_convertEach
    {cs : List Conversion}
    {vs : List Value}
    {s s' : State}
    (hOk : Run.convertEach T cs args s = .ok vs s') :
    vs.length = min cs.length args.length := by
  rw [← Run.onHeap_applyAll] at hOk
  unfold Run.onHeap at hOk
  split at hOk
  · rename_i a h hApply
    cases hOk
    apply length_applyAll (T := T) (h := s.heap)
    rw [hApply]
  · cases hOk

/- What follows a run matters only for what the run comes to. -/
theorem Run.bind_congr
    {m : Run β}
    {f g : β → Run α}
    {s : State}
    (hRest : ∀ b s', m s = .ok b s' → f b s' = g b s') :
    (m >>= f) s = (m >>= g) s := by
  change EStateM.bind m f s = EStateM.bind m g s
  unfold EStateM.bind
  cases hRun : m s with
  | ok b s' => exact hRest b s' hRun
  | error e s' => rfl

------------------------------------------------------------
-- Runs that Hold Roots
------------------------------------------------------------

/- What is held in a run is released at its end. -/
theorem Run.holding_ok
    {rs : List Root}
    {m : Run α}
    {a : α}
    {s s' : State}
    (hRun : m { s with held := rs ++ s.held } = .ok a s') :
    holding rs m s = .ok a { s' with held := s.held } := by
  unfold holding
  rw [hRun]

theorem Run.holding_error
    (s : State)
    {rs : List Root}
    {m : Run α}
    {e : Halt}
    {s' : State}
    (hRun : m { s with held := rs ++ s.held } = .error e s') :
    holding rs m s = .error e { s' with held := s.held } := by
  unfold holding
  rw [hRun]

/- What is held within a run is held besides. -/
theorem Run.holding_holding
    (s s' : State)
    {rs rs' : List Root}
    {m m' : Run α}
    (hRun :
      m { s with held := rs ++ s.held } =
        holding rs' m' { s' with held := rs ++ s.held }) :
    holding rs m s =
      holding (rs' ++ rs) m' { s' with held := s.held } := by
  unfold holding at hRun ⊢
  rw [hRun]
  dsimp only
  rw [List.append_assoc]
  cases m' { s' with held := rs' ++ (rs ++ s.held) } with
  | ok a s'' => rfl
  | error e s'' => rfl

------------------------------------------------------------
-- Nodes above a Target
------------------------------------------------------------

namespace Target

/-
  One target is a number of nodes above another: each of the
  nodes delegates to the next one and to nothing else.
-/
inductive Above : Nat → Target → Target → Prop where
| self (t : Target) : Above 0 t t
| node
    {n : Nat} {u v t : Target}
    (hWrapped : u.wrapped = [v])
    (hBelow : Above n v t) :
    Above (n + 1) u t

/- The nodes of a retyping; either may be left out. -/
structure Wrapping where
  outer : Option Target
  inner : Option Target

/- The number of nodes. -/
def Wrapping.depth (w : Wrapping) : Nat :=
  w.outer.toList.length + w.inner.toList.length

/- Those that are not left out. -/
def Wrapping.nodes (w : Wrapping) : List Target :=
  w.outer.toList ++ w.inner.toList

theorem Wrapping.depth_le (w : Wrapping) : w.depth ≤ 2 := by
  rcases w with ⟨o, i⟩
  cases o with
  | none => cases i <;> simp [depth]
  | some x => cases i <;> simp [depth]

/- A node that is passed on the way leaves its trace. -/
def pass
    (o : Option Target)
    (args : List Value) : Run Unit :=
  match o with
  | none => pure ()
  | some t => modify (fun s => s.log (.entered t args))

/-
  Follow a plan: convert the arguments one by one, enter the
  target once, convert its result.  The nodes of the plan are
  passed on the way.
-/
def followPlan
    (rt : Runtime)
    (p : Plan)
    (w : Wrapping)
    (enter : Enter)
    (t : Target)
    (args : List Value) : Run Value := do
  pass w.outer args
  let vs ← Run.convertEach rt.classes p.params args
  pass w.inner vs
  let v ← enter t vs
  Run.onHeap (p.ret.apply rt.classes v)

------------------------------------------------------------
-- Runs of Single Nodes
------------------------------------------------------------

/- A node that is entered with as many arguments as it takes. -/
theorem enter_succ
    (hCount : args.length = u.stub.arity) :
    Target.enter rt (n + 1) u args =
      (do
        pass (some u) args
        u.behave rt (Target.enter rt n) args) := by
  unfold Target.enter
  rw [enterStub, if_pos hCount]
  rfl

theorem enter_convertArguments
    {cs : List Conversion}
    (hForm : u.form = .convertArguments t cs)
    (hCount : args.length = u.stub.arity) :
    Target.enter rt (n + 1) u args =
      (do
        pass (some u) args
        let vs ← Run.convertEach rt.classes cs args
        Target.enter rt n t vs) := by
  rw [enter_succ hCount]
  unfold behave
  rw [hForm, ← Run.onHeap_applyAll]

theorem enter_convertReturn
    {c : Conversion}
    (hForm : u.form = .convertReturn t c)
    (hCount : args.length = u.stub.arity) :
    Target.enter rt (n + 1) u args =
      (do
        pass (some u) args
        let v ← Target.enter rt n t args
        Run.onHeap (c.apply rt.classes v)) := by
  rw [enter_succ hCount]
  unfold behave
  rw [hForm]

/- The last arguments go into a new array. -/
theorem enter_collect
    {component : Ty}
    {count : Nat}
    (hForm : u.form = .collect t component count)
    (hCount : args.length = u.stub.arity)
    (hEnough : count ≤ args.length) :
    Target.enter rt (n + 1) u args =
      (do
        pass (some u) args
        let o ←
          Run.newArray component (args.drop (args.length - count))
        Target.enter rt n t
          (args.take (args.length - count) ++ [.ref o])) := by
  rw [enter_succ hCount]
  unfold behave
  rw [hForm]
  dsimp only
  unfold collectArgs
  rw [if_neg (Nat.not_lt.2 hEnough)]
  simp only [bind_assoc, pure_bind]

/- Arguments that match are passed on by an exact invocation. -/
theorem invokeExact_of_admits
    {enter : Enter}
    (hAdmits : admits rt.classes u.signature args = true) :
    u.invokeExact rt enter args = enter u args := by
  unfold invokeExact checkArguments
  rw [if_pos hAdmits, pure_bind]

------------------------------------------------------------
-- Runs of Retyped Targets
------------------------------------------------------------

/- A result that keeps its type is left as it is. -/
theorem followPlan_keepRet
    {enter : Enter}
    {w : Wrapping}
    (hRet : p.ret = .identity)
    (hInner : w.inner = none) :
    t.followPlan rt p w enter args =
      (do
        pass w.outer args
        let vs ← Run.convertEach rt.classes p.params args
        enter t vs) := by
  unfold followPlan
  rw [hRet, hInner]
  simp only [pass, pure_bind]
  congr 1
  funext _
  congr 1
  funext vs
  exact bind_pure (enter t vs)

/- Arguments that keep their types are left as they are. -/
theorem followPlan_keepParams
    {enter : Enter}
    {w : Wrapping}
    (hParams : p.params = List.replicate n .identity)
    (hCount : args.length = n)
    (hOuter : w.outer = none) :
    t.followPlan rt p w enter args =
      (do
        pass w.inner args
        let v ← enter t args
        Run.onHeap (p.ret.apply rt.classes v)) := by
  unfold followPlan
  rw [hParams, hOuter, Run.convertEach_same _ hCount]
  simp only [pass, pure_bind]

namespace Converted

variable {c : Catalog}

/- A node is larger than the one target that it wraps. -/
theorem sizeOf_lt_of_wrapped
    (hWrapped : u.wrapped = [t]) :
    sizeOf t < sizeOf u := by
  apply sizeOf_lt_node
  rw [hWrapped]
  exact List.mem_singleton.2 rfl

/-
  A retyped target that is entered follows the plan, whichever
  of the two nodes are left out.  The nodes are larger than
  the target, and so it is none of them.
-/
theorem enter_follows
    (hValid : c.Valid rt)
    (hChecking : rt.compile = .checking)
    (hu : u ∈ c.made)
    (hPlan :
      planSignature rt.classes sig t.signature how = .ok p)
    (hConverted : t.Converted sig p u) :
    ∃ w : Wrapping,
      u.Above w.depth t ∧
        (∀ x ∈ w.nodes, sizeOf t < sizeOf x) ∧
        ∀ n args, args.length = sig.count →
          Target.enter rt (n + w.depth) u args =
            t.followPlan rt p w (Target.enter rt n) args := by
  rcases Makes.of_planSignature hPlan with
    ⟨hCount, hParamsPlan, hRetPlan⟩
  have hArity :
      ∀ x ∈ c.made, x.stub.arity = x.signature.count :=
    fun x hx => (hValid.serves x hx).arity_eq hChecking
  have hKeeps :
      sig.params = t.params →
        p.params = List.replicate sig.count .identity := by
    intro hSame
    change
      planParams rt.classes how 0 sig.params t.params = .ok p.params
        at hParamsPlan
    rw [← hSame, planParams_self] at hParamsPlan
    exact (Except.ok.inj hParamsPlan).symm
  rcases hConverted with ⟨v, hResult, hParams⟩
  cases hResult with
  | same hRet =>
      have hIdentity : p.ret = .identity := by
        change classify rt.classes t.ret sig.ret how = some p.ret
          at hRetPlan
        rw [hRet, classify_self] at hRetPlan
        exact (Option.some.inj hRetPlan).symm
      cases hParams with
      | same hSig =>
          refine ⟨⟨none, none⟩, .self t, nofun, ?_⟩
          intro n args hArgs
          have hSame : sig.params = t.params :=
            congrArg Signature.params hSig.symm
          rw [followPlan_keepRet hIdentity rfl, hKeeps hSame,
            Run.convertEach_same _ hArgs]
          simp only [pass, pure_bind]
          rfl
      | node _ hIs =>
          have hWrapped : u.wrapped = [t] := by
            unfold wrapped
            rw [hIs.form_eq]
            rfl
          refine
            ⟨⟨some u, none⟩, .node hWrapped (.self t),
              List.forall_mem_singleton.2
                (sizeOf_lt_of_wrapped hWrapped),
              ?_⟩
          intro n args hArgs
          rw [followPlan_keepRet hIdentity rfl]
          apply enter_convertArguments hIs.form_eq
          rw [hArity u hu, hIs.signature_eq]
          exact hArgs
  | node _ hInner =>
      cases hParams with
      | same hSig =>
          have hWrapped : u.wrapped = [t] := by
            unfold wrapped
            rw [hInner.form_eq]
            rfl
          refine
            ⟨⟨none, some u⟩, .node hWrapped (.self t),
              List.forall_mem_singleton.2
                (sizeOf_lt_of_wrapped hWrapped),
              ?_⟩
          intro n args hArgs
          have hSame : sig.params = t.params := by
            rw [← hSig, hInner.signature_eq]
            rfl
          rw [followPlan_keepParams (hKeeps hSame) hArgs rfl]
          apply enter_convertReturn hInner.form_eq
          rw [hArity u hu, hSig]
          exact hArgs
      | node _ hOuter =>
          have hWrapped : u.wrapped = [v] := by
            unfold wrapped
            rw [hOuter.form_eq]
            rfl
          have hv : v ∈ c.made := by
            apply hValid.closed u hu v
            rw [hWrapped]
            exact List.mem_singleton.2 rfl
          have hBelow : v.wrapped = [t] := by
            unfold wrapped
            rw [hInner.form_eq]
            rfl
          have hSize := sizeOf_lt_of_wrapped hBelow
          have hLarger := sizeOf_lt_of_wrapped hWrapped
          refine
            ⟨⟨some u, some v⟩,
              .node hWrapped (.node hBelow (.self t)),
              List.forall_mem_cons.2
                ⟨Nat.lt_trans hSize hLarger,
                  List.forall_mem_singleton.2 hSize⟩,
              ?_⟩
          intro n args hArgs
          have hOuterArity : args.length = u.stub.arity := by
            rw [hArity u hu, hOuter.signature_eq]
            exact hArgs
          have hLength : p.params.length = sig.count := by
            have hMin := length_planParams hParamsPlan
            change _ = min sig.count t.signature.count at hMin
            rw [hMin, hCount, Nat.min_self]
          rw [show n + Wrapping.depth ⟨some u, some v⟩ = n + 1 + 1
            from rfl,
            enter_convertArguments hOuter.form_eq hOuterArity]
          unfold followPlan
          congr 1
          funext _ s
          apply Run.bind_congr
          intro vs s' hOk
          have hInnerArity : vs.length = v.stub.arity := by
            rw [Run.length_of_convertEach hOk, hLength, hArgs,
              Nat.min_self, hArity v hv, hInner.signature_eq]
            exact hCount
          rw [enter_convertReturn hInner.form_eq hInnerArity]

/- An exact invocation of a retyped target follows the plan. -/
theorem follows_through
    (hValid : c.Valid rt)
    (hChecking : rt.compile = .checking)
    (hu : u ∈ c.made)
    (hPlan :
      planSignature rt.classes sig t.signature how = .ok p)
    (hConverted : t.Converted sig p u) :
    ∃ w : Wrapping,
      u.Above w.depth t ∧
        (∀ x ∈ w.nodes, sizeOf t < sizeOf x) ∧
        ∀ n args, admits rt.classes sig args = true →
          u.invokeExact rt (Target.enter rt (n + w.depth)) args =
            t.followPlan rt p w (Target.enter rt n) args := by
  rcases enter_follows hValid hChecking hu hPlan hConverted with
    ⟨w, hAbove, hLarger, hFollows⟩
  refine ⟨w, hAbove, hLarger, ?_⟩
  intro n args hAdmits
  have hSame : admits rt.classes u.signature args = true := by
    rw [hConverted.signature_eq]
    exact hAdmits
  rw [invokeExact_of_admits hSame]
  exact hFollows n args (length_of_admits hAdmits)

theorem follows
    (hValid : c.Valid rt)
    (hChecking : rt.compile = .checking)
    (hu : u ∈ c.made)
    (hPlan :
      planSignature rt.classes sig t.signature how = .ok p)
    (hConverted : t.Converted sig p u) :
    ∃ w : Wrapping,
      u.Above w.depth t ∧
        ∀ n args, admits rt.classes sig args = true →
          u.invokeExact rt (Target.enter rt (n + w.depth)) args =
            t.followPlan rt p w (Target.enter rt n) args := by
  rcases follows_through hValid hChecking hu hPlan hConverted with
    ⟨w, hAbove, _, hFollows⟩
  exact ⟨w, hAbove, hFollows⟩

end Converted

end Target

end Linkage
