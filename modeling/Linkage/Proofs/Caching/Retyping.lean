import Linkage.Proofs.Caching.Alike
import Linkage.Proofs.Link.Makes
import Linkage.Proofs.Stub.Arity

/-
  What comes of making nodes, whatever is in the cache and
  whatever is remembered.  With the checking compiler a node
  is always made; a retyping succeeds whenever there is a
  plan for it.  Whether a retyping is remembered or made
  anew, it is a retyping along the plan, and any two such
  retypings of related targets are related.

  Key definitions include:
    * `State.Grown`

  Key theorems include:
    * `State.Sound.buildKeyed_ok`
    * `State.Sound.convert_ok`
    * `State.Sound.asType_outcome`
    * `Target.Congruence.of_converted`
-/

------------------------------------------------------------
-- Growing States
------------------------------------------------------------

namespace Linkage

/-
  A state after targets were made: it is sound for a later
  catalog, and the heap, the call sites and the trace are as
  before.
-/
structure State.Grown
    (rt : Runtime)
    (c : Catalog)
    (s : State)
    (d : Catalog)
    (s' : State) : Prop where
  le : c ≤ d
  sound : s'.Sound rt d
  heap_eq : s'.heap = s.heap
  sites_eq : s'.sites = s.sites
  trace_eq : s'.trace = s.trace

variable {rt : Runtime}
variable {c d e : Catalog}
variable {s s' s'' : State}
variable {sig : Signature}
variable {form : Form Target}
variable {t u : Target}
variable {exact : SlotRange}

theorem State.Grown.refl
    (hSound : s.Sound rt c) :
    State.Grown rt c s c s :=
  ⟨le_refl c, hSound, rfl, rfl, rfl⟩

theorem State.Grown.trans
    (hFirst : State.Grown rt c s d s')
    (hSecond : State.Grown rt d s' e s'') :
    State.Grown rt c s e s'' where
  le := le_trans hFirst.le hSecond.le
  sound := hSecond.sound
  heap_eq := hSecond.heap_eq.trans hFirst.heap_eq
  sites_eq := hSecond.sites_eq.trans hFirst.sites_eq
  trace_eq := hSecond.trace_eq.trans hFirst.trace_eq

------------------------------------------------------------
-- New Nodes
------------------------------------------------------------

/- The slots that a key keeps exact: none, or a first handle. -/
def SlotRange.Suits
    (exact : SlotRange)
    (sig : Signature) : Prop :=
  exact = .none ∨
    exact = ⟨0, 1⟩ ∧ sig.params.head? = some .methodHandle

/-
  The cache answers with a stub whenever the compiler does,
  whether the stub is resident or not.
-/
theorem Stub.Cache.get_ok
    {x : Stub.Cache}
    {compile : Stub.Compiler}
    {k : Stub.Key}
    {m : Nat}
    (hCompile : ∀ n, compile n k = .ok m) :
    ∃ stub y, x.get compile k = (.ok stub, y) := by
  unfold Stub.Cache.get
  dsimp only
  cases x.find? k with
  | some e => exact ⟨_, _, rfl⟩
  | none =>
      rw [hCompile]
      exact ⟨_, _, rfl⟩

/- A node is made, and nothing else changes. -/
theorem State.Sound.buildKeyed_ok
    (hSound : s.Sound rt c)
    (hChecking : rt.compile = .checking)
    (sig : Signature)
    (extra : Option Stub.Extra)
    (hTargets : ∀ u ∈ form.targets, u ∈ c.made)
    (hExact : exact.Suits sig) :
    ∃ t s',
      Target.buildKeyed rt sig form exact extra s = .ok t s' ∧
        State.Grown rt c s (c.addNode t) s' ∧
        t.signature = sig ∧ t.form = form ∧
        t.stub.key = .ofSignature sig exact extra := by
  have hBuild := hSound.buildKeyed extra hTargets hExact
  have hCompile :
      ∀ n,
        rt.compile n (.ofSignature sig exact extra) =
          .ok sig.count := by
    intro n
    rw [hChecking]
    exact Stub.Compiler.checking_ofSignature extra n hExact
  rcases Stub.Cache.get_ok (x := s.cache) hCompile with
    ⟨stub, k, hGet⟩
  cases hRun : Target.buildKeyed rt sig form exact extra s with
  | ok t s' =>
      rw [hRun] at hBuild
      rcases hBuild with ⟨hSound', hSig, hForm, hKey, k, n, rfl⟩
      exact
        ⟨t, _, rfl,
          ⟨Catalog.le_addNode c t, hSound', rfl, rfl, rfl⟩,
          hSig, hForm, hKey⟩
  | error f s' =>
      unfold Target.buildKeyed at hRun
      dsimp only at hRun
      rw [hGet] at hRun
      cases hRun

theorem State.Sound.build_ok
    (hSound : s.Sound rt c)
    (hChecking : rt.compile = .checking)
    (sig : Signature)
    (hTargets : ∀ u ∈ form.targets, u ∈ c.made) :
    ∃ t s',
      Target.build rt sig form s = .ok t s' ∧
        State.Grown rt c s (c.addNode t) s' ∧ t.Is sig form := by
  rcases
    hSound.buildKeyed_ok hChecking sig none hTargets
      (Or.inl rfl)
    with ⟨t, s', hRun, hGrown, hSig, hForm, hKey⟩
  exact ⟨t, s', hRun, hGrown, hSig, hForm, hKey⟩

------------------------------------------------------------
-- Conversions along a Plan
------------------------------------------------------------

theorem State.Sound.convertResult_ok
    (hSound : s.Sound rt c)
    (hChecking : rt.compile = .checking)
    (ret : Ty)
    (k : Conversion)
    (ht : t ∈ c.made) :
    ∃ x d s',
      t.convertResult rt ret k s = .ok x s' ∧
        State.Grown rt c s d s' ∧ x ∈ d.made ∧
        t.ResultConverted ret k x := by
  unfold Target.convertResult
  split
  · rename_i hRet
    exact ⟨t, c, s, rfl, .refl hSound, ht, .same hRet⟩
  · rename_i hRet
    have hTargets :
        ∀ u ∈ (Form.convertReturn t k).targets, u ∈ c.made := by
      intro u hu
      rw [List.mem_singleton.1 hu]
      exact ht
    rcases
      hSound.build_ok hChecking (t.signature.withRet ret) hTargets
      with ⟨x, s', hRun, hGrown, hIs⟩
    exact
      ⟨x, c.addNode x, s', hRun, hGrown,
        Catalog.mem_addNode.2 (Or.inr rfl), .node hRet hIs⟩

theorem State.Sound.convertParams_ok
    (hSound : s.Sound rt c)
    (hChecking : rt.compile = .checking)
    (sig : Signature)
    (ks : List Conversion)
    (ht : t ∈ c.made) :
    ∃ x d s',
      t.convertParams rt sig ks s = .ok x s' ∧
        State.Grown rt c s d s' ∧ x ∈ d.made ∧
        t.ParamsConverted sig ks x := by
  unfold Target.convertParams
  split
  · rename_i hSig
    exact ⟨t, c, s, rfl, .refl hSound, ht, .same hSig⟩
  · rename_i hSig
    have hTargets :
        ∀ u ∈ (Form.convertArguments t ks).targets,
          u ∈ c.made := by
      intro u hu
      rw [List.mem_singleton.1 hu]
      exact ht
    rcases hSound.build_ok hChecking sig hTargets with
      ⟨x, s', hRun, hGrown, hIs⟩
    exact
      ⟨x, c.addNode x, s', hRun, hGrown,
        Catalog.mem_addNode.2 (Or.inr rfl), .node hSig hIs⟩

theorem State.Sound.convert_ok
    (hSound : s.Sound rt c)
    (hChecking : rt.compile = .checking)
    (sig : Signature)
    (p : Plan)
    (ht : t ∈ c.made) :
    ∃ x d s',
      t.convert rt sig p s = .ok x s' ∧
        State.Grown rt c s d s' ∧ x ∈ d.made ∧
        t.Converted sig p x := by
  rcases
    hSound.convertResult_ok hChecking sig.ret p.ret ht
    with ⟨v, d, s', hResult, hGrown, hv, hConverted⟩
  rcases
    hGrown.sound.convertParams_ok hChecking sig p.params hv
    with ⟨x, e, s'', hParams, hGrown', hx, hConverted'⟩
  refine
    ⟨x, e, s'', ?_, hGrown.trans hGrown', hx, v, hConverted,
      hConverted'⟩
  change
    EStateM.bind (t.convertResult rt sig.ret p.ret)
      (fun v => v.convertParams rt sig p.params) s = _
  unfold EStateM.bind
  rw [hResult]
  exact hParams

------------------------------------------------------------
-- Retyping
------------------------------------------------------------

/- A retyping that is made anew. -/
theorem State.Sound.retype_ok
    {p : Plan}
    (hSound : s.Sound rt c)
    (hChecking : rt.compile = .checking)
    (ht : t ∈ c.made)
    (hPlan :
      planSignature rt.classes sig t.signature .implicit = .ok p) :
    ∃ x d s',
      t.retype rt sig s = .ok x s' ∧
        State.Grown rt c s d s' ∧ x ∈ d.made ∧
        t.Converted sig p x := by
  rcases
    hSound.convert_ok hChecking sig p ht
    with ⟨x, d, s', hConvert, hGrown, hx, hConverted⟩
  have hRetyped : t.Retyped rt.classes x := by
    refine ⟨p, ?_, ?_⟩
    · rw [hConverted.signature_eq]
      exact hPlan
    · rw [hConverted.signature_eq]
      exact hConverted
  have hRun :
      t.retype rt sig s =
        if rt.memoizeAsType then .ok x (s'.remember t x)
        else .ok x s' := by
    unfold Target.retype
    rw [hPlan]
    change EStateM.bind (t.convert rt sig p) _ s = _
    unfold EStateM.bind
    rw [hConvert]
    cases rt.memoizeAsType <;> rfl
  cases hMemo : rt.memoizeAsType with
  | true =>
      rw [hMemo] at hRun
      have ht' := Catalog.mem_of_le hGrown.le ht
      exact
        ⟨x, d, s'.remember t x, hRun,
          ⟨hGrown.le, hGrown.sound.remember ht' hx hRetyped,
            hGrown.heap_eq, hGrown.sites_eq, hGrown.trace_eq⟩,
          hx, hConverted⟩
  | false =>
      rw [hMemo] at hRun
      exact ⟨x, d, s', hRun, hGrown, hx, hConverted⟩

/- What is remembered is a retyping of the target. -/
theorem State.Sound.remembered?
    {x : Target}
    (hSound : s.Sound rt c)
    (ht : t ∈ c.made)
    (hMemo : t.remembered? rt sig s = some x) :
    x ∈ c.made ∧ x.signature = sig ∧ t.Retyped rt.classes x := by
  unfold Target.remembered? at hMemo
  split at hMemo
  · split at hMemo
    · rename_i v hRemembered
      split at hMemo
      · rename_i hCond
        cases hMemo
        simp only [Bool.and_eq_true, decide_eq_true_eq] at hCond
        rcases hSound.memoOf ht hRemembered with ⟨hx, hRetyped⟩
        exact ⟨hx, hCond.1, hRetyped⟩
      · cases hMemo
    · cases hMemo
  · cases hMemo

/- A target that is remembered is not made again. -/
theorem Target.asType_of_remembered
    {x : Target}
    (hNe : t.signature ≠ sig)
    (hMemo : t.remembered? rt sig s = some x) :
    t.asType rt sig s = .ok x s := by
  unfold Target.asType
  rw [if_neg hNe]
  change EStateM.bind MonadState.get _ s = _
  unfold EStateM.bind
  dsimp only [MonadState.get, getThe, MonadStateOf.get,
    EStateM.get]
  rw [hMemo]
  rfl

theorem Target.asType_of_not_remembered
    (hNe : t.signature ≠ sig)
    (hMemo : t.remembered? rt sig s = none) :
    t.asType rt sig s = t.retype rt sig s := by
  unfold Target.asType
  rw [if_neg hNe]
  change EStateM.bind MonadState.get _ s = _
  unfold EStateM.bind
  dsimp only [MonadState.get, getThe, MonadStateOf.get,
    EStateM.get]
  rw [hMemo]

/-
  What comes of retyping is settled by the plan: the target
  itself, the error of the plan, or a target that is converted
  along the plan.  What is remembered plays no role.
-/
theorem State.Sound.asType_outcome
    (hSound : s.Sound rt c)
    (hChecking : rt.compile = .checking)
    (ht : t ∈ c.made)
    (hNe : t.signature ≠ sig) :
    match
      planSignature rt.classes sig t.signature .implicit
    with
    | .error e => t.asType rt sig s = .error (.signature e) s
    | .ok p =>
        ∃ x d s',
          t.asType rt sig s = .ok x s' ∧
            State.Grown rt c s d s' ∧ x ∈ d.made ∧
            t.Converted sig p x := by
  cases hMemo : t.remembered? rt sig s with
  | some x =>
      have hRun := Target.asType_of_remembered hNe hMemo
      rcases hSound.remembered? ht hMemo with
        ⟨hx, rfl, p, hPlan, hConverted⟩
      rw [hPlan]
      exact ⟨x, c, s, hRun, .refl hSound, hx, hConverted⟩
  | none =>
      have hRun := Target.asType_of_not_remembered hNe hMemo
      cases hPlan :
          planSignature rt.classes sig t.signature .implicit with
      | error e =>
          rw [hRun]
          unfold Target.retype
          rw [hPlan]
          rfl
      | ok p =>
          rcases hSound.retype_ok hChecking ht hPlan with
            ⟨x, d, s', hRetype, hGrown, hx, hConverted⟩
          exact
            ⟨x, d, s', hRun.trans hRetype, hGrown, hx, hConverted⟩

------------------------------------------------------------
-- Retypings that are Related
------------------------------------------------------------

namespace Target.Congruence

variable {R : Target → Target → Prop}
variable [Target.Congruence R]
variable {x y : Target}
variable {ret : Ty}
variable {k : Conversion}
variable {ks : List Conversion}
variable {p : Plan}

/- Nodes of one signature and of related forms. -/
theorem of_is
    {f g : Form Target}
    (hx : x.Is sig f)
    (hy : y.Is sig g)
    (hForm : f.Rel R g) :
    R x y := by
  apply of_parts
  · exact hy.signature_eq.trans hx.signature_eq.symm
  · exact hy.key_eq.trans hx.key_eq.symm
  · rw [hx.form_eq, hy.form_eq]
    exact hForm

theorem of_resultConverted
    (hRel : R t u)
    (hx : t.ResultConverted ret k x)
    (hy : u.ResultConverted ret k y) :
    R x y := by
  have hSig : u.signature = t.signature := signature_eq hRel
  have hRet : u.ret = t.ret := congrArg Signature.ret hSig
  cases hx with
  | same hSame =>
      cases hy with
      | same _ => exact hRel
      | node hNe _ => exact absurd (hRet.trans hSame) hNe
  | node hNe hIs =>
      cases hy with
      | same hSame => exact absurd (hRet.symm.trans hSame) hNe
      | node _ hIs' =>
          rw [hSig] at hIs'
          exact of_is hIs hIs' (.convertReturn k hRel)

theorem of_paramsConverted
    (hRel : R t u)
    (hx : t.ParamsConverted sig ks x)
    (hy : u.ParamsConverted sig ks y) :
    R x y := by
  have hSig : u.signature = t.signature := signature_eq hRel
  cases hx with
  | same hSame =>
      cases hy with
      | same _ => exact hRel
      | node hNe _ => exact absurd (hSig.trans hSame) hNe
  | node hNe hIs =>
      cases hy with
      | same hSame => exact absurd (hSig.symm.trans hSame) hNe
      | node _ hIs' =>
          exact of_is hIs hIs' (.convertArguments ks hRel)

/- Conversions of related targets along one plan. -/
theorem of_converted
    (hRel : R t u)
    (hx : t.Converted sig p x)
    (hy : u.Converted sig p y) :
    R x y := by
  rcases hx with ⟨v, hResult, hParams⟩
  rcases hy with ⟨w, hResult', hParams'⟩
  exact
    of_paramsConverted (of_resultConverted hRel hResult hResult')
      hParams hParams'

end Target.Congruence

end Linkage
