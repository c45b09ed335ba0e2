import Linkage.Proofs.Session.Permuting
import Linkage.Proofs.Session.Tracking

/-
  Filters of results as folds.  A filter that is made to
  ignore the parameters of a target, and is then combined with
  it, does what the filter does with the results of the
  target.  A result that takes two slots needs both of them
  beside the parameters, since the filter takes it before it
  ignores the others.

  Key definitions include:
    * `filterArgs`
    * `Target.Widens`
    * `Target.FoldsOver`

  Key theorems include:
    * `Signature.insertParams_ok`
    * `State.Lists.widen_ok`
    * `Target.Widens.tracks`
    * `Target.FoldsOver.trackedBy`
    * `Target.FoldsOver.tracked_back`
    * `Session.return_filter_folds`
-/

------------------------------------------------------------
-- Filters that Ignore Parameters
------------------------------------------------------------

namespace Linkage

variable {rt : Runtime}
variable {c d : Catalog}
variable {s s' : State}
variable {sig : Signature}
variable {t u f g x : Target}
variable {pos : Nat}
variable {types : List Ty}
variable {args : List Value}

/- What a filter of results of a type is called with. -/
def filterArgs
    (ret : Ty)
    (v : Value) : List Value :=
  if ret.IsVoid then [] else [v]

theorem filterArgs_length
    (ret : Ty)
    (v : Value) :
    (filterArgs ret v).length = (Target.filterParams ret).length := by
  unfold filterArgs Target.filterParams
  split
  · rfl
  · rfl

theorem slotCount_filterParams (ret : Ty) :
    slotCount (Target.filterParams ret) = ret.slots := by
  unfold Target.filterParams
  cases ret with
  | prim k =>
      cases k with
      | _ => rfl
  | _ => rfl

/- Parameters that fit may be inserted. -/
theorem Signature.insertParams_ok
    {s : Signature}
    (hPos : pos ≤ s.count)
    (hFits :
      Admissible (s.params.take pos ++ types ++ s.params.drop pos)) :
    s.insertParams pos types = .ok ⟨_, s.ret, hFits⟩ := by
  unfold insertParams
  rw [if_pos hPos]
  exact build_of_admissible s.ret hFits

/-
  A target that takes further arguments after its own, and
  ignores them.  If there are none it is the target itself.
-/
inductive Target.Widens
    (f : Target)
    (types : List Ty)
    (u : Target) : Prop
| same :
    types = [] → u = f → Widens f types u
| node :
    u.form = .drop f f.count types.length → Widens f types u

/- Further parameters are ignored if they fit. -/
theorem State.Lists.widen_ok
    {r : State}
    (hLists : r.Lists rt [g])
    (hf : ∀ c : Catalog, c.Valid rt → g ∈ c.made → f ∈ c.made)
    (hChecking : rt.compile = .checking)
    (hFits : Admissible (f.params ++ types)) :
    ∃ u r',
      f.dropArguments rt f.count types r = .ok u r' ∧
        r'.Lists rt [g, u] ∧ u.params = f.params ++ types ∧
        u.ret = f.ret ∧ f.Widens types u := by
  rcases hLists with ⟨c, hSound, hMade⟩
  have hg := hMade g (by simp)
  have hMadeF := hf c hSound.valid hg
  by_cases hNone : types = []
  · subst hNone
    exact
      ⟨f, r, rfl, hSound.lists_two hg hMadeF,
        (List.append_nil _).symm, rfl, .same rfl rfl⟩
  · have hAll :
        f.signature.params.take f.count ++ types ++
            f.signature.params.drop f.count =
          f.params ++ types := by
      unfold Target.count Signature.count Target.params
      rw [List.take_length, List.drop_length, List.append_nil]
    have hFits' := hFits
    rw [← hAll] at hFits'
    rcases
      hSound.dropArguments_ok hChecking hMadeF hNone
        (Signature.insertParams_ok (Nat.le_refl f.count) hFits')
      with ⟨u, r', hRun, hGrown, hIs⟩
    refine
      ⟨u, r', hRun, hGrown.lists_new hg, ?_, ?_,
        .node hIs.form_eq⟩
    · exact (congrArg Signature.params hIs.signature_eq).trans hAll
    · rw [Target.ret, hIs.signature_eq]
      rfl

------------------------------------------------------------
-- Folds
------------------------------------------------------------

/- A prefix does not differ from the list. -/
theorem firstDifference_of_prefix
    {ts ps : List Ty}
    (hPrefix : ts <+: ps)
    (i : Nat) :
    firstDifference i ts ps = none := by
  induction ts generalizing i ps with
  | nil => rfl
  | cons a as ih =>
      cases ps with
      | nil => rfl
      | cons b bs =>
          rcases List.cons_prefix_cons.1 hPrefix with ⟨rfl, hRest⟩
          unfold firstDifference
          rw [if_pos rfl]
          exact ih hRest (i + 1)

theorem checkLeading_ok
    {ts : List Ty}
    (hPrefix : ts <+: sig.params) :
    checkLeading ts sig = pure () := by
  have hEnough : ¬sig.count < ts.length :=
    Nat.not_lt.2 hPrefix.length_le
  unfold checkLeading
  rw [if_neg hEnough, firstDifference_of_prefix hPrefix]

/- What a target takes beside the result of a combiner. -/
theorem Target.foldedSignature_ok
    {ret : Ty}
    (hParams : u.params = filterParams ret ++ types) :
    ∃ sig,
      u.foldedSignature ret = pure sig ∧ sig.params = types ∧
        sig.ret = u.ret := by
  unfold foldedSignature
  unfold filterParams at hParams
  by_cases hVoid : ret.IsVoid = true
  · rw [if_pos hVoid] at hParams ⊢
    exact ⟨u.signature, rfl, hParams, rfl⟩
  · rw [if_neg hVoid] at hParams ⊢
    rw [hParams]
    dsimp only [List.cons_append, List.head?_cons]
    rw [if_pos rfl]
    have hOne : 1 ≤ u.signature.count := by
      change 1 ≤ u.params.length
      rw [hParams]
      exact Nat.le_add_left 1 _
    rcases Signature.dropParams_ok (Nat.zero_le 1) hOne with
      ⟨sig, hSig, hRest, hRet⟩
    refine ⟨sig, ?_, ?_, hRet⟩
    · rw [hSig]
      rfl
    · rw [hRest]
      change ([] : List Ty) ++ u.params.drop 1 = types
      rw [hParams]
      rfl

theorem State.Sound.foldArguments_ok
    (hSound : s.Sound rt c)
    (hChecking : rt.compile = .checking)
    (hu : u ∈ c.made)
    (ht : t ∈ c.made)
    (hParams : u.params = Target.filterParams t.ret ++ t.params) :
    ∃ x s',
      u.foldArguments rt t s = .ok x s' ∧
        State.Grown rt c s (c.addNode x) s' ∧
        x.form = .fold u t ∧ x.params = t.params ∧
        x.ret = u.ret := by
  rcases Target.foldedSignature_ok hParams with
    ⟨sig, hSig, hLeft, hRet⟩
  have hTargets : ∀ x ∈ (Form.fold u t).targets, x ∈ c.made :=
    Catalog.all_two ht hu
  rcases hSound.build_ok hChecking sig hTargets with
    ⟨x, s', hBuild, hGrown, hIs⟩
  have hOwn := hIs.signature_eq
  refine ⟨x, s', ?_, hGrown, hIs.form_eq, ?_, ?_⟩
  · have hLeading : checkLeading t.params sig = pure () :=
      checkLeading_ok (hLeft ▸ List.prefix_refl sig.params)
    unfold Target.foldArguments
    rw [hSig, pure_bind, hLeading]
    exact hBuild
  · rw [Target.params, hOwn, hLeft]
  · rw [Target.ret, hOwn, hRet]

/- A filter of results that was made. -/
theorem State.Sound.of_filterReturn
    (hSound : s.Sound rt c)
    (hChecking : rt.compile = .checking)
    (ht : t ∈ c.made)
    (hf : f ∈ c.made)
    (hOk : t.filterReturn rt f s = .ok g s') :
    f.params = Target.filterParams t.ret ∧
      State.Grown rt c s (c.addNode g) s' ∧
      g.Is (t.signature.withRet f.ret) (.filterReturn t f) := by
  unfold Target.filterReturn at hOk
  split at hOk
  · rename_i hParams
    have hTargets :
        ∀ x ∈ (Form.filterReturn t f).targets, x ∈ c.made :=
      Catalog.all_two ht hf
    rcases
      hSound.build_ok hChecking (t.signature.withRet f.ret) hTargets
      with ⟨x, r, hRun, hGrown, hIs⟩
    rw [hOk] at hRun
    cases hRun
    exact ⟨hParams, hGrown, hIs⟩
  · cases hOk

------------------------------------------------------------
-- Running Filters and Folds
------------------------------------------------------------

namespace Target

variable {n : Nat}

theorem behave_filterReturn
    {e : Enter}
    (hForm : g.form = .filterReturn t f) :
    g.behave rt e args =
      (e t args >>= fun v => e f (filterArgs t.ret v)) := by
  unfold behave
  rw [hForm]
  rfl

theorem behave_fold
    {e : Enter}
    (hForm : x.form = .fold u t)
    (hCount : args.length = t.count) :
    x.behave rt e args =
      (Run.holding (rootsOf args) (e t args) >>= fun v =>
        e u (filterArgs t.ret v ++ args)) := by
  have hFirst :
      leadingArgs x.signature t.count args = pure args := by
    unfold leadingArgs
    rw [if_pos (Nat.le_of_eq hCount.symm), ← hCount,
      List.take_length]
  unfold behave
  rw [hForm]
  dsimp only
  unfold runFold filterArgs
  rw [hFirst, pure_bind]
  refine bind_congr fun v => ?_
  split
  · rfl
  · rfl

/- What is widened hands its own arguments on. -/
theorem behave_widened
    {e : Enter}
    {as : List Value}
    (hForm : u.form = .drop f f.count types.length)
    (hOwn : as.length = f.count)
    (hRest : args.length = types.length) :
    u.behave rt e (as ++ args) = e f as := by
  have hAll : (as ++ args).length = f.count + types.length := by
    rw [List.length_append, hOwn, hRest]
  unfold behave
  rw [hForm]
  dsimp only
  unfold dropArgs
  rw [if_pos (Nat.le_of_eq hAll.symm), ← hOwn, List.take_left,
    List.drop_eq_nil_of_le (by omega), List.append_nil]
  rfl

variable {as : List Value}

/- A widened target does what the target itself does. -/
theorem Widens.tracks
    (hWidens : f.Widens types u)
    (hChecking : rt.compile = .checking)
    (hHost : rt.host.MakesNoTargets)
    (hf : f ∈ c.made)
    (hf' : f ∈ d.made)
    (hArity : u.stub.arity = f.count + types.length)
    (hOwn : as.length = f.count)
    (hRest : args.length = types.length)
    (n : Nat) :
    Run.Tracks rt c d (enter rt n f as)
        (enter rt (n + 1) u (as ++ args)) ∧
      Run.Tracks rt c d
        (enter rt (n + 1) u (as ++ args))
        (enter rt (n + 1) f as) := by
  have hDeeper :
      Run.Tracks rt c d (enter rt n f as)
        (enter rt (n + 1) f as) :=
    .enter hChecking hHost hf hf' (Nat.le_succ n) as
  cases hWidens with
  | same hNone hSame =>
      subst hNone
      subst hSame
      cases List.eq_nil_of_length_eq_zero hRest
      rw [List.append_nil]
      exact
        ⟨hDeeper,
          .enter hChecking hHost hf hf' (Nat.le_refl _) as⟩
  | node hForm =>
      have hCount : (as ++ args).length = u.stub.arity := by
        rw [List.length_append, hOwn, hRest, hArity]
      refine
        ⟨.node_right hCount ?_, .node_left hCount ?_⟩
      · rw [behave_widened hForm hOwn hRest]
        exact .enter hChecking hHost hf hf' (Nat.le_refl n) as
      · rw [behave_widened hForm hOwn hRest]
        exact hDeeper

/-
  A fold of a filter that ignores parameters, over the target
  that is filtered.
-/
structure FoldsOver
    (g t f u x : Target) : Prop where
  filters : g.form = .filterReturn t f
  folds : x.form = .fold u t
  widens : f.Widens t.params u
  params_eq : f.params = filterParams t.ret
  widened_eq : u.params = f.params ++ t.params
  filtered_eq : g.params = t.params
  signature_eq : x.signature = g.signature

namespace FoldsOver

variable (hFolds : g.FoldsOver t f u x)
include hFolds

/- What a filter of results is made of. -/
theorem made_left
    (hValid : c.Valid rt)
    (hg : g ∈ c.made) :
    t ∈ c.made ∧ f ∈ c.made :=
  ⟨hValid.delegate hg hFolds.filters (by simp [Form.targets]),
    hValid.delegate hg hFolds.filters (by simp [Form.targets])⟩

/- What the fold is made of. -/
theorem made_right
    (hValid : c.Valid rt)
    (hx : x ∈ c.made) :
    t ∈ c.made ∧ u ∈ c.made ∧ f ∈ c.made := by
  have hu : u ∈ c.made :=
    hValid.delegate hx hFolds.folds (by simp [Form.targets])
  refine
    ⟨hValid.delegate hx hFolds.folds (by simp [Form.targets]), hu,
      ?_⟩
  cases hFolds.widens with
  | same _ hSame => exact hSame ▸ hu
  | node hForm =>
      exact hValid.delegate hu hForm List.mem_cons_self

/- The filter is called with as much as it takes. -/
theorem takes (v : Value) :
    (filterArgs t.ret v).length = f.count := by
  rw [filterArgs_length, ← hFolds.params_eq]
  rfl

variable (hChecking : rt.compile = .checking)
include hChecking

/- The stub of the widened filter counts what it is given. -/
theorem arity_eq
    (hValid : c.Valid rt)
    (hu : u ∈ c.made) :
    u.stub.arity = f.count + t.params.length := by
  rw [(hValid.serves u hu).arity_eq hChecking]
  change u.params.length = f.params.length + t.params.length
  rw [hFolds.widened_eq, List.length_append]

theorem stub_left
    (hValid : c.Valid rt)
    (hg : g ∈ c.made)
    (hCount : args.length = t.count) :
    args.length = g.stub.arity := by
  rw [(hValid.serves g hg).arity_eq hChecking, hCount]
  exact congrArg List.length hFolds.filtered_eq.symm

theorem stub_right
    (hValid : c.Valid rt)
    (hx : x ∈ c.made)
    (hCount : args.length = t.count) :
    args.length = x.stub.arity := by
  rw [(hValid.serves x hx).arity_eq hChecking, hFolds.signature_eq,
    hCount]
  exact congrArg List.length hFolds.filtered_eq.symm

variable (hHost : rt.host.MakesNoTargets)
include hHost

/- The fold comes to an end if the filter of results does. -/
theorem trackedBy :
    g.TrackedBy rt x := by
  refine ⟨hFolds.signature_eq, 1, 2, ?_⟩
  intro c d args n hc hd hg hx hCount
  have hArgs : args.length = t.count :=
    hCount.trans (congrArg List.length hFolds.filtered_eq)
  rcases hFolds.made_left hc hg with ⟨ht, hf⟩
  rcases hFolds.made_right hd hx with ⟨ht', hu, hf'⟩
  have hArity := hFolds.arity_eq hChecking hd hu
  apply Run.Tracks.node_left (hFolds.stub_left hChecking hc hg hArgs)
  apply
    Run.Tracks.node_right (hFolds.stub_right hChecking hd hx hArgs)
  rw [behave_filterReturn hFolds.filters,
    behave_fold hFolds.folds hArgs]
  refine
    .bind
      (.holding_right _
        (.enter hChecking hHost ht ht' (Nat.le_succ n) args))
      ?_
  intro c' d' hLe hLe' v
  exact
    (hFolds.widens.tracks hChecking hHost
      (Catalog.mem_of_le hLe hf) (Catalog.mem_of_le hLe' hf') hArity
      (hFolds.takes v) hArgs n).1

/- The filter of results comes to an end if the fold does. -/
theorem tracked_back :
    x.TrackedBy rt g := by
  refine ⟨hFolds.signature_eq.symm, 2, 2, ?_⟩
  intro d c args n hd hc hx hg hCount
  have hArgs : args.length = t.count := by
    rw [hCount]
    unfold count
    rw [hFolds.signature_eq]
    exact congrArg List.length hFolds.filtered_eq
  rcases hFolds.made_left hc hg with ⟨ht, hf⟩
  rcases hFolds.made_right hd hx with ⟨ht', hu, hf'⟩
  have hArity := hFolds.arity_eq hChecking hd hu
  apply
    Run.Tracks.node_left (hFolds.stub_right hChecking hd hx hArgs)
  apply Run.Tracks.node_right (hFolds.stub_left hChecking hc hg hArgs)
  rw [behave_filterReturn hFolds.filters,
    behave_fold hFolds.folds hArgs]
  refine
    .bind
      (.holding_left _
        (.enter hChecking hHost ht' ht (Nat.le_refl _) args))
      ?_
  intro d' c' hLe' hLe v
  exact
    (hFolds.widens.tracks hChecking hHost
      (Catalog.mem_of_le hLe' hf') (Catalog.mem_of_le hLe hf) hArity
      (hFolds.takes v) hArgs n).2

end FoldsOver

end Target

------------------------------------------------------------
-- Filters of Named Targets
------------------------------------------------------------

namespace Session

variable {s : Session}

/-
  A filter of results is a fold of the filter, made to ignore
  the parameters of the target, over the target.  Filter and
  fold are of one signature, and calls of them come to the
  same.  There must be slots for the result beside those of
  the parameters.
-/
theorem return_filter_folds
    (hFresh : s.IsFresh)
    (hChecking : s.context.runtime.compile = .checking)
    (hHost : s.context.runtime.host.MakesNoTargets)
    (xs : List Step)
    (hNamed : (s.after xs).context.Names t)
    (hFilter : (s.after xs).context.Names f)
    (hSlots : t.ret.slots + slotCount t.params ≤ maxSlots)
    {s₁ : State}
    (hOk :
      t.filterReturn s.context.runtime f (s.after xs).state =
        .ok g s₁) :
    let rt := s.context.runtime
    s₁.Lists rt [g] ∧
      ∀ r : State, r.Lists rt [g] →
        ∃ u r',
          f.dropArguments rt (if t.ret.IsVoid then 0 else 1)
              t.params r =
            .ok u r' ∧
          r'.Lists rt [g, u] ∧
          ∀ z : State, z.Lists rt [g, u] →
            ∃ x z',
              u.foldArguments rt t z = .ok x z' ∧
                z'.Lists rt [g, x] ∧
                x.signature = g.signature ∧
                ∀ q q' : State,
                  q.Same q' → q.Lists rt [g] → q'.Lists rt [x] →
                    g.CallsAlike rt q x q' := by
  intro rt
  rcases named_after hFresh hHost xs with ⟨c, _, hSound, hMade⟩
  rcases
    hSound.of_filterReturn hChecking (hMade t hNamed)
      (hMade f hFilter) hOk
    with ⟨hParams, hGrown, hg⟩
  have hCount : (if t.ret.IsVoid then 0 else 1) = f.count := by
    change _ = f.params.length
    rw [hParams]
    unfold Target.filterParams
    split
    · rfl
    · rfl
  have hFits : Admissible (f.params ++ t.params) := by
    refine ⟨?_, ?_⟩
    · intro p hp
      rcases List.mem_append.1 hp with hOwn | hRest
      · exact f.signature.admissible.noVoid p hOwn
      · exact t.signature.admissible.noVoid p hRest
    · rw [slotCount_append, hParams, slotCount_filterParams]
      exact hSlots
  refine
    ⟨⟨c.addNode g, hGrown.sound,
      List.forall_mem_singleton.2
        (Catalog.mem_addNode.2 (Or.inr rfl))⟩, ?_⟩
  intro r hLists
  have hDelegates :
      ∀ d : Catalog, d.Valid rt → g ∈ d.made →
        t ∈ d.made ∧ f ∈ d.made :=
    fun d hValid hMade =>
      ⟨hValid.delegate hMade hg.form_eq (by simp [Form.targets]),
        hValid.delegate hMade hg.form_eq (by simp [Form.targets])⟩
  rcases
    hLists.widen_ok
      (fun d hValid hMade => (hDelegates d hValid hMade).2)
      hChecking hFits
    with ⟨u, r', hDrop, hLists', hAll, hRet, hWidens⟩
  rw [hCount]
  refine ⟨u, r', hDrop, hLists', ?_⟩
  rintro z ⟨d, hNow, hMade⟩
  have hg' := hMade g (by simp)
  rcases
    hNow.foldArguments_ok hChecking (hMade u (by simp))
      (hDelegates d hNow.valid hg').1 (hParams ▸ hAll)
    with ⟨x, z', hFold, hGrown', hx, hLeft, hRet'⟩
  have hFiltered : g.params = t.params := by
    rw [Target.params, hg.signature_eq]
    rfl
  have hOwn : x.signature = g.signature := by
    apply Signature.eq_of_parts
    · exact hLeft.trans hFiltered.symm
    · have hHere : g.ret = f.ret := by
        rw [Target.ret, hg.signature_eq]
        rfl
      exact hRet'.trans (hRet.trans hHere.symm)
  refine ⟨x, z', hFold, hGrown'.lists_new hg', hOwn, ?_⟩
  intro q q' hSame hq hq'
  have hFolds : g.FoldsOver t f u x :=
    ⟨hg.form_eq, hx, hWidens, hParams, hAll, hFiltered, hOwn⟩
  have hOther : g.isVarargs = false := by
    unfold Target.isVarargs
    rw [hg.form_eq]
  have hPlain : x.isVarargs = false := by
    unfold Target.isVarargs
    rw [hx]
  exact
    Target.callsAlike_of_tracked (hFolds.trackedBy hChecking hHost)
      (hFolds.tracked_back hChecking hHost) hChecking hOther hPlain
      hSame hq hq'

/-
  Whether a named filter can be applied to a named target of
  few slots and folded over it, and seven comes of the filter
  afterwards.
-/
def filtersSeven
    (s : Session)
    (m n : String) : Bool :=
  let rt := s.context.runtime
  match s.context.names.targets.lookup m,
    s.context.names.targets.lookup n with
  | some t, some f =>
      decide (t.ret.slots + slotCount t.params ≤ maxSlots) &&
        match t.filterReturn rt f s.state with
        | .error _ _ => false
        | .ok g s₁ =>
            match
              f.dropArguments rt (if t.ret.IsVoid then 0 else 1)
                t.params s₁
            with
            | .error _ _ => false
            | .ok u r =>
                match u.foldArguments rt t r with
                | .error _ _ => false
                | .ok _ z =>
                    isSeven
                      ((Entry.way .exact).run rt 9 g sevenAndTwo z)
  | _, _ => false

/- The fold comes to seven, too. -/
theorem return_filter_folds_pair :
    ∃ t f g u x s₁ r z q,
      (plain.after pairs).context.Names t ∧
        (plain.after pairs).context.Names f ∧
        t.filterReturn plain.context.runtime f
          (plain.after pairs).state = .ok g s₁ ∧
        f.dropArguments plain.context.runtime
          (if t.ret.IsVoid then 0 else 1) t.params s₁ = .ok u r ∧
        u.foldArguments plain.context.runtime t r = .ok x z ∧
        (Entry.way .exact).ComesTo plain.context.runtime x
          sevenAndTwo z (.ok (.prim (.long 7)) q) := by
  have hCheck :
      filtersSeven (plain.after pairs) "pair" "same" = true := by
    decide +kernel
  unfold filtersSeven at hCheck
  rw [runtime_after] at hCheck
  dsimp only at hCheck
  split at hCheck
  · rename_i t f hTarget hFilter
    rw [Bool.and_eq_true, decide_eq_true_eq] at hCheck
    rcases hCheck with ⟨hSlots, hCheck⟩
    split at hCheck
    · cases hCheck
    · rename_i g s₁ hOk
      have hNamed := names_of_lookup hTarget
      have hNamed' := names_of_lookup hFilter
      have hHost := World.host_makesNoTargets (.initial .empty)
      rcases
        return_filter_folds plain_isFresh rfl hHost pairs hNamed
          hNamed' hSlots hOk
        with ⟨hLists, hFolds⟩
      rcases hFolds s₁ hLists with ⟨u, r, hDrop, hLists', hMade⟩
      rcases hMade r hLists' with ⟨x, z, hFold, hListed, _, hAlike⟩
      rw [hDrop] at hCheck
      dsimp only at hCheck
      rw [hFold] at hCheck
      rcases exists_of_isSeven hCheck with ⟨p, hRun⟩
      have hComes :
          (Entry.way .exact).ComesTo plain.context.runtime g
            sevenAndTwo z (.ok (.prim (.long 7)) p) :=
        ⟨nofun, 9, hRun⟩
      have hBoth :=
        hAlike z z (.refl z) (hListed.mono (by simp))
          (hListed.mono (by simp))
      rcases hBoth.exact hComes with ⟨_, hOther, hSame⟩
      cases hSame with
      | @ok _ _ q _ =>
          exact
            ⟨t, f, g, u, x, s₁, r, z, q, hNamed, hNamed', hOk,
              hDrop, hFold, hOther⟩
  · cases hCheck

/-
  A target that returns a wide integer and ignores as many
  numbers as leave it one slot, and a filter of its results.
-/
def wideFull : List Step :=
  [.make (.zero (.prim .long)) (some "zero"),
   .make
    (.dropArguments "zero" 0
      (.int :: List.replicate 126 (.prim .long)))
    (some "full"),
   .make (.identity (.prim .long)) (some "same")]

/-
  Whether a named target leaves a slot and a named filter of
  its results can be applied to it, but not be made to ignore
  its parameters.
-/
def filtersUnlessFolded
    (s : Session)
    (m n : String) : Bool :=
  let rt := s.context.runtime
  match s.context.names.targets.lookup m,
    s.context.names.targets.lookup n with
  | some t, some f =>
      decide (1 + slotCount t.params ≤ maxSlots) &&
        match t.filterReturn rt f s.state with
        | .error _ _ => false
        | .ok _ s₁ =>
            match
              f.dropArguments rt (if t.ret.IsVoid then 0 else 1)
                t.params s₁
            with
            | .error _ _ => true
            | .ok _ _ => false
  | _, _ => false

/- One slot is not enough for a result that takes two. -/
theorem return_filter_folds_wide :
    ∃ t f g s₁,
      (plain.after wideFull).context.Names t ∧
        (plain.after wideFull).context.Names f ∧
        1 + slotCount t.params ≤ maxSlots ∧
        t.filterReturn plain.context.runtime f
          (plain.after wideFull).state = .ok g s₁ ∧
        ¬∃ u r,
          f.dropArguments plain.context.runtime
              (if t.ret.IsVoid then 0 else 1) t.params s₁ =
            .ok u r := by
  have hCheck :
      filtersUnlessFolded (plain.after wideFull) "full" "same" =
        true := by
    decide +kernel
  unfold filtersUnlessFolded at hCheck
  rw [runtime_after] at hCheck
  dsimp only at hCheck
  split at hCheck
  · rename_i t f hTarget hFilter
    rw [Bool.and_eq_true, decide_eq_true_eq] at hCheck
    rcases hCheck with ⟨hSlots, hCheck⟩
    split at hCheck
    · cases hCheck
    · rename_i g s₁ hOk
      refine
        ⟨t, f, g, s₁, names_of_lookup hTarget,
          names_of_lookup hFilter, hSlots, hOk, ?_⟩
      rintro ⟨u, r, hDrop⟩
      rw [hDrop] at hCheck
      cases hCheck
  · cases hCheck

end Session

end Linkage
