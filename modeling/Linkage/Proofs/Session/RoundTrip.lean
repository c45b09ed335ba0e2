import Linkage.Proofs.Gaps.Returning
import Linkage.Proofs.Session.Sites

/-
  Retyping there and back.  A named target is retyped to a
  signature that takes boxes, or what they pass for, in place
  of primitive types; and what comes of it is retyped to the
  own signature again.  On arguments that match, it does what
  the target does: it makes the same calls of the host, and
  comes to the same result or failure.  There are only more
  boxes in the heap.

  Key definitions include:
    * `State.Knows`
    * `Target.Follows`
    * `Target.CallsRelate`
    * `Target.StandsFor`

  Key theorems include:
    * `State.Knows.exact_succ`
    * `State.Knows.asType`
    * `State.Knows.makes`
    * `State.Knows.buildKeyed_ok`
    * `Target.Follows.regains`
    * `Target.StandsFor.of_regains`
    * `Session.asType_roundTrip`
-/

------------------------------------------------------------
-- States that Know Targets
------------------------------------------------------------

namespace Linkage

variable {rt : Runtime}
variable {sig : Signature}
variable {t u w : Target}
variable {ts : List Target}
variable {args : List Value}
variable {s s' : State}

/-
  The state knows targets: what it holds was made in the
  runtime, of parts that fit, and they are among it.
-/
def State.Knows
    (rt : Runtime)
    (s : State)
    (ts : List Target) : Prop :=
  ∃ c, c.Fits rt ∧ s.Sound rt c ∧ ∀ t ∈ ts, t ∈ c.made

theorem State.Knows.mono
    {ts' : List Target}
    (hKnows : s.Knows rt ts)
    (hSub : ∀ t ∈ ts', t ∈ ts) :
    s.Knows rt ts' := by
  rcases hKnows with ⟨c, hFits, hSound, hMade⟩
  exact ⟨c, hFits, hSound, fun t ht => hMade t (hSub t ht)⟩

/- Nodes that are passed leave what is known. -/
theorem State.Knows.passed
    (hKnows : s.Knows rt ts)
    (t : Target)
    (args : List Value) :
    (s.passed (some t) args).Knows rt ts := by
  rcases hKnows with ⟨c, hFits, hSound, hMade⟩
  exact ⟨c, hFits, hSound.withTrace _, hMade⟩

/- So does another heap that has no other handles. -/
theorem State.Knows.withHeap
    {h : Heap}
    (hKnows : s.Knows rt ts)
    (hHandles :
      ∀ i t,
        h.at? i = some (.target t) →
          s.heap.at? i = some (.target t)) :
    State.Knows rt { s with heap := h } ts := by
  rcases hKnows with ⟨c, hFits, hSound, hMade⟩
  refine ⟨c, hFits, hSound.withHeap ?_, hMade⟩
  intro i t hAt
  exact hSound.handles i t (hHandles i t hAt)

/- An exact call with arguments that match runs the node. -/
theorem State.Knows.exact_succ
    (hKnows : s.Knows rt ts)
    (hChecking : rt.compile = .checking)
    (ht : t ∈ ts)
    (hAdmits : Target.admits rt.classes t.signature args = true)
    (n : Nat) :
    (Entry.way .exact).run rt (n + 1) t args s =
      t.behave rt (Target.enter rt n) args
        (s.passed (some t) args) := by
  rcases hKnows with ⟨c, _, hSound, hMade⟩
  have hArity :=
    (hSound.valid.serves t (hMade t ht)).arity_eq hChecking
  have hCount : args.length = t.stub.arity := by
    rw [hArity]
    exact Target.length_of_admits hAdmits
  change t.invokeExact rt (Target.enter rt (n + 1)) args s = _
  rw [Target.invokeExact_of_admits hAdmits,
    Target.enter_succ hCount,
    Run.bind_ok (Target.pass_eq (some t) args s)]

/-
  The second target is entered along a plan, which converts a
  call of its signature to one of the first target.
-/
def Target.Follows
    (rt : Runtime)
    (t u : Target) : Prop :=
  ∃ (p : Plan) (w : Wrapping),
    p.Converts rt.classes .implicit u.signature t.signature ∧
      ∀ n args, args.length = u.count →
        enter rt (n + w.depth) u args =
          t.followPlan rt p w (enter rt n) args

/- What is retyped is known, and follows a plan. -/
theorem State.Knows.asType
    (hChecking : rt.compile = .checking)
    (hKnows : s.Knows rt ts)
    (ht : t ∈ ts)
    (hOk : t.asType rt sig s = .ok u s') :
    s'.Knows rt (u :: ts) ∧ u.signature = sig ∧
      t.Follows rt u := by
  rcases hKnows with ⟨c, hFits, hSound, hMade⟩
  have hMakes : Makes rt (fun _ _ _ => True) c (t.asType rt sig) _ :=
    .asType (hMade t ht)
  have hLeaves := hMakes s ⟨hFits, hSound, trivial⟩
  rw [hOk] at hLeaves
  rcases hLeaves with ⟨d, hd, hKnown, hu, hSig, _⟩
  refine ⟨⟨d, hKnown.fits, hKnown.sound, ?_⟩, hSig, ?_⟩
  · refine List.forall_mem_cons.2 ⟨hu, ?_⟩
    intro x hx
    exact Catalog.mem_of_le hd (hMade x hx)
  · rcases hSound.of_asType hChecking (hMade t ht) hOk with
      ⟨p, d', hPlan, hGrown, hu', hConverted⟩
    rcases
      hConverted.enter_follows hGrown.sound.valid hChecking hu' hPlan
      with ⟨w, _, _, hFollows⟩
    unfold Target.Follows Target.count
    rw [hSig]
    exact ⟨p, w, planSignature_eq_ok_iff.1 hPlan, hFollows⟩

/- What is made of nothing is known, and nothing is stored. -/
theorem State.Knows.makes
    {m : Link Target}
    (hKnows : s.Knows rt ts)
    (hMakes :
      ∀ c : Catalog,
        Makes rt (fun h _ _ => h = s.heap) c m
          (fun d u => u ∈ d.made))
    (hRun : m s = .ok u s') :
    s'.Knows rt (u :: ts) ∧ s'.heap = s.heap := by
  rcases hKnows with ⟨c, hFits, hSound, hMade⟩
  have hLeaves := hMakes c s ⟨hFits, hSound, rfl⟩
  rw [hRun] at hLeaves
  rcases hLeaves with ⟨d, hd, hKnown, hu⟩
  refine ⟨⟨d, hKnown.fits, hKnown.sound, ?_⟩, hKnown.around⟩
  refine List.forall_mem_cons.2 ⟨hu, fun v hv => ?_⟩
  exact Catalog.mem_of_le hd (hMade v hv)

/-
  A node of known targets is made by an operation that comes
  down to building it.
-/
theorem State.Knows.buildKeyed_ok
    {m : Link Target}
    {form : Form Target}
    {exact : SlotRange}
    {extra : Option Stub.Extra}
    (hKnows : s.Knows rt ts)
    (hChecking : rt.compile = .checking)
    (hBuild : m s = Target.buildKeyed rt sig form exact extra s)
    (hTargets : ∀ u ∈ form.targets, u ∈ ts)
    (hExact : exact.Suits sig)
    (hMakes :
      ∀ c : Catalog, (∀ u ∈ ts, u ∈ c.made) →
        Makes rt (fun _ _ _ => True) c m (fun d u => u ∈ d.made)) :
    ∃ x s',
      m s = .ok x s' ∧ s'.Knows rt (x :: ts) ∧
        x.form = form ∧ x.signature = sig := by
  rcases hKnows with ⟨c, hFits, hSound, hMade⟩
  rcases
    hSound.buildKeyed_ok hChecking sig extra
      (fun u hu => hMade u (hTargets u hu)) hExact
    with ⟨x, s', hRun, _, hSig, hForm, _⟩
  rw [← hBuild] at hRun
  have hLeaves := hMakes c hMade s ⟨hFits, hSound, trivial⟩
  rw [hRun] at hLeaves
  rcases hLeaves with ⟨d, hd, hKnown, hx⟩
  refine
    ⟨x, s', hRun, ⟨d, hKnown.fits, hKnown.sound, ?_⟩, hForm, hSig⟩
  refine List.forall_mem_cons.2 ⟨hx, fun u hu => ?_⟩
  exact Catalog.mem_of_le hd (hMade u hu)

/-
  So is a target that is built of a list of parameters, and
  of a form that holds no other targets.
-/
theorem State.Knows.elementary_ok
    {m : Link Target}
    {form : Form Target}
    {ps : List Ty}
    {ret : Ty}
    (hKnows : s.Knows rt ts)
    (hChecking : rt.compile = .checking)
    (hAdmissible : Admissible ps)
    (hBuild :
      m s =
        (do
          let sig ← Link.ofSignature (Signature.build ret ps)
          Target.build rt sig form : Link Target) s)
    (hTargets : form.targets = [])
    (hMakes :
      ∀ c : Catalog,
        Makes rt (fun _ _ _ => True) c m (fun d u => u ∈ d.made)) :
    ∃ x s',
      m s = .ok x s' ∧ s'.Knows rt (x :: ts) ∧
        x.form = form ∧ x.params = ps ∧ x.ret = ret := by
  rw [Signature.build_of_admissible ret hAdmissible] at hBuild
  have hNone : ∀ u ∈ form.targets, u ∈ ts := by
    rw [hTargets]
    exact List.forall_mem_nil _
  rcases
    hKnows.buildKeyed_ok hChecking hBuild hNone (Or.inl rfl)
      (fun c _ => hMakes c)
    with ⟨x, s', hRun, hLater, hForm, hSig⟩
  refine ⟨x, s', hRun, hLater, hForm, ?_, ?_⟩
  · rw [Target.params, hSig]
  · rw [Target.ret, hSig]

------------------------------------------------------------
-- Targets in Place of Others
------------------------------------------------------------

/-
  In whatever ways the two targets are called, the one call
  comes to an end if the other does, and their ends are
  related.
-/
def Target.CallsRelate
    (rt : Runtime)
    (args : List Value)
    (R :
      EStateM.Result Halt State Value →
        EStateM.Result Halt State Value → Prop)
    (t : Target)
    (s : State)
    (w : Target)
    (s' : State) : Prop :=
  ∀ e e' : Entry, e.Suits t args → e'.Suits w args →
    ((∃ r, e.ComesTo rt t args s r) ↔
        ∃ r, e'.ComesTo rt w args s' r) ∧
      ∀ r r',
        e.ComesTo rt t args s r →
          e'.ComesTo rt w args s' r' → R r r'

/-
  The second target stands for the first one on arguments that
  match: its calls come to the same ends as those of the first
  one with the boxes of its arguments in the heap.  Where
  nothing refers to what is not in the heap, they come to the
  same ends as those without the boxes, too, but for the
  numbers of later objects.  A result has to be a value of its
  type, unless it is not converted.
-/
structure Target.StandsFor
    (rt : Runtime)
    (b : Ty)
    (args : List Value)
    (k : Nat)
    (s : State)
    (t w : Target) : Prop where
  plus :
    CallsRelate rt args
      (fun r r' =>
        Run.Fair rt.classes t.ret b r →
          ∃ n, n ≤ 1 ∧ Run.SamePlus n r r')
      t { s with heap := s.heap.plus k } w s
  besides :
    ∀ m, rt.host.Uniform m → m ≤ s.heap.size → s.Houses t args →
      CallsRelate rt args
        (fun r r' =>
          Run.Fair rt.classes t.ret b r →
            ∃ n, n ≤ 1 ∧ Run.Besides ⟨s.heap.size, k⟩ n s r r')
        t s w s

/-
  A call of the target that comes back regains what a call of
  the first one comes to with the boxes of its arguments.
-/
theorem Target.Follows.regains
    (hChecking : rt.compile = .checking)
    (hHost : rt.host.MakesNoTargets)
    (hKeeps : rt.classes.KeepsWellKnown)
    (hLoosens : u.signature.Loosens t.signature)
    (hThere : t.Follows rt u)
    (hBack : u.Follows rt w)
    (hSig : w.signature = t.signature)
    (hAdmits : admits rt.classes t.signature args = true) :
    ∃ k, ∀ s : State,
      s.Knows rt [t, w] →
        CallsRelate rt args (Run.Regains rt.classes t.ret u.ret) t
          { s with heap := s.heap.plus k } w s := by
  rcases hThere with ⟨p, x, hConverts, hFollows⟩
  rcases hBack with ⟨q, y, hConverts', hFollows'⟩
  unfold count at hFollows'
  rw [hSig] at hConverts' hFollows'
  rcases
    enter_back hChecking hHost hKeeps hLoosens hConverts hConverts'
      hFollows hFollows' hAdmits
    with ⟨k, hRegains⟩
  refine ⟨k, ?_⟩
  rintro s ⟨c, hFits, hSound, hMade⟩ e e' hSuits hSuits'
  have ht := hMade t (by simp)
  have hw := hMade w (by simp)
  have hLists : s.Lists rt [t] :=
    ⟨c, hSound, List.forall_mem_singleton.2 ht⟩
  rcases
    Entry.run_enters hChecking hHost hFits (hSound.plus k) ht
      hAdmits hSuits
    with ⟨i, j, hEnters⟩
  rcases
    Entry.run_enters hChecking hHost hFits hSound hw
      (hSig ▸ hAdmits) hSuits'
    with ⟨i', j', hEnters'⟩
  apply
    Entry.comesTo_of_related (j := i' + j)
      (k := i + x.depth + y.depth + j')
      (fun _ _ hOut => hOut.ended_iff)
  intro n
  have hLeft := hEnters (n + i')
  have hRight := hEnters' (n + i + x.depth + y.depth)
  have hHere := hRegains s (n + i' + i) hLists
  have hDepth :
      n + i' + i + x.depth + y.depth =
        n + i + x.depth + y.depth + i' := by
    omega
  rw [hDepth] at hHere
  have hBoth := Run.Regains.congr hLeft.symm hHere hRight
  simp only [Nat.add_assoc] at hBoth ⊢
  exact hBoth

/-
  If so, it stands for the first one: the boxes are nobody's,
  and without them the first one does the same.
-/
theorem Target.StandsFor.of_regains
    {b : Ty}
    {k : Nat}
    (hChecking : rt.compile = .checking)
    (hHost : rt.host.MakesNoTargets)
    (hAdmits : admits rt.classes t.signature args = true)
    (hKnows : s.Knows rt [t])
    (hRegains :
      CallsRelate rt args (Run.Regains rt.classes t.ret b) t
        { s with heap := s.heap.plus k } w s) :
    t.StandsFor rt b args k s w where
  plus := by
    intro e e' hSuits hSuits'
    rcases hRegains e e' hSuits hSuits' with ⟨hEnds, hOutcomes⟩
    exact
      ⟨hEnds, fun r r' hComes hComes' =>
        (hOutcomes r r' hComes hComes').same⟩
  besides := by
    intro m hUniform hFrom hHouses e e' hSuits hSuits'
    rcases hKnows with ⟨c, hFits, hSound, hMade⟩
    rcases hRegains e e' hSuits hSuits' with ⟨hEnds, hOutcomes⟩
    rcases
      Entry.comesTo_besides hChecking hHost hUniform hFrom hFits
        hSound (hMade t List.mem_cons_self) hHouses hAdmits hSuits k
      with ⟨hEnds', hOutcomes'⟩
    refine ⟨hEnds'.trans hEnds, ?_⟩
    intro r r' hComes hComes' hFair
    rcases hEnds'.1 ⟨r, hComes⟩ with ⟨r₀, hBetween⟩
    have hBesides := hOutcomes' r r₀ hComes hBetween
    rcases
      (hOutcomes r₀ r' hBetween hComes').same
        (hFair.besides hBesides)
      with ⟨n, hLe, hSame⟩
    exact ⟨n, hLe, hBesides.plus hSame⟩

------------------------------------------------------------
-- Round Trips of Named Targets
------------------------------------------------------------

namespace Session

variable {s : Session}
variable {s₁ : State}

/- After any steps, the state knows what is named. -/
theorem knows_after
    (hFresh : s.IsFresh)
    (hHost : s.context.runtime.host.MakesNoTargets)
    (xs : List Step)
    (hNamed : ∀ t ∈ ts, (s.after xs).context.Names t) :
    (s.after xs).state.Knows s.context.runtime ts := by
  rcases named_after hFresh hHost xs with ⟨c, hFits, hSound, hMade⟩
  exact ⟨c, hFits, hSound, fun t ht => hMade t (hNamed t ht)⟩

/-
  A named target that was retyped to a looser signature and
  back.  In any state that knows the two, the target that
  comes back stands for the named one on all arguments that
  match.
-/
theorem asType_roundTrip
    (hFresh : s.IsFresh)
    (hChecking : s.context.runtime.compile = .checking)
    (hHost : s.context.runtime.host.MakesNoTargets)
    (hKeeps : s.context.runtime.classes.KeepsWellKnown)
    (xs : List Step)
    (hNamed : (s.after xs).context.Names t)
    (hLoosens : sig.Loosens t.signature)
    (hOk :
      t.asType s.context.runtime sig (s.after xs).state =
        .ok u s₁) :
    let rt := s.context.runtime
    s₁.Knows rt [u, t] ∧
      ∀ r w r',
        r.Knows rt [u, t] →
          u.asType rt t.signature r = .ok w r' →
            r'.Knows rt [w, u, t] ∧
              w.signature = t.signature ∧
              ∀ args,
                Target.admits rt.classes t.signature args = true →
                  ∃ k, ∀ q : State,
                    q.Knows rt [t, w] →
                      t.StandsFor rt sig.ret args k q w := by
  intro rt
  rcases listed_after hFresh hHost xs with ⟨c, hListed⟩
  have hFits := hListed.known.fits
  have hSound := hListed.known.sound
  rw [runtime_after] at hFits hSound
  have hBefore : (s.after xs).state.Knows rt [t] :=
    ⟨c, hFits, hSound,
      List.forall_mem_singleton.2 (hListed.names t hNamed)⟩
  rcases hBefore.asType hChecking List.mem_cons_self hOk with
    ⟨hAfter, hSig, hThere⟩
  refine ⟨hAfter, fun r w r' hKnows hOk' => ?_⟩
  rcases hKnows.asType hChecking List.mem_cons_self hOk' with
    ⟨hAfter', hSig', hBack⟩
  refine ⟨hAfter', hSig', fun args hAdmits => ?_⟩
  have hRet : u.ret = sig.ret := congrArg Signature.ret hSig
  rw [← hSig] at hLoosens
  rw [← hRet]
  rcases
    Target.Follows.regains hChecking hHost hKeeps hLoosens hThere
      hBack hSig' hAdmits
    with ⟨k, hRegains⟩
  refine ⟨k, fun q hNow => ?_⟩
  exact
    Target.StandsFor.of_regains hChecking hHost hAdmits
      (hNow.mono (by simp)) (hRegains q hNow)

/-
  A check of a named target, of what comes back when it was
  retyped, and of the state after that.
-/
def checksBack
    (s : Session)
    (n : String)
    (sig : Signature)
    (p : Target → Target → State → Bool) : Bool :=
  match s.context.names.targets.lookup n with
  | none => false
  | some t =>
      match t.asType s.context.runtime sig s.state with
      | .error _ _ => false
      | .ok u s₁ =>
          match u.asType s.context.runtime t.signature s₁ with
          | .error _ _ => false
          | .ok w s₂ => p t w s₂

theorem exists_of_checksBack
    {n : String}
    {p : Target → Target → State → Bool}
    (hChecks : s.checksBack n sig p = true) :
    ∃ t u w s₁ s₂,
      s.context.Names t ∧
        t.asType s.context.runtime sig s.state = .ok u s₁ ∧
        u.asType s.context.runtime t.signature s₁ = .ok w s₂ ∧
        p t w s₂ = true := by
  unfold checksBack at hChecks
  split at hChecks
  · cases hChecks
  · rename_i t hLookup
    split at hChecks
    · cases hChecks
    · rename_i u s₁ hOk
      split at hChecks
      · cases hChecks
      · rename_i w s₂ hOk'
        exact
          ⟨t, u, w, s₁, s₂, names_of_lookup hLookup, hOk, hOk',
            hChecks⟩

instance (sig own : Signature) : Decidable (sig.Loosens own) :=
  decidable_of_iff
    ((∀ t ∈ own.params.zip sig.params,
        t.1 ≠ t.2 → t.1.IsPrim = true) ∧
      (own.ret ≠ sig.ret → own.ret.IsPrim = true) ∧
      (sig.ret = .void → own.ret = .void))
    ⟨fun h => ⟨h.1, h.2.1, h.2.2⟩, fun h => ⟨h.1, h.2, h.3⟩⟩

/- Whether a run gives a value. -/
def gives
    (v : Value) : EStateM.Result Halt State Value → Bool
| .ok a _ => a = v
| .error _ _ => false

theorem exists_of_gives
    {v : Value}
    {r : EStateM.Result Halt State Value}
    (hGives : gives v r = true) :
    ∃ q, r = .ok v q := by
  unfold gives at hGives
  split at hGives
  · cases of_decide_eq_true hGives
    exact ⟨_, rfl⟩
  · cases hGives

/- An object in, and a box out. -/
def boxOfObject : Signature :=
  ⟨[.object], .cls Kind.int.box, admissible_object⟩

/- What is in no heap, and holds nothing, is in any heap. -/
theorem houses_of_empty
    {r : State}
    (hHeap : r.heap.size = 0)
    (hSites : r.sites.size = 0)
    (hValues : t.form.values = [])
    (hWrapped : t.wrapped = [])
    (hArgs : ∀ v ∈ args, v.object? = none) :
    r.Houses t args where
  grounded := by
    constructor
    · intro i c hAt
      have hNone : r.heap.at? i = none :=
        Array.getElem?_eq_none
          (Nat.le_trans (Nat.le_of_eq hHeap) (Nat.zero_le i))
      rw [hNone] at hAt
      cases hAt
    · intro i x hSite
      have hNone : r.site? i = none :=
        Array.getElem?_eq_none
          (Nat.le_trans (Nat.le_of_eq hSites) (Nat.zero_le _))
      rw [hNone] at hSite
      cases hSite
  target := by
    constructor
    · rw [hValues]
      exact nofun
    · rw [hWrapped]
      exact nofun
  args := by
    rintro v hv o rfl
    cases hArgs _ hv

/-
  An integer goes into a target as an object, and comes out of
  it in a box.  After the way back it is an integer again.
-/
theorem asType_roundTrip_boxed :
    ∃ t u w s₁ s₂ r r' k n,
      (known.after identities).context.Names t ∧
        t.asType known.context.runtime boxOfObject
          (known.after identities).state = .ok u s₁ ∧
        u.asType known.context.runtime t.signature s₁ =
          .ok w s₂ ∧
        (Entry.way .exact).ComesTo known.context.runtime t
          [.prim (.int 5)] s₂ (.ok (.prim (.int 5)) r) ∧
        (Entry.way .exact).ComesTo known.context.runtime w
          [.prim (.int 5)] s₂ (.ok (.prim (.int 5)) r') ∧
        State.Besides ⟨s₂.heap.size, k⟩ n s₂ r r' := by
  have hCheck :
      (known.after identities).checksBack "int" boxOfObject
          (fun t w r =>
            boxOfObject.Loosens t.signature && t.ret = .int &&
              t.form.values.isEmpty && t.wrapped.isEmpty &&
              r.heap.size = 0 && r.sites.size = 0 &&
              Target.admits known.context.runtime.classes
                t.signature [.prim (.int 5)] &&
              gives (.prim (.int 5))
                ((Entry.way .exact).run known.context.runtime 9 t
                  [.prim (.int 5)] r)) =
        true := by
    decide +kernel
  rcases exists_of_checksBack hCheck with
    ⟨t, u, w, s₁, s₂, hNamed, hOk, hOk', hAll⟩
  rw [runtime_after] at hOk hOk'
  simp only [Bool.and_eq_true, decide_eq_true_eq] at hAll
  rcases hAll with
    ⟨⟨⟨⟨⟨⟨⟨hLoosens, hRet⟩, hValues⟩, hWrapped⟩, hHeap⟩, hSites⟩,
      hAdmits⟩, hGives⟩
  rcases exists_of_gives hGives with ⟨r, hRun⟩
  have hBelow : (World.initial .wellKnown).Below 0 := by
    refine ⟨Nat.le_refl 0, ?_, ?_⟩
    · exact nofun
    · exact nofun
  rcases
    asType_roundTrip known_isFresh rfl
      (World.host_makesNoTargets (.initial .wellKnown))
      (fun _ _ hFind => hFind) identities hNamed hLoosens hOk
    with ⟨hKnows, hBack⟩
  rcases hBack s₁ w s₂ hKnows hOk' with ⟨hKnows', _, hStands⟩
  have hHouses : s₂.Houses t [.prim (.int 5)] :=
    houses_of_empty hHeap hSites (List.isEmpty_iff.1 hValues)
      (List.isEmpty_iff.1 hWrapped) (by decide)
  have hComes :
      (Entry.way .exact).ComesTo known.context.runtime t
        [.prim (.int 5)] s₂ (.ok (.prim (.int 5)) r) :=
    ⟨nofun, 9, hRun⟩
  rcases hStands [.prim (.int 5)] hAdmits with ⟨k, hStand⟩
  rcases
    (hStand s₂ (hKnows'.mono (by simp))).besides 0
      (World.host_uniform hBelow) (Nat.zero_le _) hHouses
      (.way .exact) (.way .exact) ⟨trivial, nofun⟩ ⟨trivial, nofun⟩
    with ⟨hEnds, hOutcomes⟩
  rcases hEnds.1 ⟨_, hComes⟩ with ⟨q, hComes'⟩
  have hFair :
      Run.Fair known.context.runtime.classes t.ret
        boxOfObject.ret (.ok (.prim (.int 5)) r) := by
    intro _
    rw [hRet]
    rfl
  rcases hOutcomes _ _ hComes hComes' hFair with ⟨n, _, hBesides⟩
  cases hBesides with
  | @ok _ _ r' hState =>
      exact
        ⟨t, u, w, s₁, s₂, r, r', k, n, hNamed, hOk, hOk', hComes,
          hComes', hState⟩

/- A target of the elements of an array, which holds a text. -/
def readingWords : List Step :=
  [.letValue (.array .int [.text "x"]) (some "words"),
   .make (.arrayGetter (.array .int)) (some "get")]

/- The array, and the position of its element. -/
def firstWord : List Value :=
  [.ref ⟨1, .array .int⟩, .prim (.int 0)]

/- The elements of an array in boxes. -/
def boxOfElement : Signature :=
  ⟨[.array .int, .int], .cls Kind.int.box, ⟨by decide, by decide⟩⟩

/-
  Elements of arrays are not checked.  A text that is read
  from an array of integers is no integer, and it is refused
  on the way into a box.
-/
theorem asType_roundTrip_unchecked :
    known.context.runtime.classes.KeepsWellKnown ∧
      ∃ t u w s₁ s₂ r q,
        (known.after readingWords).context.Names t ∧
          boxOfElement.Loosens t.signature ∧
          t.asType known.context.runtime boxOfElement
            (known.after readingWords).state = .ok u s₁ ∧
          u.asType known.context.runtime t.signature s₁ =
            .ok w s₂ ∧
          Target.admits known.context.runtime.classes t.signature
            firstWord = true ∧
          (Entry.way .exact).ComesTo known.context.runtime t
            firstWord s₂ (.ok (.ref ⟨0, .text "x"⟩) r) ∧
          (Entry.way .exact).ComesTo known.context.runtime w
            firstWord s₂ q ∧
          isValue q = some false := by
  have hCheck :
      (known.after readingWords).checksBack "get" boxOfElement
          (fun t w r =>
            boxOfElement.Loosens t.signature &&
              Target.admits known.context.runtime.classes
                t.signature firstWord &&
              gives (.ref ⟨0, .text "x"⟩)
                ((Entry.way .exact).run known.context.runtime 9 t
                  firstWord r) &&
              isValue
                ((Entry.way .exact).run known.context.runtime 9 w
                  firstWord r) =
                some false) =
        true := by
    decide +kernel
  rcases exists_of_checksBack hCheck with
    ⟨t, u, w, s₁, s₂, hNamed, hOk, hOk', hAll⟩
  rw [runtime_after] at hOk hOk'
  simp only [Bool.and_eq_true, decide_eq_true_eq] at hAll
  rcases hAll with ⟨⟨⟨hLoosens, hAdmits⟩, hGives⟩, hFails⟩
  rcases exists_of_gives hGives with ⟨r, hRun⟩
  exact
    ⟨fun _ _ hFind => hFind, t, u, w, s₁, s₂, r, _, hNamed,
      hLoosens, hOk, hOk', hAdmits, ⟨nofun, 9, hRun⟩,
      ⟨ended_of_isValue hFails, 9, rfl⟩, hFails⟩

end Session

end Linkage
