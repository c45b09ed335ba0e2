import Linkage.Proofs.Session.FailFast
import Linkage.Proofs.Session.Gathering

/-
  Flexible calls of collectors of trailing arguments.  Which
  of four things such a call does is told by its arguments
  alone: with too few of them it is refused; with an array in
  the last place it is a call of the target; with arguments
  that convert to their slots, the trailing ones are gathered
  into a new array; and all others are refused.  A call that
  is refused enters nothing.

  Key definitions include:
    * `State.Untouched`
    * `Target.gather`
    * `Target.GathersAnew`
    * `Target.Gathered`
    * `Target.Mismatched`
    * `Target.Collects`

  Key theorems include:
    * `Run.newArray_fresh`
    * `Target.gathersAnew`
    * `Target.typed_refused`
    * `Target.typed_follows`
    * `Target.Collects.mismatched`
    * `Target.Collects.gathered`
    * `Session.varargs_gathers`
-/

------------------------------------------------------------
-- What Calls Come to
------------------------------------------------------------

namespace Linkage

variable {rt : Runtime}
variable {c d : Catalog}
variable {s s' s'' : State}
variable {t u v x : Target}
variable {component element : Ty}
variable {fixed : List Ty}
variable {args : List Value}
variable {p : Plan}
variable {k : Nat}

/- Nothing that a run can see has changed. -/
structure State.Untouched (s s' : State) : Prop where
  heap_eq : s'.heap = s.heap
  sites_eq : s'.sites = s.sites
  trace_eq : s'.trace = s.trace
  held_eq : s'.held = s.held

theorem State.Untouched.refl (s : State) : s.Untouched s :=
  ⟨rfl, rfl, rfl, rfl⟩

theorem State.Untouched.trans
    (hFirst : s.Untouched s')
    (hSecond : s'.Untouched s'') :
    s.Untouched s'' where
  heap_eq := hSecond.heap_eq.trans hFirst.heap_eq
  sites_eq := hSecond.sites_eq.trans hFirst.sites_eq
  trace_eq := hSecond.trace_eq.trans hFirst.trace_eq
  held_eq := hSecond.held_eq.trans hFirst.held_eq

/- Nodes that are made while something is held are not seen. -/
theorem State.Grown.untouched
    {hs : List Root}
    (hGrown : State.Grown rt c { s with held := hs } d s')
    (rs : List Root) :
    State.Untouched { s with held := rs } { s' with held := rs } :=
  ⟨hGrown.heap_eq, hGrown.sites_eq, hGrown.trace_eq, rfl⟩

/- Runs that come to the same do so with roots held besides. -/
theorem Run.holding_congr
    {m m' : Run Value}
    {rs rs' : List Root}
    (hRun :
      m { s with held := rs ++ s.held } =
        m' { s' with held := rs' ++ s'.held })
    (hHeld : s.held = s'.held) :
    Run.holding rs m s = Run.holding rs' m' s' := by
  unfold holding
  rw [hRun, hHeld]

/- A new array is one that the heap gains. -/
theorem Run.newArray_fresh
    (component : Ty)
    (vs : List Value)
    (s : State) :
    ∃ o h,
      Run.newArray component vs s = .ok o { s with heap := h } ∧
        s.heap.GainsArray component vs o h :=
  ⟨_, _, rfl, s.heap.gainsArray_allocArray component vs⟩

namespace Target

/-
  Convert the arguments one by one, put those after the first
  `k` into a new array, and enter the target once.  The nodes
  of a retyping and the collector are passed on the way.
-/
def gather
    (T : ClassTable)
    (cs : List Conversion)
    (w : Wrapping)
    (t collector : Target)
    (component : Ty)
    (k : Nat)
    (enter : Enter)
    (args : List Value) : Run Value := do
  pass w.outer args
  let vs ← Run.convertEach T cs args
  pass w.inner vs
  pass (some collector) vs
  let o ← Run.newArray component (vs.drop k)
  enter t (vs.take k ++ [.ref o])

/-
  What gathering comes to in a state.  The first conversion
  that fails is the end of it.  If none fails, the target is
  entered with the first `k` of the values that they give, and
  with an array that was not there before, which has the other
  ones as its elements.
-/
structure GathersAnew
    (T : ClassTable)
    (cs : List Conversion)
    (w : Wrapping)
    (t collector : Target)
    (component : Ty)
    (k : Nat)
    (args : List Value)
    (q : State) : Prop where
  fails :
    ∀ e r,
      Run.convertEach T cs args (q.passed w.outer args) =
          .error e r →
        ∀ enter : Enter,
          t.gather T cs w collector component k enter args q =
            .error e r
  enters :
    ∀ vs r,
      Run.convertEach T cs args (q.passed w.outer args) =
          .ok vs r →
        ∃ o h,
          r.heap.GainsArray component (vs.drop k) o h ∧
            ∀ enter : Enter,
              t.gather T cs w collector component k enter args q =
                enter t (vs.take k ++ [.ref o])
                  { (r.passed w.inner vs).passed (some collector)
                      vs with
                    heap := h }

theorem gathersAnew
    (T : ClassTable)
    (cs : List Conversion)
    (w : Wrapping)
    (t collector : Target)
    (component : Ty)
    (k : Nat)
    (args : List Value)
    (q : State) :
    t.GathersAnew T cs w collector component k args q where
  fails := by
    intro e r hFails enter
    unfold gather
    rw [Run.bind_ok (pass_eq w.outer args q),
      Run.bind_error hFails]
  enters := by
    intro vs r hGives
    let r' := (r.passed w.inner vs).passed (some collector) vs
    have hHeap : r'.heap = r.heap :=
      (State.heap_passed _ _ _).trans (State.heap_passed _ _ _)
    rcases Run.newArray_fresh component (vs.drop k) r' with
      ⟨o, h, hNew, hGains⟩
    rw [hHeap] at hGains
    refine ⟨o, h, hGains, fun enter => ?_⟩
    unfold gather
    rw [Run.bind_ok (pass_eq w.outer args q), Run.bind_ok hGives,
      Run.bind_ok (pass_eq w.inner vs r),
      Run.bind_ok (pass_eq (some collector) vs _),
      Run.bind_ok hNew]

/-
  A call gathers arguments and enters a target with them.  The
  target is none of the nodes that are passed on the way, and
  it gets an array that was not there before.
-/
def Gathered
    (rt : Runtime)
    (v t : Target)
    (fixed : List Ty)
    (component : Ty)
    (args : List Value)
    (s : State) : Prop :=
  ∃ (cs : List Conversion) (x : Target) (w : Wrapping)
    (rs : List Root) (s' : State),
    Brings rt.classes (slotsFor fixed component args.length) args
        cs ∧
      x.form =
        .collect t component (args.length - fixed.length) ∧
      t ∉ x :: w.nodes ∧
      s.Untouched s' ∧
      t.GathersAnew rt.classes cs w x component fixed.length args
        { s' with held := rs ++ s'.held } ∧
      ∀ n,
        v.invokeFlexibly rt (enter rt (n + 1 + w.depth)) args s =
          Run.holding rs
            (t.gather rt.classes cs w x component fixed.length
              (enter rt n) args)
            s'

/- A call is refused before anything is entered. -/
def Mismatched
    (rt : Runtime)
    (v : Target)
    (args : List Value)
    (s : State) : Prop :=
  ∃ (expected found : String) (s' : State),
    s.Untouched s' ∧
      ∀ enter : Enter,
        v.invokeFlexibly rt enter args s =
          .error (.fault (.typeMismatch expected found)) s'

------------------------------------------------------------
-- Calls of Collectors
------------------------------------------------------------

/- A call goes on with what its target was adapted to. -/
theorem invokeFlexibly_adapted
    (hAdapted :
      v.arityAdapted rt args
          { s with held := rootsOf args ++ s.held } =
        .ok x s')
    (enter : Enter) :
    v.invokeFlexibly rt enter args s =
      Run.holding [.target x]
        (do
          let sig ← x.callType args
          x.invokeTyped rt enter sig args)
        { s' with held := s.held } := by
  unfold invokeFlexibly
  rw [Run.bind_ok (Run.holding_ok hAdapted)]

theorem mismatched_of_unadapted
    {f : Signature}
    (hAdapted :
      v.arityAdapted rt args
          { s with held := rootsOf args ++ s.held } =
        .error (.fault (.arguments f args))
          { s with held := rootsOf args ++ s.held }) :
    v.Mismatched rt args s := by
  refine ⟨f.text, Fault.argumentsText args, s, .refl s, ?_⟩
  intro enter
  unfold invokeFlexibly
  rw [Run.bind_error (Run.holding_error s hAdapted)]
  rfl

/-
  Arguments of the right number that give no call type, or
  one without a plan, are refused.
-/
theorem typed_refused
    (hChecking : rt.compile = .checking)
    (hSound : s.Sound rt c)
    (hx : x ∈ c.made)
    (hLength : args.length = x.params.length)
    (hNot : ¬Gathers rt.classes x.params args) :
    ∃ found, ∀ enter : Enter,
      (do
        let sig ← x.callType args
        x.invokeTyped rt enter sig args) s =
          .error
            (.fault (.typeMismatch x.signature.text found)) s := by
  by_cases hTypes :
      Admissible (List.zipWith slotType args x.params)
  · rw [callType_eq hLength hTypes]
    simp only [pure_bind]
    cases hPlan :
        planSignature rt.classes ⟨_, x.ret, hTypes⟩ x.signature
          .implicit with
    | ok p =>
        rcases exists_plan_iff.1 ⟨p, hPlan⟩ with ⟨_, hConvert, _⟩
        exact
          absurd
            ((gathers_iff hLength).2
              ⟨x.signature.admissible, hTypes, hConvert⟩)
            hNot
    | error e =>
        exact
          ⟨_, fun enter =>
            invokeTyped_refused hChecking hSound hx hPlan enter⟩
  · rw [callType_refused hTypes]
    exact ⟨Fault.argumentsText args, fun enter => rfl⟩

/- All others are converted as their types tell. -/
theorem typed_follows
    (hChecking : rt.compile = .checking)
    (hSound : s.Sound rt c)
    (hx : x ∈ c.made)
    (hLength : args.length = x.params.length)
    (hGathers : Gathers rt.classes x.params args) :
    ∃ (p : Plan) (w : Wrapping) (y : Target) (d : Catalog)
      (s' : State),
      p.ret = .identity ∧ Brings rt.classes x.params args p.params ∧
        State.Grown rt c
          { s with held := rootsOf args ++ s.held } d s' ∧
        (∀ y ∈ w.nodes, sizeOf x < sizeOf y) ∧
        ∀ n,
          (do
            let sig ← x.callType args
            x.invokeTyped rt (enter rt (n + w.depth)) sig args) s =
              Run.holding [.target y]
                (x.followPlan rt p w (enter rt n) args)
                { s' with held := s.held } := by
  rcases (gathers_iff hLength).1 hGathers with
    ⟨hSlots, hTypes, hConvert⟩
  have hConform := Value.slotTypes_conform rt.classes hLength
  let sig : Signature := ⟨_, x.ret, hTypes⟩
  have hConvertible :
      sig.Convertible rt.classes .implicit x.signature :=
    ⟨hConform.length_eq.symm.trans hLength, hConvert, _,
      classify_self rt.classes x.ret .implicit⟩
  rcases exists_plan_iff.2 hConvertible with ⟨p, hPlan⟩
  have hConverts := planSignature_eq_ok_iff.1 hPlan
  have hRet : p.ret = .identity := by
    have hClass :
        classify rt.classes x.ret x.ret .implicit = some p.ret :=
      hConverts.ret
    rw [classify_self] at hClass
    exact (Option.some.inj hClass).symm
  have hBrings : Brings rt.classes x.params args p.params :=
    brings_of_plan hLength hSlots hConverts.params
  have hAdmits : admits rt.classes sig args = true :=
    admits_iff.2 hConform
  rcases invokeTyped_follows hChecking hSound hx hPlan hAdmits with
    ⟨w, y, d, s', hGrown, hLarger, hRun⟩
  refine ⟨p, w, y, d, s', hRet, hBrings, hGrown, hLarger, ?_⟩
  intro n
  rw [callType_eq hLength hTypes, pure_bind]
  exact hRun n

/- A plan for a collector gathers what it has converted. -/
theorem followPlan_collects
    {w : Wrapping}
    (hForm : x.form = .collect t component (args.length - k))
    (hArity : x.stub.arity = args.length)
    (hEnough : k ≤ args.length)
    (hRet : p.ret = .identity)
    (hCount : p.params.length = args.length)
    (n : Nat) :
    x.followPlan rt p w (enter rt (n + 1)) args =
      t.gather rt.classes p.params w x component k (enter rt n)
        args := by
  have hEnter :
      ∀ vs : List Value, vs.length = args.length →
        (do
          let v ← enter rt (n + 1) x vs
          Run.onHeap (p.ret.apply rt.classes v)) =
          (do
            pass (some x) vs
            let o ← Run.newArray component (vs.drop k)
            enter rt n t (vs.take k ++ [.ref o])) := by
    intro vs hLength
    rw [hRet]
    change enter rt (n + 1) x vs >>= pure = _
    have hStart : vs.length - (args.length - k) = k := by omega
    rw [bind_pure, enter_collect hForm (hLength.trans hArity.symm)
      (by omega), hStart]
  unfold followPlan gather
  congr 1
  funext _ r
  apply Run.bind_congr
  intro vs r' hOk
  have hLength := Run.length_of_convertEach hOk
  rw [hCount, Nat.min_self] at hLength
  rw [hEnter vs hLength]

------------------------------------------------------------
-- Collectors and Their Outcomes
------------------------------------------------------------

/- A collector of trailing arguments and what it delegates to. -/
structure Collects
    (T : ClassTable)
    (v t : Target)
    (fixed : List Ty)
    (component element : Ty) : Prop where
  form_eq : v.form = .varargs t (.array component)
  plain : t.isVarargs = false
  signature_eq : t.signature = v.signature
  params_eq : v.params = fixed ++ [.array element]
  array :
    T.isAssignable (.array component) (.array element) = true

/- Each collector of a catalog is one. -/
theorem collects_of_fits
    (hFits : c.Fits rt)
    (hv : v ∈ c.made)
    (hForm : v.form = .varargs t (.array component)) :
    ∃ fixed element,
      Collects rt.classes v t fixed component element := by
  have hNode := hFits v hv
  rw [hForm] at hNode
  cases hNode with
  | method _ _ _ _ _ hCalls => cases hCalls
  | varargs hPlain hTarget hParams hArray =>
      exact ⟨_, _, hForm, hPlain, hTarget, hParams, hArray⟩

namespace Collects

variable (hCollects :
  Collects rt.classes v t fixed component element)
include hCollects

theorem target_params : t.params = fixed ++ [.array element] := by
  rw [← hCollects.params_eq]
  exact congrArg Signature.params hCollects.signature_eq

/- An array in the last place is passed on. -/
theorem passes
    (hPasses :
      PassesArray rt.classes fixed.length (.array element) args)
    (enter : Enter) :
    v.invokeFlexibly rt enter args s =
      t.invokeFlexibly rt enter args s := by
  unfold invokeFlexibly
  rw [arityAdapted_passed hCollects.form_eq hCollects.params_eq
    hPasses, arityAdapted_plain hCollects.plain]

/- With too few arguments there is nothing to call. -/
theorem few
    (hFew : args.length < fixed.length) :
    v.Mismatched rt args s := by
  apply mismatched_of_unadapted
  rw [arityAdapted_few hCollects.form_eq hCollects.params_eq hFew]
  rfl

section Enough

variable (hChecking : rt.compile = .checking)
variable (hSound : s.Sound rt c)
variable (ht : t ∈ c.made)
variable (hPasses :
  ¬PassesArray rt.classes fixed.length (.array element) args)
variable (hEnough : fixed.length ≤ args.length)
include hPasses hEnough

/- Without slots for the arguments the call is refused. -/
theorem unslotted
    (hSlots :
      ¬Admissible (slotsFor fixed component args.length)) :
    v.Mismatched rt args s := by
  apply mismatched_of_unadapted
  rcases
    asCollector_refused hCollects.target_params hCollects.array
      hSlots { s with held := rootsOf args ++ s.held }
    with ⟨e, hError⟩
  rw [arityAdapted_collects hCollects.form_eq hCollects.params_eq
    hPasses hEnough]
  unfold Run.ofLink
  rw [hError]

include hChecking hSound ht

/- With slots a collector is made and called in its place. -/
theorem slotted
    (hSlots : Admissible (slotsFor fixed component args.length)) :
    ∃ x s',
      State.Grown rt c
          { s with held := rootsOf args ++ s.held }
          (c.addNode x) s' ∧
        x.Is ⟨_, t.ret, hSlots⟩
          (.collect t component (args.length - fixed.length)) ∧
        ∀ enter : Enter,
          v.invokeFlexibly rt enter args s =
            Run.holding [.target x]
              (do
                let sig ← x.callType args
                x.invokeTyped rt enter sig args)
              { s' with held := s.held } := by
  rcases
    asCollector_made hChecking
      (hSound.withHeld (rootsOf args ++ s.held)) ht
      hCollects.target_params hCollects.array hSlots
    with ⟨x, s', hMade, hGrown, hIs⟩
  refine ⟨x, s', hGrown, hIs, ?_⟩
  apply invokeFlexibly_adapted
  rw [arityAdapted_collects hCollects.form_eq hCollects.params_eq
    hPasses hEnough]
  unfold Run.ofLink
  rw [hMade]

/-
  With slots for the arguments, but without a call type or a
  plan from it, the call is refused.
-/
theorem untyped
    (hSlots : Admissible (slotsFor fixed component args.length))
    (hNot :
      ¬Gathers rt.classes (slotsFor fixed component args.length)
        args) :
    v.Mismatched rt args s := by
  rcases
    hCollects.slotted hChecking hSound ht hPasses hEnough hSlots
    with ⟨x, s', hGrown, hIs, hRun⟩
  have hParams :
      slotsFor fixed component args.length = x.params :=
    congrArg Signature.params hIs.signature_eq.symm
  have hLength : args.length = x.params.length := by
    rw [← hParams, length_slotsFor hEnough]
  rw [hParams] at hNot
  rcases
    typed_refused hChecking
      (hGrown.sound.withHeld ([.target x] ++ s.held))
      (Catalog.mem_addNode.2 (Or.inr rfl)) hLength hNot
    with ⟨found, hRefused⟩
  refine
    ⟨x.signature.text, found, _, hGrown.untouched s.held, ?_⟩
  intro enter
  have hHeld :=
    Run.holding_error { s' with held := s.held } (hRefused enter)
  rw [hRun]
  exact hHeld

/- Arguments that can not be gathered are refused. -/
theorem mismatched
    (hNot :
      ¬Gathers rt.classes (slotsFor fixed component args.length)
        args) :
    v.Mismatched rt args s := by
  by_cases hSlots :
      Admissible (slotsFor fixed component args.length)
  · exact
      hCollects.untyped hChecking hSound ht hPasses hEnough hSlots
        hNot
  · exact hCollects.unslotted hPasses hEnough hSlots

/- Arguments that can be gathered are. -/
theorem gathered
    (hGathers :
      Gathers rt.classes (slotsFor fixed component args.length)
        args) :
    Gathered rt v t fixed component args s := by
  rcases
    hCollects.slotted hChecking hSound ht hPasses hEnough
      hGathers.collected
    with ⟨x, s', hGrown, hIs, hRun⟩
  have hParams :
      slotsFor fixed component args.length = x.params :=
    congrArg Signature.params hIs.signature_eq.symm
  have hLength : args.length = x.params.length := by
    rw [← hParams, length_slotsFor hEnough]
  have hx : x ∈ (c.addNode x).made :=
    Catalog.mem_addNode.2 (Or.inr rfl)
  have hArity : x.stub.arity = args.length :=
    ((hGrown.sound.valid.serves x hx).arity_eq hChecking).trans
      hLength.symm
  rw [hParams] at hGathers
  rcases
    typed_follows hChecking
      (hGrown.sound.withHeld ([.target x] ++ s.held)) hx hLength
      hGathers
    with
    ⟨p, w, y, d, s'', hRet, hBrings, hLater, hLarger, hFollows⟩
  have hUntouched : s.Untouched { s'' with held := s.held } :=
    (hGrown.untouched s.held).trans (hLater.untouched s.held)
  have hSize : sizeOf t < sizeOf x := by
    apply sizeOf_lt_node
    unfold wrapped
    rw [hIs.form_eq]
    exact List.mem_singleton.2 rfl
  have hOther : t ∉ x :: w.nodes := by
    intro hMem
    rcases List.mem_cons.1 hMem with rfl | hNode
    · exact Nat.lt_irrefl _ hSize
    · exact Nat.lt_asymm hSize (hLarger t hNode)
  rw [← hParams] at hBrings
  refine
    ⟨p.params, x, w, [.target y, .target x],
      { s'' with held := s.held }, hBrings, hIs.form_eq, hOther,
      hUntouched, gathersAnew .., ?_⟩
  intro n
  have hHeld :=
    Run.holding_holding { s' with held := s.held } s''
      (hFollows (n + 1))
  rw [hRun, ← followPlan_collects hIs.form_eq hArity hEnough hRet
    hBrings.length_eq n]
  exact hHeld

end Enough

end Collects

end Target

------------------------------------------------------------
-- Calls of Named Collectors
------------------------------------------------------------

namespace Session

variable {s : Session}

/-
  However a session went on, a flexible call of a collector
  is told by its arguments: it is refused, it is a call of
  the target, or it gathers.  There is an array parameter
  after the fixed ones, whose type may be wider than that of
  the arrays that are made.
-/
theorem varargs_gathers
    (hFresh : s.IsFresh)
    (hChecking : s.context.runtime.compile = .checking)
    (hHost : s.context.runtime.host.MakesNoTargets)
    (xs : List Step)
    (hNamed : (s.after xs).context.Names v)
    (hForm : v.form = .varargs t (.array component))
    (args : List Value)
    (held : List Root) :
    let rt := s.context.runtime
    let now :=
      { (s.after xs).state with trace := [], held := held }
    ∃ fixed last,
      v.params = fixed ++ [last] ∧
        rt.classes.isAssignable (.array component) last = true ∧
        t.signature = v.signature ∧
        let slots := Target.slotsFor fixed component args.length
        let passes :=
          Target.PassesArray rt.classes fixed.length last args
        (args.length < fixed.length → v.Mismatched rt args now) ∧
        (passes →
          ∀ enter : Enter,
            v.invokeFlexibly rt enter args now =
              t.invokeFlexibly rt enter args now) ∧
        (fixed.length ≤ args.length → ¬passes →
          Target.Gathers rt.classes slots args →
            Target.Gathered rt v t fixed component args now) ∧
        (fixed.length ≤ args.length → ¬passes →
          ¬Target.Gathers rt.classes slots args →
            v.Mismatched rt args now) := by
  intro rt now
  rcases listed_after hFresh hHost xs with ⟨c, hKnown, hNames⟩
  rw [runtime_after] at hKnown
  have hSound : now.Sound rt c :=
    (hKnown.sound.withTrace []).withHeld held
  have hv := hNames v hNamed
  have ht : t ∈ c.made := by
    apply hSound.valid.closed v hv
    unfold Target.wrapped
    rw [hForm]
    exact List.mem_singleton.2 rfl
  rcases Target.collects_of_fits hKnown.fits hv hForm with
    ⟨fixed, element, hCollects⟩
  refine
    ⟨fixed, .array element, hCollects.params_eq, hCollects.array,
      hCollects.signature_eq, ?_, ?_, ?_, ?_⟩
  · intro hFew
    exact hCollects.few hFew
  · intro hPasses enter
    exact hCollects.passes hPasses enter
  · intro hEnough hPasses hGathers
    exact
      hCollects.gathered hChecking hSound ht hPasses hEnough
        hGathers
  · intro hEnough hPasses hNot
    exact
      hCollects.mismatched hChecking hSound ht hPasses hEnough hNot

/- A collector of integers after a wide one. -/
def summing : List Step :=
  [.make (.identity (.array .int)) (some "same"),
   .make (.dropArguments "same" 0 [.prim .long]) (some "first"),
   .make (.asVarargsCollector "first" (.array .int)) (some "all")]

/- The numbers one, two and three. -/
def three : List Value :=
  [.prim (.int 1), .prim (.int 2), .prim (.int 3)]

/- What a target collects, and what it takes. -/
def collected (t : Target) : Option Ty × List Ty :=
  match t.form with
  | .varargs _ array => (some array, t.params)
  | _ => (none, t.params)

theorem three_gathers :
    Target.Gathers plain.context.runtime.classes
      [.prim .long, .int, .int] three := by
  refine
    (Target.gathers_iff rfl).2
      ⟨⟨by decide, by decide⟩, ⟨by decide, by decide⟩, ?_⟩
  refine ParamsConvert.cons_iff.2 ⟨⟨_, rfl⟩, ?_⟩
  refine ParamsConvert.cons_iff.2 ⟨⟨_, rfl⟩, ?_⟩
  exact ParamsConvert.cons_iff.2 ⟨⟨_, rfl⟩, .nil⟩

/- The first number is widened, and the others are kept. -/
theorem three_converted
    {cs : List Conversion}
    (hBrings :
      Target.Brings plain.context.runtime.classes
        [.prim .long, .int, .int] three cs)
    (s : State) :
    Run.convertEach plain.context.runtime.classes cs three s =
      .ok [.prim (.long 1), .prim (.int 2), .prim (.int 3)] s := by
  rcases List.length_eq_three.1 hBrings.length_eq with
    ⟨a, b, c, rfl⟩
  rcases hBrings.typed 0 _ _ _ rfl rfl rfl with ⟨_, ha, hWiden⟩
  rcases hBrings.typed 1 _ _ _ rfl rfl rfl with ⟨_, hb, hKeep⟩
  rcases hBrings.typed 2 _ _ _ rfl rfl rfl with ⟨_, hc, hKeep'⟩
  cases ha
  cases hb
  cases hc
  cases hWiden
  cases hKeep
  cases hKeep'
  rfl

/- So a call that gathers them makes an array of two. -/
theorem three_gathered
    {s : State}
    (hGathered :
      Target.Gathered plain.context.runtime v t [.prim .long] .int
        three s) :
    ∃ o q k,
      s.heap.GainsArray .int [.prim (.int 2), .prim (.int 3)] o
          q.heap ∧
        ∀ n,
          v.invokeFlexibly plain.context.runtime
              (Target.enter plain.context.runtime (n + k)) three s =
            Run.holding []
              (fun _ =>
                Target.enter plain.context.runtime n t
                  [.prim (.long 1), .ref o] q)
              s := by
  rcases hGathered with
    ⟨cs, x, w, rs, s', hBrings, _, _, hUntouched, hAnew, hRun⟩
  rcases hAnew.enters _ _ (three_converted hBrings _) with
    ⟨o, h, hGains, hEnters⟩
  have hState :
      ∃ q : State,
        q.heap = h ∧
          ∀ enter : Enter,
            t.gather plain.context.runtime.classes cs w x .int 1
                enter three { s' with held := rs ++ s'.held } =
              enter t [.prim (.long 1), .ref o] q :=
    ⟨_, rfl, hEnters⟩
  rcases hState with ⟨q, rfl, hCall⟩
  rw [State.heap_passed] at hGains
  rw [← hUntouched.heap_eq]
  refine ⟨o, q, 1 + w.depth, hGains, fun n => ?_⟩
  rw [← Nat.add_assoc, hRun n]
  exact Run.holding_congr (hCall _) hUntouched.held_eq

/-
  The first number is widened, and the two others go into a
  new array.
-/
theorem varargs_gathers_three :
    ∃ v t,
      (plain.after summing).context.Names v ∧
        v.form = .varargs t (.array .int) ∧
        let rt := plain.context.runtime
        let now :=
          { (plain.after summing).state with
            trace := [], held := [] }
        Target.Gathered rt v t [.prim .long] .int three now ∧
          ∃ o q k,
            now.heap.GainsArray .int
                [.prim (.int 2), .prim (.int 3)] o q.heap ∧
              ∀ n,
                v.invokeFlexibly rt (Target.enter rt (n + k)) three
                    now =
                  Run.holding []
                    (fun _ =>
                      Target.enter rt n t [.prim (.long 1), .ref o]
                        q)
                    now := by
  have hLast :
      (plain.after summing).context.names.targets.head?.map
          (fun p => collected p.2) =
        some (some (.array .int), [.prim .long, .array .int]) := by
    decide +kernel
  rcases Option.map_eq_some_iff.1 hLast with ⟨⟨n, v⟩, hHead, hEq⟩
  have hNamed : (plain.after summing).context.Names v :=
    ⟨n, List.mem_of_head? hHead⟩
  unfold collected at hEq
  split at hEq
  · rename_i t array hForm
    rcases Prod.mk.inj hEq with ⟨hArray, hTypes⟩
    cases hArray
    rcases
      varargs_gathers plain_isFresh rfl
        (World.host_makesNoTargets (.initial .empty)) summing
        hNamed hForm three []
      with ⟨fixed, last, hParams, _, _, _, _, hGathers, _⟩
    have hSplit : fixed ++ [last] = [.prim .long] ++ [.array .int] :=
      hParams.symm.trans hTypes
    rcases List.append_inj' hSplit rfl with ⟨rfl, _⟩
    have hTwo :
        ¬Target.PassesArray plain.context.runtime.classes 1 last
          three := by
      rintro ⟨hLength, _⟩
      cases hLength
    have hGathered := hGathers (by decide) hTwo three_gathers
    exact
      ⟨v, t, hNamed, hForm, hGathered, three_gathered hGathered⟩
  · cases hEq

end Session

end Linkage
