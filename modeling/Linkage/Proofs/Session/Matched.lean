import Linkage.Proofs.Session.FailFast
import Linkage.Proofs.Session.Flexible

/-
  Targets that are matched by others of their signature.  In
  the strict sense every call of the one comes to what a call
  of the other comes to; in the weak sense only calls that
  give a value do, and where the one fails the other may go
  on.  Between them are calls that are matched unless they
  fail in certain ways, such as to come to no end.  If entering
  a target is matched, then so is every way of calling it:
  exactly, with a call type, with any arguments, or without
  its own stub.

  Key definitions include:
    * `Run.MatchedOn`
    * `Conversion.MatchedBy`
    * `State.Lists`
    * `Target.MatchedFrom`
    * `Target.MatchedBy`
    * `Entry.Plain`

  Key theorems include:
    * `Target.followPlan_matched`
    * `Target.MatchedFrom.invokeTyped`
    * `Target.MatchedFrom.run`
    * `Target.MatchedBy.run`
    * `Entry.Agrees.trans`
    * `Entry.comesTo_of_matched`
-/

------------------------------------------------------------
-- Outcomes
------------------------------------------------------------

namespace Linkage

variable {α β : Type}

/- A run gave a value. -/
def Run.Gave (r : EStateM.Result Halt State α) : Prop :=
  ∃ a s, r = .ok a s

/-
  An outcome is matched by another that is the same: if it is
  a value, or a failure of which `P` holds.
-/
def Run.MatchedOn
    (P : Halt → Prop)
    (r r' : EStateM.Result Halt State α) : Prop :=
  (∀ e s, r = .error e s → P e) → Run.Same r r'

/-
  An outcome is matched by another that is the same: in any
  case if `strict` holds, and else if it is a value.
-/
def Run.MatchedBy
    (strict : Prop)
    (r r' : EStateM.Result Halt State α) : Prop :=
  strict ∨ Run.Gave r → Run.Same r r'

variable {strict : Prop}
variable {P Q : Halt → Prop}
variable {s s' : State}

theorem Run.Same.refl
    (r : EStateM.Result Halt State α) :
    Run.Same r r := by
  cases r with
  | ok a s => exact .ok (.refl s)
  | error e s => exact .error (.refl s)

theorem Run.MatchedBy.of_same
    {r r' : EStateM.Result Halt State α}
    (hSame : Run.Same r r') :
    Run.MatchedBy strict r r' :=
  fun _ => hSame

/- In the strict sense all failures are matched, else none. -/
theorem Run.matchedBy_iff
    {r r' : EStateM.Result Halt State α} :
    Run.MatchedBy strict r r' ↔
      Run.MatchedOn (fun _ => strict) r r' := by
  have hCase :
      strict ∨ Run.Gave r ↔ ∀ e z, r = .error e z → strict := by
    cases r with
    | ok a z => exact ⟨fun _ => nofun, fun _ => .inr ⟨a, z, rfl⟩⟩
    | error e z =>
        constructor
        · rintro (hStrict | ⟨a, y, hGave⟩)
          · exact fun _ _ _ => hStrict
          · cases hGave
        · exact fun hAll => .inl (hAll e z rfl)
  unfold MatchedBy MatchedOn
  rw [hCase]

namespace Run.MatchedOn

variable {r r' r'' : EStateM.Result Halt State α}

theorem of_same
    (hSame : Run.Same r r') :
    Run.MatchedOn P r r' :=
  fun _ => hSame

theorem imp
    (hMatched : Run.MatchedOn P r r')
    (hImp : ∀ e, Q e → P e) :
    Run.MatchedOn Q r r' :=
  fun hCase => hMatched (fun e z hr => hImp e (hCase e z hr))

theorem trans
    (hFirst : Run.MatchedOn P r r')
    (hSecond : Run.MatchedOn P r' r'') :
    Run.MatchedOn P r r'' := by
  intro hCase
  have hSame := hFirst hCase
  refine hSame.trans (hSecond ?_)
  rintro e z rfl
  cases hSame with
  | error _ => exact hCase e _ rfl

theorem bind
    {m n : Run β}
    {f g : β → Run α}
    (hFirst : Run.MatchedOn P (m s) (n s'))
    (hRest :
      ∀ b z z', m s = .ok b z → n s' = .ok b z' → z.Same z' →
        Run.MatchedOn P (f b z) (g b z')) :
    Run.MatchedOn P ((m >>= f) s) ((n >>= g) s') := by
  cases hRun : m s with
  | ok b z =>
      rw [hRun] at hFirst
      have hSame := hFirst nofun
      generalize hRun' : n s' = r' at hSame
      cases hSame with
      | ok hStates =>
          rw [Run.bind_ok hRun, Run.bind_ok hRun']
          exact hRest b z _ hRun hRun' hStates
  | error e z =>
      rw [Run.bind_error hRun]
      intro hCase
      have hP := hCase e z rfl
      rw [hRun] at hFirst
      have hSame := hFirst (fun _ _ hEq => by cases hEq; exact hP)
      generalize hRun' : n s' = r' at hSame
      cases hSame with
      | error hStates =>
          rw [Run.bind_error hRun']
          exact .error hStates

/- What is held meanwhile is no part of an outcome. -/
theorem holding
    {m n : Run α}
    {rs rs' : List Root}
    (hInner :
      Run.MatchedOn P (m { s with held := rs ++ s.held })
        (n { s' with held := rs' ++ s'.held })) :
    Run.MatchedOn P (Run.holding rs m s)
      (Run.holding rs' n s') := by
  have hLeft :
      Run.Same (Run.holding rs m s)
        (m { s with held := rs ++ s.held }) :=
    (Run.Same.holding (.refl _)).symm
  have hRight :
      Run.Same (n { s' with held := rs' ++ s'.held })
        (Run.holding rs' n s') :=
    Run.Same.holding (.refl _)
  exact (of_same hLeft).trans (hInner.trans (of_same hRight))

end Run.MatchedOn

------------------------------------------------------------
-- Conversions
------------------------------------------------------------

variable {T : ClassTable}

/-
  A conversion is matched by another that does the same: on
  all values if `strict` holds, and else on those which it
  takes.
-/
def Conversion.MatchedBy
    (strict : Prop)
    (T : ClassTable)
    (c c' : Conversion) : Prop :=
  ∀ v h,
    (strict ∨ ∃ w k, c.apply T v h = (.ok w, k)) →
      c'.apply T v h = c.apply T v h

theorem Conversion.MatchedBy.refl (c : Conversion) :
    c.MatchedBy strict T c :=
  fun _ _ _ => rfl

theorem Run.onHeap_matched
    {c c' : Conversion}
    (hFaults : ∀ f, P (.fault f) → strict)
    (hMatched : c.MatchedBy strict T c')
    (hSame : s.Same s')
    (v : Value) :
    Run.MatchedOn P (Run.onHeap (c.apply T v) s)
      (Run.onHeap (c'.apply T v) s') := by
  intro hCase
  have hApply : c'.apply T v s'.heap = c.apply T v s.heap := by
    rw [hSame.heap_eq]
    apply hMatched
    rcases hRun : c.apply T v s.heap with ⟨f | w, k⟩
    · left
      apply hFaults f
      apply hCase
      unfold Run.onHeap
      rw [hRun]
    · exact .inr ⟨w, k, rfl⟩
  have hLater :
      ∀ k,
        State.Same { s with heap := k } { s' with heap := k } :=
    fun _ => ⟨rfl, hSame.sites_eq, hSame.calls_eq⟩
  unfold Run.onHeap
  rw [hApply]
  rcases c.apply T v s.heap with ⟨r, k⟩
  cases r with
  | ok w => exact .ok (hLater k)
  | error e => exact .error (hLater k)

/- Arguments that are converted one by one. -/
theorem Run.convertEach_matched
    {cs cs' : List Conversion}
    (hFaults : ∀ f, P (.fault f) → strict)
    (hAll : List.Forall₂ (Conversion.MatchedBy strict T) cs cs')
    (hSame : s.Same s')
    (args : List Value) :
    Run.MatchedOn P (Run.convertEach T cs args s)
      (Run.convertEach T cs' args s') := by
  induction hAll generalizing args s s' with
  | nil => exact .of_same (.ok hSame)
  | cons hFirst _ ih =>
      cases args with
      | nil => exact .of_same (.ok hSame)
      | cons v args =>
          rw [Run.convertEach_cons, Run.convertEach_cons]
          refine
            .bind (Run.onHeap_matched hFaults hFirst hSame v) ?_
          intro w z z' _ _ hStates
          refine .bind (ih hStates args) ?_
          intro ws q q' _ _ hLater
          exact .of_same (.ok hLater)

/- Conversions make no handles. -/
theorem Run.sound_of_convertEach
    {rt : Runtime}
    {c : Catalog}
    {cs : List Conversion}
    {args vs : List Value}
    (hSound : s.Sound rt c)
    (hOk : Run.convertEach T cs args s = .ok vs s') :
    s'.Sound rt c := by
  rw [← Run.onHeap_applyAll] at hOk
  unfold Run.onHeap at hOk
  split at hOk
  · rename_i ws h hApply
    cases hOk
    apply hSound.withHeap
    intro i t hAt
    have hAfter :
        (applyAll T cs args s.heap).2.at? i = some (.target t) := by
      rw [hApply]
      exact hAt
    exact hSound.handles i t (applyAll_holds hAfter)
  · cases hOk

------------------------------------------------------------
-- Targets
------------------------------------------------------------

/-
  The state lists targets: what it holds was made in the
  runtime, and they are among it.
-/
def State.Lists
    (rt : Runtime)
    (s : State)
    (ts : List Target) : Prop :=
  ∃ c, s.Sound rt c ∧ ∀ t ∈ ts, t ∈ c.made

theorem State.Lists.mono
    {rt : Runtime}
    {ts us : List Target}
    (hLists : s.Lists rt ts)
    (hSub : ∀ t ∈ us, t ∈ ts) :
    s.Lists rt us := by
  rcases hLists with ⟨c, hSound, hListed⟩
  exact ⟨c, hSound, fun t ht => hListed t (hSub t ht)⟩

theorem State.Lists.tail
    {rt : Runtime}
    {t : Target}
    {ts : List Target}
    (hLists : s.Lists rt (t :: ts)) :
    s.Lists rt ts :=
  hLists.mono (fun _ hu => .tail t hu)

/- Two of the targets that were made. -/
theorem State.Sound.lists_two
    {rt : Runtime}
    {c : Catalog}
    {t u : Target}
    (hSound : s.Sound rt c)
    (ht : t ∈ c.made)
    (hu : u ∈ c.made) :
    s.Lists rt [t, u] :=
  ⟨c, hSound,
    List.forall_mem_cons.2 ⟨ht, List.forall_mem_singleton.2 hu⟩⟩

/- An earlier target, and the node that was made last. -/
theorem State.Grown.lists_new
    {rt : Runtime}
    {c d : Catalog}
    {t u : Target}
    (hGrown : State.Grown rt c s (d.addNode u) s')
    (ht : t ∈ c.made) :
    s'.Lists rt [t, u] :=
  hGrown.sound.lists_two (Catalog.mem_of_le hGrown.le ht)
    (Catalog.mem_addNode.2 (Or.inr rfl))

/-
  Entering a target is matched by entering another one, from
  any states that are the same and list the targets that are
  asked for.
-/
def Target.EntersAs
    (P : Halt → Prop)
    (rt : Runtime)
    (ts us : List Target)
    (j k : Nat)
    (t u : Target) : Prop :=
  ∀ (s s' : State) (args : List Value) (n : Nat),
    s.Same s' → s.Lists rt ts → s'.Lists rt us →
      args.length = t.count →
        Run.MatchedOn P (Target.enter rt (n + j) t args s)
          (Target.enter rt (n + k) u args s')

/-
  A target is matched by another of its signature, a fixed
  number of nodes apart, where both are called from states
  that are the same.
-/
structure Target.MatchedFrom
    (P : Halt → Prop)
    (rt : Runtime)
    (ts us : List Target)
    (t u : Target) : Prop where
  left : t ∈ ts
  right : u ∈ us
  signature_eq : u.signature = t.signature
  enters : ∃ j k, t.EntersAs P rt ts us j k u

/-
  A target is matched by another of its signature.  Wherever
  both are listed, entering the one is matched by entering
  the other, a fixed number of nodes apart.
-/
structure Target.MatchedBy
    (strict : Prop)
    (rt : Runtime)
    (t u : Target) : Prop where
  signature_eq : u.signature = t.signature
  enters :
    ∃ j k, ∀ (s : State) (args : List Value) (n : Nat),
      s.Lists rt [t, u] → args.length = t.count →
        Run.MatchedBy strict (Target.enter rt (n + j) t args s)
          (Target.enter rt (n + k) u args s)

namespace Target

variable {rt : Runtime}
variable {c d : Catalog}
variable {sig : Signature}
variable {p q : Plan}
variable {w w' : Wrapping}
variable {t u : Target}
variable {ts us : List Target}
variable {args : List Value}
variable {n j k : Nat}

/- Nodes that are passed leave no trace that the host sees. -/
theorem passed_same
    (o o' : Option Target)
    (args args' : List Value)
    (hSame : s.Same s') :
    (s.passed o args).Same (s'.passed o' args') := by
  have hLeft : ∀ o args, s.Same (State.passed s o args) := by
    intro o args
    cases o with
    | none => exact .refl s
    | some x => exact (State.Same.refl s).logEntry x args
  have hRight : s'.Same (s'.passed o' args') := by
    cases o' with
    | none => exact .refl s'
    | some x => exact (State.Same.refl s').logEntry x args'
  exact (hLeft o args).symm.trans (hSame.trans hRight)

theorem sound_passed
    (hSound : s.Sound rt c)
    (o : Option Target)
    (args : List Value) :
    (s.passed o args).Sound rt c := by
  cases o with
  | none => exact hSound
  | some x => exact hSound.withTrace _

/- A target is entered as itself. -/
theorem entersAs_refl
    (P : Halt → Prop)
    (hChecking : rt.compile = .checking)
    (hHost : rt.host.MakesNoTargets)
    (t : Target) :
    t.EntersAs P rt [t] [t] 0 0 t := by
  rintro s s' args n hSame ⟨c, hSound, hListed⟩
    ⟨d, hSound', hListed'⟩ _
  exact
    .of_same
      (enter_same hChecking hHost hSame hSound hSound'
        (hListed t (by simp)) (hListed' t (by simp)) n args)

/-
  A plan that is followed is matched by another one: its
  conversions are, and entering the target is.
-/
theorem followPlan_matched
    (hFaults : ∀ f, P (.fault f) → strict)
    (hEnters : t.EntersAs P rt ts us j k u)
    (hParams :
      List.Forall₂ (Conversion.MatchedBy strict rt.classes)
        p.params q.params)
    (hRet : p.ret.MatchedBy strict rt.classes q.ret)
    (hSame : s.Same s')
    (hSound : s.Sound rt c)
    (hSound' : s'.Sound rt d)
    (hLists : ∀ x ∈ ts, x ∈ c.made)
    (hLists' : ∀ x ∈ us, x ∈ d.made)
    (hPlan : p.params.length = t.count)
    (hCount : args.length = t.count)
    (n : Nat) :
    Run.MatchedOn P
      (t.followPlan rt p w (Target.enter rt (n + j)) args s)
      (u.followPlan rt q w' (Target.enter rt (n + k)) args s') := by
  have hPassed := passed_same w.outer w'.outer args args hSame
  have hConverted :=
    Run.convertEach_matched hFaults hParams hPassed args
  unfold followPlan
  rw [Run.bind_ok (pass_eq w.outer args s),
    Run.bind_ok (pass_eq w'.outer args s')]
  refine .bind hConverted ?_
  intro vs z z' hOk hOk' hStates
  have hLength : vs.length = t.count := by
    rw [Run.length_of_convertEach hOk, hPlan, hCount, Nat.min_self]
  rw [Run.bind_ok (pass_eq w.inner vs z),
    Run.bind_ok (pass_eq w'.inner vs z')]
  have hz := Run.sound_of_convertEach (sound_passed hSound _ _) hOk
  have hz' :=
    Run.sound_of_convertEach (sound_passed hSound' _ _) hOk'
  refine
    .bind
      (hEnters _ _ vs n
        (passed_same w.inner w'.inner vs vs hStates)
        ⟨c, sound_passed hz _ _, hLists⟩
        ⟨d, sound_passed hz' _ _, hLists'⟩ hLength)
      ?_
  intro v r r' _ _ hLater
  exact Run.onHeap_matched hFaults hRet hLater v

------------------------------------------------------------
-- Ways of Calling
------------------------------------------------------------

theorem followPlan_length
    (hPlan :
      planSignature rt.classes sig t.signature how = .ok p) :
    p.params.length = t.count ∧ sig.count = t.count := by
  rcases planSignature_eq_ok_iff.1 hPlan with ⟨hCount, hAll, _⟩
  have hZip := hAll.length_eq
  have hLengths :
      sig.params.length = t.signature.params.length :=
    hCount
  rw [List.length_zip, hLengths, Nat.min_self] at hZip
  exact ⟨hZip.symm, hCount⟩

/-
  Arguments that do not match a call type are refused once the
  target is retyped to it.
-/
theorem invokeTyped_unfit
    (hChecking : rt.compile = .checking)
    (hSound : s.Sound rt c)
    (ht : t ∈ c.made)
    (hPlan :
      planSignature rt.classes sig t.signature .implicit = .ok p)
    (hAdmits : ¬admits rt.classes sig args = true) :
    ∃ s', s.Same s' ∧
      ∀ enter,
        t.invokeTyped rt enter sig args s =
          .error (.fault (.arguments sig args)) s' := by
  have hHeld := hSound.withHeld (rootsOf args ++ s.held)
  rcases hHeld.retypeAs_ok hChecking ht hPlan with
    ⟨x, d, r, hRun, hGrown, _, hConverted⟩
  change t.asType rt sig _ = _ at hRun
  refine ⟨{ r with held := s.held }, ?_, ?_⟩
  · refine ⟨hGrown.heap_eq, hGrown.sites_eq, ?_⟩
    exact congrArg hostEvents hGrown.trace_eq
  · intro enter
    have hAdapted :
        Run.ofLink (t.asType rt sig) (.callType t.signature sig)
            { s with held := rootsOf args ++ s.held } =
          .ok x r := by
      unfold Run.ofLink
      rw [hRun]
    have hRefused :
        x.invokeExact rt enter args
            { r with held := [.target x] ++ s.held } =
          .error (.fault (.arguments sig args))
            { r with held := [.target x] ++ s.held } := by
      unfold invokeExact checkArguments
      rw [hConverted.signature_eq, if_neg hAdmits]
      rfl
    have hReleased :=
      Run.holding_error { r with held := s.held } hRefused
    unfold invokeTyped
    rw [Run.bind_ok (Run.holding_ok hAdapted)]
    exact hReleased

/- A node that is called without its stub is as if entered. -/
theorem enter_interpret
    (hCount : args.length = u.stub.arity)
    (s : State)
    (n : Nat) :
    Run.Same (Target.enter rt (n + 1) u args s)
      (u.behave rt (Target.enter rt n) args s) := by
  have hRepeats :
      ∀ es,
        u.behave rt (Target.enter rt n) args
            (State.above { s with trace := [] } es) =
          Run.above es
            (u.behave rt (Target.enter rt n) args
              { s with trace := [] }) := by
    intro es
    have hCourse :
        Run.Repeats True es
          (u.behave rt (Target.enter rt n) args
            { s with trace := [] })
          (u.behave rt (Target.enter rt n) args
            (State.above { s with trace := [] } es)) :=
      (Course.behave u args).repeats
        (fun x as r => .of_eq (enter_above r es)) _
    exact hCourse (Or.inl trivial)
  have hEntered := hRepeats (.entered u args :: s.trace)
  have hPlain := hRepeats s.trace
  rw [enter_succ hCount]
  change
    Run.Same
      (u.behave rt (Target.enter rt n) args
        (State.above { s with trace := [] }
          (.entered u args :: s.trace)))
      (u.behave rt (Target.enter rt n) args
        (State.above { s with trace := [] } s.trace))
  rw [hEntered, hPlain]
  exact Run.Same.above (.refl _) rfl

/- Targets of one signature have one call type. -/
theorem callType_congr
    (hSig : u.signature = t.signature)
    (args : List Value) :
    u.callType args = t.callType args := by
  unfold callType count params ret
  rw [hSig]

theorem callType_cases
    (t : Target)
    (args : List Value) :
    (∃ sig, t.callType args = pure sig) ∨
      ∃ f, t.callType args = Run.fault f := by
  unfold callType
  dsimp only
  split
  · exact Or.inr ⟨_, rfl⟩
  · split
    · exact Or.inl ⟨_, rfl⟩
    · exact Or.inr ⟨_, rfl⟩

/- A flexible call in which no arguments are gathered. -/
theorem invokeFlexibly_plain
    {enter : Enter}
    (hPlain : t.isVarargs = false) :
    t.invokeFlexibly rt enter args =
      Run.holding [.target t]
        (t.callType args >>= fun sig =>
          t.invokeTyped rt enter sig args) := by
  unfold invokeFlexibly
  rw [arityAdapted_plain hPlain]
  rfl

/- A stub that counts as the own one does. -/
theorem enterStub_eq
    {stub : Stub}
    (hArity : t.stub.arity = stub.arity)
    (hCount : args.length = stub.arity) :
    enterStub rt n stub t args = Target.enter rt n t args := by
  cases n with
  | zero => rfl
  | succ n =>
      rw [enter_succ (hCount.trans hArity.symm), enterStub,
        if_pos hCount]
      rfl

namespace MatchedFrom

/- Fewer failures are matched. -/
theorem imp
    (hMatched : t.MatchedFrom P rt ts us u)
    (hImp : ∀ e, Q e → P e) :
    t.MatchedFrom Q rt ts us u := by
  rcases hMatched with ⟨ht, hu, hSig, j, k, hEnters⟩
  refine ⟨ht, hu, hSig, j, k, ?_⟩
  intro s s' args n hSame hLists hLists' hCount
  exact (hEnters s s' args n hSame hLists hLists' hCount).imp hImp

/- If all outcomes are matched, they are so in both directions. -/
theorem symm
    (hMatched : t.MatchedFrom (fun _ => True) rt ts us u) :
    u.MatchedFrom (fun _ => True) rt us ts t := by
  rcases hMatched with ⟨ht, hu, hSig, j, k, hEnters⟩
  refine ⟨hu, ht, hSig.symm, k, j, ?_⟩
  intro s s' args n hSame hLists hLists' hCount
  have hCount' : args.length = t.count := by
    unfold count
    rw [← hSig]
    exact hCount
  have hOther :=
    hEnters s' s args n hSame.symm hLists' hLists hCount'
  exact .of_same (hOther (fun _ _ _ => trivial)).symm

variable (hMatched : t.MatchedFrom P rt ts us u)
variable (hChecking : rt.compile = .checking)
variable (hSame : s.Same s')
variable (hSound : s.Sound rt c)
variable (hSound' : s'.Sound rt d)
variable (hLists : ∀ x ∈ ts, x ∈ c.made)
variable (hLists' : ∀ x ∈ us, x ∈ d.made)
include hMatched hSame hSound hSound' hLists hLists'

include hChecking in
/- Calls with a call type, to which both targets are retyped. -/
theorem invokeTyped
    (sig : Signature)
    (args : List Value) :
    ∃ j k, ∀ n,
      Run.MatchedOn P
        (t.invokeTyped rt (Target.enter rt (n + j)) sig args s)
        (u.invokeTyped rt (Target.enter rt (n + k)) sig args s') := by
  rcases hMatched with ⟨ht, hu, hSig, j, k, hEnters⟩
  replace ht := hLists t ht
  replace hu := hLists' u hu
  cases hPlan :
      planSignature rt.classes sig t.signature .implicit with
  | error err =>
      have hPlan' := hPlan
      rw [← hSig] at hPlan'
      refine ⟨0, 0, fun n => .of_same ?_⟩
      rw [invokeTyped_refused hChecking hSound ht hPlan,
        invokeTyped_refused hChecking hSound' hu hPlan', hSig]
      exact .error hSame
  | ok p =>
      have hPlan' := hPlan
      rw [← hSig] at hPlan'
      by_cases hAdmits : admits rt.classes sig args = true
      · rcases
          invokeTyped_follows hChecking hSound ht hPlan hAdmits
          with ⟨w, x, c', r, hGrown, _, hTyped⟩
        rcases
          invokeTyped_follows hChecking hSound' hu hPlan' hAdmits
          with ⟨w', x', d', r', hGrown', _, hTyped'⟩
        rcases followPlan_length hPlan with ⟨hLength, hCounts⟩
        refine ⟨j + w.depth, k + w'.depth, fun n => ?_⟩
        rw [← Nat.add_assoc, ← Nat.add_assoc, hTyped, hTyped']
        apply Run.MatchedOn.holding
        have hStates :
            State.Same { r with held := [.target x] ++ s.held }
              { r' with held := [.target x'] ++ s'.held } := by
          refine
            ⟨hGrown'.heap_eq.trans
              (hSame.heap_eq.trans hGrown.heap_eq.symm),
              hGrown'.sites_eq.trans
                (hSame.sites_eq.trans hGrown.sites_eq.symm), ?_⟩
          have hTrace : r.trace = s.trace := hGrown.trace_eq
          have hTrace' : r'.trace = s'.trace := hGrown'.trace_eq
          change hostEvents r'.trace = hostEvents r.trace
          rw [hTrace, hTrace']
          exact hSame.calls_eq
        exact
          followPlan_matched (fun f (_ : P (.fault f)) => True.intro)
            hEnters (List.forall₂_same.2 fun q _ => .refl q)
            (.refl p.ret) hStates (hGrown.sound.withHeld _)
            (hGrown'.sound.withHeld _)
            (fun y hy => Catalog.mem_of_le hGrown.le (hLists y hy))
            (fun y hy => Catalog.mem_of_le hGrown'.le (hLists' y hy))
            hLength ((length_of_admits hAdmits).trans hCounts) n
      · rcases
          invokeTyped_unfit hChecking hSound ht hPlan hAdmits
          with ⟨r, hr, hRefused⟩
        rcases
          invokeTyped_unfit hChecking hSound' hu hPlan' hAdmits
          with ⟨r', hr', hRefused'⟩
        refine ⟨0, 0, fun n => .of_same ?_⟩
        rw [hRefused, hRefused']
        exact .error (hr.symm.trans (hSame.trans hr'))

/- Calls with arguments that match are as entries. -/
theorem invokeExact
    (args : List Value) :
    ∃ j k, ∀ n,
      Run.MatchedOn P
        (t.invokeExact rt (Target.enter rt (n + j)) args s)
        (u.invokeExact rt (Target.enter rt (n + k)) args s') := by
  rcases hMatched with ⟨_, _, hSig, j, k, hEnters⟩
  refine ⟨j, k, fun n => ?_⟩
  by_cases hAdmits : admits rt.classes t.signature args = true
  · have hAdmits' : admits rt.classes u.signature args = true := by
      rw [hSig]
      exact hAdmits
    rw [invokeExact_of_admits hAdmits,
      invokeExact_of_admits hAdmits']
    exact
      hEnters s s' args n hSame ⟨c, hSound, hLists⟩
        ⟨d, hSound', hLists'⟩ (length_of_admits hAdmits)
  · apply Run.MatchedOn.of_same
    unfold Target.invokeExact checkArguments
    rw [hSig, if_neg hAdmits]
    exact .error hSame

theorem invokeExactTyped
    (sig : Signature)
    (args : List Value) :
    ∃ j k, ∀ n,
      Run.MatchedOn P
        (t.invokeExactTyped rt (Target.enter rt (n + j)) sig args s)
        (u.invokeExactTyped rt (Target.enter rt (n + k)) sig args
          s') := by
  unfold Target.invokeExactTyped
  rw [hMatched.signature_eq]
  by_cases hSig : sig = t.signature
  · simp only [if_pos hSig]
    exact
      hMatched.invokeExact hSame hSound hSound' hLists hLists' args
  · simp only [if_neg hSig]
    exact ⟨0, 0, fun _ => .of_same (.error hSame)⟩

include hChecking in
/- Calls with any arguments, of targets that gather none. -/
theorem invokeFlexibly
    (ht : t.isVarargs = false)
    (hu : u.isVarargs = false)
    (args : List Value) :
    ∃ j k, ∀ n,
      Run.MatchedOn P
        (t.invokeFlexibly rt (Target.enter rt (n + j)) args s)
        (u.invokeFlexibly rt (Target.enter rt (n + k)) args s') := by
  have hCall : u.callType args = t.callType args :=
    callType_congr hMatched.signature_eq args
  have hHeld : State.Same { s with held := [.target t] ++ s.held }
      { s' with held := [.target u] ++ s'.held } :=
    ⟨hSame.heap_eq, hSame.sites_eq, hSame.calls_eq⟩
  rcases callType_cases t args with ⟨sig, hSig⟩ | ⟨f, hFault⟩
  · rcases
      hMatched.invokeTyped hChecking hHeld (hSound.withHeld _)
        (hSound'.withHeld _) hLists hLists' sig args
      with ⟨j, k, hTyped⟩
    refine ⟨j, k, fun n => ?_⟩
    rw [invokeFlexibly_plain ht, invokeFlexibly_plain hu, hCall,
      hSig]
    exact .holding (hTyped n)
  · refine ⟨0, 0, fun n => ?_⟩
    rw [invokeFlexibly_plain ht, invokeFlexibly_plain hu, hCall,
      hFault]
    exact .holding (.of_same (.error hHeld))

include hChecking in
/- Calls without the stub of the node that is called. -/
theorem interpret
    (hCount : args.length = t.count) :
    ∃ j k, ∀ n,
      Run.MatchedOn P
        (t.behave rt (Target.enter rt (n + j)) args s)
        (u.behave rt (Target.enter rt (n + k)) args s') := by
  rcases hMatched with ⟨ht, hu, hSig, j, k, hEnters⟩
  have hArity :=
    (hSound.valid.serves t (hLists t ht)).arity_eq hChecking
  have hArity' :=
    (hSound'.valid.serves u (hLists' u hu)).arity_eq hChecking
  have hCount' : args.length = u.stub.arity := by
    rw [hArity', hSig]
    exact hCount
  refine ⟨j, k, fun n => ?_⟩
  have hEntered :=
    hEnters s s' args (n + 1) hSame ⟨c, hSound, hLists⟩
      ⟨d, hSound', hLists'⟩ hCount
  rw [Nat.add_right_comm, Nat.add_right_comm n 1 k] at hEntered
  have hLeft :
      Run.Same (Target.enter rt (n + j + 1) t args s)
        (t.behave rt (Target.enter rt (n + j)) args s) :=
    enter_interpret (hCount.trans hArity.symm) s (n + j)
  have hRight :
      Run.Same (Target.enter rt (n + k + 1) u args s')
        (u.behave rt (Target.enter rt (n + k)) args s') :=
    enter_interpret hCount' s' (n + k)
  exact
    (Run.MatchedOn.of_same hLeft.symm).trans
      (hEntered.trans (.of_same hRight))

end MatchedFrom

end Target

/-
  Two calls come to the same: they come to an end or do not,
  and their ends are the same.
-/
def Entry.Agrees
    (rt : Runtime)
    (e : Entry)
    (t : Target)
    (args : List Value)
    (s : State)
    (e' : Entry)
    (u : Target)
    (args' : List Value)
    (s' : State) : Prop :=
  ((∃ r, e.ComesTo rt t args s r) ↔
      ∃ r, e'.ComesTo rt u args' s' r) ∧
    ∀ r r',
      e.ComesTo rt t args s r →
        e'.ComesTo rt u args' s' r' → Run.Same r r'

theorem Entry.Agrees.trans
    {rt : Runtime}
    {e e' e'' : Entry}
    {t u x : Target}
    {args args' args'' : List Value}
    {s'' : State}
    (hFirst : e.Agrees rt t args s e' u args' s')
    (hSecond : e'.Agrees rt u args' s' e'' x args'' s'') :
    e.Agrees rt t args s e'' x args'' s'' := by
  refine ⟨hFirst.1.trans hSecond.1, ?_⟩
  intro r r'' hComes hComes''
  rcases hFirst.1.1 ⟨r, hComes⟩ with ⟨r', hComes'⟩
  exact
    (hFirst.2 r r' hComes hComes').trans
      (hSecond.2 r' r'' hComes' hComes'')

/- A call that agrees with another comes to what that comes to. -/
theorem Entry.Agrees.comesTo
    {rt : Runtime}
    {e e' : Entry}
    {t u : Target}
    {args args' : List Value}
    {r' : EStateM.Result Halt State Value}
    (hAgrees : e.Agrees rt t args s e' u args' s')
    (hComes : e'.ComesTo rt u args' s' r') :
    ∃ r, e.ComesTo rt t args s r ∧ Run.Same r r' := by
  rcases hAgrees.1.2 ⟨r', hComes⟩ with ⟨r, hHere⟩
  exact ⟨r, hHere, hAgrees.2 r r' hHere hComes⟩

/- No trailing arguments are gathered in a flexible call. -/
def Entry.Plain
    (t u : Target) : Entry → Prop
| way .flexible => t.isVarargs = false ∧ u.isVarargs = false
| _ => True

section Calls

variable {rt : Runtime}
variable {t u : Target}
variable {ts us : List Target}
variable {args : List Value}
variable {e e' : Entry}

/-
  A matched target is matched in whatever way it is called, at
  depths that are a fixed number apart.
-/
theorem Target.MatchedFrom.run
    (hMatched : t.MatchedFrom P rt ts us u)
    (hChecking : rt.compile = .checking)
    (hSame : s.Same s')
    (hLists : s.Lists rt ts)
    (hLists' : s'.Lists rt us)
    (hLike : e.Like e')
    (hPlain : e.Plain t u)
    (hInLine : e.InLine t args)
    (hInLine' : e'.InLine u args) :
    ∃ j k, ∀ n,
      Run.MatchedOn P (e.run rt (n + j) t args s)
        (e'.run rt (n + k) u args s') := by
  have hHere := hLists
  have hHere' := hLists'
  rcases hHere with ⟨c, hSound, hListed⟩
  rcases hHere' with ⟨d, hSound', hListed'⟩
  cases hLike with
  | way w =>
      cases w with
      | exact =>
          exact
            hMatched.invokeExact hSame hSound hSound' hListed
              hListed' args
      | flexible =>
          exact
            hMatched.invokeFlexibly hChecking hSame hSound hSound'
              hListed hListed' hPlain.1 hPlain.2 args
      | exactTyped sig =>
          exact
            hMatched.invokeExactTyped hSame hSound hSound' hListed
              hListed' sig args
      | typed sig =>
          exact
            hMatched.invokeTyped hChecking hSame hSound hSound'
              hListed hListed' sig args
      | interpret =>
          exact
            hMatched.interpret hChecking hSame hSound hSound'
              hListed hListed' hInLine
  | stub x y =>
      rcases hMatched with ⟨ht, hu, hSig, j, k, hEnters⟩
      refine ⟨j, k, fun n => ?_⟩
      have hServes := hSound.valid.serves t (hListed t ht)
      have hServes' := hSound'.valid.serves u (hListed' u hu)
      have hStub : t.stub.arity = x.arity :=
        (hServes.arity_eq hChecking).trans hInLine.1.symm
      have hStub' : u.stub.arity = y.arity :=
        (hServes'.arity_eq hChecking).trans hInLine'.1.symm
      have hOwn :=
        hEnters s s' args n hSame hLists hLists' hInLine.2
      rw [
        ← Target.enterStub_eq hStub (hInLine.2.trans hInLine.1.symm),
        ← Target.enterStub_eq hStub'
          (hInLine'.2.trans hInLine'.1.symm)] at hOwn
      exact hOwn

/- What is matched where both are listed is so from such states. -/
theorem Target.MatchedBy.from_both
    (hMatched : t.MatchedBy strict rt u)
    (hChecking : rt.compile = .checking)
    (hHost : rt.host.MakesNoTargets) :
    t.MatchedFrom (fun _ => strict) rt [t, u] [t, u] u := by
  rcases hMatched with ⟨hSig, j, k, hEnters⟩
  refine ⟨by simp, by simp, hSig, j, k, ?_⟩
  rintro s s' args n hSame hLists ⟨d, hSound', hListed'⟩ hCount
  have hHere := Run.matchedBy_iff.1 (hEnters s args n hLists hCount)
  rcases hLists with ⟨c, hSound, hListed⟩
  have hOther :=
    enter_same hChecking hHost hSame hSound hSound'
      (hListed u (by simp)) (hListed' u (by simp)) (n + k) args
  exact hHere.trans (.of_same hOther)

theorem Target.MatchedBy.run
    (hMatched : t.MatchedBy strict rt u)
    (hChecking : rt.compile = .checking)
    (hHost : rt.host.MakesNoTargets)
    (hLists : s.Lists rt [t, u])
    (hLike : e.Like e')
    (hPlain : e.Plain t u)
    (hInLine : e.InLine t args)
    (hInLine' : e'.InLine u args) :
    ∃ j k, ∀ n,
      Run.MatchedOn (fun _ => strict) (e.run rt (n + j) t args s)
        (e'.run rt (n + k) u args s) :=
  (hMatched.from_both hChecking hHost).run hChecking (.refl s) hLists
    hLists hLike hPlain hInLine hInLine'

/- A matched call comes to what the other one comes to. -/
theorem Entry.comesTo_of_matched
    {j k : Nat}
    {r : EStateM.Result Halt State Value}
    (hMatched :
      ∀ n,
        Run.MatchedOn P (e.run rt (n + j) t args s)
          (e'.run rt (n + k) u args s'))
    (hComes : e.ComesTo rt t args s r)
    (hCase : ∀ x z, r = .error x z → P x) :
    ∃ r', e'.ComesTo rt u args s' r' ∧ Run.Same r r' := by
  rcases hComes with ⟨hEnded, n, rfl⟩
  have hLater := run_of_le (Nat.le_add_right n j) hEnded
  have hHere := hMatched n
  rw [hLater] at hHere
  have hSame := hHere hCase
  exact ⟨_, ⟨hSame.ended_iff.1 hEnded, _, rfl⟩, hSame⟩

end Calls

end Linkage
