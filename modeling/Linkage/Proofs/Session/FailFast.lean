import Linkage.Proofs.Conversion.Passable
import Linkage.Proofs.Session.Retyping

/-
  Which implicit retypings any arguments get through.  A
  retyping that succeeds lets some arguments through to its
  target, which may be new boxes of any heap, unless a number
  is to become a `char` in one of its slots.  Such a slot is
  planned like the others, but it refuses all arguments, and
  the target is never entered.

  Key definitions include:
    * `State.passed`
    * `Target.Reached`
    * `Target.Refused`

  Key theorems include:
    * `Run.convertEach_of_succeeds`
    * `Run.convertEach_of_fails`
    * `Session.asType_follows`
    * `Session.asType_passable_unless_clogged`
-/

------------------------------------------------------------
-- Conversions that Succeed and Fail
------------------------------------------------------------

namespace Linkage

variable {α β : Type}
variable {rt : Runtime}
variable {T : ClassTable}
variable {how : Strength}
variable {sig : Signature}
variable {p : Plan}
variable {w : Target.Wrapping}
variable {t u : Target}
variable {args vs : List Value}
variable {c : Conversion}
variable {cs : List Conversion}
variable {v : Value}

namespace Run

/- A conversion of a value comes to a value, or to a fault. -/
theorem onHeap_apply_cases
    (T : ClassTable)
    (c : Conversion)
    (v : Value)
    (s : State) :
    (∃ w h, (c.apply T v s.heap).1 = .ok w ∧
      Run.onHeap (c.apply T v) s = .ok w { s with heap := h }) ∨
    (∃ f h, (c.apply T v s.heap).1 = .error f ∧
      Run.onHeap (c.apply T v) s =
        .error (.fault f) { s with heap := h }) := by
  unfold Run.onHeap
  rcases hApply : c.apply T v s.heap with ⟨w | f, h⟩
  · exact Or.inr ⟨_, h, rfl, rfl⟩
  · exact Or.inl ⟨_, h, rfl, rfl⟩

/- Values that all conversions take, whatever the heap. -/
theorem convertEach_of_succeeds
    (hAll :
      List.Forall₂
        (fun c v => ∀ h, ∃ w, (Conversion.apply T c v h).1 = .ok w)
        cs args)
    (s : State) :
    ∃ vs s', convertEach T cs args s = .ok vs s' := by
  induction hAll generalizing s with
  | nil => exact ⟨[], s, rfl⟩
  | @cons c v cs args hFirst _ ih =>
      rw [convertEach_cons]
      rcases onHeap_apply_cases T c v s with
        ⟨w, h, _, hRun⟩ | ⟨f, h, hError, _⟩
      · rcases ih { s with heap := h } with ⟨vs, s', hRest⟩
        refine ⟨w :: vs, s', ?_⟩
        rw [bind_ok hRun, bind_ok hRest]
        rfl
      · rcases hFirst s.heap with ⟨w, hOk⟩
        rw [hError] at hOk
        cases hOk

/- What the conversions of a plan admit they take. -/
theorem succeeds_of_admit
    {as bs : List Ty}
    (hTrans : T.Transitive)
    (hCount : as.length = bs.length)
    (hPlan :
      List.Forall₂
        (fun (q : Ty × Ty) c =>
          classify T q.1 q.2 how = some c)
        (as.zip bs) cs)
    (hConform :
      List.Forall₂ (fun v a => Value.conforms T v a = true) args as)
    (hAdmit :
      List.Forall₂ (fun c v => Conversion.Admits T v c) cs args) :
    List.Forall₂
      (fun c v => ∀ h, ∃ w, (Conversion.apply T c v h).1 = .ok w)
      cs args := by
  induction hConform generalizing bs cs with
  | nil =>
      cases hAdmit
      exact .nil
  | @cons v a args as hValue _ ih =>
      cases bs with
      | nil => cases hCount
      | cons b bs =>
          cases hAdmit with
          | cons hFirst hRest =>
              rw [List.zip_cons_cons] at hPlan
              cases hPlan with
              | cons hClass hClasses =>
                  refine
                    .cons ?_
                      (ih (Nat.succ.inj hCount) hClasses hRest)
                  intro h
                  have hSound :=
                    Conversion.sound_of_classify hTrans hClass
                      hValue h
                  exact hSound.succeeds.2 hFirst

/-
  Where one conversion takes no value there is a fault, of it
  or of one before it.  No event is recorded.
-/
theorem convertEach_of_fails
    (hCount : args.length = cs.length)
    (hMem : c ∈ cs)
    (hNever : ∀ v h w, (Conversion.apply T c v h).1 ≠ .ok w)
    (s : State) :
    ∃ f s', convertEach T cs args s = .error (.fault f) s' ∧
      s'.trace = s.trace := by
  induction cs generalizing args s with
  | nil => cases hMem
  | cons d cs ih =>
      cases args with
      | nil => cases hCount
      | cons v args =>
          rw [convertEach_cons]
          rcases onHeap_apply_cases T d v s with
            ⟨w, h, hOk, hRun⟩ | ⟨f, h, _, hRun⟩
          · rcases List.mem_cons.1 hMem with rfl | hRest
            · exact absurd hOk (hNever v s.heap w)
            · rcases
                ih (Nat.succ.inj hCount) hRest { s with heap := h }
                with ⟨f, s', hFail, hTrace⟩
              refine ⟨f, s', ?_, hTrace⟩
              rw [bind_ok hRun, bind_error hFail]
          · exact ⟨f, _, bind_error hRun _, rfl⟩

end Run

------------------------------------------------------------
-- Plans that are Followed
------------------------------------------------------------

/- The state after a node was passed on the way. -/
def State.passed
    (s : State)
    (o : Option Target)
    (args : List Value) : State :=
  match o with
  | some t => s.log (.entered t args)
  | none => s

/- A node that is passed does nothing to the heap. -/
theorem State.heap_passed
    (s : State)
    (o : Option Target)
    (args : List Value) :
    (s.passed o args).heap = s.heap := by
  cases o with
  | none => rfl
  | some t => rfl

namespace Target

theorem pass_eq
    (o : Option Target)
    (args : List Value)
    (s : State) :
    pass o args s = .ok () (s.passed o args) := by
  cases o with
  | none => rfl
  | some t => rfl

/-
  Arguments reach a target through a retyping: they match,
  the conversions succeed, and the target is entered with
  what the arguments became.
-/
structure Reached
    (rt : Runtime)
    (sig : Signature)
    (t u : Target)
    (args : List Value)
    (r : State) : Prop where
  admits : Target.admits rt.classes sig args = true
  enters :
    ∃ (p : Plan) (w : Wrapping) (vs : List Value) (r' : State),
      p.Converts rt.classes .implicit sig t.signature ∧
        Run.convertEach rt.classes p.params args
            (r.passed w.outer args) =
          .ok vs r' ∧
        ∀ n,
          u.invokeExact rt (Target.enter rt (n + w.depth)) args r =
            (do
              let v ← Target.enter rt n t vs
              Run.onHeap (p.ret.apply rt.classes v))
              (r'.passed w.inner vs)

/-
  Arguments are refused on the way to a target: a conversion
  fails, and only the node of the retyping was entered.
-/
def Refused
    (rt : Runtime)
    (sig : Signature)
    (t u : Target)
    (args : List Value)
    (r : State) : Prop :=
  ∃ (p : Plan) (w : Wrapping) (f : Fault) (r' : State),
    p.Converts rt.classes .implicit sig t.signature ∧
      Run.convertEach rt.classes p.params args
          (r.passed w.outer args) =
        .error (.fault f) r' ∧
      r'.trace = (r.passed w.outer args).trace ∧
      ∀ n,
        u.invokeExact rt (Target.enter rt (n + w.depth)) args r =
          .error (.fault f) r'

theorem followPlan_ok
    {enter : Enter}
    {r r' : State}
    (hOk :
      Run.convertEach rt.classes p.params args
          (r.passed w.outer args) =
        .ok vs r') :
    t.followPlan rt p w enter args r =
      (do
        let v ← enter t vs
        Run.onHeap (p.ret.apply rt.classes v))
        (r'.passed w.inner vs) := by
  unfold followPlan
  rw [Run.bind_ok (pass_eq w.outer args r), Run.bind_ok hOk,
    Run.bind_ok (pass_eq w.inner vs r')]

theorem followPlan_error
    {enter : Enter}
    {e : Halt}
    {r r' : State}
    (hError :
      Run.convertEach rt.classes p.params args
          (r.passed w.outer args) =
        .error e r') :
    t.followPlan rt p w enter args r = .error e r' := by
  unfold followPlan
  rw [Run.bind_ok (pass_eq w.outer args r), Run.bind_error hError]

/-
  A retyping follows a plan.  If no slot is clogged there are
  arguments for it in every heap.
-/
theorem reached_of_free
    (hKeeps : rt.classes.KeepsWellKnown)
    (hConverts : p.Converts rt.classes .implicit sig t.signature)
    (hFollows :
      ∀ n args, admits rt.classes sig args = true →
        u.invokeExact rt (Target.enter rt (n + w.depth)) args =
          t.followPlan rt p w (Target.enter rt n) args)
    (hFree : ∀ q ∈ sig.params.zip t.params, ¬q.1.Clogs q.2)
    (r : State) :
    ∃ args h,
      r.heap.Supplies args h ∧
        t.Reached rt sig u args { r with heap := h } := by
  rcases
    feeds_of_plan hKeeps hConverts.params hConverts.count_eq hFree
      r.heap
    with ⟨args, h, hSupplies, hConform, hAdmit⟩
  have hAdmits : admits rt.classes sig args = true :=
    admits_iff.2 hConform
  have hSucceeds :=
    Run.succeeds_of_admit hKeeps.plainRoots.transitive
      hConverts.count_eq hConverts.params hConform hAdmit
  rcases
    Run.convertEach_of_succeeds hSucceeds
      (State.passed { r with heap := h } w.outer args)
    with ⟨vs, r', hOk⟩
  refine ⟨args, h, hSupplies, hAdmits, p, w, vs, r', hConverts, hOk, ?_⟩
  intro n
  rw [hFollows n args hAdmits, followPlan_ok hOk]

theorem exists_mem_of_forall₂
    {R : α → β → Prop}
    {as : List α}
    {bs : List β}
    {a : α}
    (hAll : List.Forall₂ R as bs)
    (hMem : a ∈ as) :
    ∃ b ∈ bs, R a b := by
  induction hAll with
  | nil => cases hMem
  | @cons x y as bs hFirst _ ih =>
      rcases List.mem_cons.1 hMem with rfl | hRest
      · exact ⟨y, List.mem_cons_self, hFirst⟩
      · rcases ih hRest with ⟨b, hb, hR⟩
        exact ⟨b, List.mem_cons_of_mem y hb, hR⟩

/- A clogged slot refuses all arguments, from every state. -/
theorem refused_of_clogged
    (hConverts : p.Converts rt.classes .implicit sig t.signature)
    (hFollows :
      ∀ n args, admits rt.classes sig args = true →
        u.invokeExact rt (Target.enter rt (n + w.depth)) args =
          t.followPlan rt p w (Target.enter rt n) args)
    (hClogged : ∃ q ∈ sig.params.zip t.params, q.1.Clogs q.2)
    (hAdmits : admits rt.classes sig args = true)
    (r : State) :
    t.Refused rt sig u args r := by
  rcases hClogged with ⟨q, hq, hClogs⟩
  rcases exists_mem_of_forall₂ hConverts.params hq with
    ⟨c, hc, hClass⟩
  have hNever : ∀ v h w, (c.apply rt.classes v h).1 ≠ .ok w := by
    intro v h w hOk
    rw [hClogs.classify_eq] at hClass
    cases hClass
    exact unboxValue_number_char v w hOk
  have hLength : args.length = p.params.length := by
    have hZip := hConverts.params.length_eq
    have hCount :
        sig.params.length = t.signature.params.length :=
      hConverts.count_eq
    rw [List.length_zip, ← hCount, Nat.min_self] at hZip
    exact (length_of_admits hAdmits).trans hZip
  rcases
    Run.convertEach_of_fails hLength hc hNever
      (r.passed w.outer args)
    with ⟨f, r', hError, hTrace⟩
  refine ⟨p, w, f, r', hConverts, hError, hTrace, ?_⟩
  intro n
  rw [hFollows n args hAdmits, followPlan_error hError]

end Target

namespace Session

variable {s : Session}

/- A retyping of a named target, and the plan that it follows. -/
theorem asType_follows
    {u : Target}
    {s' : State}
    (hFresh : s.IsFresh)
    (hChecking : s.context.runtime.compile = .checking)
    (hHost : s.context.runtime.host.MakesNoTargets)
    (xs : List Step)
    (hNamed : (s.after xs).context.Names t)
    (hOk :
      t.asType s.context.runtime sig (s.after xs).state =
        .ok u s') :
    ∃ (p : Plan) (w : Target.Wrapping),
      p.Converts s.context.runtime.classes .implicit sig
          t.signature ∧
        ∀ n args,
          Target.admits s.context.runtime.classes sig args =
              true →
            u.invokeExact s.context.runtime
                (Target.enter s.context.runtime (n + w.depth))
                args =
              t.followPlan s.context.runtime p w
                (Target.enter s.context.runtime n) args := by
  rcases listed_after hFresh hHost xs with ⟨c, hKnown, hNames⟩
  rw [runtime_after] at hKnown
  rcases hKnown.sound.of_asType hChecking (hNames t hNamed) hOk with
    ⟨p, d, hPlan, hGrown, hx, hConverted⟩
  rcases
    hConverted.follows hGrown.sound.valid hChecking hx hPlan
    with ⟨w, _, hFollows⟩
  exact ⟨p, w, planSignature_eq_ok_iff.1 hPlan, hFollows⟩

/- A signature that converts is one that a target is retyped to. -/
theorem asType_succeeds
    (hFresh : s.IsFresh)
    (hChecking : s.context.runtime.compile = .checking)
    (hHost : s.context.runtime.host.MakesNoTargets)
    (xs : List Step)
    (hNamed : (s.after xs).context.Names t)
    (hConvertible :
      sig.Convertible s.context.runtime.classes .implicit
        t.signature) :
    ∃ u s',
      t.asType s.context.runtime sig (s.after xs).state =
        .ok u s' := by
  rcases listed_after hFresh hHost xs with ⟨c, hKnown, hNames⟩
  rw [runtime_after] at hKnown
  rcases exists_plan_iff.2 hConvertible with ⟨p, hPlan⟩
  rcases
    hKnown.sound.retypeAs_ok hChecking (hNames t hNamed) hPlan
    with ⟨x, _, s', hRun, _⟩
  exact ⟨x, s', hRun⟩

/-
  A retyping that succeeds lets arguments through, which any
  heap supplies, unless a number is taken for a `char`; then
  it refuses all arguments.
-/
theorem asType_passable_unless_clogged
    {u : Target}
    {s' : State}
    (hFresh : s.IsFresh)
    (hChecking : s.context.runtime.compile = .checking)
    (hHost : s.context.runtime.host.MakesNoTargets)
    (hKeeps : s.context.runtime.classes.KeepsWellKnown)
    (xs : List Step)
    (hNamed : (s.after xs).context.Names t)
    (hOk :
      t.asType s.context.runtime sig (s.after xs).state =
        .ok u s') :
    let rt := s.context.runtime
    let slots := sig.params.zip t.params
    ((∀ q ∈ slots, ¬q.1.Clogs q.2) →
      ∀ r : State, ∃ args h,
        r.heap.Supplies args h ∧
          t.Reached rt sig u args { r with heap := h }) ∧
    ((∃ q ∈ slots, q.1.Clogs q.2) →
      ∀ args r,
        Target.admits rt.classes sig args = true →
          t.Refused rt sig u args r) := by
  intro rt slots
  rcases asType_follows hFresh hChecking hHost xs hNamed hOk with
    ⟨p, w, hConverts, hFollows⟩
  constructor
  · intro hFree r
    exact
      Target.reached_of_free hKeeps hConverts hFollows hFree r
  · intro hClogged args r hAdmits
    exact
      Target.refused_of_clogged hConverts hFollows hClogged hAdmits r

/- The session of the well-known classes. -/
def known : Session :=
  .start (.initial .wellKnown) .empty {} .checking

theorem known_isFresh : known.IsFresh where
  names := rfl
  state := by
    refine ⟨.empty, none, rfl, ?_⟩
    intro i t hAt
    cases hAt

/- Targets that return an `int` and a `char` that they get. -/
def identities : List Step :=
  [.make (.identity (.prim .char)) (some "char"),
   .make (.identity .int) (some "int")]

/- A number in, and a value of a kind out. -/
def ofNumber (k : Kind) : Signature :=
  ⟨[.cls .number], .prim k,
    ⟨by simp [Ty.IsVoid], Nat.le_of_ble_eq_true rfl⟩⟩

theorem ofNumber_convertible
    {k : Kind}
    (hNumeric : k.isNumeric = true)
    (hSig : t.signature.params = [.prim k])
    (hRet : t.signature.ret = .prim k) :
    (ofNumber k).Convertible known.context.runtime.classes
      .implicit t.signature := by
  have hParam :
      (Ty.cls .number).ConvertsTo known.context.runtime.classes
        .implicit (.prim k) := by
    cases k with
    | boolean => cases hNumeric
    | void => cases hNumeric
    | _ => exact ⟨_, rfl⟩
  refine ⟨?_, ?_, ?_⟩
  · rw [Signature.count, Signature.count, hSig]
    rfl
  · rw [hSig]
    exact ParamsConvert.cons_iff.2 ⟨hParam, .nil⟩
  · rw [hRet]
    exact ⟨_, classify_self _ _ _⟩

/- The identity of a kind is named, and retyped to a number. -/
theorem identities_retyped
    {k : Kind}
    {i : Nat}
    (hNumeric : k.isNumeric = true)
    (hAt :
      (known.after identities).context.names.targets[i]?.map
          (fun p => (p.2.params, p.2.ret)) =
        some ([.prim k], .prim k)) :
    ∃ t u s',
      (known.after identities).context.Names t ∧
        t.params = [.prim k] ∧
        t.asType known.context.runtime (ofNumber k)
          (known.after identities).state = .ok u s' := by
  rcases Option.map_eq_some_iff.1 hAt with ⟨⟨n, t⟩, hGet, hEq⟩
  have hNamed : (known.after identities).context.Names t :=
    ⟨n, List.mem_of_getElem? hGet⟩
  have hParams : t.params = [.prim k] := congrArg Prod.fst hEq
  have hRet : t.ret = .prim k := congrArg Prod.snd hEq
  rcases
    asType_succeeds known_isFresh rfl
      (World.host_makesNoTargets (.initial .wellKnown))
      identities hNamed (ofNumber_convertible hNumeric hParams hRet)
    with ⟨u, s', hOk⟩
  exact ⟨t, u, s', hNamed, hParams, hOk⟩

/- A number gets through to a target that takes an `int`. -/
theorem asType_passable_unless_clogged_int :
    ∃ t u s' args h,
      (known.after identities).context.Names t ∧
        t.asType known.context.runtime (ofNumber .int)
          (known.after identities).state = .ok u s' ∧
        s'.heap.Supplies args h ∧
        t.Reached known.context.runtime (ofNumber .int) u args
          { s' with heap := h } := by
  rcases
    identities_retyped (k := .int) (i := 0) rfl
      (by decide +kernel)
    with ⟨t, u, s', hNamed, hParams, hOk⟩
  have hFree :
      ∀ q ∈ (ofNumber .int).params.zip t.params,
        ¬q.1.Clogs q.2 := by
    rw [hParams]
    decide
  rcases
    (asType_passable_unless_clogged known_isFresh rfl
      (World.host_makesNoTargets (.initial .wellKnown))
      (fun _ _ hFind => hFind) identities hNamed hOk).1 hFree s'
    with ⟨args, h, hSupplies, hReached⟩
  exact ⟨t, u, s', args, h, hNamed, hOk, hSupplies, hReached⟩

/-
  A number is planned to become a `char`, and no arguments
  ever get through.
-/
theorem asType_clogged_char :
    ∃ t u s',
      (known.after identities).context.Names t ∧
        t.asType known.context.runtime (ofNumber .char)
          (known.after identities).state = .ok u s' ∧
        ∀ args r,
          Target.admits known.context.runtime.classes
              (ofNumber .char) args = true →
            t.Refused known.context.runtime (ofNumber .char) u
              args r := by
  rcases
    identities_retyped (k := .char) (i := 1) rfl
      (by decide +kernel)
    with ⟨t, u, s', hNamed, hParams, hOk⟩
  have hClogged :
      ∃ q ∈ (ofNumber .char).params.zip t.params,
        q.1.Clogs q.2 := by
    rw [hParams]
    exact ⟨_, List.mem_cons_self, rfl, rfl⟩
  rcases
    asType_follows known_isFresh rfl
      (World.host_makesNoTargets (.initial .wellKnown))
      identities hNamed hOk
    with ⟨p, w, hConverts, hFollows⟩
  refine ⟨t, u, s', hNamed, hOk, ?_⟩
  intro args r hAdmits
  exact
    Target.refused_of_clogged hConverts hFollows hClogged hAdmits r

end Session

end Linkage
