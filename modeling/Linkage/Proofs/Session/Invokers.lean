import Linkage.Proofs.Session.Folding
import Linkage.Proofs.Session.RoundTrip

/-
  Targets that invoke their first argument, a handle, with the
  others.  Through a signature, the target of the handle is
  called as if it were retyped to it; exactly, it has to be of
  that signature, and is not entered if it is of another.
  What comes of the call is what comes of calling the target
  itself, whatever target it is.

  Key definitions include:
    * `Target.Invokes`
    * `Target.wayInvoked`

  Key theorems include:
    * `State.Knows.invoker_ok`
    * `Target.Invokes.run_eq`
    * `Target.Invokes.agrees`
    * `State.Knows.typed_agrees`
    * `Session.invokers_agree`
-/

------------------------------------------------------------
-- Invokers
------------------------------------------------------------

namespace Linkage

/- A target that invokes handles of a signature. -/
structure Target.Invokes
    (x : Target)
    (exact : Bool)
    (sig : Signature) : Prop where
  form_eq : x.form = .invoker exact sig
  params_eq : x.params = .methodHandle :: sig.params
  ret_eq : x.ret = sig.ret

/- How the target of the handle is called. -/
def Target.wayInvoked
    (exact : Bool)
    (sig : Signature) : Way :=
  if exact then .exactTyped sig else .typed sig

variable {T : ClassTable}
variable {rt : Runtime}
variable {exact : Bool}
variable {sig : Signature}
variable {h u x : Target}
variable {ts : List Target}
variable {o : Obj}
variable {args : List Value}
variable {q r : State}

/- There are invokers of all signatures with room for a handle. -/
theorem State.Knows.invoker_ok
    (hKnows : q.Knows rt ts)
    (hChecking : rt.compile = .checking)
    (hRoom : sig.slots + 1 ≤ maxSlots)
    (exact : Bool) :
    ∃ x q',
      Target.invoker rt sig exact q = .ok x q' ∧
        q'.Knows rt (x :: ts) ∧ x.Invokes exact sig := by
  have hFits :
      Admissible
        (sig.params.take 0 ++ [.methodHandle] ++
          sig.params.drop 0) := by
    constructor
    · change ∀ p ∈ .methodHandle :: sig.params, p.IsVoid = false
      exact List.forall_mem_cons.2 ⟨rfl, sig.admissible.noVoid⟩
    · change 1 + slotCount sig.params ≤ maxSlots
      rw [Nat.add_comm]
      exact hRoom
  have hInsert :=
    Signature.insertParams_ok (Nat.zero_le sig.count) hFits
  have hBuild :
      Target.invoker rt sig exact q =
        Target.buildKeyed rt ⟨_, sig.ret, hFits⟩
          (.invoker exact sig) ⟨0, 1⟩
          (some (.label (Target.invokerLabel exact))) q := by
    unfold Target.invoker
    rw [hInsert]
    rfl
  rcases
    hKnows.buildKeyed_ok hChecking hBuild (List.forall_mem_nil _)
      (Or.inr ⟨rfl, rfl⟩) (fun _ _ => Makes.invoker)
    with ⟨x, q', hRun, hLater, hForm, hSig⟩
  refine ⟨x, q', hRun, hLater, hForm, ?_, ?_⟩
  · rw [Target.params, hSig]
    rfl
  · rw [Target.ret, hSig]

------------------------------------------------------------
-- Calls of Invokers
------------------------------------------------------------

/- A handle, and arguments of the signature, match an invoker. -/
theorem Target.Invokes.admits
    (hInvokes : x.Invokes exact sig)
    (hHandle : q.heap.handle? o = some h)
    (hAdmits : Target.admits T sig args = true) :
    Target.admits T x.signature (.ref o :: args) = true := by
  have hParams : x.signature.params = .methodHandle :: sig.params :=
    hInvokes.params_eq
  have hType : o.type = .methodHandle := by
    unfold Heap.handle? at hHandle
    unfold Obj.type
    cases hShape : o.shape with
    | handle => rfl
    | _ =>
        rw [hShape] at hHandle
        cases hHandle
  rw [Target.admits_iff, hParams]
  refine .cons ?_ (Target.admits_iff.1 hAdmits)
  change T.isAssignable o.type .methodHandle = true
  rw [hType]
  exact T.isAssignable_refl .methodHandle

/- The state knows the target of a handle that it holds. -/
theorem State.Knows.handle
    (hKnows : q.Knows rt ts)
    (hHandle : q.heap.handle? o = some h) :
    q.Knows rt [h] := by
  rcases hKnows with ⟨c, hFits, hSound, _⟩
  refine ⟨c, hFits, hSound, List.forall_mem_singleton.2 ?_⟩
  exact hSound.handles _ _ (Heap.at?_of_handle? hHandle)

section Calls

variable (hKnows : q.Knows rt [x])
variable (hChecking : rt.compile = .checking)
variable (hInvokes : x.Invokes exact sig)
variable (hHandle : q.heap.handle? o = some h)
variable (hAdmits : Target.admits rt.classes sig args = true)
include hKnows hChecking hInvokes hHandle hAdmits

/- The target of the handle is called, and held meanwhile. -/
theorem Target.Invokes.run_eq (n : Nat) :
    (Entry.way .exact).run rt (n + 1) x (.ref o :: args) q =
      Run.holding [.target h]
        ((Target.wayInvoked exact sig).run rt (Target.enter rt n) h
          args)
        (q.passed (some x) (.ref o :: args)) := by
  have hPassed :
      (q.passed (some x) (.ref o :: args)).heap.handle? o =
        some h :=
    hHandle
  rw [hKnows.exact_succ hChecking List.mem_cons_self
    (hInvokes.admits hHandle hAdmits) n]
  unfold Target.behave
  rw [hInvokes.form_eq]
  dsimp only
  unfold runInvoker
  dsimp only
  rw [Run.get_bind, hPassed]
  cases exact with
  | _ => rfl

variable (hHost : rt.host.MakesNoTargets)
include hHost

/- So the two calls come to the same. -/
theorem Target.Invokes.agrees :
    (Entry.way .exact).Agrees rt x (.ref o :: args) q
      (.way (Target.wayInvoked exact sig)) h args q := by
  have hSelf :
      h.MatchedFrom (fun _ => True) rt [h] [h] h :=
    ⟨List.mem_cons_self, List.mem_cons_self, rfl, 0, 0,
      Target.entersAs_refl _ hChecking hHost h⟩
  let z : State :=
    { q.passed (some x) (.ref o :: args) with
      held := [.target h] ++ q.held }
  have hSame : z.Same q :=
    (((State.Same.refl q).logEntry x (.ref o :: args)).withHeld
      _).symm
  have hLists : q.Lists rt [h] := by
    rcases hKnows.handle hHandle with ⟨c, _, hSound, hMade⟩
    exact ⟨c, hSound, hMade⟩
  have hLists' : z.Lists rt [h] := by
    rcases hLists with ⟨c, hSound, hMade⟩
    exact
      ⟨c, (Target.sound_passed hSound (some x) _).withHeld _, hMade⟩
  have hRuns :
      ∃ j k, ∀ n,
        Run.MatchedOn (fun _ => True)
          ((Entry.way (Target.wayInvoked exact sig)).run rt (n + j)
            h args z)
          ((Entry.way (Target.wayInvoked exact sig)).run rt (n + k)
            h args q) := by
    cases exact with
    | _ =>
        exact
          hSelf.run hChecking hSame hLists' hLists (.way _) trivial
            trivial trivial
  rcases hRuns with ⟨j, k, hRuns⟩
  refine Entry.comesTo_of_same (j := j + 1) (k := k) ?_
  intro n
  rw [← Nat.add_assoc,
    hInvokes.run_eq hKnows hChecking hHandle hAdmits]
  have hInner := hRuns n (fun _ _ _ => trivial)
  exact (Run.Same.holding hInner.symm).symm

end Calls

------------------------------------------------------------
-- Calls with a Call Type
------------------------------------------------------------

section Typed

variable (hKnows : q.Knows rt [h])
variable (hChecking : rt.compile = .checking)
include hKnows hChecking

/- A target that cannot be retyped is refused. -/
theorem State.Knows.typed_refused
    {e : LinkError}
    (hError : h.asType rt sig q = .error e r)
    (args : List Value) :
    (Entry.way (.typed sig)).ComesTo rt h args q
      (.error (.fault (.callType h.signature sig)) q) := by
  rcases hKnows with ⟨c, _, hSound, hMade⟩
  have hh := hMade h List.mem_cons_self
  rcases hSound.retypeAs_cases hChecking hh .implicit sig with
    ⟨e', _, hPlan, _⟩ | ⟨_, _, _, _, _, hRun, _⟩
  · refine ⟨nofun, 0, ?_⟩
    exact
      Target.invokeTyped_refused hChecking hSound hh hPlan
        (Target.enter rt 0)
  · change h.asType rt sig q = _ at hRun
    rw [hError] at hRun
    cases hRun

/-
  A call with a call type comes to what an exact call of the
  target comes to that is retyped to it.
-/
theorem State.Knows.typed_agrees
    (hHost : rt.host.MakesNoTargets)
    (hOk : h.asType rt sig q = .ok u r)
    (hAdmits : Target.admits rt.classes sig args = true) :
    (Entry.way (.typed sig)).Agrees rt h args q (.way .exact) u
      args r := by
  rcases hKnows with ⟨c, _, hSound, hMade⟩
  have hh := hMade h List.mem_cons_self
  rcases hSound.of_asType hChecking hh hOk with
    ⟨p, d, hPlan, hGrown, hu, hConverted⟩
  rcases
    hConverted.enter_follows hGrown.sound.valid hChecking hu hPlan
    with ⟨w, _, _, hFollows⟩
  rcases
    Target.invokeTyped_follows hChecking hSound hh hPlan hAdmits
    with ⟨w', y, d', z, hGrown', _, hTyped⟩
  rcases Target.followPlan_length hPlan with ⟨hLength, hCount⟩
  have hAdmits' :
      Target.admits rt.classes u.signature args = true := by
    rw [hConverted.signature_eq]
    exact hAdmits
  have hHere : q.Same r :=
    ⟨hGrown.heap_eq, hGrown.sites_eq,
      congrArg hostEvents hGrown.trace_eq⟩
  have hThere :
      q.Same { z with held := [.target y] ++ q.held } :=
    ⟨hGrown'.heap_eq, hGrown'.sites_eq,
      congrArg hostEvents hGrown'.trace_eq⟩
  have hArgs : args.length = h.count :=
    (Target.length_of_admits hAdmits).trans hCount
  have hBoth :
      ∀ n,
        Run.MatchedOn (fun _ => True)
          (h.followPlan rt p w' (Target.enter rt n) args
            { z with held := [.target y] ++ q.held })
          (h.followPlan rt p w (Target.enter rt n) args r) :=
    Target.followPlan_matched (fun _ (_ : True) => True.intro)
      (Target.entersAs_refl (fun _ => True) hChecking hHost h)
      (List.forall₂_same.2 fun k _ => .refl k) (.refl p.ret)
      (hThere.symm.trans hHere) (hGrown'.sound.withHeld _)
      hGrown.sound
      (List.forall_mem_singleton.2
        (Catalog.mem_of_le hGrown'.le hh))
      (List.forall_mem_singleton.2
        (Catalog.mem_of_le hGrown.le hh))
      hLength hArgs
  refine Entry.comesTo_of_same (j := w'.depth) (k := w.depth) ?_
  intro n
  change
    Run.Same
      (h.invokeTyped rt (Target.enter rt (n + w'.depth)) sig args q)
      (u.invokeExact rt (Target.enter rt (n + w.depth)) args r)
  rw [hTyped, Target.invokeExact_of_admits hAdmits',
    hFollows n args (Target.length_of_admits hAdmits)]
  have hInner := hBoth n (fun _ _ _ => trivial)
  exact (Run.Same.holding hInner.symm).symm

/- Of the own signature, an invoker calls the target exactly. -/
theorem State.Knows.wayInvoked_own
    (hHost : rt.host.MakesNoTargets)
    (hAdmits : Target.admits rt.classes h.signature args = true) :
    (Entry.way (Target.wayInvoked exact h.signature)).Agrees rt h
      args q (.way .exact) h args q := by
  cases exact with
  | true =>
      refine Entry.comesTo_of_same (j := 0) (k := 0) ?_
      intro n
      change
        Run.Same
          (h.invokeExactTyped rt (Target.enter rt n) h.signature args
            q)
          (h.invokeExact rt (Target.enter rt n) args q)
      unfold Target.invokeExactTyped
      rw [if_pos rfl]
      exact .refl _
  | false =>
      have hOwn : h.asType rt h.signature q = .ok h q := by
        unfold Target.asType
        rw [if_pos rfl]
        rfl
      exact hKnows.typed_agrees hChecking hHost hOwn hAdmits

end Typed

/- An exact call type of another signature is refused. -/
theorem Target.exactTyped_refused
    (hOther : h.signature ≠ sig)
    (enter : Enter)
    (args : List Value)
    (z : State) :
    Run.holding [.target h]
        ((Target.wayInvoked true sig).run rt enter h args) z =
      .error (.fault (.callType h.signature sig)) z := by
  have hRun :
      (Target.wayInvoked true sig).run rt enter h args
          { z with held := [.target h] ++ z.held } =
        .error (.fault (.callType h.signature sig))
          { z with held := [.target h] ++ z.held } := by
    change h.invokeExactTyped rt enter sig args _ = _
    unfold Target.invokeExactTyped
    rw [if_neg (Ne.symm hOther)]
    rfl
  have hReleased := Run.holding_error z hRun
  exact hReleased

------------------------------------------------------------
-- Invokers in a Session
------------------------------------------------------------

/- A handle can be made of every target that is known. -/
theorem State.Knows.allocHandle
    (hKnows : q.Knows rt ts)
    (hh : h ∈ ts) :
    State.Knows rt { q with heap := (q.heap.allocHandle h).2 } ts ∧
      (q.heap.allocHandle h).2.handle? (q.heap.allocHandle h).1 =
        some h := by
  rcases hKnows with ⟨c, hFits, hSound, hMade⟩
  have hAt :
      (q.heap.allocHandle h).2.at? q.heap.size =
        some (.target h) := by
    unfold Heap.allocHandle
    rw [Heap.at?_alloc, if_pos rfl]
  constructor
  · refine ⟨c, hFits, hSound.withHeap ?_, hMade⟩
    intro i t hTarget
    unfold Heap.allocHandle at hTarget
    rw [Heap.at?_alloc] at hTarget
    split at hTarget
    · cases hTarget
      exact hMade h hh
    · exact hSound.handles i t hTarget
  · have hObj : (q.heap.allocHandle h).1 = ⟨q.heap.size, .handle⟩ :=
      rfl
    unfold Heap.handle?
    rw [hObj]
    dsimp only
    rw [hAt]

namespace Session

variable {s : Session}

/-
  There are invokers, of both sorts, of every signature with
  room for a handle, and handles of every known target.  With
  arguments of the signature, an invoker comes to what a call
  of the target with that call type comes to; that is, to what
  an exact call of the retyped target does, and to a mismatch
  of types if there is none.  An exact invoker comes to what an
  exact call of a target of its signature comes to, and to such
  a mismatch, with nothing entered after it, if the target is
  of another.  Of targets of the signature, both do what the
  target does.
-/
theorem invokers_agree
    (hFresh : s.IsFresh)
    (hChecking : s.context.runtime.compile = .checking)
    (hHost : s.context.runtime.host.MakesNoTargets)
    (xs : List Step) :
    let rt := s.context.runtime
    (∀ ts : List Target,
      (∀ t ∈ ts, (s.after xs).context.Names t) →
        (s.after xs).state.Knows rt ts) ∧
      (∀ (r : State) (ts : List Target) (exact : Bool)
        (sig : Signature),
        r.Knows rt ts → sig.slots + 1 ≤ maxSlots →
          ∃ x r',
            Target.invoker rt sig exact r = .ok x r' ∧
              r'.Knows rt (x :: ts) ∧ x.Invokes exact sig) ∧
      (∀ (r : State) (ts : List Target) (h : Target),
        r.Knows rt ts → h ∈ ts →
          State.Knows rt
              { r with heap := (r.heap.allocHandle h).2 } ts ∧
            (r.heap.allocHandle h).2.handle?
                (r.heap.allocHandle h).1 =
              some h) ∧
      ∀ (q : State) (x h : Target) (o : Obj) (exact : Bool)
        (sig : Signature) (args : List Value),
        q.Knows rt [x] → x.Invokes exact sig →
          q.heap.handle? o = some h →
          Target.admits rt.classes sig args = true →
            (exact = false →
              (Entry.way .exact).Agrees rt x (.ref o :: args) q
                  (.way (.typed sig)) h args q ∧
                (∀ u r, h.asType rt sig q = .ok u r →
                  (Entry.way .exact).Agrees rt x (.ref o :: args) q
                    (.way .exact) u args r) ∧
                ∀ e r, h.asType rt sig q = .error e r →
                  ∃ z,
                    q.Same z ∧
                      (Entry.way .exact).ComesTo rt x
                        (.ref o :: args) q
                        (.error
                          (.fault (.callType h.signature sig)) z)) ∧
              (exact = true → h.signature ≠ sig →
                ∃ z,
                  q.Same z ∧
                    z.trace =
                      .entered x (.ref o :: args) :: q.trace ∧
                    (Entry.way .exact).ComesTo rt x
                      (.ref o :: args) q
                      (.error
                        (.fault (.callType h.signature sig)) z)) ∧
              (h.signature = sig →
                (Entry.way .exact).Agrees rt x (.ref o :: args) q
                  (.way .exact) h args q) := by
  intro rt
  refine ⟨?named, ?made, ?handles, ?invoked⟩
  case named =>
    intro ts hNamed
    exact knows_after hFresh hHost xs hNamed
  case made =>
    intro r ts exact sig hKnows hRoom
    exact hKnows.invoker_ok hChecking hRoom exact
  case handles =>
    intro r ts h hKnows hh
    exact hKnows.allocHandle hh
  case invoked =>
    intro q x h o exact sig args hKnows hInvokes hHandle hAdmits
    have hTarget := hKnows.handle hHandle
    have hAgrees :=
      hInvokes.agrees hKnows hChecking hHandle hAdmits hHost
    refine ⟨?through, ?other, ?own⟩
    case through =>
      rintro rfl
      refine ⟨hAgrees, ?_, ?_⟩
      · intro u r hOk
        exact
          hAgrees.trans
            (hTarget.typed_agrees hChecking hHost hOk hAdmits)
      · intro e r hError
        rcases
          hAgrees.comesTo
            (hTarget.typed_refused hChecking hError args)
          with ⟨_, hComes, hSame⟩
        cases hSame with
        | error hStates => exact ⟨_, hStates.symm, hComes⟩
    case other =>
      rintro rfl hOther
      refine
        ⟨q.passed (some x) (.ref o :: args),
          (State.Same.refl q).logEntry x _, rfl, nofun, 1, ?_⟩
      rw [hInvokes.run_eq hKnows hChecking hHandle hAdmits 0]
      exact Target.exactTyped_refused hOther _ args _
    case own =>
      rintro rfl
      exact
        hAgrees.trans
          (hTarget.wayInvoked_own hChecking hHost hAdmits)

/- A short integer in, and a long one out. -/
def shortToLong : Signature :=
  ⟨[.prim .short], .prim .long, ⟨by decide, by decide⟩⟩

/-
  Whether a named target of another signature gives a long five
  for a short one when it is called with this signature, in
  the state with two invokers and a handle of it.
-/
def widensFive
    (s : Session)
    (n : String) : Bool :=
  let rt := s.context.runtime
  match s.context.names.targets.lookup n with
  | none => false
  | some t =>
      match Target.invoker rt shortToLong false s.state with
      | .error _ _ => false
      | .ok _ r =>
          match Target.invoker rt shortToLong true r with
          | .error _ _ => false
          | .ok _ r' =>
              t.signature ≠ shortToLong &&
                gives (.prim (.long 5))
                  ((Entry.way (.typed shortToLong)).run rt 9 t
                    [.prim (.short 5)]
                    { r' with heap := (r'.heap.allocHandle t).2 })

/-
  A target for integers is invoked as one from short to long
  ones, and is not invoked exactly.
-/
theorem invokers_agree_widened :
    ∃ t x y q o z z',
      (known.after identities).context.Names t ∧
        x.Invokes false shortToLong ∧ y.Invokes true shortToLong ∧
        q.heap.handle? o = some t ∧
        (Entry.way .exact).ComesTo known.context.runtime x
          [.ref o, .prim (.short 5)] q (.ok (.prim (.long 5)) z) ∧
        (Entry.way .exact).ComesTo known.context.runtime y
          [.ref o, .prim (.short 5)] q
          (.error (.fault (.callType t.signature shortToLong)) z') ∧
        q.Same z' := by
  have hCheck : (known.after identities).widensFive "int" = true := by
    decide +kernel
  have hAdmits :
      Target.admits known.context.runtime.classes shortToLong
          [.prim (.short 5)] =
        true := by
    decide
  have hRoom : shortToLong.slots + 1 ≤ maxSlots := by decide
  rcases
    invokers_agree known_isFresh rfl
      (World.host_makesNoTargets (.initial .wellKnown)) identities
    with ⟨hNamed, hMade, hHandles, hInvoked⟩
  unfold widensFive at hCheck
  rw [runtime_after] at hCheck
  dsimp only at hCheck
  split at hCheck
  · cases hCheck
  · rename_i t hLookup
    have hName := names_of_lookup hLookup
    have hStart := hNamed [t] (List.forall_mem_singleton.2 hName)
    rcases hMade _ [t] false shortToLong hStart hRoom with
      ⟨x, r, hRun, hKnows, hThrough⟩
    rcases hMade r [x, t] true shortToLong hKnows hRoom with
      ⟨y, r', hRun', hKnows', hExact⟩
    rw [hRun] at hCheck
    dsimp only at hCheck
    rw [hRun'] at hCheck
    simp only [Bool.and_eq_true, decide_eq_true_eq] at hCheck
    rcases hCheck with ⟨hOther, hGives⟩
    rcases exists_of_gives hGives with ⟨z, hWide⟩
    rcases hHandles r' [y, x, t] t hKnows' (by simp) with
      ⟨hAll, hHandle⟩
    rcases
      (hInvoked _ x t _ false shortToLong _ (hAll.mono (by simp))
        hThrough hHandle hAdmits).1 rfl
      with ⟨hAgrees, _, _⟩
    have hTyped :
        (Entry.way (.typed shortToLong)).ComesTo
          known.context.runtime t [.prim (.short 5)]
          { r' with heap := (r'.heap.allocHandle t).2 }
          (.ok (.prim (.long 5)) z) :=
      ⟨nofun, 9, hWide⟩
    rcases hAgrees.comesTo hTyped with ⟨_, hComes, hSame⟩
    rcases
      (hInvoked _ y t _ true shortToLong _ (hAll.mono (by simp))
        hExact hHandle hAdmits).2.1 rfl hOther
      with ⟨z', hStates, _, hFails⟩
    cases hSame with
    | ok _ =>
        exact
          ⟨t, x, y, _, _, _, z', hName, hThrough, hExact, hHandle,
            hComes, hFails, hStates⟩

end Session

end Linkage
