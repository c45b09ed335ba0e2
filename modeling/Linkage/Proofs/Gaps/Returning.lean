import Linkage.Proofs.Conversion.Back
import Linkage.Proofs.Gaps.Besides
import Linkage.Proofs.Session.Matched

/-
  Targets that are retyped to another signature and back.
  Arguments that match are boxed and unboxed on the way in,
  and so is the result on the way out.  What is left is that
  the target was entered with the boxes of the arguments in
  the heap, and that there is one more box at the end.

  Key definitions include:
    * `Signature.Loosens`
    * `Run.Fair`
    * `Run.SamePlus`
    * `Run.Regains`
    * `Entry.Suits`

  Key theorems include:
    * `Run.convertEach_back`
    * `Target.followPlan_back`
    * `Target.enter_back`
    * `Entry.run_enters`
    * `Entry.comesTo_besides`
-/

------------------------------------------------------------
-- Arguments There and Back
------------------------------------------------------------

namespace Linkage

variable {α β : Type}
variable {T : ClassTable}
variable {rt : Runtime}
variable {sig : Signature}
variable {a b : Ty}
variable {c d : Conversion}
variable {p q : Plan}
variable {args : List Value}
variable {s s' : State}

theorem Run.onHeap_ok
    {f : Heap → Except Fault α × Heap}
    {x : α}
    {h : Heap}
    (hOk : f s.heap = (.ok x, h)) :
    Run.onHeap f s = .ok x { s with heap := h } := by
  unfold Run.onHeap
  rw [hOk]

/-
  Values of primitive types that are converted one by one, and
  then back, are as they were; there are some more boxes.
-/
theorem Run.convertEach_back
    {as bs : List Ty}
    {cs ds : List Conversion}
    (hKeeps : T.KeepsWellKnown)
    (hThere :
      List.Forall₂
        (fun (t : Ty × Ty) c =>
          classify T t.1 t.2 .implicit = some c)
        (as.zip bs) cs)
    (hBack :
      List.Forall₂
        (fun (t : Ty × Ty) c =>
          classify T t.1 t.2 .implicit = some c)
        (bs.zip as) ds)
    (hPrim : ∀ t ∈ as.zip bs, t.1 ≠ t.2 → t.1.IsPrim = true)
    (hNoVoid : ∀ b ∈ bs, b.IsVoid = false)
    (hCount : as.length = bs.length)
    (hConform :
      List.Forall₂ (fun v a => v.conforms T a = true) args as) :
    ∃ k, ∀ s, ∃ vs,
      convertEach T cs args s =
          .ok vs { s with heap := s.heap.plus k } ∧
        ∀ s', convertEach T ds vs s' = .ok args s' := by
  induction hConform generalizing bs cs ds with
  | nil =>
      refine ⟨0, fun s => ⟨[], ?_, ?_⟩⟩
      · cases hThere
        rw [Heap.plus_zero]
        rfl
      · intro s'
        cases bs with
        | nil =>
            cases hBack
            rfl
        | cons _ _ => cases hCount
  | @cons v a args as hValue _ ih =>
      cases bs with
      | nil => cases hCount
      | cons b bs =>
          cases hThere with
          | @cons _ c _ cs hc hcs =>
              cases hBack with
              | @cons _ d _ ds hd hds =>
                  have hVoid : b = .void → a = .void := by
                    intro hIs
                    have hNot := hNoVoid b List.mem_cons_self
                    rw [hIs] at hNot
                    cases hNot
                  rcases
                    classify_back hKeeps hc hd
                      (hPrim (a, b) List.mem_cons_self) hVoid
                      (fun _ => hValue)
                    with ⟨n, _, hRevives⟩
                  rcases
                    ih hcs hds
                      (fun t ht =>
                        hPrim t (List.mem_cons_of_mem _ ht))
                      (fun b hb =>
                        hNoVoid b (List.mem_cons_of_mem _ hb))
                      (Nat.succ.inj hCount)
                    with ⟨k, hRest⟩
                  refine ⟨n + k, fun s => ?_⟩
                  rcases hRevives s.heap with ⟨w, hw, hUnbox⟩
                  rcases hRest { s with heap := s.heap.plus n } with
                    ⟨ws, hws, hAll⟩
                  refine ⟨w :: ws, ?_, fun s' => ?_⟩
                  · rw [convertEach_cons, bind_ok (onHeap_ok hw),
                      bind_ok hws, ← Heap.plus_plus]
                    rfl
                  · rw [convertEach_cons,
                      bind_ok (onHeap_ok (hUnbox s'.heap)),
                      bind_ok (hAll s')]
                    rfl

------------------------------------------------------------
-- Outcomes There and Back
------------------------------------------------------------

/-
  The other signature loosens the own one: where they differ,
  the own type is primitive; and a result is not dropped.
-/
structure Signature.Loosens (sig own : Signature) : Prop where
  params :
    ∀ t ∈ own.params.zip sig.params,
      t.1 ≠ t.2 → t.1.IsPrim = true
  ret : own.ret ≠ sig.ret → own.ret.IsPrim = true
  void : sig.ret = .void → own.ret = .void

/-
  An outcome that can be converted to a type and back.  It is
  a failure, or a value of the own type; where the types are
  the same it is anything.
-/
def Run.Fair
    (T : ClassTable)
    (a b : Ty) : EStateM.Result Halt State Value → Prop
| .ok v _ => a ≠ b → v.conforms T a = true
| .error _ _ => True

/- One result, or one failure, with more boxes in the heap. -/
inductive Run.SamePlus (n : Nat) :
    EStateM.Result Halt State Value →
      EStateM.Result Halt State Value → Prop
| ok {v : Value} {s s' : State} :
    State.Same { s with heap := s.heap.plus n } s' →
    SamePlus n (.ok v s) (.ok v s')
| error {e : Halt} {s s' : State} :
    State.Same { s with heap := s.heap.plus n } s' →
    SamePlus n (.error e s) (.error e s')

/-
  An outcome is regained: the other run comes to an end if the
  one does, and to the same end if it is fair, with at most
  one more box.
-/
structure Run.Regains
    (T : ClassTable)
    (a b : Ty)
    (r r' : EStateM.Result Halt State Value) : Prop where
  ended_iff : Run.Ended r ↔ Run.Ended r'
  same : Run.Fair T a b r → ∃ n, n ≤ 1 ∧ Run.SamePlus n r r'

variable {n : Nat}
variable {r r' : EStateM.Result Halt State Value}

/- As many boxes more in states that are the same. -/
theorem State.Same.plus
    (hSame : s.Same s')
    (k : Nat) :
    State.Same { s with heap := s.heap.plus k }
      { s' with heap := s'.heap.plus k } :=
  ⟨congrArg (Heap.plus · k) hSame.heap_eq, hSame.sites_eq,
    hSame.calls_eq⟩

/- Outcomes that are the same can stand for each other. -/
theorem Run.SamePlus.congr
    {x x' : EStateM.Result Halt State Value}
    (hSame : Run.Same r r')
    (hPlus : Run.SamePlus n r' x)
    (hSame' : Run.Same x x') :
    Run.SamePlus n r x' := by
  cases hPlus with
  | ok hState =>
      cases hSame with
      | ok hLeft =>
          cases hSame' with
          | ok hRight =>
              exact .ok (((hLeft.plus n).trans hState).trans hRight)
  | error hState =>
      cases hSame with
      | error hLeft =>
          cases hSame' with
          | error hRight =>
              exact
                .error (((hLeft.plus n).trans hState).trans hRight)

theorem Run.Fair.congr
    (hFair : Run.Fair T a b r)
    (hSame : Run.Same r r') :
    Run.Fair T a b r' := by
  cases hSame with
  | ok _ => exact hFair
  | error _ => trivial

theorem Run.Regains.congr
    {x x' : EStateM.Result Halt State Value}
    (hSame : Run.Same r r')
    (hRegains : Run.Regains T a b r' x)
    (hSame' : Run.Same x x') :
    Run.Regains T a b r x' where
  ended_iff :=
    hSame.ended_iff.trans
      (hRegains.ended_iff.trans hSame'.ended_iff)
  same := by
    intro hFair
    rcases hRegains.same (hFair.congr hSame) with ⟨n, hLe, hPlus⟩
    exact ⟨n, hLe, hPlus.congr hSame hSame'⟩

/- The heap is used without going any deeper. -/
theorem Run.ended_onHeap
    (f : Heap → Except Fault Value × Heap)
    (s : State) :
    Run.Ended (Run.onHeap f s) := by
  intro hHalt
  unfold Run.onHeap at hHalt
  split at hHalt
  · cases hHalt
  · cases hHalt

/- A result that is converted there and back. -/
theorem Run.regains_back
    (hKeeps : T.KeepsWellKnown)
    (hThere : classify T a b .implicit = some c)
    (hBack : classify T b a .implicit = some d)
    (hPrim : a ≠ b → a.IsPrim = true)
    (hVoid : b = .void → a = .void)
    (m : Run Value)
    (s : State) :
    Run.Regains T a b (m s)
      ((do
        let v ← m
        let w ← Run.onHeap (c.apply T v)
        Run.onHeap (d.apply T w)) s) := by
  cases hRun : m s with
  | error e z =>
      rw [Run.bind_error hRun]
      refine ⟨Iff.rfl, fun _ => ⟨0, Nat.zero_le 1, .error ?_⟩⟩
      rw [Heap.plus_zero]
      exact .refl z
  | ok v z =>
      rw [Run.bind_ok hRun]
      constructor
      · refine iff_of_true nofun ?_
        rcases Run.onHeap_apply_cases T c v z with
          ⟨w, h, _, hOk⟩ | ⟨f, h, _, hError⟩
        · rw [Run.bind_ok hOk]
          exact Run.ended_onHeap _ _
        · rw [Run.bind_error hError]
          exact nofun
      · intro hFair
        rcases classify_back hKeeps hThere hBack hPrim hVoid hFair with
          ⟨n, hLe, hRevives⟩
        rcases hRevives z.heap with ⟨w, hw, hUnbox⟩
        refine ⟨n, hLe, ?_⟩
        rw [Run.bind_ok (Run.onHeap_ok hw),
          Run.onHeap_ok (hUnbox (z.heap.plus n))]
        exact .ok (.refl _)

------------------------------------------------------------
-- Targets There and Back
------------------------------------------------------------

namespace Target

variable {t u x : Target}
variable {w w' : Wrapping}
variable {cat : Catalog}

/-
  A target that is retyped back, over the one that was retyped
  there.  Both plans are followed to the target, which is
  entered with the arguments themselves.
-/
theorem followPlan_back
    (u : Target)
    (w w' : Wrapping)
    (hKeeps : rt.classes.KeepsWellKnown)
    (hLoosens : sig.Loosens t.signature)
    (hThere : p.Converts rt.classes .implicit sig t.signature)
    (hBack : q.Converts rt.classes .implicit t.signature sig)
    (hAdmits : admits rt.classes t.signature args = true) :
    ∃ k, ∀ s : State, ∃ z : State,
      State.Same { s with heap := s.heap.plus k } z ∧
        (∀ c, s.Sound rt c → z.Sound rt c) ∧
        ∀ enter enter' : Enter,
          (∀ vs, vs.length = sig.count →
            enter' u vs = t.followPlan rt p w enter vs) →
          u.followPlan rt q w' enter' args s =
            (do
              let v ← enter t args
              let y ← Run.onHeap (p.ret.apply rt.classes v)
              Run.onHeap (q.ret.apply rt.classes y)) z := by
  rcases
    Run.convertEach_back hKeeps hBack.params hThere.params
      hLoosens.params sig.admissible.noVoid hBack.count_eq
      (admits_iff.1 hAdmits)
    with ⟨k, hEach⟩
  refine ⟨k, fun s => ?_⟩
  rcases hEach (s.passed w'.outer args) with ⟨vs, hOut, hIn⟩
  let y : State :=
    { s.passed w'.outer args with
      heap := (s.passed w'.outer args).heap.plus k }
  let z : State :=
    ((y.passed w'.inner vs).passed w.outer vs).passed w.inner args
  have hCount : vs.length = sig.count := by
    have hPlan := hBack.params.length_eq
    have hSame : t.signature.params.length = sig.params.length :=
      hBack.count_eq
    have hArgs : args.length = t.signature.params.length :=
      length_of_admits hAdmits
    rw [List.length_zip] at hPlan
    rw [Run.length_of_convertEach hOut, ← hPlan, hArgs, hSame]
    simp [Signature.count]
  have hPassed :
      ∀ (r : State) o args, r.Same (r.passed o args) :=
    fun r o args => passed_same none o args args (.refl r)
  refine ⟨z, ?_, ?_, ?_⟩
  · exact
      (((hPassed s w'.outer args).plus k).trans
        (hPassed y w'.inner vs)).trans
          ((hPassed _ w.outer vs).trans (hPassed _ w.inner args))
  · intro c hSound
    exact
      sound_passed
        (sound_passed
          (sound_passed ((sound_passed hSound _ _).plus k) _ _) _ _)
        _ _
  · intro enter enter' hEnter
    unfold followPlan
    rw [Run.bind_ok (pass_eq w'.outer args s), Run.bind_ok hOut,
      Run.bind_ok (pass_eq w'.inner vs _), hEnter vs hCount]
    unfold followPlan
    simp only [bind_assoc]
    rw [Run.bind_ok (pass_eq w.outer vs _), Run.bind_ok (hIn _),
      Run.bind_ok (pass_eq w.inner args _)]

/-
  Such a target that is entered regains what entering the
  target comes to, with the boxes of the arguments.
-/
theorem enter_back
    {i j : Nat}
    (hChecking : rt.compile = .checking)
    (hHost : rt.host.MakesNoTargets)
    (hKeeps : rt.classes.KeepsWellKnown)
    (hLoosens : sig.Loosens t.signature)
    (hThere : p.Converts rt.classes .implicit sig t.signature)
    (hBack : q.Converts rt.classes .implicit t.signature sig)
    (hFollows :
      ∀ n args, args.length = sig.count →
        Target.enter rt (n + i) u args =
          t.followPlan rt p w (Target.enter rt n) args)
    (hFollows' :
      ∀ n args, args.length = t.count →
        Target.enter rt (n + j) x args =
          u.followPlan rt q w' (Target.enter rt n) args)
    (hAdmits : admits rt.classes t.signature args = true) :
    ∃ k, ∀ (s : State) (n : Nat),
      s.Lists rt [t] →
        Run.Regains rt.classes t.ret sig.ret
          (Target.enter rt n t args
            { s with heap := s.heap.plus k })
          (Target.enter rt (n + i + j) x args s) := by
  rcases
    followPlan_back u w w' hKeeps hLoosens hThere hBack hAdmits
    with ⟨k, hEach⟩
  refine ⟨k, ?_⟩
  rintro s n ⟨c, hSound, hMade⟩
  have ht := hMade t List.mem_cons_self
  rcases hEach s with ⟨z, hSame, hKept, hPlan⟩
  rw [hFollows' (n + i) args (length_of_admits hAdmits),
    hPlan (Target.enter rt n) (Target.enter rt (n + i)) (hFollows n)]
  have hEntered :=
    enter_same hChecking hHost hSame (hSound.plus k)
      (hKept c hSound) ht ht n args
  exact
    Run.Regains.congr hEntered
      (Run.regains_back hKeeps hThere.ret hBack.ret hLoosens.ret
        hLoosens.void _ z)
      (.refl _)

end Target

------------------------------------------------------------
-- Ways of Calling with Arguments that Match
------------------------------------------------------------

/-
  The call is in line, and if a call type is given it is the
  signature.
-/
def Entry.Suits
    (e : Entry)
    (t : Target)
    (args : List Value) : Prop :=
  e.InLine t args ∧
    ∀ sig,
      e = .way (.exactTyped sig) ∨ e = .way (.typed sig) →
        sig = t.signature

/-
  A call with arguments that match the signature comes to what
  entering the target comes to, whatever way it is made.
-/
theorem Entry.run_enters
    {cat : Catalog}
    {t : Target}
    {e : Entry}
    (hChecking : rt.compile = .checking)
    (hHost : rt.host.MakesNoTargets)
    (hFits : cat.Fits rt)
    (hSound : s.Sound rt cat)
    (ht : t ∈ cat.made)
    (hAdmits : Target.admits rt.classes t.signature args = true)
    (hSuits : e.Suits t args) :
    ∃ j k, ∀ n,
      Run.Same (Target.enter rt (n + j) t args s)
        (e.run rt (n + k) t args s) := by
  rcases hSuits with ⟨hInLine, hAsks⟩
  have hCount : args.length = t.count :=
    Target.length_of_admits hAdmits
  have hArity : t.stub.arity = t.count :=
    (hSound.valid.serves t ht).arity_eq hChecking
  cases e with
  | stub x =>
      refine ⟨0, 0, fun n => ?_⟩
      change Run.Same _ (enterStub rt n x t args s)
      rw [
        Target.enterStub_eq (hArity.trans hInLine.1.symm)
          (hInLine.2.trans hInLine.1.symm)]
      exact .refl _
  | way w =>
      cases w with
      | exact =>
          refine ⟨0, 0, fun n => ?_⟩
          change
            Run.Same _ (t.invokeExact rt (Target.enter rt n) args s)
          rw [Target.invokeExact_of_admits hAdmits]
          exact .refl _
      | flexible =>
          rcases
            Target.invokeFlexibly_same hFits hChecking hHost hSound
              ht hAdmits
            with ⟨j, k, hSame⟩
          refine ⟨j, k, fun n => ?_⟩
          have hHere := hSame n
          rw [Target.invokeExact_of_admits hAdmits] at hHere
          exact hHere
      | exactTyped sig =>
          cases hAsks sig (Or.inl rfl)
          refine ⟨0, 0, fun n => ?_⟩
          change
            Run.Same _
              (t.invokeExactTyped rt (Target.enter rt n) t.signature
                args s)
          unfold Target.invokeExactTyped
          rw [if_pos rfl, Target.invokeExact_of_admits hAdmits]
          exact .refl _
      | typed sig =>
          cases hAsks sig (Or.inr rfl)
          have hPass :
              List.Forall₂ (Ty.Passes rt.classes) t.signature.params
                t.params :=
            List.forall₂_same.2 (fun _ _ => .same)
          rcases
            Target.invokeTyped_same hChecking hHost hSound ht rfl
              hPass hAdmits
            with ⟨k, hSame⟩
          exact ⟨0, k, hSame⟩
      | interpret =>
          exact
            ⟨1, 0, fun n =>
              Target.enter_interpret (hCount.trans hArity.symm) s n⟩

/-
  Calls with boxes besides come to what they come to without
  them.
-/
theorem Entry.comesTo_besides
    {cat : Catalog}
    {t : Target}
    {e : Entry}
    {m : Nat}
    (hChecking : rt.compile = .checking)
    (hHost : rt.host.MakesNoTargets)
    (hUniform : rt.host.Uniform m)
    (hFrom : m ≤ s.heap.size)
    (hFits : cat.Fits rt)
    (hSound : s.Sound rt cat)
    (ht : t ∈ cat.made)
    (hHouses : s.Houses t args)
    (hAdmits : Target.admits rt.classes t.signature args = true)
    (hSuits : e.Suits t args)
    (k : Nat) :
    ((∃ r, e.ComesTo rt t args s r) ↔
        ∃ r,
          e.ComesTo rt t args { s with heap := s.heap.plus k } r) ∧
      ∀ r r',
        e.ComesTo rt t args s r →
          e.ComesTo rt t args { s with heap := s.heap.plus k } r' →
            Run.Besides ⟨s.heap.size, k⟩ 0 s r r' := by
  rcases
    run_enters hChecking hHost hFits hSound ht hAdmits hSuits
    with ⟨i, j, hEnters⟩
  rcases
    run_enters hChecking hHost hFits (hSound.plus k) ht hAdmits
      hSuits
    with ⟨i', j', hEnters'⟩
  apply
    comesTo_of_related (j := i' + j) (k := i + j')
      (fun _ _ hOut => hOut.ended_iff)
  intro n
  have hLeft := hEnters (n + i')
  have hRight := hEnters' (n + i)
  have hHere :=
    Target.enter_besides hChecking hHost hUniform hFrom hSound ht
      hHouses.grounded hHouses.target hHouses.args k (n + i' + i)
  rw [Nat.add_right_comm n i' i] at hLeft hHere
  have hBoth := Run.Besides.congr hLeft.symm hHere hRight
  rw [Nat.add_assoc n i' j, Nat.add_assoc n i j'] at hBoth
  exact hBoth

/- More boxes at the end of the heap. -/
theorem Run.Besides.plus
    {g : Gap}
    {x : EStateM.Result Halt State Value}
    (hBesides : Run.Besides g 0 s r r')
    (hPlus : Run.SamePlus n r' x) :
    Run.Besides g n s r x := by
  have hState :
      ∀ {z z' y : State}, State.Besides g 0 s z z' →
        State.Same { z' with heap := z'.heap.plus n } y →
          State.Besides g n s z y := by
    intro z z' y hz hy
    refine ⟨?_, hy.sites_eq.trans hz.sites_eq, ?_⟩
    · rw [hy.heap_eq]
      change z'.heap.plus n = _
      rw [hz.heap_eq, Heap.plus_zero]
    · rw [hy.calls_eq]
      exact hz.calls
  cases hBesides with
  | ok hz =>
      cases hPlus with
      | ok hy => exact .ok (hState hz hy)
  | error hz =>
      cases hPlus with
      | error hy => exact .error (hState hz hy)

/- The boxes besides are no part of a result. -/
theorem Run.Fair.besides
    {g : Gap}
    (hFair : Run.Fair T a b r)
    (hBesides : Run.Besides g n s r r') :
    Run.Fair T a b r' := by
  cases hBesides with
  | ok _ =>
      intro hNe
      rw [Gap.conforms_value]
      exact hFair hNe
  | error _ => trivial

end Linkage
