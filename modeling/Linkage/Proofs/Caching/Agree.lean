import Linkage.Proofs.Caching.Blind
import Linkage.Proofs.Caching.Retyping
import Linkage.Proofs.Invoke.Counted
import Linkage.Proofs.Invoke.Silent
import Linkage.Session.Step

/-
  Two runs that agree.  They run one program in two runtimes
  that differ in whether retypings are remembered; their
  caches have nothing in common.  From states that are twins
  they come to states that are twins, with results that are
  related or with one and the same error.

  Key definitions include:
    * `Runtime.memoizing`
    * `Twins`
    * `Bond`
    * `Kin`
    * `Agree`

  Key theorems include:
    * `Agree.bind`
    * `Agree.check_bind`
    * `Agree.onHeap`
    * `Agree.holding`
    * `Agree.ofLink`
-/

------------------------------------------------------------
-- Twins
------------------------------------------------------------

namespace Linkage

/- The runtime that remembers retypings as told. -/
def Runtime.memoizing
    (rt : Runtime)
    (b : Bool) : Runtime :=
  { rt with memoizeAsType := b }

/-
  What was made in the one run and in the other, and whether
  the host is called in both with the very same heaps.
-/
structure Pairing where
  left : Catalog
  right : Catalog
  same : Prop

instance : Preorder Pairing where
  le w v :=
    w.left ≤ v.left ∧ w.right ≤ v.right ∧ v.same = w.same
  le_refl w := ⟨le_refl w.left, le_refl w.right, rfl⟩
  le_trans _ _ _ hwv hvu :=
    ⟨le_trans hwv.1 hvu.1, le_trans hwv.2.1 hvu.2.1,
      hvu.2.2.trans hwv.2.2⟩

/- Call sites that differ in their targets at most. -/
structure Site.Alike (x y : Site) : Prop where
  policy_eq : y.policy = x.policy
  signature_eq : y.signature = x.signature
  target : x.target.Alike y.target

/- Events that differ in targets at most. -/
inductive Event.Alike : Event → Event → Prop
| entered {t u : Target} (args : List Value) :
    t.Alike u →
    Alike (.entered t args) (.entered u args)
| allocated (n : ClassName) :
    Alike (.allocated n) (.allocated n)
| called {h k : Heap} (code : Code) (args : List Value) :
    h.Alike k →
    Alike (.called code args h) (.called code args k)

/-
  States of two runs: each is sound for its catalog, and
  heaps, call sites and traces are alike.  Heaps and calls of
  the host may have to be the same.
-/
structure Twins
    (rt : Runtime)
    (b : Bool)
    (w : Pairing)
    (s t : State) : Prop where
  left : s.Sound rt w.left
  right : t.Sound (rt.memoizing b) w.right
  heap : s.heap.Alike t.heap
  sites : List.Forall₂ Site.Alike s.sites.toList t.sites.toList
  trace : List.Forall₂ Event.Alike s.trace t.trace
  same :
    w.same →
      t.heap = s.heap ∧ hostEvents t.trace = hostEvents s.trace

/- Heaps that are alike, whose handles are of what was made. -/
structure HeapTwins
    (w : Pairing)
    (h k : Heap) : Prop where
  alike : h.Alike k
  left : ∀ i t, h.at? i = some (.target t) → t ∈ w.left.made
  right : ∀ i t, k.at? i = some (.target t) → t ∈ w.right.made
  same : w.same → k = h

/-
  Relations of targets of two runs, which may depend on what
  was made so far.  What is related stays related.  Once
  anything is related, all that is alike is.
-/
class Bond
    (R : Pairing → Target → Target → Prop) : Prop where
  later :
    ∀ {w v : Pairing} {t u : Target}, w ≤ v → R w t u → R v t u
  congruence :
    ∀ {w : Pairing} {t u : Target},
      R w t u → Target.Congruence (R w)

instance : Bond (fun _ => Target.Alike) where
  later := fun _ hAlike => hAlike
  congruence := fun _ => inferInstance

/- Targets that were made in two runs and that are related. -/
structure Kin
    (R : Pairing → Target → Target → Prop)
    (w : Pairing)
    (t u : Target) : Prop where
  left : t ∈ w.left.made
  right : u ∈ w.right.made
  alike : R w t u

/- Targets of two runs that are alike. -/
abbrev Twin :=
  Kin (fun _ => Target.Alike)

variable {α β ε : Type}
variable {rt : Runtime}
variable {b : Bool}
variable {w v : Pairing}
variable {s s' : State}
variable {t u x y : Target}
variable {h k : Heap}

namespace Kin

variable {K : Pairing → Target → Target → Prop}

/- The delegates of targets of related forms are made. -/
theorem made
    {f g : Form Target}
    (hForm : f.Rel (Kin K w) g) :
    (∀ x ∈ f.targets, x ∈ w.left.made) ∧
      ∀ y ∈ g.targets, y ∈ w.right.made := by
  have hTargets := hForm.targets
  generalize f.targets = xs at hTargets
  generalize g.targets = ys at hTargets
  induction hTargets with
  | nil => exact ⟨nofun, nofun⟩
  | cons hxy _ ih =>
      constructor
      · intro x hx
        rcases List.mem_cons.1 hx with rfl | hRest
        · exact hxy.left
        · exact ih.1 x hRest
      · intro y hy
        rcases List.mem_cons.1 hy with rfl | hRest
        · exact hxy.right
        · exact ih.2 y hRest

variable [Bond K]

theorem later
    (hKin : Kin K w t u)
    (hLe : w ≤ v) :
    Kin K v t u :=
  ⟨Catalog.mem_of_le hLe.1 hKin.left,
    Catalog.mem_of_le hLe.2.1 hKin.right,
    Bond.later hLe hKin.alike⟩

theorem congruence
    (hKin : Kin K w t u) :
    Target.Congruence (K w) :=
  Bond.congruence hKin.alike

/- All twins are related once something is. -/
theorem of_twin
    (hKin : Kin K w x y)
    (hTwin : Twin w t u) :
    Kin K w t u :=
  ⟨hTwin.left, hTwin.right,
    hKin.congruence.of_alike hTwin.alike⟩

theorem signature_eq
    (hKin : Kin K w t u) :
    u.signature = t.signature :=
  hKin.congruence.signature_eq hKin.alike

theorem params_eq
    (hKin : Kin K w t u) :
    u.params = t.params :=
  congrArg Signature.params hKin.signature_eq

theorem ret_eq
    (hKin : Kin K w t u) :
    u.ret = t.ret :=
  congrArg Signature.ret hKin.signature_eq

theorem count_eq
    (hKin : Kin K w t u) :
    u.count = t.count :=
  congrArg Signature.count hKin.signature_eq

end Kin

/- Delegates that are related were made, if the targets were. -/
theorem Kin.delegates
    {K : Pairing → Target → Target → Prop}
    (hKin : Kin K w t u)
    (hTwins : Twins rt b w s s')
    (hForm : t.form.Rel (K w) u.form) :
    t.form.Rel (Kin K w) u.form := by
  have hLeft := hTwins.left.valid.closed t hKin.left
  have hRight := hTwins.right.valid.closed u hKin.right
  unfold Target.wrapped at hLeft hRight
  generalize t.form = f at hForm hLeft
  generalize u.form = g at hForm hRight
  apply hForm.imp_mem
  intro x y hx hy hAlike
  exact ⟨hLeft x hx, hRight y hy, hAlike⟩

/- The delegates of twins are twins. -/
theorem Twin.form
    (hTwin : Twin w t u)
    (hTwins : Twins rt b w s s') :
    t.form.Rel (Twin w) u.form :=
  hTwin.delegates hTwins hTwin.alike.form

theorem Twin.wrapped
    (hTwin : Twin w t u)
    (hTwins : Twins rt b w s s') :
    List.Forall₂ (Twin w) t.wrapped u.wrapped :=
  (hTwin.form hTwins).targets

/- Members under one number are related. -/
theorem getElem?_forall₂
    {R : α → β → Prop}
    {xs : List α}
    {ys : List β}
    (hLists : List.Forall₂ R xs ys)
    (n : Nat) :
    Option.Rel R xs[n]? ys[n]? := by
  induction hLists generalizing n with
  | nil => exact .none
  | cons hxy _ ih =>
      cases n with
      | zero => exact .some hxy
      | succ n => exact ih n

namespace Twins

/- The call sites under a number are alike. -/
theorem site?
    (hTwins : Twins rt b w s s')
    (i : SiteId) :
    Option.Rel Site.Alike (s.site? i) (s'.site? i) := by
  unfold State.site?
  rw [← Array.getElem?_toList, ← Array.getElem?_toList]
  exact getElem?_forall₂ hTwins.sites i.index

/- The handles of twins are of twins. -/
theorem handle?
    (hTwins : Twins rt b w s s')
    (o : Obj) :
    Option.Rel (Twin w) (s.heap.handle? o)
      (s'.heap.handle? o) := by
  have hLeft :
      ∀ x, s.heap.handle? o = some x → x ∈ w.left.made := by
    intro x hx
    exact hTwins.left.handles _ _ (Heap.at?_of_handle? hx)
  have hRight :
      ∀ y, s'.heap.handle? o = some y → y ∈ w.right.made := by
    intro y hy
    exact hTwins.right.handles _ _ (Heap.at?_of_handle? hy)
  have hRel := hTwins.heap.handle? o
  generalize s.heap.handle? o = x at hRel hLeft
  generalize s'.heap.handle? o = y at hRel hRight
  cases hRel with
  | none => exact .none
  | some hAlike =>
      exact .some ⟨hLeft _ rfl, hRight _ rfl, hAlike⟩

theorem heaps
    (hTwins : Twins rt b w s s') :
    HeapTwins w s.heap s'.heap :=
  ⟨hTwins.heap, hTwins.left.handles, hTwins.right.handles,
    fun hSame => (hTwins.same hSame).1⟩

theorem withHeap
    (hTwins : Twins rt b w s s')
    (hHeaps : HeapTwins w h k) :
    Twins rt b w { s with heap := h } { s' with heap := k } where
  left := hTwins.left.withHeap hHeaps.left
  right := hTwins.right.withHeap hHeaps.right
  heap := hHeaps.alike
  sites := hTwins.sites
  trace := hTwins.trace
  same := fun hSame => ⟨hHeaps.same hSame, (hTwins.same hSame).2⟩

theorem withHeld
    (hTwins : Twins rt b w s s')
    (rs rs' : List Root) :
    Twins rt b w { s with held := rs }
      { s' with held := rs' } where
  left := hTwins.left.withHeld rs
  right := hTwins.right.withHeld rs'
  heap := hTwins.heap
  sites := hTwins.sites
  trace := hTwins.trace
  same := hTwins.same

/- One more event each. -/
theorem log
    {e f : Event}
    (hTwins : Twins rt b w s s')
    (hEvent : e.Alike f)
    (hSame : w.same → hostEvents [f] = hostEvents [e]) :
    Twins rt b w (s.log e) (s'.log f) where
  left := hTwins.left.withTrace _
  right := hTwins.right.withTrace _
  heap := hTwins.heap
  sites := hTwins.sites
  trace := .cons hEvent hTwins.trace
  same := by
    intro hIs
    rcases hTwins.same hIs with ⟨hHeap, hTrace⟩
    refine ⟨hHeap, ?_⟩
    have hCons :
        ∀ e es, hostEvents (e :: es) =
          hostEvents [e] ++ hostEvents es :=
      fun e es => List.filter_append [e] es
    change
      hostEvents (f :: s'.trace) = hostEvents (e :: s.trace)
    rw [hCons f, hCons e, hSame hIs, hTrace]

/- States that grew on their own, without anything observed. -/
theorem grown
    {t t' : State}
    (hTwins : Twins rt b w s s')
    (hSame : v.same = w.same)
    (hLeft : State.Grown rt w.left s v.left t)
    (hRight :
      State.Grown (rt.memoizing b) w.right s' v.right t') :
    Twins rt b v t t' where
  left := hLeft.sound
  right := hRight.sound
  heap := by
    rw [hLeft.heap_eq, hRight.heap_eq]
    exact hTwins.heap
  sites := by
    rw [hLeft.sites_eq, hRight.sites_eq]
    exact hTwins.sites
  trace := by
    rw [hLeft.trace_eq, hRight.trace_eq]
    exact hTwins.trace
  same := by
    rw [hSame, hLeft.heap_eq, hRight.heap_eq, hLeft.trace_eq,
      hRight.trace_eq]
    exact hTwins.same

end Twins

namespace HeapTwins

/- A blind operation that makes no handles. -/
theorem of_blind
    {f : Heap → α × Heap}
    (hBlind : Blind f)
    (hHandles :
      ∀ h i t, (f h).2.at? i = some (.target t) →
        h.at? i = some (.target t))
    (hHeaps : HeapTwins w h k) :
    (f k).1 = (f h).1 ∧ HeapTwins w (f h).2 (f k).2 := by
  rcases hBlind h k hHeaps.alike with ⟨hEq, hAlike⟩
  refine ⟨hEq, hAlike, ?_, ?_, ?_⟩
  · intro i t hAt
    exact hHeaps.left i t (hHandles h i t hAt)
  · intro i t hAt
    exact hHeaps.right i t (hHandles k i t hAt)
  · intro hSame
    rw [hHeaps.same hSame]

/- An object that is allocated in both, which is no handle. -/
theorem alloc
    {c : Contents}
    (shape : Shape)
    (hContents : c.Alike c)
    (hOther : ∀ u, c ≠ .target u)
    (hHeaps : HeapTwins w h k) :
    (k.alloc shape c).1 = (h.alloc shape c).1 ∧
      HeapTwins w (h.alloc shape c).2 (k.alloc shape c).2 := by
  apply of_blind (f := fun h => h.alloc shape c) _ _ hHeaps
  · intro h k hAlike
    exact hAlike.alloc hContents
  · intro h i t hAt
    exact Heap.at?_alloc_target hOther hAt

/- New handles of twins. -/
theorem allocHandle
    (hLoose : ¬w.same)
    (hHeaps : HeapTwins w h k)
    (hTwin : Twin w t u) :
    (k.allocHandle u).1 = (h.allocHandle t).1 ∧
      HeapTwins w (h.allocHandle t).2 (k.allocHandle u).2 := by
  rcases hHeaps.alike.alloc (s := .handle) (.target hTwin.alike)
    with ⟨hEq, hAlike⟩
  refine ⟨hEq, hAlike, ?_, ?_, fun hSame => absurd hSame hLoose⟩
  · intro i x hAt
    unfold Heap.allocHandle at hAt
    rw [Heap.at?_alloc] at hAt
    split at hAt
    · cases hAt
      exact hTwin.left
    · exact hHeaps.left i x hAt
  · intro i y hAt
    unfold Heap.allocHandle at hAt
    rw [Heap.at?_alloc] at hAt
    split at hAt
    · cases hAt
      exact hTwin.right
    · exact hHeaps.right i y hAt

theorem storeCell
    (hHeaps : HeapTwins w h k)
    (r : CellRef)
    (a : Value) :
    HeapTwins w (h.storeCell r a) (k.storeCell r a) where
  alike := hHeaps.alike.storeCell r a
  left := by
    intro i t hAt
    exact hHeaps.left i t (Heap.at?_storeCell_target hAt)
  right := by
    intro i t hAt
    exact hHeaps.right i t (Heap.at?_storeCell_target hAt)
  same := by
    intro hSame
    rw [hHeaps.same hSame]

theorem setElement
    (hHeaps : HeapTwins w h k)
    (o : Obj)
    (n : Nat)
    (a : Value) :
    HeapTwins w (h.setElement o n a) (k.setElement o n a) where
  alike := hHeaps.alike.setElement o n a
  left := by
    intro i t hAt
    exact hHeaps.left i t (Heap.at?_setElement_target hAt)
  right := by
    intro i t hAt
    exact hHeaps.right i t (Heap.at?_setElement_target hAt)
  same := by
    intro hSame
    rw [hHeaps.same hSame]

end HeapTwins

------------------------------------------------------------
-- Runs that Agree
------------------------------------------------------------

/-
  Two outcomes: results that are related in some later
  pairing, or one error; in either case the states are twins.
-/
inductive Meets
    (rt : Runtime)
    (b : Bool)
    (Q : Pairing → α → α → Prop)
    (w : Pairing) :
    EStateM.Result ε State α → EStateM.Result ε State α → Prop
| ok {a a' : α} {s s' : State} {v : Pairing} :
    w ≤ v →
    Twins rt b v s s' →
    Q v a a' →
    Meets rt b Q w (.ok a s) (.ok a' s')
| error {e : ε} {s s' : State} {v : Pairing} :
    w ≤ v →
    Twins rt b v s s' →
    Meets rt b Q w (.error e s) (.error e s')

/- From all twins two operations come to outcomes that meet. -/
def Agree
    (rt : Runtime)
    (b : Bool)
    (w : Pairing)
    (m n : EStateM ε State α)
    (Q : Pairing → α → α → Prop) : Prop :=
  ∀ s s', Twins rt b w s s' → Meets rt b Q w (m s) (n s')

variable {m n : EStateM ε State α}
variable {Q Q' : Pairing → α → α → Prop}
variable {R : Pairing → β → β → Prop}

/- Outcomes that meet later on meet. -/
theorem Meets.earlier
    {r r' : EStateM.Result ε State α}
    (hLe : w ≤ v)
    (hMeets : Meets rt b Q v r r') :
    Meets rt b Q w r r' := by
  cases hMeets with
  | ok hv hTwins hPost => exact .ok (le_trans hLe hv) hTwins hPost
  | error hv hTwins => exact .error (le_trans hLe hv) hTwins

namespace Agree

theorem pure
    {a a' : α}
    (hPost : Q w a a') :
    Agree rt b w (Pure.pure a : EStateM ε State α)
      (Pure.pure a') Q := by
  intro s s' hTwins
  exact .ok (le_refl w) hTwins hPost

theorem throw
    (e : ε) :
    Agree rt b w (MonadExcept.throw e : EStateM ε State α)
      (MonadExcept.throw e) Q := by
  intro s s' hTwins
  exact .error (le_refl w) hTwins

/-
  Two operations and what is done with their results: what
  relates the results may be relied on.
-/
theorem bind
    {m n : EStateM ε State β}
    {f g : β → EStateM ε State α}
    (hFirst : Agree rt b w m n R)
    (hSecond :
      ∀ v, w ≤ v → ∀ a a', R v a a' →
        Agree rt b v (f a) (g a') Q) :
    Agree rt b w (m >>= f) (n >>= g) Q := by
  intro s s' hTwins
  have hMeets := hFirst s s' hTwins
  change
    Meets rt b Q w (EStateM.bind m f s) (EStateM.bind n g s')
  unfold EStateM.bind
  generalize m s = r at hMeets
  generalize n s' = r' at hMeets
  cases hMeets with
  | ok hv hTwins' hPost =>
      exact (hSecond _ hv _ _ hPost _ _ hTwins').earlier hv
  | error hv hTwins' => exact .error hv hTwins'

/- Two operations that come to one and the same result. -/
theorem bind_same
    {m n : EStateM ε State β}
    {f g : β → EStateM ε State α}
    (hFirst : Agree rt b w m n (fun _ a a' => a' = a))
    (hSecond :
      ∀ v, w ≤ v → ∀ a, Agree rt b v (f a) (g a) Q) :
    Agree rt b w (m >>= f) (n >>= g) Q := by
  refine bind hFirst ?_
  rintro v hv _ a rfl
  exact hSecond v hv a

/- That the states are twins may be relied on. -/
theorem relying
    (hRest :
      ∀ s s', Twins rt b w s s' → Agree rt b w m n Q) :
    Agree rt b w m n Q := by
  intro s s' hTwins
  exact hRest s s' hTwins s s' hTwins

/- The same branch is taken twice. -/
theorem ite
    {p : Prop}
    [Decidable p]
    {m' n' : EStateM ε State α}
    (hThen : p → Agree rt b w m n Q)
    (hElse : ¬p → Agree rt b w m' n' Q) :
    Agree rt b w (if p then m else m') (if p then n else n')
      Q := by
  by_cases hp : p
  · rw [if_pos hp, if_pos hp]
    exact hThen hp
  · rw [if_neg hp, if_neg hp]
    exact hElse hp

/- The same refusal twice. -/
theorem guarded
    {p : Prop}
    [Decidable p]
    {e : ε}
    (hRest : ¬p → Agree rt b w m n Q) :
    Agree rt b w (if p then MonadExcept.throw e else m)
      (if p then MonadExcept.throw e else n) Q :=
  ite (fun _ => throw e) hRest

/- What is done with the states of twins. -/
theorem get_bind
    {f g : State → EStateM ε State α}
    (hRest :
      ∀ s s', Twins rt b w s s' →
        Agree rt b w (f s) (g s') Q) :
    Agree rt b w (MonadState.get >>= f) (MonadState.get >>= g)
      Q := by
  intro s s' hTwins
  exact hRest s s' hTwins s s' hTwins

/- A change of both states after which they are twins. -/
theorem change
    {f g : State → State}
    {Q : Pairing → PUnit → PUnit → Prop}
    (hChange :
      ∀ s s', Twins rt b w s s' → Twins rt b w (f s) (g s'))
    (hPost : Q w ⟨⟩ ⟨⟩) :
    Agree rt b w (modify f : EStateM ε State PUnit) (modify g)
      Q := by
  intro s s' hTwins
  exact .ok (le_refl w) (hChange s s' hTwins) hPost

/- A check that both make comes out the same. -/
theorem check_bind
    {P : β → Prop}
    {m : Link β}
    {f g : β → Link α}
    (hCheck : m.Inspects P)
    (hRest : ∀ a, P a → Agree rt b w (f a) (g a) Q) :
    Agree rt b w (m >>= f) (m >>= g) Q := by
  rcases hCheck with ⟨x, hx, hOk⟩
  intro s s' hTwins
  change
    Meets rt b Q w (EStateM.bind m f s) (EStateM.bind m g s')
  unfold EStateM.bind
  rw [hx, hx]
  cases x with
  | ok a => exact hRest a (hOk a rfl) s s' hTwins
  | error e => exact .error (le_refl w) hTwins

end Agree

------------------------------------------------------------
-- The Heap
------------------------------------------------------------

/- The result of an operation on the heap of a state. -/
def fromHeap
    {δ : Type}
    (F : δ → ε)
    (s : State) :
    Except δ α × Heap → EStateM.Result ε State α
| (.ok a, h) => .ok a { s with heap := h }
| (.error e, h) => .error (F e) { s with heap := h }

theorem Run.onHeap_eq
    (f : Heap → Except Fault α × Heap)
    (s : State) :
    Run.onHeap f s = fromHeap Halt.fault s (f s.heap) := by
  unfold Run.onHeap
  rcases f s.heap with ⟨x, h⟩
  cases x with
  | _ => rfl

theorem Script.onHeap_eq
    (f : Heap → Except StepError α × Heap)
    (s : State) :
    Script.onHeap f s = fromHeap id s (f s.heap) := by
  unfold Script.onHeap
  rcases f s.heap with ⟨x, h⟩
  cases x with
  | _ => rfl

/- One result from heaps that are twins, and twins again. -/
theorem Meets.fromHeap
    {δ : Type}
    {r r' : Except δ α × Heap}
    (F : δ → ε)
    (hTwins : Twins rt b w s s')
    (hHeaps : r'.1 = r.1 ∧ HeapTwins w r.2 r'.2) :
    Meets rt b (fun _ a a' => a' = a) w
      (Linkage.fromHeap F s r) (Linkage.fromHeap F s' r') := by
  rcases r with ⟨x, h⟩
  rcases r' with ⟨x', k⟩
  rcases hHeaps with ⟨hEq, hHeaps⟩
  have hSame : x' = x := hEq
  subst hSame
  have hTwins' := hTwins.withHeap hHeaps
  cases x' with
  | ok a => exact .ok (le_refl w) hTwins' rfl
  | error e => exact .error (le_refl w) hTwins'

namespace Agree

/- Using the heap in a run. -/
theorem onHeap
    {f g : Heap → Except Fault α × Heap}
    (hHeaps :
      ∀ h k, HeapTwins w h k →
        (g k).1 = (f h).1 ∧ HeapTwins w (f h).2 (g k).2) :
    Agree rt b w (Run.onHeap f) (Run.onHeap g)
      (fun _ a a' => a' = a) := by
  intro s s' hTwins
  rw [Run.onHeap_eq, Run.onHeap_eq]
  exact Meets.fromHeap Halt.fault hTwins (hHeaps _ _ hTwins.heaps)

/- Using the heap in a link operation. -/
theorem linkOnHeap
    {f g : Heap → α × Heap}
    (hHeaps :
      ∀ h k, HeapTwins w h k →
        (g k).1 = (f h).1 ∧ HeapTwins w (f h).2 (g k).2) :
    Agree rt b w (Link.onHeap f) (Link.onHeap g)
      (fun _ a a' => a' = a) := by
  intro s s' hTwins
  rcases hHeaps _ _ hTwins.heaps with ⟨hEq, hAfter⟩
  exact .ok (le_refl w) (hTwins.withHeap hAfter) hEq

/- Using the heap in a part of a step. -/
theorem scriptOnHeap
    {f g : Heap → Except StepError α × Heap}
    (hHeaps :
      ∀ h k, HeapTwins w h k →
        (g k).1 = (f h).1 ∧ HeapTwins w (f h).2 (g k).2) :
    Agree rt b w (Script.onHeap f) (Script.onHeap g)
      (fun _ a a' => a' = a) := by
  intro s s' hTwins
  rw [Script.onHeap_eq, Script.onHeap_eq]
  exact Meets.fromHeap id hTwins (hHeaps _ _ hTwins.heaps)

/- A change of the heaps after which they are twins. -/
theorem changeHeap
    (f : Heap → Heap)
    (hHeaps :
      ∀ h k, HeapTwins w h k → HeapTwins w (f h) (f k)) :
    Agree rt b w
      (modify (fun s => { s with heap := f s.heap }) :
        EStateM ε State PUnit)
      (modify (fun s => { s with heap := f s.heap }))
      (fun _ _ _ => True) := by
  apply change
  · intro s s' hTwins
    exact hTwins.withHeap (hHeaps _ _ hTwins.heaps)
  · trivial

------------------------------------------------------------
-- Runs and Link Operations
------------------------------------------------------------

/- What is held may differ. -/
theorem holding
    {m n : Run α}
    (rs rs' : List Root)
    (hAgree : Agree rt b w m n Q) :
    Agree rt b w (Run.holding rs m) (Run.holding rs' n) Q := by
  intro s s' hTwins
  have hMeets :=
    hAgree _ _ (hTwins.withHeld (rs ++ s.held) (rs' ++ s'.held))
  unfold Run.holding
  generalize m { s with held := rs ++ s.held } = r at hMeets
  generalize n { s' with held := rs' ++ s'.held } = r' at hMeets
  cases hMeets with
  | ok hv hTwins' hPost =>
      exact .ok hv (hTwins'.withHeld _ _) hPost
  | error hv hTwins' => exact .error hv (hTwins'.withHeld _ _)

/- One side may hold more while it runs. -/
theorem holding_left
    {m n : Run α}
    (rs : List Root)
    (hAgree : Agree rt b w m n Q) :
    Agree rt b w (Run.holding rs m) n Q := by
  intro s s' hTwins
  have hMeets :=
    hAgree _ _ (hTwins.withHeld (rs ++ s.held) s'.held)
  unfold Run.holding
  change Meets rt b Q w _ (n s') at hMeets
  generalize m { s with held := rs ++ s.held } = r at hMeets
  generalize n s' = r' at hMeets
  cases hMeets with
  | @ok a a' z z' v hv hTwins' hPost =>
      exact .ok hv (hTwins'.withHeld _ z'.held) hPost
  | @error e z z' v hv hTwins' =>
      exact .error hv (hTwins'.withHeld _ z'.held)

/- Link operations in a run, whose errors become one fault. -/
theorem ofLink
    {m n : Link α}
    (f : Fault)
    (hAgree : Agree rt b w m n Q) :
    Agree rt b w (Run.ofLink m f) (Run.ofLink n f) Q := by
  intro s s' hTwins
  have hMeets := hAgree s s' hTwins
  unfold Run.ofLink
  generalize m s = r at hMeets
  generalize n s' = r' at hMeets
  cases hMeets with
  | ok hv hTwins' hPost => exact .ok hv hTwins' hPost
  | error hv hTwins' => exact .error hv hTwins'

/- Link operations as parts of steps. -/
theorem scriptOfLink
    {m n : Link α}
    (hAgree : Agree rt b w m n Q) :
    Agree rt b w (Script.ofLink m) (Script.ofLink n) Q := by
  intro s s' hTwins
  have hMeets := hAgree s s' hTwins
  unfold Script.ofLink
  generalize m s = r at hMeets
  generalize n s' = r' at hMeets
  cases hMeets with
  | ok hv hTwins' hPost => exact .ok hv hTwins' hPost
  | error hv hTwins' => exact .error hv hTwins'

end Agree

end Linkage
