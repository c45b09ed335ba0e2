import Linkage.Proofs.Keeps

/-
  Silent operations: they neither read nor write the trace,
  and leave the call sites as they are.  What a node does on
  its own, apart from entering targets and from calling the
  host, is silent.

  Key definitions include:
    * `hostEvents`
    * `Run.retrace`
    * `Silent`

  Key theorems include:
    * `Silent.bind`
    * `Silent.get_bind`
    * `Silent.asType`
    * `Silent.asCollector`
-/

------------------------------------------------------------
-- Silent Operations
------------------------------------------------------------

namespace Linkage

variable {ε α β : Type}

/- An event that the host has no part in. -/
def Event.isEntry : Event → Bool
| entered _ _ => true
| _ => false

/- The calls of the host among events. -/
def hostEvents (es : List Event) : List Event :=
  es.filter (fun e => !e.isEntry)

/- An outcome with another trace. -/
def Run.retrace
    (es : List Event) :
    EStateM.Result ε State α → EStateM.Result ε State α
| .ok a s => .ok a { s with trace := es }
| .error e s => .error e { s with trace := es }

/-
  An operation that neither reads nor writes the trace, and
  that changes no call site.
-/
structure Silent (m : EStateM ε State α) : Prop where
  trace :
    ∀ s es, m { s with trace := es } = Run.retrace es (m s)
  sites : ∀ s, (Run.final (m s)).sites = s.sites

variable {m : EStateM ε State α}

theorem Silent.trace_eq
    (hSilent : Silent m)
    (s : State) :
    (Run.final (m s)).trace = s.trace := by
  have hTrace := hSilent.trace s s.trace
  have hSame : ({ s with trace := s.trace } : State) = s := rfl
  rw [hSame] at hTrace
  rw [hTrace]
  cases m s with
  | _ => rfl

namespace Silent

theorem pure (a : α) :
    Silent (Pure.pure a : EStateM ε State α) :=
  ⟨fun _ _ => rfl, fun _ => rfl⟩

theorem throw (e : ε) :
    Silent (MonadExcept.throw e : EStateM ε State α) :=
  ⟨fun _ _ => rfl, fun _ => rfl⟩

theorem fault (f : Fault) :
    Silent (Run.fault f : Run α) :=
  throw _

theorem bind
    {m : EStateM ε State β}
    {f : β → EStateM ε State α}
    (hFirst : Silent m)
    (hSecond : ∀ b, Silent (f b)) :
    Silent (m >>= f) := by
  constructor
  · intro s es
    change EStateM.bind m f _ = Run.retrace es (EStateM.bind m f s)
    unfold EStateM.bind
    rw [hFirst.trace]
    cases m s with
    | ok b t => exact (hSecond b).trace t es
    | error e t => rfl
  · intro s
    have hSites := hFirst.sites s
    change (Run.final (EStateM.bind m f s)).sites = s.sites
    unfold EStateM.bind
    cases hRun : m s with
    | ok b t =>
        rw [hRun] at hSites
        exact ((hSecond b).sites t).trans hSites
    | error e t =>
        rw [hRun] at hSites
        exact hSites

/- What is read of the state must not be the trace. -/
theorem get_bind
    {f : State → EStateM ε State α}
    (hBlind : ∀ s es, f { s with trace := es } = f s)
    (hRest : ∀ s, Silent (f s)) :
    Silent (MonadState.get >>= f) := by
  constructor
  · intro s es
    change f { s with trace := es } { s with trace := es } = _
    rw [hBlind]
    exact (hRest s).trace s es
  · intro s
    exact (hRest s).sites s

theorem change
    {f : State → State}
    (hTrace :
      ∀ s es,
        f { s with trace := es } = { f s with trace := es })
    (hSites : ∀ s, (f s).sites = s.sites) :
    Silent (modify f : EStateM ε State PUnit) := by
  constructor
  · intro s es
    change EStateM.Result.ok _ (f { s with trace := es }) = _
    rw [hTrace]
    rfl
  · exact hSites

theorem ite
    {p : Prop}
    [Decidable p]
    {m n : EStateM ε State α}
    (hThen : Silent m)
    (hElse : Silent n) :
    Silent (if p then m else n) := by
  split
  · exact hThen
  · exact hElse

theorem onHeap
    (f : Heap → Except Fault α × Heap) :
    Silent (Run.onHeap f) := by
  constructor
  · intro s es
    unfold Run.onHeap
    dsimp only
    split <;> rfl
  · intro s
    unfold Run.onHeap
    split <;> rfl

theorem changeHeap (f : Heap → Heap) :
    Silent
      (modify (fun s => { s with heap := f s.heap }) :
        EStateM ε State PUnit) :=
  change (fun _ _ => rfl) (fun _ => rfl)

/- A link operation in a run. -/
theorem ofLink
    {m : Link α}
    (f : Fault)
    (hSilent : Silent m) :
    Silent (Run.ofLink m f) := by
  constructor
  · intro s es
    unfold Run.ofLink
    rw [hSilent.trace]
    cases m s with
    | _ => rfl
  · intro s
    have hSites := hSilent.sites s
    unfold Run.ofLink
    cases hRun : m s with
    | _ =>
        rw [hRun] at hSites
        exact hSites

------------------------------------------------------------
-- Making Targets
------------------------------------------------------------

variable {rt : Runtime}
variable {t : Target}
variable {sig : Signature}

theorem ofSignature (x : Except SignatureError α) :
    Silent (Link.ofSignature x) := by
  cases x with
  | ok a => exact pure a
  | error e => exact throw _

theorem buildKeyed
    {form : Form Target}
    {exact : SlotRange}
    {extra : Option Stub.Extra} :
    Silent (Target.buildKeyed rt sig form exact extra) := by
  constructor
  · intro s es
    unfold Target.buildKeyed
    dsimp only
    split <;> rfl
  · intro s
    unfold Target.buildKeyed
    dsimp only
    split <;> rfl

theorem convert
    {p : Plan} :
    Silent (t.convert rt sig p) := by
  unfold Target.convert
  apply bind
  · exact ite (pure t) buildKeyed
  · intro u
    exact ite (pure u) buildKeyed

/- Whether something is held does not depend on the trace. -/
theorem sweep_retrace
    (s : State)
    (es : List Event)
    (unvisited : List Place)
    (work : List Root) :
    ({ s with trace := es } : State).sweep unvisited work =
      s.sweep unvisited work := by
  fun_induction s.sweep unvisited work with
  | case1 unvisited =>
      rw [State.sweep]
  | case2 unvisited r rest hMem ih =>
      rw [State.sweep, if_pos hMem]
      exact ih
  | case3 unvisited r rest hMem ih =>
      rw [State.sweep, if_neg hMem]
      exact ih

theorem reaches_retrace
    (s : State)
    (es : List Event)
    (work : List Root)
    (p : Place) :
    ({ s with trace := es } : State).reaches work p =
      s.reaches work p := by
  unfold State.reaches
  rw [sweep_retrace]
  rfl

theorem isAlive_retrace
    (s : State)
    (es : List Event)
    (t : Target) :
    ({ s with trace := es } : State).isAlive t =
      s.isAlive t := by
  unfold State.isAlive State.cycles
  simp only [reaches_retrace]
  rfl

theorem remembered?_retrace
    (s : State)
    (es : List Event) :
    t.remembered? rt sig { s with trace := es } =
      t.remembered? rt sig s := by
  unfold Target.remembered?
  simp only [isAlive_retrace]
  rfl

theorem asType : Silent (t.asType rt sig) := by
  unfold Target.asType
  apply ite (pure t)
  apply get_bind
  · intro s es
    rw [remembered?_retrace]
  · intro s
    split
    · exact pure _
    · unfold Target.retype
      apply bind (ofSignature _)
      intro p
      apply bind convert
      intro u
      split
      · apply bind
        · exact change (fun _ _ => rfl) (fun _ => rfl)
        · intro _
          exact pure u
      · exact pure u

theorem asCollector
    {array : Ty}
    {count : Nat} :
    Silent (t.asCollector rt array count) := by
  unfold Target.asCollector
  apply bind
  · unfold Target.checkTrailingArray
    apply ite (throw _)
    split
    · exact ite (pure _) (throw _)
    · exact throw _
  · intro _
    apply bind
    · unfold componentOf
      split
      · exact pure _
      · exact throw _
    · intro p
      apply bind (ofSignature _)
      intro shorter
      apply bind (ofSignature _)
      intro whole
      exact buildKeyed

------------------------------------------------------------
-- Checks and Edits of Arguments
------------------------------------------------------------

variable {args : List Value}

theorem receiverOf
    {meth : Method} :
    Silent (receiverOf meth args) := by
  unfold Linkage.receiverOf
  split
  · exact pure _
  · exact fault _
  · exact fault _
  · exact fault _

theorem fieldPlace
    {f : Field}
    {offset : Nat} :
    Silent (fieldPlace rt f offset args) := by
  unfold Linkage.fieldPlace
  apply ite (pure _)
  apply bind
  · unfold Linkage.fieldReceiver
    split
    · exact pure _
    · exact fault _
  · intro o
    exact pure _

theorem arrayOf : Silent (arrayOf args) := by
  unfold Linkage.arrayOf
  split
  · apply get_bind
    · intro s es
      rfl
    · intro s
      split
      · exact pure _
      · exact fault _
  · exact fault _

theorem elementOf : Silent (elementOf args) := by
  unfold Linkage.elementOf
  apply bind arrayOf
  rintro ⟨o, vs⟩
  dsimp only
  split
  · exact ite (pure _) (fault _)
  · exact fault _
  · exact fault _

theorem leadingArgs
    {n : Nat} :
    Silent (leadingArgs sig n args) :=
  ite (pure _) (fault _)

theorem collectArgs
    {component : Ty}
    {count : Nat} :
    Silent (collectArgs sig component count args) := by
  unfold Linkage.collectArgs
  apply ite (fault _)
  apply bind (onHeap _)
  intro o
  exact pure _

theorem spreadArgs
    {count : Nat} :
    Silent (spreadArgs sig count args) := by
  unfold Linkage.spreadArgs
  split
  · exact fault _
  · exact ite (pure _) (fault _)
  · apply get_bind
    · intro s es
      rfl
    · intro s
      split
      · exact fault _
      · exact ite (pure _) (fault _)
  · exact fault _

theorem throwable (f : Fault) :
    Silent (Run.throwable f) := by
  unfold Run.throwable
  split
  · exact pure _
  · exact onHeap _

theorem callType : Silent (t.callType args) := by
  unfold Target.callType
  apply ite (fault _)
  split
  · exact pure _
  · exact fault _

theorem arityAdapted : Silent (t.arityAdapted rt args) := by
  unfold Target.arityAdapted
  split
  · apply ite (pure _)
    apply ite (fault _)
    exact ofLink _ asCollector
  · exact pure _

end Silent

end Linkage
