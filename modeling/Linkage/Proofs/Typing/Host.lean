import Linkage.Proofs.Invoke.Counted
import Linkage.Proofs.Typing.Store

/-
  Hosts that honor types.  What a typed run asks of a host:
  code that is given arguments of the parameter types of its
  method, the receiver first, answers with a value of the
  result type or throws a throwable object, and leaves a
  typed heap; constructors and fields belong to the owner.
  Then runs that keep what is typed.

  Key definitions include:
    * `Host.Answers`
    * `Host.Honors`
    * `Staged`
    * `Safe`

  Key theorems include:
    * `Safe.bind`
    * `Safe.onHeap`
    * `Safe.call`
    * `Safe.ofLink`
    * `Safe.allocate`
-/

------------------------------------------------------------
-- Answers of Code
------------------------------------------------------------

namespace Linkage

/- What is thrown is an object in play that can be thrown. -/
def Fault.Fair
    (T : ClassTable)
    (S : Store)
    (f : Fault) : Prop :=
  ∀ o, f = .thrown o →
    (Value.ref o).Fits T S (.cls .throwable)

/- A result as wanted, or a fault that is fair. -/
def Settles
    {α : Type}
    (T : ClassTable)
    (S : Store)
    (Q : α → Prop) : Except Fault α → Prop
| .ok a => Q a
| .error f => f.Fair T S

/- Arguments with a receiver in front, of a type as given. -/
def Received
    (T : ClassTable)
    (S : Store)
    (A : Ty → Prop)
    (params : List Ty)
    (args : List Value) : Prop :=
  ∃ o rest,
    args = .ref o :: rest ∧ A o.type ∧ (Value.ref o).In S ∧
      ArgsFit T S rest params

/-
  Code answers arguments as wanted with a value of a type,
  from a store on.
-/
def Host.Answers
    (T : ClassTable)
    (L : Layout)
    (S : Store)
    (H : Host)
    (code : Code)
    (A : Store → List Value → Prop)
    (ret : Ty) : Prop :=
  ∀ (U : Store) (h : Heap) (args : List Value),
    S ≤ U → h.Typed T L U → A U args →
      ∃ V, U ≤ V ∧ (H.call code args h).2.Typed T L V ∧
        Settles T V (fun v => v.Fits T V ret)
          (H.call code args h).1

/-
  The host honors types, from a store on.  The receiver of a
  method that is looked up in a class is of this class; the
  code that it selects is run on no other receivers.
-/
structure Host.Honors
    (T : ClassTable)
    (L : Layout)
    (S : Store)
    (H : Host) : Prop where
  static :
    ∀ owner name asked caller m code,
      H.resolveMethod owner name asked .isStatic caller = .ok m →
      m.slot = .address code →
        H.Answers T L S code
          (fun U args => ArgsFit T U args m.signature.params)
          m.signature.ret
  constructor :
    ∀ owner asked caller m code,
      H.resolveMethod owner constructorName asked .isConstructor
        caller = .ok m →
      m.slot = .address code →
        m.declaring = owner ∧
          H.Answers T L S code
            (fun U args =>
              Received T U
                (fun t => T.isAssignable t (.cls owner) = true)
                m.signature.params args)
            m.signature.ret
  method :
    ∀ owner name asked how caller m receiver code,
      how = .isVirtual ∨ how = .isInterface →
      H.resolveMethod owner name asked how caller = .ok m →
      T.isAssignable receiver (.cls owner) = true →
      H.Selects m receiver code →
        H.Answers T L S code
          (fun U args =>
            Received T U (fun t => t = receiver)
              m.signature.params args)
          m.signature.ret
  special :
    ∀ owner name asked caller m code,
      H.resolveMethod owner name asked .isSpecial caller = .ok m →
      H.Selects m (.cls m.declaring) code →
        H.Answers T L S code
          (fun U args =>
            Received T U
              (fun t => T.isAssignable t (.cls owner) = true)
              m.signature.params args)
          m.signature.ret
  allocate :
    ∀ U h n r h', S ≤ U → h.Typed T L U →
      H.allocate n h = some (r, h') →
        ∃ V, U ≤ V ∧ h'.Typed T L V ∧
          Settles T V (fun o => (Value.ref o).Fits T V (.cls n)) r
  staticField :
    ∀ owner name t caller f offset r,
      H.resolveField owner name t caller = .ok f →
      f.slot = .fieldOffset offset →
      f.flags.has .isStatic = true →
      H.staticCell f.declaring offset = some r →
        L.static r = some f.type
  field :
    ∀ owner name t caller f offset n p,
      H.resolveField owner name t caller = .ok f →
      f.slot = .fieldOffset offset →
      f.flags.has .isStatic = false →
      T.isSubclass n owner = true →
      L.field n offset = some p →
        p = f.type

------------------------------------------------------------
-- Typed States
------------------------------------------------------------

/- The call sites in play have good targets. -/
def SitesGood
    (S : Store)
    (xs : Array Site) : Prop :=
  ∀ (i : Nat) (x : Site), S.sites i → xs[i]? = some x →
    x.target.Good S

/- Targets were entered with values of their parameters. -/
def Admitted
    (T : ClassTable)
    (es : List Event) : Prop :=
  ∀ t args, Event.entered t args ∈ es →
    Target.admits T t.signature args = true

/-
  The heap is typed for a store, the call sites in play have
  good targets, and what was entered was admitted.
-/
def InPlay
    (T : ClassTable)
    (L : Layout)
    (S : Store) : Surroundings :=
  fun h xs es => h.Typed T L S ∧ SitesGood S xs ∧ Admitted T es

/- What is known in a run: a catalog and a store. -/
structure Stage where
  catalog : Catalog
  store : Store

instance : Preorder Stage where
  le w v := w.catalog ≤ v.catalog ∧ w.store ≤ v.store
  le_refl w := ⟨le_refl w.catalog, le_refl w.store⟩
  le_trans _ _ _ hwv hvu :=
    ⟨le_trans hwv.1 hvu.1, le_trans hwv.2 hvu.2⟩

/- The state is known, and typed for the store. -/
def Staged
    (rt : Runtime)
    (L : Layout)
    (w : Stage)
    (s : State) : Prop :=
  Known rt (InPlay rt.classes L w.store) w.catalog s

/- No edit falls outside, and faults are fair. -/
def Halt.Fair
    (T : ClassTable)
    (S : Store) : Halt → Prop
| .fault f => f.Fair T S
| .outside => False
| .unfinished => True

/- A run keeps what is typed. -/
def Safe
    {α : Type}
    (rt : Runtime)
    (L : Layout)
    (w : Stage)
    (m : Run α)
    (Q : Stage → α → Prop) : Prop :=
  Keeps (Staged rt L) Q (fun v e => e.Fair rt.classes v.store) w m

variable {α β : Type}
variable {rt : Runtime}
variable {L : Layout}
variable {S U : Store}
variable {w v : Stage}
variable {m : Run α}
variable {Q Q' : Stage → α → Prop}
variable {R : Stage → β → Prop}
variable {t : Target}
variable {args : List Value}

namespace Staged

variable {s : State}

theorem heap
    (hStaged : Staged rt L w s) :
    s.heap.Typed rt.classes L w.store :=
  hStaged.around.1

theorem site
    {i : SiteId}
    {x : Site}
    (hStaged : Staged rt L w s)
    (hSite : w.store.sites i.index)
    (hx : s.site? i = some x) :
    x.target.Good w.store :=
  hStaged.around.2.1 i.index x hSite hx

/- Another heap, typed for a later store. -/
theorem withHeap
    {h : Heap}
    (hStaged : Staged rt L w s)
    (hLe : w.store ≤ U)
    (hTyped : h.Typed rt.classes L U)
    (hHandles :
      ∀ i t, h.at? i = some (.target t) → s.heap.Holds t) :
    Staged rt L ⟨w.catalog, U⟩ { s with heap := h } := by
  refine ⟨hStaged.fits, ?_, hTyped, ?_, hStaged.around.2.2⟩
  · apply hStaged.sound.withHeap
    intro i t hAt
    exact hStaged.sound.holds (hHandles i t hAt)
  · intro i x hSite hx
    rw [hLe.2] at hSite
    exact (hStaged.around.2.1 i x hSite hx).later hLe

/- One more event, which enters nothing or was admitted. -/
theorem logged
    {e : Event}
    (hStaged : Staged rt L w s)
    (hEvent :
      ∀ t args, e = .entered t args →
        Target.admits rt.classes t.signature args = true) :
    Staged rt L w (s.log e) := by
  refine
    ⟨hStaged.fits, hStaged.sound.withTrace _, hStaged.around.1,
      hStaged.around.2.1, ?_⟩
  intro t args hMem
  rcases List.mem_cons.1 hMem with hEq | hOld
  · exact hEvent t args hEq.symm
  · exact hStaged.around.2.2 t args hOld

end Staged

------------------------------------------------------------
-- Safe Runs
------------------------------------------------------------

namespace Safe

theorem pure
    {a : α}
    (hPost : Q w a) :
    Safe rt L w (Pure.pure a) Q :=
  Keeps.pure hPost

theorem fault
    {f : Fault}
    (hFair : f.Fair rt.classes w.store) :
    Safe rt L w (Run.fault f) Q :=
  Keeps.throw hFair

/- A fault that is not an object that is thrown. -/
theorem plainFault
    {f : Fault}
    (hPlain : ∀ o, f ≠ .thrown o) :
    Safe rt L w (Run.fault f) Q := by
  apply fault
  intro o hEq
  exact absurd hEq (hPlain o)

theorem unfinished :
    Safe rt L w (MonadExcept.throw (ε := Halt) .unfinished) Q :=
  Keeps.throw trivial

theorem bind
    {m : Run β}
    {f : β → Run α}
    (hFirst : Safe rt L w m R)
    (hSecond : ∀ v, w ≤ v → ∀ b, R v b → Safe rt L v (f b) Q) :
    Safe rt L w (m >>= f) Q :=
  Keeps.bind hFirst hSecond

theorem imp
    (hSafe : Safe rt L w m Q)
    (hPost : ∀ v, w ≤ v → ∀ a, Q v a → Q' v a) :
    Safe rt L w m Q' :=
  hSafe.imp_ok hPost

theorem holding
    (rs : List Root)
    (hSafe : Safe rt L w m Q) :
    Safe rt L w (Run.holding rs m) Q :=
  Keeps.holding (fun v s rs => Known.withHeld v.catalog s rs) rs
    hSafe

/- What the state says may be relied on. -/
theorem reading
    {f : State → Run α}
    (hRest : ∀ s, Staged rt L w s → Safe rt L w (f s) Q) :
    Safe rt L w (MonadState.get >>= f) Q :=
  Keeps.get_bind hRest

/- What is known may be relied on. -/
theorem known
    (hRest :
      w.catalog.Fits rt → w.catalog.Valid rt → Safe rt L w m Q) :
    Safe rt L w m Q := by
  apply Keeps.relying
  intro s hStaged
  exact hRest hStaged.fits hStaged.sound.valid

/- Using the heap, which comes to be typed for a later store. -/
theorem onHeap
    {f : Heap → Except Fault α × Heap}
    (hUse :
      ∀ h, h.Typed rt.classes L w.store →
        ∃ U, w.store ≤ U ∧ (f h).2.Typed rt.classes L U ∧
          (∀ i t, (f h).2.at? i = some (.target t) → h.Holds t) ∧
          Settles rt.classes U (Q ⟨w.catalog, U⟩) (f h).1) :
    Safe rt L w (Run.onHeap f) Q := by
  intro s hStaged
  rcases hUse s.heap hStaged.heap with
    ⟨U, hLe, hTyped, hHandles, hPost⟩
  have hStaged' := hStaged.withHeap hLe hTyped hHandles
  have hLater : w ≤ ⟨w.catalog, U⟩ := ⟨le_refl w.catalog, hLe⟩
  unfold Run.onHeap
  split
  · rename_i a h hRun
    rw [hRun] at hStaged' hPost
    exact ⟨_, hLater, hStaged', hPost⟩
  · rename_i e h hRun
    rw [hRun] at hStaged' hPost
    exact ⟨_, hLater, hStaged', hPost⟩

/- A change of the heap that stays typed for the store. -/
theorem changeHeap
    {Q : Stage → PUnit → Prop}
    (f : Heap → Heap)
    (hTyped :
      ∀ h, h.Typed rt.classes L w.store →
        (f h).Typed rt.classes L w.store)
    (hHandles :
      ∀ h i t, (f h).at? i = some (.target t) →
        h.at? i = some (.target t))
    (hPost : Q w ⟨⟩) :
    Safe rt L w (modify (fun s => { s with heap := f s.heap })) Q := by
  apply Keeps.change
  · intro s hStaged
    apply hStaged.withHeap (le_refl w.store) (hTyped _ hStaged.heap)
    intro i t hAt
    exact ⟨i, t, hHandles s.heap i t hAt, .refl t⟩
  · exact hPost

/- A link operation in a run, in which the store stays. -/
theorem ofLink
    {P : Catalog → α → Prop}
    {m : Link α}
    {f : Fault}
    (hMakes :
      Makes rt (InPlay rt.classes L w.store) w.catalog m P)
    (hPlain : ∀ o, f ≠ .thrown o) :
    Safe rt L w (Run.ofLink m f)
      (fun v a => v.store = w.store ∧ P v.catalog a) := by
  intro s hStaged
  have hLeaves := hMakes s hStaged
  unfold Run.ofLink
  cases hRun : m s with
  | ok a s' =>
      rw [hRun] at hLeaves
      rcases hLeaves with ⟨d, hd, hKnown, hPost⟩
      exact
        ⟨⟨d, w.store⟩, ⟨hd, le_refl w.store⟩, hKnown, rfl, hPost⟩
  | error e s' =>
      rw [hRun] at hLeaves
      rcases hLeaves with ⟨d, hd, hKnown, _⟩
      refine
        ⟨⟨d, w.store⟩, ⟨hd, le_refl w.store⟩, hKnown, ?_⟩
      intro o hEq
      exact absurd hEq (hPlain o)

------------------------------------------------------------
-- Code of the Host
------------------------------------------------------------

/- Code that answers is called with arguments as wanted. -/
theorem call
    {code : Code}
    {A : Store → List Value → Prop}
    {ret : Ty}
    (hHost : rt.host.MakesNoTargets)
    (hAnswers : rt.host.Answers rt.classes L S code A ret)
    (hLe : S ≤ w.store)
    (hArgs : A w.store args) :
    Safe rt L w (Run.call rt code args)
      (fun v a => a.Fits rt.classes v.store ret) := by
  unfold Run.call
  refine Safe.bind (R := fun v _ => v = w) ?_ ?_
  · apply Keeps.change
    · intro s hStaged
      exact hStaged.logged nofun
    · rfl
  · intro v _ _ hEq
    subst hEq
    apply onHeap
    intro h hTyped
    rcases hAnswers v.store h args hLe hTyped hArgs with
      ⟨V, hLater, hAfter, hOutcome⟩
    refine ⟨V, hLater, hAfter, ?_, hOutcome⟩
    intro i t hAt
    exact hHost.call code args h i t hAt

/- A new object is one of its class. -/
theorem allocate
    {n : ClassName}
    (hHost : rt.host.MakesNoTargets)
    (hHonors : rt.host.Honors rt.classes L S)
    (hLe : S ≤ w.store) :
    Safe rt L w (Run.allocate rt n)
      (fun v o => (Value.ref o).Fits rt.classes v.store (.cls n)) := by
  intro s hStaged
  have hLogged := hStaged.logged (e := .allocated n) nofun
  unfold Run.allocate
  dsimp only
  split
  · exact ⟨w, le_refl w, hLogged, trivial⟩
  · rename_i o h hRun
    rcases
      hHonors.allocate w.store s.heap n _ h hLe hStaged.heap hRun
      with ⟨V, hLater, hTyped, hFits⟩
    refine
      ⟨⟨w.catalog, V⟩, ⟨le_refl w.catalog, hLater⟩, ?_, hFits⟩
    apply hLogged.withHeap hLater hTyped
    intro i t hAt
    exact hHost.allocate n s.heap _ h i t hRun hAt
  · rename_i f h hRun
    rcases
      hHonors.allocate w.store s.heap n _ h hLe hStaged.heap hRun
      with ⟨V, hLater, hTyped, hFair⟩
    refine
      ⟨⟨w.catalog, V⟩, ⟨le_refl w.catalog, hLater⟩, ?_, hFair⟩
    apply hLogged.withHeap hLater hTyped
    intro i t hAt
    exact hHost.allocate n s.heap _ h i t hRun hAt

end Safe

end Linkage
