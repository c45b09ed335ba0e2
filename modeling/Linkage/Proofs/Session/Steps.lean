import Linkage.Proofs.Invoke.Moments
import Linkage.Proofs.Session.Listed

/-
  Steps of sessions keep catalogs.  However a session goes on
  from one in which nothing was made, its state is sound for
  a catalog that lists the targets of all its names, and each
  of them fits its signature.  The host may be any that makes
  no targets of its own.

  Key definitions include:
    * `Settled`
    * `Session.after`
    * `Session.IsFresh`
    * `Session.Listed`

  Key theorems include:
    * `Lists.stepping`
    * `Session.Listed.step`
    * `Session.listed_after`
-/

------------------------------------------------------------
-- Calls
------------------------------------------------------------

namespace Linkage

variable {α : Type}
variable {G : Array Site → Prop}
variable {x : Context}
variable {c d : Catalog}
variable {t : Target}
variable {args : List Value}
variable {rt : Runtime}

/- A run that keeps catalogs, and all call sites. -/
structure Settled
    (rt : Runtime)
    (c : Catalog)
    (m : Run Value) : Prop where
  orderly : Orderly False rt [] c m (fun _ => True)
  sites_eq : ∀ s, (Run.final (m s)).sites = s.sites

/- What is entered is not counted, and all else is known. -/
theorem Known.uncounted
    {s : State}
    {F : Surroundings}
    (hKnown : Known rt F c s) :
    Known rt (CountedSince False []) c s :=
  ⟨hKnown.fits, hKnown.sound, False.elim⟩

/- Other facts about call sites are known if there are none. -/
theorem Known.ofSites
    {s : State}
    {F : Surroundings}
    (hKnown : Known rt F c s)
    (hSites : G s.sites) :
    Known rt (OfSites G) c s :=
  ⟨hKnown.fits, hKnown.sound, hSites⟩

namespace Lists

/- Every way of calling makes a run that keeps both. -/
theorem callingOf
    {how : Calling}
    (hHost : x.runtime.host.MakesNoTargets)
    (ht : t ∈ c.made) :
    Lists G x.runtime c (Session.callingOf x t args how)
      (Settled x.runtime) := by
  have hEnter :
      Entering False x.runtime []
        (Target.enter x.runtime Session.fuel) :=
    entering_enter hHost False.elim Session.fuel
  cases how with
  | exact =>
      exact
        pure
          ⟨Entering.invokeExact hEnter ht,
            (Entry.way .exact).sites_eq⟩
  | flexible =>
      exact
        pure
          ⟨Entering.invokeFlexibly hEnter ht,
            (Entry.way .flexible).sites_eq⟩
  | exactTyped sig =>
      refine bind (asking _) ?_
      intro d hd sig _
      have ht' := Catalog.mem_of_le hd ht
      exact
        pure
          ⟨Entering.invokeExactTyped hEnter ht',
            (Entry.way (.exactTyped sig)).sites_eq⟩
  | typed sig =>
      refine bind (asking _) ?_
      intro d hd sig _
      have ht' := Catalog.mem_of_le hd ht
      exact
        pure
          ⟨Entering.invokeTyped hEnter ht',
            (Entry.way (.typed sig)).sites_eq⟩
  | interpret =>
      exact
        pure
          ⟨orderly_interpret hHost False.elim ht False.elim,
            (Entry.way .interpret).sites_eq⟩
  | throughStub =>
      intro s hKnown
      rcases hKnown.sound.resident.get (k := t.stub.key) with
        ⟨hCompiled, _⟩
      have hKnown' :
          Known x.runtime (OfSites G) c
            { s with
              cache :=
                (s.cache.get x.runtime.compile t.stub.key).2 } :=
        ⟨hKnown.fits, hKnown.sound.withCache hCompiled,
          hKnown.around⟩
      unfold Session.callingOf
      dsimp only
      split
      · rename_i f k hGet
        rw [hGet] at hKnown'
        exact ⟨c, le_refl c, hKnown', trivial⟩
      · rename_i stub k hGet
        rw [hGet] at hKnown'
        exact
          ⟨c, le_refl c, hKnown',
            ⟨orderly_enterStub hHost ht,
              enterStub_sites Session.fuel stub t args⟩⟩

/- A call binds a value, and no target. -/
theorem invoke
    {name : Option String}
    {m : Run Value}
    (hRun : Settled x.runtime c m) :
    Lists G x.runtime c (Session.invoke x name m)
      (fun _ p => p.2.targets = x.names.targets) := by
  intro s hKnown
  have hLeaves := hRun.orderly s hKnown.uncounted
  have hSites := hRun.sites_eq s
  unfold Session.invoke
  cases hEq : m s with
  | ok v s' =>
      rw [hEq] at hLeaves hSites
      rcases hLeaves with ⟨d, hd, hKnown', _⟩
      have hAround : G s'.sites := by
        rw [show s'.sites = s.sites from hSites]
        exact hKnown.around
      exact ⟨d, hd, hKnown'.ofSites hAround, rfl⟩
  | error e s' =>
      rw [hEq] at hLeaves hSites
      rcases hLeaves with ⟨d, hd, hKnown', _⟩
      have hAround : G s'.sites := by
        rw [show s'.sites = s.sites from hSites]
        exact hKnown.around
      cases e with
      | outside =>
          exact ⟨d, hd, hKnown'.ofSites hAround, trivial⟩
      | unfinished =>
          exact ⟨d, hd, hKnown'.ofSites hAround, trivial⟩
      | fault f =>
          have hThrown :
              Orderly False x.runtime [] d (Run.throwable f)
                (fun _ => True) :=
            Entering.throwable
          have hThrown' := hThrown s' hKnown'
          have hSites' := (Silent.throwable f).sites s'
          dsimp only
          cases hRest : Run.throwable f s' with
          | ok o s'' =>
              rw [hRest] at hThrown' hSites'
              rcases hThrown' with ⟨e, he, hKnown'', _⟩
              have hLater : G s''.sites := by
                rw [show s''.sites = s'.sites from hSites']
                exact hAround
              exact
                ⟨e, le_trans hd he, hKnown''.ofSites hLater, rfl⟩
          | error g s'' =>
              rw [hRest] at hThrown' hSites'
              rcases hThrown' with ⟨e, he, hKnown'', _⟩
              have hLater : G s''.sites := by
                rw [show s''.sites = s'.sites from hSites']
                exact hAround
              exact
                ⟨e, le_trans hd he, hKnown''.ofSites hLater,
                  trivial⟩

theorem makeSite
    {policy : Policy}
    {source : SiteSource}
    (hSites : (OfSites G).AllowsSites)
    (hNames : c.ListsNames x) :
    Lists G x.runtime c (Session.makeSite x policy source)
      (fun _ _ => True) := by
  cases source with
  | linked n =>
      refine bind (target hNames) ?_
      intro d _ t ht
      exact ofLink (Makes.makeSite hSites ht)
  | unlinked sig =>
      refine bind (asking _) ?_
      intro d _ sig _
      exact ofLink (Makes.unlinkedSite hSites)

------------------------------------------------------------
-- Steps
------------------------------------------------------------

/- A value is stored; a handle is not made in this way. -/
theorem changeHeap
    (f : Heap → Heap)
    (hHandles :
      ∀ h i t, (f h).at? i = some (.target t) →
        h.at? i = some (.target t)) :
    Lists G rt c (modify (fun s => { s with heap := f s.heap }))
      (fun _ _ => True) := by
  apply Keeps.change
  · intro s hKnown
    refine ⟨hKnown.fits, ?_, hKnown.around⟩
    apply hKnown.sound.withHeap
    intro i t hAt
    exact hKnown.sound.handles i t (hHandles s.heap i t hAt)
  · trivial

/- What the names are after a step whose targets are listed. -/
theorem renamed
    {a : Answer}
    {ns : Bindings}
    (hNames : c.ListsNames x)
    (hSame : ns.targets = x.names.targets) :
    Lists G rt c (Pure.pure (a, ns) : Session.Stepping)
      (fun d p => d.ListsNames { x with names := p.2 }) := by
  apply pure
  rintro u ⟨n, hu⟩
  have hOld : (n, u) ∈ ns.targets := hu
  rw [hSame] at hOld
  exact hNames u ⟨n, hOld⟩

/- An answer that is found in the state. -/
theorem renamedReading
    {f : State → Answer × Bindings}
    (hNames : c.ListsNames x)
    (hSame : ∀ s, (f s).2.targets = x.names.targets) :
    Lists G rt c
      (do
        let s ← get
        Pure.pure (f s) : Session.Stepping)
      (fun d p => d.ListsNames { x with names := p.2 }) := by
  apply reading
  intro s _
  exact renamed hNames (hSame s)

/- An answer about a value. -/
theorem onValue
    {e : ValueExpr}
    {f : Value → Session.Stepping}
    (hNames : c.ListsNames x)
    (hRest :
      ∀ d v, d.ListsNames x →
        Lists G rt d (f v)
          (fun d p => d.ListsNames { x with names := p.2 })) :
    Lists G rt c (x.value e >>= f)
      (fun d p => d.ListsNames { x with names := p.2 }) := by
  refine bind (value hNames) ?_
  intro d hd v _
  exact hRest d v (hNames.later hd)

/- An answer about a target. -/
theorem onTarget
    {n : String}
    {f : Target → Session.Stepping}
    (hNames : c.ListsNames x)
    (hRest :
      ∀ d t, d.ListsNames x → t ∈ d.made →
        Lists G rt d (f t)
          (fun d p => d.ListsNames { x with names := p.2 })) :
    Lists G rt c (x.target n >>= f)
      (fun d p => d.ListsNames { x with names := p.2 }) := by
  refine bind (target hNames) ?_
  intro d hd t ht
  exact hRest d t (hNames.later hd) ht

/- An answer about something else that has a name. -/
theorem onName
    {r : Except StepError α}
    {f : α → Session.Stepping}
    (hNames : c.ListsNames x)
    (hRest :
      ∀ d a, d.ListsNames x →
        Lists G rt d (f a)
          (fun d p => d.ListsNames { x with names := p.2 })) :
    Lists G rt c (Script.ofExcept r >>= f)
      (fun d p => d.ListsNames { x with names := p.2 }) := by
  refine bind (asking r) ?_
  intro d hd a _
  exact hRest d a (hNames.later hd)

/- A name that is bound to a listed target, or not at all. -/
theorem listsNames_bindIf
    {name : Option String}
    (hNames : c.ListsNames x)
    (ht : t ∈ c.made) :
    c.ListsNames
      { x with
        names :=
          { x.names with
            targets := Names.bindIf x.names.targets name t } } := by
  rintro u ⟨n, hu⟩
  cases name with
  | none => exact hNames u ⟨n, hu⟩
  | some m =>
      rcases List.mem_cons.1 hu with hEq | hOld
      · cases hEq
        exact ht
      · exact hNames u ⟨n, (List.mem_filter.1 hOld).1⟩

theorem stepping
    (hHost : x.runtime.host.MakesNoTargets)
    (hSites : (OfSites G).AllowsSites)
    (step : Step)
    (hFree :
      ∀ site n, step = .setTarget site n →
        (OfSites G).IgnoresSites)
    (hNames : c.ListsNames x) :
    Lists G x.runtime c (Session.stepping x step)
      (fun d p => d.ListsNames { x with names := p.2 }) := by
  cases step with
  | make op name =>
      refine bind (targetOp op hNames) ?_
      intro d hd t ht
      exact pure (listsNames_bindIf (hNames.later hd) ht)
  | lookup n name => exact renamed hNames rfl
  | inClass l n name =>
      apply onName hNames
      intro d l hNames
      exact renamed hNames rfl
  | publicLookup l name =>
      apply onName hNames
      intro d l hNames
      exact renamed hNames rfl
  | letValue e name =>
      apply onValue hNames
      intro d v hNames
      exact renamedReading hNames (fun _ => rfl)
  | invoke t es how name =>
      apply onTarget hNames
      intro d t hNames ht
      refine bind (values hNames) ?_
      intro e he vs _
      refine bind (callingOf hHost (Catalog.mem_of_le he ht)) ?_
      intro f hf m hRun
      refine (invoke hRun).imp ?_
      rintro g hg ⟨a, ns⟩ hSame u ⟨n, hu⟩
      dsimp only at hSame hu
      rw [hSame] at hu
      exact
        Catalog.mem_of_le (le_trans he (le_trans hf hg))
          (hNames u ⟨n, hu⟩)
  | tree t =>
      apply onTarget hNames
      intro d t hNames _
      exact renamed hNames rfl
  | isVarargs t =>
      apply onTarget hNames
      intro d t hNames _
      exact renamed hNames rfl
  | same a b =>
      apply onTarget hNames
      intro d a hNames _
      apply onTarget hNames
      intro e b hNames _
      exact renamed hNames rfl
  | wrappedSame a b =>
      apply onTarget hNames
      intro d a hNames _
      apply onTarget hNames
      intro e b hNames _
      exact renamed hNames rfl
  | release t =>
      apply pure
      rintro u ⟨n, hu⟩
      exact hNames u ⟨n, (List.mem_filter.1 hu).1⟩
  | stats => exact renamedReading hNames (fun _ => rfl)
  | isCached t =>
      apply onTarget hNames
      intro d t hNames _
      exact renamedReading hNames (fun _ => rfl)
  | makeSite policy source name =>
      refine bind (makeSite hSites hNames) ?_
      intro d hd i _
      apply reading
      intro s _
      split
      · exact renamed (hNames.later hd) rfl
      · exact throw _
  | setTarget site t =>
      refine bind siteState ?_
      rintro d hd ⟨i, y⟩ hSite
      refine bind (target (hNames.later hd)) ?_
      intro e he t' ht
      have hSite' :=
        Catalog.getElem?_of_prefix he.2 hSite.1
      refine bind
        (ofLink (Makes.setTarget (hFree site t rfl) hSite' ht)) ?_
      intro f hf _ _
      exact
        renamed (hNames.later (le_trans hd (le_trans he hf))) rfl
  | syncAll sites =>
      apply onName hNames
      intro d _ hNames
      exact renamed hNames rfl
  | sameSite a b =>
      apply onName hNames
      intro d a hNames
      apply onName hNames
      intro e b hNames
      exact renamed hNames rfl
  | equal a b =>
      apply onValue hNames
      intro d a hNames
      apply onValue hNames
      intro e b hNames
      exact renamed hNames rfl
  | conforms e type =>
      apply onValue hNames
      intro d v hNames
      exact renamed hNames rfl
  | cast e kind =>
      apply onValue hNames
      intro d v hNames
      dsimp only
      split
      · exact renamedReading hNames (fun _ => rfl)
      · exact renamed hNames rfl
  | zeroValue type => exact renamedReading hNames (fun _ => rfl)
  | showValue e =>
      apply onValue hNames
      intro d v hNames
      exact renamedReading hNames (fun _ => rfl)
  | showTarget t =>
      apply onTarget hNames
      intro d t hNames _
      exact renamed hNames rfl
  | showSite n =>
      refine bind siteState ?_
      rintro d hd ⟨i, y⟩ _
      exact renamed (hNames.later hd) rfl
  | showLookup l =>
      apply onName hNames
      intro d l hNames
      exact renamed hNames rfl
  | showField e offset =>
      apply onValue hNames
      intro d v hNames
      exact renamedReading hNames (fun _ => rfl)
  | describe e =>
      apply onValue hNames
      intro d v hNames
      exact renamedReading hNames (fun _ => rfl)
  | load e offset =>
      apply onValue hNames
      intro d v hNames
      apply reading
      intro s _
      dsimp only
      split
      · exact renamed hNames rfl
      · exact renamed hNames rfl
  | store e offset new =>
      apply onValue hNames
      intro d v hNames
      apply onValue hNames
      intro e w hNames
      apply reading
      intro s _
      split
      · rename_i r cell _
        refine bind (changeHeap (fun h => h.storeCell r w) ?_) ?_
        · intro h i u hAt
          exact Heap.at?_storeCell_target hAt
        · intro f hf _ _
          exact renamedReading (hNames.later hf) (fun _ => rfl)
      · exact renamed hNames rfl
  | arrayGet e i =>
      apply onValue hNames
      intro d v hNames
      apply reading
      intro s _
      dsimp only
      split
      · exact renamed hNames rfl
      · exact renamed hNames rfl
  | arraySet e i new =>
      apply onValue hNames
      intro d v hNames
      apply onValue hNames
      intro e w hNames
      apply reading
      intro s _
      dsimp only
      split
      · rename_i o vs _ _
        split
        · refine bind (changeHeap (fun h => h.setElement o i w) ?_)
            ?_
          · intro h j u hAt
            exact Heap.at?_setElement_target hAt
          · intro f hf _ _
            exact renamed (hNames.later hf) rfl
        · exact renamed hNames rfl
      · exact renamed hNames rfl

end Lists

------------------------------------------------------------
-- Sessions
------------------------------------------------------------

namespace Session

/- A session after further steps. -/
def after
    (s : Session) : List Step → Session
| [] => s
| x :: xs => after (s.step x).2 xs

/-
  A session in which nothing was made: its state is the
  initial one on some heap without handles, and no target
  has a name.
-/
structure IsFresh (s : Session) : Prop where
  names : s.context.names.targets = []
  state :
    ∃ heap capacity,
      s.state = .initial heap capacity ∧
        ∀ (i : Nat) (t : Target), heap.at? i ≠ some (.target t)

/- Nothing is told of call sites. -/
abbrev AnySites (_ : Array Site) : Prop :=
  True

/- The state is known, and the named targets are listed. -/
structure Listed
    (c : Catalog)
    (s : Session) : Prop where
  known : Known s.context.runtime (OfSites AnySites) c s.state
  names : c.ListsNames s.context

variable {s : Session}

/- Steps do not change what all targets share. -/
theorem runtime_step
    (s : Session)
    (x : Step) :
    (s.step x).2.context.runtime = s.context.runtime := by
  unfold step
  dsimp only
  split
  · rfl
  · rfl

/- What is known before a step. -/
theorem Listed.before
    (hListed : s.Listed c)
    (hSites : G s.state.sites) :
    Known s.context.runtime (OfSites G) c
      { s.state with trace := [], held := s.roots } :=
  ⟨hListed.known.fits,
    (hListed.known.sound.withTrace []).withHeld s.roots, hSites⟩

theorem Listed.step
    (hHost : s.context.runtime.host.MakesNoTargets)
    (x : Step)
    (hListed : s.Listed c) :
    ∃ d, c ≤ d ∧ (s.step x).2.Listed d := by
  have hBefore :
      Known s.context.runtime (OfSites AnySites) c
        { s.state with trace := [], held := s.roots } :=
    hListed.before trivial
  have hLeaves :=
    Lists.stepping hHost (fun _ _ _ _ _ => trivial) x
      (fun _ _ _ _ _ _ _ _ => trivial) hListed.names _ hBefore
  unfold Session.step
  dsimp only
  split
  · rename_i a names t hStep
    rw [hStep] at hLeaves
    rcases hLeaves with ⟨d, hd, hKnown, hNames⟩
    exact ⟨d, hd, hKnown, hNames⟩
  · rename_i e t hStep
    rw [hStep] at hLeaves
    rcases hLeaves with ⟨d, hd, hKnown, _⟩
    exact ⟨d, hd, hKnown, hListed.names.later hd⟩

theorem Listed.after
    (hHost : s.context.runtime.host.MakesNoTargets)
    (xs : List Step)
    (hListed : s.Listed c) :
    ∃ d, c ≤ d ∧ (s.after xs).Listed d := by
  induction xs generalizing s c with
  | nil => exact ⟨c, le_refl c, hListed⟩
  | cons x xs ih =>
      rcases hListed.step hHost x with ⟨d, hd, hStep⟩
      have hHost' :
          (s.step x).2.context.runtime.host.MakesNoTargets := by
        rw [runtime_step]
        exact hHost
      rcases ih hHost' hStep with ⟨e, he, hRest⟩
      exact ⟨e, le_trans hd he, hRest⟩

theorem IsFresh.listed
    (hFresh : s.IsFresh) :
    s.Listed .empty := by
  rcases hFresh.state with ⟨heap, capacity, hState, hHeap⟩
  refine ⟨⟨.empty, ?_, trivial⟩, ?_⟩
  · rw [hState]
    exact .initial hHeap
  · rintro t ⟨n, ht⟩
    rw [hFresh.names] at ht
    cases ht

/- However a fresh session goes on, it lists its targets. -/
theorem listed_after
    (hFresh : s.IsFresh)
    (hHost : s.context.runtime.host.MakesNoTargets)
    (xs : List Step) :
    ∃ c, (s.after xs).Listed c := by
  rcases hFresh.listed.after hHost xs with ⟨c, _, hListed⟩
  exact ⟨c, hListed⟩

theorem runtime_after
    (s : Session)
    (xs : List Step) :
    (s.after xs).context.runtime = s.context.runtime := by
  induction xs generalizing s with
  | nil => rfl
  | cons x xs ih => exact (ih (s.step x).2).trans (runtime_step s x)

/- Its state is sound, and what is named was made of what fits. -/
theorem named_after
    (hFresh : s.IsFresh)
    (hHost : s.context.runtime.host.MakesNoTargets)
    (xs : List Step) :
    ∃ c : Catalog,
      c.Fits s.context.runtime ∧
        (s.after xs).state.Sound s.context.runtime c ∧
        ∀ t, (s.after xs).context.Names t → t ∈ c.made := by
  rcases listed_after hFresh hHost xs with ⟨c, hListed⟩
  have hKnown := hListed.known
  rw [runtime_after] at hKnown
  exact ⟨c, hKnown.fits, hKnown.sound, hListed.names⟩

end Session

end Linkage
