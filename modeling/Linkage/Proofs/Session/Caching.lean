import Linkage.Proofs.Session.Answers
import Linkage.Proofs.Session.Arity

/-
  Caching is unobservable.  Two sessions that differ in what
  their caches may keep, and in whether they remember
  retypings, are run through one script.  Each step has the
  same outcome in both, up to the identity of targets and
  what is told of the cache, and it calls the same code of
  the host in the same order.

  Key definitions include:
    * `RepliesAgree`
    * `Session.under`
    * `Session.Paired`
    * `Session.Matches`

  Key theorems include:
    * `Agree.stepping`
    * `Session.Paired.step`
    * `Session.caching_unobservable`
-/

------------------------------------------------------------
-- Steps
------------------------------------------------------------

namespace Linkage

variable {α : Type}
variable {b : Bool}
variable {w v : Pairing}
variable {c : Context}
variable {ns : Bindings}
variable {rt : Runtime}
variable {t u : Target}
variable {x : Step}

/- Two replies to a step: answers, and the names after it. -/
abbrev Replies
    (x : Step)
    (w : Pairing)
    (p q : Answer × Bindings) : Prop :=
  Answer.Alike x p.1 q.1 ∧ p.2.Twins w q.2

/- The replies to one step in two contexts agree. -/
abbrev RepliesAgree
    (c : Context)
    (b : Bool)
    (w : Pairing)
    (ns : Bindings)
    (x : Step) : Prop :=
  Agree c.runtime b w (Session.stepping c x)
    (Session.stepping (c.beside b ns) x) (Replies x)

namespace Bindings.Twins

variable {y z : Bindings}

theorem withTarget
    (hNames : y.Twins w z)
    (n : Option String)
    (hTwin : Twin w t u) :
    Bindings.Twins w
      { y with targets := Names.bindIf y.targets n t }
      { z with targets := Names.bindIf z.targets n u } :=
  ⟨hNames.loose, hNames.targets.bindIf n hTwin,
    hNames.values_eq, hNames.sites_eq, hNames.lookups_eq⟩

theorem withValue
    (hNames : y.Twins w z)
    (n : Option String)
    (a : Value) :
    Bindings.Twins w
      { y with values := Names.bindIf y.values n a }
      { z with values := Names.bindIf z.values n a } := by
  rw [hNames.values_eq]
  exact
    ⟨hNames.loose, hNames.targets, rfl, hNames.sites_eq,
      hNames.lookups_eq⟩

theorem withSite
    (hNames : y.Twins w z)
    (n : Option String)
    (i : SiteId) :
    Bindings.Twins w
      { y with sites := Names.bindIf y.sites n i }
      { z with sites := Names.bindIf z.sites n i } := by
  rw [hNames.sites_eq]
  exact
    ⟨hNames.loose, hNames.targets, hNames.values_eq, rfl,
      hNames.lookups_eq⟩

theorem withLookup
    (hNames : y.Twins w z)
    (n : Option String)
    (l : Lookup) :
    Bindings.Twins w
      { y with lookups := Names.bindIf y.lookups n l }
      { z with lookups := Names.bindIf z.lookups n l } := by
  rw [hNames.lookups_eq]
  exact
    ⟨hNames.loose, hNames.targets, hNames.values_eq,
      hNames.sites_eq, rfl⟩

end Bindings.Twins

/- What is asked of a value is the same. -/
theorem Heap.Alike.describe_eq
    {h k : Heap}
    (hAlike : h.Alike k)
    (a : Value) :
    a.describe k = a.describe h := by
  unfold Value.describe
  have hElements : k.elements? = h.elements? :=
    funext hAlike.elements?_eq
  rw [hElements]

theorem Heap.Alike.cellOf_eq
    {h k : Heap}
    (hAlike : h.Alike k)
    (a : Value)
    (offset : Nat) :
    Session.cellOf k a offset = Session.cellOf h a offset := by
  unfold Session.cellOf
  have hCell : k.cell? = h.cell? := funext hAlike.cell?_eq
  rw [hCell]

namespace Agree

/- One answer, and names that are kept or changed alike. -/
theorem reply
    {y z : Bindings}
    (a : Answer)
    (hNames : y.Twins w z) :
    Agree rt b w (Pure.pure (a, y) : Session.Stepping)
      (Pure.pure (a, z)) (Replies x) :=
  pure ⟨.same a, hNames⟩

/- One answer that is found in the heap. -/
theorem replyFromHeap
    {y z : Bindings}
    (f : Heap → Answer)
    (hNames : y.Twins w z)
    (hHeap : ∀ h k, h.Alike k → f k = f h) :
    Agree rt b w
      (do
        let s ← get
        Pure.pure (f s.heap, y) : Session.Stepping)
      (do
        let s ← get
        Pure.pure (f s.heap, z))
      (Replies x) := by
  apply get_bind
  intro s s' hTwins
  rw [hHeap _ _ hTwins.heap]
  exact reply _ hNames

/- A value as an answer. -/
theorem replyView
    {y z : Bindings}
    (a : Value)
    (hNames : y.Twins w z) :
    Agree rt b w
      (do
        let s ← get
        Pure.pure (.value (a.view s.heap), y) : Session.Stepping)
      (do
        let s ← get
        Pure.pure (.value (a.view s.heap), z))
      (Replies x) := by
  apply replyFromHeap (fun h => .value (a.view h)) hNames
  intro h k hAlike
  rw [hAlike.view_eq]

/- A reply about a value. -/
theorem onValue
    {e : ValueExpr}
    {f g : Value → Session.Stepping}
    (hNames : c.names.Twins w ns)
    (hRest :
      ∀ v a, c.names.Twins v ns →
        Agree rt b v (f a) (g a) (Replies x)) :
    Agree rt b w (c.value e >>= f)
      ((c.beside b ns).value e >>= g) (Replies x) := by
  refine bind_same (value hNames) ?_
  intro v hv a
  exact hRest v a (hNames.later hv)

/- A name that is given up. -/
theorem release
    (hNames : c.names.Twins w ns)
    (n : String) :
    RepliesAgree c b w ns (.release n) := by
  have hBound :
      (ns.targets.lookup n).isSome =
        (c.names.targets.lookup n).isSome := by
    have hRel := hNames.targets.lookup n
    generalize c.names.targets.lookup n = o at hRel
    generalize ns.targets.lookup n = o' at hRel
    cases hRel with
    | _ => rfl
  unfold RepliesAgree Session.stepping Context.beside
  dsimp only
  rw [hBound]
  exact
    reply _
      ⟨hNames.loose, hNames.targets.erase n, hNames.values_eq,
        hNames.sites_eq, hNames.lookups_eq⟩

/- A call site that is made is told of with its target. -/
theorem making
    (hChecking : c.runtime.compile = .checking)
    (hNames : c.names.Twins w ns)
    (policy : Policy)
    (source : SiteSource)
    (name : Option String) :
    RepliesAgree c b w ns (.makeSite policy source name) := by
  refine bind_same (newSite hChecking hNames) ?_
  intro v hv i
  apply get_bind
  intro s s' hTwins
  have hSite := hTwins.siteTwin i
  generalize s.site? i = o at hSite
  generalize s'.site? i = o' at hSite
  cases hSite with
  | none => exact throw _
  | some hxy =>
      dsimp only
      rw [hxy.alike.policy_eq, hxy.alike.signature_eq]
      exact
        pure
          ⟨.site _ _ hxy.alike.target,
            (hNames.later hv).withSite name i⟩

theorem setting
    (hNames : c.names.Twins w ns)
    (site n : String) :
    RepliesAgree c b w ns (.setTarget site n) := by
  refine bind (siteState hNames) ?_
  rintro v hv ⟨i, x⟩ ⟨j, y⟩ ⟨hEq, hSite⟩
  have hSame : j = i := hEq
  subst hSame
  apply onTarget (hNames.later hv)
  intro z t u hz ht
  refine bind
    (scriptOfLink (setTarget (hSite.later hz) ht)) ?_
  intro z' hz' _ _ _
  exact
    reply _ (hNames.later (le_trans hv (le_trans hz hz')))

theorem showingField
    (hNames : c.names.Twins w ns)
    (e : ValueExpr)
    (offset : Nat) :
    RepliesAgree c b w ns (.showField e offset) := by
  apply onValue hNames
  intro v a hNames
  apply replyFromHeap
    (fun h =>
      .text
        ((Session.cellOf h a offset).map (fun p => p.2.text h)))
    hNames
  intro h k hAlike
  rw [hAlike.cellOf_eq]
  have hText :
      (fun p : CellRef × Cell => p.2.text k) =
        fun p => p.2.text h :=
    funext (fun p => hAlike.cellText_eq p.2)
  rw [hText]

/- Cells and array elements that are read and written. -/
theorem loading
    (hNames : c.names.Twins w ns)
    (e : ValueExpr)
    (offset : Nat) :
    RepliesAgree c b w ns (.load e offset) := by
  apply onValue hNames
  intro v a hNames
  apply get_bind
  intro s s' hTwins
  dsimp only
  rw [hTwins.heap.cellOf_eq]
  cases Session.cellOf s.heap a offset with
  | none => exact reply _ hNames
  | some p =>
      dsimp only
      rw [hTwins.heap.view_eq]
      exact reply _ hNames

theorem storing
    (hNames : c.names.Twins w ns)
    (e : ValueExpr)
    (offset : Nat)
    (new : ValueExpr) :
    RepliesAgree c b w ns (.store e offset new) := by
  apply onValue hNames
  intro v a hNames
  apply onValue hNames
  intro z a' hNames
  apply get_bind
  intro s s' hTwins
  rw [hTwins.heap.cellOf_eq]
  cases Session.cellOf s.heap a offset with
  | none => exact reply _ hNames
  | some p =>
      rcases p with ⟨r, cell⟩
      dsimp only
      refine bind
        (changeHeap (fun h => h.storeCell r a') ?_) ?_
      · intro h k hHeaps
        exact hHeaps.storeCell r a'
      · intro z' hz' _ _ _
        exact replyView _ (hNames.later hz')

theorem gettingElement
    (hNames : c.names.Twins w ns)
    (e : ValueExpr)
    (i : Nat) :
    RepliesAgree c b w ns (.arrayGet e i) := by
  apply onValue hNames
  intro v a hNames
  apply get_bind
  intro s s' hTwins
  have hElements : s'.heap.elements? = s.heap.elements? :=
    funext hTwins.heap.elements?_eq
  dsimp only
  rw [hElements]
  cases (a.object?.bind s.heap.elements?).bind (·[i]?) with
  | none => exact reply _ hNames
  | some a' =>
      dsimp only
      rw [hTwins.heap.view_eq]
      exact reply _ hNames

theorem settingElement
    (hNames : c.names.Twins w ns)
    (e : ValueExpr)
    (i : Nat)
    (new : ValueExpr) :
    RepliesAgree c b w ns (.arraySet e i new) := by
  apply onValue hNames
  intro v a hNames
  apply onValue hNames
  intro z a' hNames
  apply get_bind
  intro s s' hTwins
  have hElements : s'.heap.elements? = s.heap.elements? :=
    funext hTwins.heap.elements?_eq
  dsimp only
  rw [hElements]
  cases a.object? with
  | none => exact reply _ hNames
  | some o =>
      dsimp only [Option.bind]
      cases s.heap.elements? o with
      | none => exact reply _ hNames
      | some vs =>
          dsimp only
          apply ite
          · intro _
            refine bind
              (changeHeap (fun h => h.setElement o i a') ?_) ?_
            · intro h k hHeaps
              exact hHeaps.setElement o i a'
            · intro z' hz' _ _ _
              exact reply _ (hNames.later hz')
          · intro _
            exact reply _ hNames

/- The replies to every step agree. -/
theorem stepping
    (hChecking : c.runtime.compile = .checking)
    (hHost : c.runtime.host.MakesNoTargets)
    (hBlind : c.runtime.host.IsBlind)
    (hNames : c.names.Twins w ns)
    (x : Step) :
    RepliesAgree c b w ns x := by
  cases x with
  | make op name =>
      refine bind (targetOp hChecking hNames op) ?_
      intro v hv t u ht
      exact
        pure
          ⟨.target ht.alike,
            (hNames.later hv).withTarget name ht⟩
  | lookup n name => exact reply _ (hNames.withLookup name _)
  | inClass l n name =>
      refine bind_same (lookup hNames) ?_
      intro v hv l
      exact reply _ ((hNames.later hv).withLookup name _)
  | publicLookup l name =>
      refine bind_same (lookup hNames) ?_
      intro v hv l
      exact reply _ ((hNames.later hv).withLookup name _)
  | letValue e name =>
      apply onValue hNames
      intro v a hNames
      exact replyView a (hNames.withValue name a)
  | invoke n es how name =>
      apply onTarget hNames
      intro v t u hv ht
      refine bind_same (values (hNames.later hv)) ?_
      intro z hz as
      refine
        bind (callingOf hChecking hHost hBlind (ht.later hz)) ?_
      intro z' hz' m n hRun
      have hLe := le_trans hv (le_trans hz hz')
      exact invoke (hNames.later hLe) hRun
  | tree n =>
      apply onTarget hNames
      intro v t u hv ht
      exact pure ⟨.tree ht.alike.tree, hNames.later hv⟩
  | isVarargs n =>
      apply onTarget hNames
      intro v t u hv ht
      dsimp only
      rw [ht.alike.isVarargs_eq]
      exact reply _ (hNames.later hv)
  | same m n =>
      apply onTarget hNames
      intro v t u hv ht
      apply onTarget (hNames.later hv)
      intro z x y hz hx
      dsimp only
      rw [ht.alike.key_eq, hx.alike.key_eq]
      exact
        pure
          ⟨.node _ _ _ _ _, hNames.later (le_trans hv hz)⟩
  | wrappedSame m n =>
      apply onTarget hNames
      intro v t u hv ht
      apply onTarget (hNames.later hv)
      intro z x y hz hx
      refine
        pure
          ⟨.wrapped _ _ ?_, hNames.later (le_trans hv hz)⟩
      rw [List.length_map, List.length_map,
        ht.alike.wrapped.length_eq]
  | release n => exact release hNames n
  | stats =>
      apply get_bind
      intro s s' _
      exact pure ⟨.stats _ _, hNames⟩
  | isCached n =>
      apply onTarget hNames
      intro v t u hv ht
      apply get_bind
      intro s s' _
      exact pure ⟨.cached _ _ _, hNames.later hv⟩
  | makeSite policy source name =>
      exact making hChecking hNames policy source name
  | setTarget site n => exact setting hNames site n
  | syncAll sites =>
      unfold RepliesAgree Session.stepping Context.beside
      dsimp only
      rw [hNames.sites_eq]
      refine bind_same (asking _) ?_
      intro v hv _
      exact reply _ (hNames.later hv)
  | sameSite m n =>
      refine bind_same (site hNames) ?_
      intro v hv i
      refine bind_same (site (hNames.later hv)) ?_
      intro z hz j
      exact reply _ (hNames.later (le_trans hv hz))
  | equal e f =>
      apply onValue hNames
      intro v a hNames
      apply onValue hNames
      intro z a' hNames
      exact reply _ hNames
  | conforms e type =>
      apply onValue hNames
      intro v a hNames
      exact reply _ hNames
  | cast e kind =>
      apply onValue hNames
      intro v a hNames
      dsimp only
      cases a.cast? kind with
      | none => exact reply _ hNames
      | some a' => exact replyView a' hNames
  | zeroValue type => exact replyView (.zero type) hNames
  | showValue e =>
      apply onValue hNames
      intro v a hNames
      apply replyFromHeap (fun h => .text (some (a.text h))) hNames
      intro h k hAlike
      rw [hAlike.text_eq]
  | showTarget n =>
      apply onTarget hNames
      intro v t u hv ht
      dsimp only
      rw [ht.alike.text_eq]
      exact reply _ (hNames.later hv)
  | showSite n =>
      refine bind (siteState hNames) ?_
      rintro v hv ⟨i, x⟩ ⟨j, y⟩ ⟨_, hSite⟩
      have hText : y.text = x.text := by
        unfold Site.text
        rw [hSite.alike.policy_eq, hSite.alike.signature_eq]
      dsimp only
      rw [hText]
      exact reply _ (hNames.later hv)
  | showLookup l =>
      refine bind_same (lookup hNames) ?_
      intro v hv l
      exact reply _ (hNames.later hv)
  | showField e offset => exact showingField hNames e offset
  | describe e =>
      apply onValue hNames
      intro v a hNames
      apply replyFromHeap (fun h => .described (a.describe h)) hNames
      intro h k hAlike
      rw [hAlike.describe_eq]
  | load e offset => exact loading hNames e offset
  | store e offset new => exact storing hNames e offset new
  | arrayGet e i => exact gettingElement hNames e i
  | arraySet e i new => exact settingElement hNames e i new

end Agree

------------------------------------------------------------
-- Sessions
------------------------------------------------------------

namespace Session

/- The session with another cache, and another memory. -/
def under
    (s : Session)
    (S : Settings) : Session where
  context :=
    { s.context with
      runtime :=
        s.context.runtime.memoizing S.invoke.memoizeAsType }
  state := { s.state with cache := .new S.stubs.capacity }

/-
  Sessions whose names and states are twins; the other one
  remembers retypings as told.
-/
structure Paired
    (b : Bool)
    (w : Pairing)
    (s s' : Session) : Prop where
  context :
    ∃ ns,
      s'.context = s.context.beside b ns ∧
        s.context.names.Twins w ns
  state : Twins s.context.runtime b w s.state s'.state

/-
  Two sessions have one outcome: their answers to the steps
  of a script are alike, and so is what the last step called
  and entered, event by event.
-/
structure Matches
    (s s' : Session)
    (xs : List Step) : Prop where
  answers : AnswersAlike xs (s.run xs) (s'.run xs)
  trace :
    List.Forall₂ Event.Alike (s.after xs).state.trace
      (s'.after xs).state.trace

variable {s s' : Session}

/- States of twins before a step; what is held may differ. -/
theorem Paired.before
    (hPaired : Paired b w s s') :
    Twins s.context.runtime b w
      { s.state with trace := [], held := s.roots }
      { s'.state with trace := [], held := s'.roots } where
  left := (hPaired.state.left.withTrace []).withHeld s.roots
  right := (hPaired.state.right.withTrace []).withHeld s'.roots
  heap := hPaired.state.heap
  sites := hPaired.state.sites
  trace := .nil
  same := fun hSame => ⟨(hPaired.state.same hSame).1, rfl⟩

/- One step has answers that are alike, and keeps the pairing. -/
theorem Paired.step
    (hChecking : s.context.runtime.compile = .checking)
    (hHost : s.context.runtime.host.MakesNoTargets)
    (hBlind : s.context.runtime.host.IsBlind)
    (hPaired : Paired b w s s')
    (x : Step) :
    ∃ v,
      Answer.Alike x (s.step x).1 (s'.step x).1 ∧
        Paired b v (s.step x).2 (s'.step x).2 := by
  rcases hPaired.context with ⟨ns, hContext, hNames⟩
  have hMeets :=
    Agree.stepping hChecking hHost hBlind hNames x _ _
      hPaired.before
  unfold Session.step
  rw [hContext]
  dsimp only
  generalize
    stepping s.context x
      { s.state with trace := [], held := s.roots } = r at hMeets
  generalize
    stepping (s.context.beside b ns) x
      { s'.state with trace := [], held := s'.roots } = r'
        at hMeets
  cases hMeets with
  | @ok p q z z' v _ hTwins hReplies =>
      exact
        ⟨v, hReplies.1, ⟨q.2, rfl, hReplies.2⟩, hTwins⟩
  | @error e z z' v hv hTwins =>
      exact ⟨v, .same _, ⟨ns, rfl, hNames.later hv⟩, hTwins⟩

/- Whole scripts, step by step. -/
theorem Paired.matches
    (hChecking : s.context.runtime.compile = .checking)
    (hHost : s.context.runtime.host.MakesNoTargets)
    (hBlind : s.context.runtime.host.IsBlind)
    (hPaired : Paired b w s s')
    (xs : List Step) :
    Matches s s' xs := by
  induction xs generalizing s s' w with
  | nil => exact ⟨.nil, hPaired.state.trace⟩
  | cons x xs ih =>
      rcases hPaired.step hChecking hHost hBlind x with
        ⟨v, hAnswer, hNext⟩
      have hRest :
          Matches (s.step x).2 (s'.step x).2 xs := by
        apply ih _ _ _ hNext
        · rw [runtime_step]
          exact hChecking
        · rw [runtime_step]
          exact hHost
        · rw [runtime_step]
          exact hBlind
      exact ⟨.cons hAnswer hRest.answers, hRest.trace⟩

/- Fresh sessions under any two settings are paired. -/
theorem IsFresh.paired
    (hFresh : s.IsFresh)
    (S S' : Settings) :
    Paired S'.invoke.memoizeAsType ⟨.empty, .empty, False⟩
      (s.under S) (s.under S') := by
  rcases hFresh.state with ⟨heap, capacity, hState, hHeap⟩
  have hUnder :
      ∀ S : Settings,
        (s.under S).state = .initial heap S.stubs.capacity := by
    intro S
    unfold under
    rw [hState]
    rfl
  refine ⟨⟨s.context.names, rfl, id, ?_, rfl, rfl, rfl⟩, ?_⟩
  · change Names.Twins _ s.context.names.targets _
    rw [hFresh.names]
    exact .nil
  · rw [hUnder S, hUnder S']
    exact
      ⟨.initial hHeap, .initial hHeap, .refl heap, .nil, .nil,
        False.elim⟩

/-
  Settings of the cache and of the memory of retypings cannot
  be told apart by any script, whatever the world and the
  classes are.  The host may be any that does not tell the
  targets of handles apart and makes none of its own, as the
  host of every world does.
-/
theorem caching_unobservable
    (hFresh : s.IsFresh)
    (hChecking : s.context.runtime.compile = .checking)
    (hHost : s.context.runtime.host.MakesNoTargets)
    (hBlind : s.context.runtime.host.IsBlind)
    (S S' : Settings)
    (xs : List Step) :
    Matches (s.under S) (s.under S') xs := by
  have hPaired := hFresh.paired S S'
  exact
    Paired.matches (s := s.under S) hChecking hHost hBlind hPaired
      xs

/- Settings that give up all stubs but the last in use. -/
def frugal : Settings where
  stubs := { eviction := .lru, maxEntries := 1 }
  invoke := { memoizeAsType := false }

/- One target is retyped twice, and then invoked. -/
def retyping : List Step :=
  [.make (.identity .int) (some "same"),
   .make (.asType "same" ⟨[.int], .prim .long⟩) (some "wide"),
   .make (.asType "same" ⟨[.int], .prim .long⟩) (some "again"),
   .same "wide" "again",
   .invoke "same" [.prim (.int 7)] .exact none,
   .invoke "again" [.prim (.int 7)] .exact none]

/-
  By default the second retyping is remembered.  Without that
  it is a node of its own, and with room for one stub the
  target is invoked after the cache gave up its stub.
-/
theorem caching_unobservable_retyping :
    ((plain.under frugal).after retyping).state.nextId = 3 ∧
      ((plain.under frugal).after retyping).state.cache.evictions =
        1 ∧
      Matches (plain.under {}) (plain.under frugal) retyping := by
  refine ⟨by decide +kernel, by decide +kernel, ?_⟩
  exact
    caching_unobservable plain_isFresh rfl
      (World.host_makesNoTargets _) (World.host_isBlind _) {}
      frugal retyping

/- The sessions of one world, for which nothing is asked. -/
theorem start_matches
    {heap : Heap}
    (x : World)
    (hHeap : ∀ i t, heap.at? i ≠ some (.target t))
    (S S' : Settings)
    (xs : List Step) :
    Matches (start x heap S .checking)
      (start x heap S' .checking) xs := by
  have hFresh : (start x heap S .checking).IsFresh :=
    ⟨rfl, heap, S.stubs.capacity, rfl, hHeap⟩
  exact
    (hFresh.paired S S').matches rfl x.host_makesNoTargets
      x.host_isBlind xs

end Session

end Linkage
