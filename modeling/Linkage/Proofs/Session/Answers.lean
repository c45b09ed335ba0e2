import Linkage.Proofs.Caching.Scripts

/-
  Answers of two sessions.  Answers to one step are alike if
  they differ in the identity of targets and in what is told
  of the cache, and in nothing else.  Every way of calling
  twins gives answers that are alike.

  Key definitions include:
    * `Answer.Alike`
    * `AnswersAlike`

  Key theorems include:
    * `Session.logOf_eq`
    * `Agree.callingOf`
    * `Agree.invoke`
-/

------------------------------------------------------------
-- Answers
------------------------------------------------------------

namespace Linkage

/-
  Answers to one step.  Targets are alike; whether targets are
  one node, whether a stub is in the cache and what the cache
  counts may differ, and nothing else.
-/
inductive Answer.Alike : Step → Answer → Answer → Prop
| same {x : Step} (a : Answer) :
    Alike x a a
| target {x : Step} {t u : Target} :
    t.Alike u →
    Alike x (.target t) (.target u)
| tree {x : Step} {a b : Tree} :
    a.Alike b →
    Alike x (.tree a) (.tree b)
| site {x : Step} {t u : Target} (p : Policy) (sig : Signature) :
    t.Alike u →
    Alike x (.site p sig t) (.site p sig u)
| node (a b : String) (m n key : Bool) :
    Alike (.same a b) (.same m key) (.same n key)
| wrapped (a b : String) {ms ns : List Bool} :
    ns.length = ms.length →
    Alike (.wrappedSame a b) (.wrappedSame ms) (.wrappedSame ns)
| cached (t : String) (m n : Bool) :
    Alike (.isCached t) (.is m) (.is n)
| stats (s t : Stub.Stats) :
    Alike .stats (.stats s) (.stats t)

/- Answers to the steps of a script, one by one. -/
inductive AnswersAlike :
    List Step → List Answer → List Answer → Prop
| nil :
    AnswersAlike [] [] []
| cons
    {x : Step} {xs : List Step}
    {a b : Answer} {as bs : List Answer} :
    Answer.Alike x a b →
    AnswersAlike xs as bs →
    AnswersAlike (x :: xs) (a :: as) (b :: bs)

variable {α : Type}
variable {b : Bool}
variable {w v : Pairing}
variable {c : Context}
variable {ns : Bindings}
variable {s s' : State}
variable {t u : Target}
variable {args : List Value}

------------------------------------------------------------
-- Traces
------------------------------------------------------------

/- As many stubs are entered. -/
theorem Session.entriesOf_eq
    {es fs : List Event}
    (hTrace : List.Forall₂ Event.Alike es fs) :
    Session.entriesOf fs = Session.entriesOf es := by
  unfold Session.entriesOf
  induction hTrace with
  | nil => rfl
  | cons hEvent _ ih =>
      rw [List.countP_cons, List.countP_cons, ih]
      cases hEvent with
      | _ => rfl

/- The same calls of the host are shown. -/
theorem Session.logOf_eq
    {es fs : List Event}
    (x : World)
    (hTrace : List.Forall₂ Event.Alike es fs) :
    Session.logOf x fs = Session.logOf x es := by
  have hReversed := List.rel_reverse hTrace
  unfold Session.logOf
  generalize es.reverse = xs at hReversed
  generalize fs.reverse = ys at hReversed
  induction hReversed with
  | nil => rfl
  | cons hEvent _ ih =>
      rw [List.filterMap_cons, List.filterMap_cons, ih]
      cases hEvent with
      | entered _ _ => rfl
      | allocated _ => rfl
      | called code as hAlike =>
          have hView : Value.view _ = Value.view _ :=
            funext hAlike.view_eq
          dsimp only
          rw [hView]

------------------------------------------------------------
-- Calls
------------------------------------------------------------

/- The caches have nothing in common but compiled stubs. -/
theorem Twins.withCache
    {rt : Runtime}
    {x y : Stub.Cache}
    (hTwins : Twins rt b w s s')
    (hLeft : x.Compiled rt.compile)
    (hRight : y.Compiled rt.compile) :
    Twins rt b w { s with cache := x }
      { s' with cache := y } where
  left := hTwins.left.withCache hLeft
  right := hTwins.right.withCache hRight
  heap := hTwins.heap
  sites := hTwins.sites
  trace := hTwins.trace
  same := hTwins.same

/-
  The cache gives a stub for the key of a stub in use, which
  takes as many arguments, whether it gave up the old one or
  not.
-/
theorem State.Sound.get_ok
    {rt : Runtime}
    {d : Catalog}
    (hSound : s.Sound rt d)
    (hChecking : rt.compile = .checking)
    (ht : t ∈ d.made) :
    ∃ stub y,
      s.cache.get rt.compile t.stub.key = (.ok stub, y) ∧
        y.Compiled rt.compile ∧ stub.key = t.stub.key ∧
          stub.arity = t.count := by
  have hServes := hSound.valid.serves t ht
  rcases hServes.key with ⟨exact, extra, hKey, hExact⟩
  have hCompile :
      ∀ n, rt.compile n t.stub.key = .ok t.signature.count := by
    intro n
    rw [hChecking, hKey]
    exact Stub.Compiler.checking_ofSignature extra n hExact
  rcases hSound.resident.get (k := t.stub.key) with
    ⟨hCompiled, hStub⟩
  rcases Stub.Cache.get_ok (x := s.cache) hCompile with
    ⟨stub, y, hGet⟩
  rw [hGet] at hCompiled hStub
  rcases hStub stub rfl with ⟨hStubKey, n, hArity⟩
  rw [hStubKey, hCompile n] at hArity
  exact
    ⟨stub, y, hGet, hCompiled, hStubKey,
      (Except.ok.inj hArity).symm⟩

namespace Agree

/- Every way of calling makes runs that agree. -/
theorem callingOf
    {how : Calling}
    (hChecking : c.runtime.compile = .checking)
    (hHost : c.runtime.host.MakesNoTargets)
    (hBlind : c.runtime.host.IsBlind)
    (ht : Twin w t u) :
    Agree c.runtime b w (Session.callingOf c t args how)
      (Session.callingOf (c.beside b ns) u args how)
      (fun v m n =>
        Agree c.runtime b v m n (fun _ a a' => a' = a)) := by
  apply Agree.relying
  intro s s' hTwins
  have hForm := ht.form hTwins
  have hEnter :
      Together (fun _ => Target.Alike) c.runtime b
        (Target.enter c.runtime Session.fuel)
        (Target.enter (c.runtime.memoizing b) Session.fuel) :=
    together_enter hChecking hHost hBlind Session.fuel
  cases how with
  | exact => exact pure (Together.invokeExact hEnter ht)
  | flexible =>
      exact
        pure
          (Together.invokeFlexibly hChecking hEnter
            (Together.arityAdapted hChecking ht hForm))
  | exactTyped sig =>
      refine bind_same (asking _) ?_
      intro v hv sig
      exact
        pure (Together.invokeExactTyped hEnter (ht.later hv))
  | typed sig =>
      refine bind_same (asking _) ?_
      intro v hv sig
      exact
        pure
          (Together.invokeTyped hChecking hEnter (ht.later hv))
  | interpret =>
      exact
        pure
          (Together.behave hChecking hHost (.inr hBlind) hEnter ht
            hForm)
  | throughStub =>
      intro s s' hTwins
      rcases hTwins.left.get_ok hChecking ht.left with
        ⟨stub, x, hGet, hCompiled, hKey, hArity⟩
      rcases hTwins.right.get_ok hChecking ht.right with
        ⟨stub', y, hGet', hCompiled', hKey', hArity'⟩
      rw [ht.alike.key_eq] at hKey'
      rw [ht.alike.count_eq] at hArity'
      unfold Session.callingOf
      dsimp only
      rw [hGet]
      have hRuntime :
          (c.beside b ns).runtime = c.runtime.memoizing b := rfl
      rw [hRuntime, hGet']
      exact
        .ok (le_refl w) (hTwins.withCache hCompiled hCompiled')
          (agree_enterStub hChecking hHost hBlind
            (hKey'.trans hKey.symm) (hArity'.trans hArity.symm) ht)

/- The outcome of a call is shown in the same way. -/
theorem invoke
    {m n : Run Value}
    {x : Step}
    {name : Option String}
    (hNames : c.names.Twins w ns)
    (hRun : Agree c.runtime b w m n (fun _ a a' => a' = a)) :
    Agree c.runtime b w (Session.invoke c name m)
      (Session.invoke (c.beside b ns) name n)
      (fun v p q =>
        Answer.Alike x p.1 q.1 ∧ p.2.Twins v q.2) := by
  have hBound :
      ∀ a,
        ({ c.names with
          values := Names.bindIf c.names.values name a } :
          Bindings).Twins w
          { ns with values := Names.bindIf ns.values name a } := by
    intro a
    rw [hNames.values_eq]
    exact
      ⟨hNames.loose, hNames.targets, rfl, hNames.sites_eq,
        hNames.lookups_eq⟩
  intro s s' hTwins
  have hMeets := hRun s s' hTwins
  unfold Session.invoke
  generalize m s = r at hMeets
  generalize n s' = r' at hMeets
  cases hMeets with
  | ok hv hTwins' hPost =>
      subst hPost
      refine .ok hv hTwins' ⟨?_, (hBound _).later hv⟩
      dsimp only
      rw [hTwins'.heap.view_eq,
        Session.entriesOf_eq hTwins'.trace,
        Session.logOf_eq _ hTwins'.trace]
      exact .same _
  | @error e z z' v hv hTwins' =>
      cases e with
      | outside => exact .error hv hTwins'
      | unfinished => exact .error hv hTwins'
      | fault f =>
          have hObject :
              Agree c.runtime b v (Run.throwable f)
                (Run.throwable f) (fun _ o o' => o' = o) :=
            throwable
          have hThrown := hObject z z' hTwins'
          dsimp only
          generalize Run.throwable f z = y at hThrown
          generalize Run.throwable f z' = y' at hThrown
          cases hThrown with
          | error hk hTwins'' =>
              exact .error (le_trans hv hk) hTwins''
          | ok hk hTwins'' hEq =>
              subst hEq
              have hLe := le_trans hv hk
              refine .ok hLe hTwins'' ⟨?_, (hBound _).later hLe⟩
              dsimp only
              rw [hTwins''.heap.view_eq,
                Session.entriesOf_eq hTwins''.trace,
                Session.logOf_eq _ hTwins''.trace]
              exact .same _

theorem newSite
    {policy : Policy}
    {source : SiteSource}
    (hChecking : c.runtime.compile = .checking)
    (hNames : c.names.Twins w ns) :
    Agree c.runtime b w (Session.makeSite c policy source)
      (Session.makeSite (c.beside b ns) policy source)
      (fun _ i j => j = i) := by
  cases source with
  | linked n =>
      apply onTarget hNames
      intro v t u _ ht
      exact scriptOfLink (makeSite ht)
  | unlinked sig =>
      refine bind_same (asking _) ?_
      intro v _ sig
      exact scriptOfLink (unlinkedSite hChecking)

end Agree

end Linkage
