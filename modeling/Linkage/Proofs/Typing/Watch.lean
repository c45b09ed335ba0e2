import Linkage.Invoke

/-
  Watched runs.  A watched run stops outside as soon as a
  target is entered with arguments that are no values of its
  parameters, or returns what is no value of its result type.
  Otherwise it goes as the run that is not watched: so if a
  watched run never stops outside, then no target in the run
  is entered or left with ill-typed values.

  Key definitions include:
    * `Target.watch`
    * `enterWatched`
    * `Follows`

  Key theorems include:
    * `Follows.behave`
    * `enterWatched_follows`
-/

------------------------------------------------------------
-- Watching
------------------------------------------------------------

namespace Linkage

/-
  Run with arguments that are values of the parameters, for a
  value of the result type, or stop outside.
-/
def Target.watch
    (T : ClassTable)
    (t : Target)
    (args : List Value)
    (m : Run Value) : Run Value :=
  if Target.admits T t.signature args then do
    let v ← m
    if v.conforms T t.ret then pure v else throw .outside
  else throw .outside

/- Enter a target through a stub, and watch it and all else. -/
def enterWatched
    (rt : Runtime) : Nat → Stub → Enter
| 0, _, _, _ => throw .unfinished
| n + 1, stub, t, args =>
    t.watch rt.classes args do
      modify (fun s => s.log (.entered t args))
      if args.length = stub.arity then
        t.behave rt (fun u => enterWatched rt n u.stub u) args
      else Run.fault (wrongCount stub args)

/- Enter a target through its own stub, and watch it. -/
def Target.enterWatched
    (rt : Runtime)
    (fuel : Nat) : Enter :=
  fun t => Linkage.enterWatched rt fuel t.stub t

------------------------------------------------------------
-- Runs that Follow
------------------------------------------------------------

/- A run goes as another one, or stops outside. -/
def Follows
    {α : Type}
    (m n : Run α) : Prop :=
  ∀ s, m s = n s ∨ ∃ s', m s = .error .outside s'

variable {α β : Type}
variable {rt : Runtime}
variable {enter enter' : Enter}
variable {sig : Signature}
variable {t u : Target}
variable {args : List Value}

namespace Follows

theorem refl (m : Run α) : Follows m m :=
  fun _ => Or.inl rfl

theorem outside
    (m : Run α) :
    Follows (MonadExcept.throw (ε := Halt) .outside) m :=
  fun s => Or.inr ⟨s, rfl⟩

theorem bind
    {m n : Run α}
    {f g : α → Run β}
    (hFirst : Follows m n)
    (hSecond : ∀ a, Follows (f a) (g a)) :
    Follows (m >>= f) (n >>= g) := by
  intro s
  change
    EStateM.bind m f s = EStateM.bind n g s ∨
      ∃ s', EStateM.bind m f s = .error .outside s'
  unfold EStateM.bind
  rcases hFirst s with hSame | ⟨s', hOutside⟩
  · rw [hSame]
    cases n s with
    | ok a s' => exact hSecond a s'
    | error e s' => exact Or.inl rfl
  · rw [hOutside]
    exact Or.inr ⟨s', rfl⟩

/- Only what comes after differs. -/
theorem after
    {m : Run α}
    {f g : α → Run β}
    (hSecond : ∀ a, Follows (f a) (g a)) :
    Follows (m >>= f) (m >>= g) :=
  bind (refl m) hSecond

theorem holding
    {m n : Run α}
    (rs : List Root)
    (hFollows : Follows m n) :
    Follows (Run.holding rs m) (Run.holding rs n) := by
  intro s
  unfold Run.holding
  rcases hFollows { s with held := rs ++ s.held } with
    hSame | ⟨s', hOutside⟩
  · rw [hSame]
    exact Or.inl rfl
  · rw [hOutside]
    exact Or.inr ⟨_, rfl⟩

/- A watched run follows the run that is not. -/
theorem watch
    {T : ClassTable}
    {m n : Run Value}
    (hFollows : Follows m n) :
    Follows (t.watch T args m) n := by
  unfold Target.watch
  split
  · intro s
    change
      EStateM.bind m _ s = n s ∨
        ∃ s', EStateM.bind m _ s = .error .outside s'
    unfold EStateM.bind
    rcases hFollows s with hSame | ⟨s', hOutside⟩
    · rw [hSame]
      cases n s with
      | ok v s' =>
          dsimp only
          split
          · exact Or.inl rfl
          · exact Or.inr ⟨s', rfl⟩
      | error e s' => exact Or.inl rfl
    · rw [hOutside]
      exact Or.inr ⟨s', rfl⟩
  · exact outside n

------------------------------------------------------------
-- Behaviours
------------------------------------------------------------

theorem runFilters
    (hEnter : ∀ u as, Follows (enter u as) (enter' u as))
    (i : Nat)
    (fs : List (Option Target))
    (args : List Value) :
    Follows (runFilters enter sig i fs args)
      (runFilters enter' sig i fs args) := by
  induction fs generalizing i args with
  | nil => exact refl _
  | cons o fs ih =>
      cases o with
      | none => exact ih (i + 1) args
      | some f =>
          unfold Linkage.runFilters
          split
          · exact refl _
          · refine bind (holding _ (hEnter f _)) ?_
            intro w
            exact ih (i + 1) _

theorem runFold
    (hEnter : ∀ u as, Follows (enter u as) (enter' u as)) :
    Follows (runFold enter sig t u args)
      (runFold enter' sig t u args) := by
  apply after
  intro first
  refine bind (holding _ (hEnter u first)) ?_
  intro v
  split
  · exact hEnter t args
  · exact hEnter t _

theorem runGuard
    {test yes no : Target}
    (hEnter : ∀ u as, Follows (enter u as) (enter' u as)) :
    Follows (runGuard enter test yes no sig args)
      (runGuard enter' test yes no sig args) := by
  apply after
  intro first
  refine bind (holding _ (hEnter test first)) ?_
  intro v
  split
  · exact hEnter yes args
  · exact hEnter no args
  · exact refl _

/- What stops outside is not caught. -/
theorem runRescue
    {caught : ClassName}
    (hEnter : ∀ u as, Follows (enter u as) (enter' u as)) :
    Follows (runRescue rt enter sig t caught u args)
      (runRescue rt enter' sig t caught u args) := by
  apply after
  intro first s
  dsimp only
  rcases holding (rootsOf first) (hEnter t args) s with
    hSame | ⟨s', hOutside⟩
  · rw [hSame]
    cases Run.holding (rootsOf first) (enter' t args) s with
    | ok v s' => exact Or.inl rfl
    | error e s' =>
        cases e with
        | outside => exact Or.inl rfl
        | unfinished => exact Or.inl rfl
        | fault f =>
            dsimp only
            split
            · apply holding
              apply after
              intro o
              exact hEnter u _
            · exact Or.inl rfl
  · rw [hOutside]
    exact Or.inr ⟨s', rfl⟩

theorem runSite
    {i : SiteId}
    (hEnter : ∀ u as, Follows (enter u as) (enter' u as)) :
    Follows (runSite enter i args) (runSite enter' i args) := by
  apply after
  intro s
  split
  · exact holding _ (hEnter _ args)
  · exact refl _

theorem invokeExact
    (hEnter : ∀ u as, Follows (enter u as) (enter' u as)) :
    Follows (t.invokeExact rt enter args)
      (t.invokeExact rt enter' args) := by
  apply after
  intro _
  exact hEnter t args

theorem runInvoker
    {whole : Signature}
    {exact : Bool}
    (hEnter : ∀ u as, Follows (enter u as) (enter' u as)) :
    Follows (runInvoker rt enter whole exact sig args)
      (runInvoker rt enter' whole exact sig args) := by
  unfold Linkage.runInvoker
  split
  · exact refl _
  · apply after
    intro s
    split
    · exact refl _
    · apply holding
      split
      · unfold Target.invokeExactTyped
        split
        · exact invokeExact hEnter
        · exact refl _
      · apply after
        intro adapted
        exact holding _ (invokeExact hEnter)
  · exact refl _

/- A behaviour follows if all that it enters does. -/
theorem behave
    (hEnter : ∀ u as, Follows (enter u as) (enter' u as)) :
    Follows (t.behave rt enter args)
      (t.behave rt enter' args) := by
  unfold Target.behave
  dsimp only
  cases t.form with
  | bound u v => exact hEnter u _
  | convertArguments u cs => exact after (fun vs => hEnter u vs)
  | convertReturn u c =>
      exact bind (hEnter u args) (fun v => refl _)
  | filterReturn u f =>
      exact bind (hEnter u args) (fun v => hEnter f _)
  | filterArguments u pos fs =>
      exact
        bind (runFilters hEnter pos fs args) (fun vs => hEnter u vs)
  | collect u component count =>
      exact after (fun vs => hEnter u vs)
  | spread u count => exact after (fun vs => hEnter u vs)
  | permute u order =>
      exact after (fun vs => holding _ (hEnter u vs))
  | insert u pos vs => exact after (fun vs => hEnter u vs)
  | drop u pos count => exact after (fun vs => hEnter u vs)
  | fold u c => exact runFold hEnter
  | guard c yes no => exact runGuard hEnter
  | rescue u n h => exact runRescue hEnter
  | varargs u array => exact hEnter u args
  | site i => exact runSite hEnter
  | invoker exact s => exact runInvoker hEnter
  | _ => exact refl _

end Follows

/- A watched run goes as it does unwatched, or stops outside. -/
theorem enterWatched_follows
    (n : Nat)
    (stub : Stub)
    (t : Target)
    (args : List Value) :
    Follows (enterWatched rt n stub t args)
      (enterStub rt n stub t args) := by
  induction n generalizing stub t args with
  | zero => exact .refl _
  | succ n ih =>
      unfold enterWatched enterStub
      apply Follows.watch
      apply Follows.after
      intro _
      split
      · exact Follows.behave (fun u as => ih u.stub u as)
      · exact .refl _

end Linkage
