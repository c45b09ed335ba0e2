import Linkage.Proofs.Session.Casting

/-
  Runs that are tracked by others.  From states that are the
  same, one run is matched by another, and both come to sound
  states; so what follows them may be compared in turn.  An
  end that is come to at some depth is come to at any greater
  one.  So one target may be tracked by another although some
  of their delegates are entered at different depths, and
  targets that track each other are called alike.

  Key definitions include:
    * `Halt.IsEnd`
    * `Run.GivesOnly`
    * `Run.StaysSound`
    * `Run.Tracks`
    * `Target.TrackedBy`
    * `Target.CallsAlike`

  Key theorems include:
    * `Target.enter_staysSound`
    * `Run.Tracks.bind`
    * `Run.Tracks.enter`
    * `Target.callsAlike_of_tracked`
-/

------------------------------------------------------------
-- Runs that Stay Sound
------------------------------------------------------------

namespace Linkage

/- A failure with which a run came to an end. -/
def Halt.IsEnd (e : Halt) : Prop :=
  e ≠ .unfinished

variable {α β : Type}
variable {rt : Runtime}
variable {c d : Catalog}
variable {s s' : State}
variable {t u : Target}
variable {args : List Value}

theorem Run.ended_iff
    {r : EStateM.Result Halt State α} :
    Run.Ended r ↔ ∀ e s, r = .error e s → e.IsEnd := by
  unfold Run.Ended Halt.IsEnd
  cases r with
  | ok a s => exact ⟨fun _ => nofun, fun _ => nofun⟩
  | error e s =>
      constructor
      · rintro hEnded _ _ hEq rfl
        cases hEq
        exact hEnded rfl
      · rintro hAll hHalt
        exact hAll e s rfl (Option.some.inj hHalt)

/- All that a run ever gives is as told. -/
def Run.GivesOnly
    (R : α → Prop)
    (m : Run α) : Prop :=
  ∀ s a s', m s = .ok a s' → R a

theorem Run.GivesOnly.any (m : Run α) :
    Run.GivesOnly (fun _ => True) m :=
  fun _ _ _ _ => trivial

/- From sound states a run comes to sound states. -/
def Run.StaysSound
    (rt : Runtime)
    (c : Catalog)
    (m : Run α) : Prop :=
  Keeps (State.Sound rt) (fun _ _ => True) (fun _ _ => True) c m

/- Entering what was made, whatever its depth. -/
theorem Target.enter_staysSound
    (hChecking : rt.compile = .checking)
    (hHost : rt.host.MakesNoTargets)
    (ht : t ∈ c.made)
    (n : Nat)
    (args : List Value) :
    Run.StaysSound rt c (Target.enter rt n t args) := by
  intro s hSound
  have hKin : Kin Standing ⟨c, c, True⟩ t t :=
    ⟨ht, ht, trivial, .refl t⟩
  have hTogether :
      Together Standing rt rt.memoizeAsType (Target.enter rt n)
        (Target.enter rt n) :=
    .throughStubs hChecking hHost (fun _ _ _ h => h.alike)
      (fun _ _ _ h => Or.inl h.same) n
  have hMeets :=
    hTogether _ t t args hKin _ _
      ((State.Same.refl s).twins (b := rt.memoizeAsType) hSound
        hSound)
  have hAbove :
      Target.enter rt n t args s =
        Run.above s.trace
          (Target.enter rt n t args { s with trace := [] }) :=
    enter_above { s with trace := [] } s.trace
  rw [hAbove]
  generalize
    Target.enter rt n t args { s with trace := [] } = r at hMeets
  generalize
    Target.enter rt n t args { s with trace := [] } = r' at hMeets
  cases hMeets with
  | ok hLe hTwins _ =>
      exact ⟨_, hLe.1, hTwins.left.withTrace _, trivial⟩
  | error hLe hTwins =>
      exact ⟨_, hLe.1, hTwins.left.withTrace _, trivial⟩

namespace Run.StaysSound

theorem pure (a : α) :
    Run.StaysSound rt c (Pure.pure a : Run α) :=
  Keeps.pure trivial

/- What follows may rely on what is given. -/
theorem bind_given
    {R : β → Prop}
    {m : Run β}
    {f : β → Run α}
    (hGives : Run.GivesOnly R m)
    (hFirst : Run.StaysSound rt c m)
    (hRest : ∀ d, c ≤ d → ∀ b, R b → Run.StaysSound rt d (f b)) :
    Run.StaysSound rt c (m >>= f) := by
  have hGiven :
      Keeps (State.Sound rt) (fun _ => R) (fun _ _ => True) c m := by
    intro s hSound
    have hLeaves := hFirst s hSound
    cases hRun : m s with
    | ok b z =>
        rw [hRun] at hLeaves
        rcases hLeaves with ⟨d, hLe, hz, _⟩
        exact ⟨d, hLe, hz, hGives s b z hRun⟩
    | error e z =>
        rw [hRun] at hLeaves
        exact hLeaves
  exact Keeps.bind hGiven hRest

theorem holding
    {m : Run α}
    (rs : List Root)
    (hInner : Run.StaysSound rt c m) :
    Run.StaysSound rt c (Run.holding rs m) :=
  Keeps.holding (fun _ _ rs hSound => hSound.withHeld rs) rs hInner

/- A node is entered, and does what it does. -/
theorem node
    {n : Nat}
    (hCount : args.length = u.stub.arity)
    (hBehave :
      Run.StaysSound rt c (u.behave rt (Target.enter rt n) args)) :
    Run.StaysSound rt c (Target.enter rt (n + 1) u args) := by
  rw [Target.enter_succ hCount]
  intro s hSound
  rw [Run.bind_ok (Target.pass_eq (some u) args s)]
  exact hBehave _ (hSound.withTrace _)

end Run.StaysSound

------------------------------------------------------------
-- Runs that are Tracked
------------------------------------------------------------

/-
  A run is tracked by another: if it comes to an end, the
  other one comes to the same end from states that are the
  same.
-/
structure Run.Tracks
    (rt : Runtime)
    (c d : Catalog)
    (m n : Run α) : Prop where
  matched :
    ∀ s s', s.Same s' → s.Sound rt c → s'.Sound rt d →
      Run.MatchedOn Halt.IsEnd (m s) (n s')
  left : Run.StaysSound rt c m
  right : Run.StaysSound rt d n

namespace Run.Tracks

variable {m n k : Run α}

theorem pure (a : α) :
    Run.Tracks rt c d (Pure.pure a : Run α) (Pure.pure a) where
  matched := fun _ _ hSame _ _ => .of_same (.ok hSame)
  left := .pure a
  right := .pure a

theorem trans
    (hFirst : Run.Tracks rt c c m n)
    (hSecond : Run.Tracks rt c d n k) :
    Run.Tracks rt c d m k where
  matched := by
    intro s s' hSame hSound hSound'
    have hHere := hFirst.matched s s (.refl s) hSound hSound
    exact hHere.trans (hSecond.matched s s' hSame hSound hSound')
  left := hFirst.left
  right := hSecond.right

theorem trans_right
    (hFirst : Run.Tracks rt c d m n)
    (hSecond : Run.Tracks rt d d n k) :
    Run.Tracks rt c d m k where
  matched := by
    intro s s' hSame hSound hSound'
    have hThere :=
      hSecond.matched s' s' (.refl s') hSound' hSound'
    exact (hFirst.matched s s' hSame hSound hSound').trans hThere
  left := hFirst.left
  right := hSecond.right

/- What follows may rely on what both of them give. -/
theorem bind_given
    {R : β → Prop}
    {m n : Run β}
    {f g : β → Run α}
    (hGives : Run.GivesOnly R m)
    (hGives' : Run.GivesOnly R n)
    (hFirst : Run.Tracks rt c d m n)
    (hRest :
      ∀ c' d', c ≤ c' → d ≤ d' → ∀ b, R b →
        Run.Tracks rt c' d' (f b) (g b)) :
    Run.Tracks rt c d (m >>= f) (n >>= g) where
  matched := by
    intro s s' hSame hSound hSound'
    refine .bind (hFirst.matched s s' hSame hSound hSound') ?_
    intro b z z' hRun hRun' hLater
    have hGiven := hGives s b z hRun
    have hLeft := hFirst.left s hSound
    have hRight := hFirst.right s' hSound'
    rw [hRun] at hLeft
    rw [hRun'] at hRight
    rcases hLeft with ⟨c', hc, hz, _⟩
    rcases hRight with ⟨d', hd, hz', _⟩
    exact
      (hRest c' d' hc hd b hGiven).matched z z' hLater hz hz'
  left :=
    .bind_given hGives hFirst.left
      (fun c' hc b hb => (hRest c' d hc (le_refl d) b hb).left)
  right :=
    .bind_given hGives' hFirst.right
      (fun d' hd b hb => (hRest c d' (le_refl c) hd b hb).right)

theorem bind
    {m n : Run β}
    {f g : β → Run α}
    (hFirst : Run.Tracks rt c d m n)
    (hRest :
      ∀ c' d', c ≤ c' → d ≤ d' → ∀ b,
        Run.Tracks rt c' d' (f b) (g b)) :
    Run.Tracks rt c d (m >>= f) (n >>= g) :=
  hFirst.bind_given (Run.GivesOnly.any m) (Run.GivesOnly.any n)
    (fun c' d' hc hd b _ => hRest c' d' hc hd b)

/- What is held meanwhile makes no difference. -/
theorem holding_left
    (rs : List Root)
    (hInner : Run.Tracks rt c d m n) :
    Run.Tracks rt c d (Run.holding rs m) n where
  matched := by
    intro s s' hSame hSound hSound'
    have hHeld := (hSame.symm.withHeld (rs ++ s.held)).symm
    have hMatched :=
      hInner.matched _ s' hHeld (hSound.withHeld _) hSound'
    exact
      (Run.MatchedOn.of_same
        (Run.Same.holding (.refl _)).symm).trans hMatched
  left := hInner.left.holding rs
  right := hInner.right

theorem holding_right
    (rs : List Root)
    (hInner : Run.Tracks rt c d m n) :
    Run.Tracks rt c d m (Run.holding rs n) where
  matched := by
    intro s s' hSame hSound hSound'
    have hMatched :=
      hInner.matched s _ (hSame.withHeld (rs ++ s'.held)) hSound
        (hSound'.withHeld _)
    exact
      hMatched.trans (.of_same (Run.Same.holding (.refl _)))
  left := hInner.left
  right := hInner.right.holding rs

/- A node is entered on the one side. -/
theorem node_left
    {n : Run Value}
    {j : Nat}
    (hCount : args.length = u.stub.arity)
    (hBehave :
      Run.Tracks rt c d (u.behave rt (Target.enter rt j) args)
        n) :
    Run.Tracks rt c d (Target.enter rt (j + 1) u args) n where
  matched := by
    intro s s' hSame hSound hSound'
    have hLogged := (hSame.symm.logEntry u args).symm
    have hMatched :=
      hBehave.matched _ s' hLogged (hSound.withTrace _) hSound'
    rw [Target.enter_succ hCount,
      Run.bind_ok (Target.pass_eq (some u) args s)]
    exact hMatched
  left := .node hCount hBehave.left
  right := hBehave.right

theorem node_right
    {m : Run Value}
    {j : Nat}
    (hCount : args.length = u.stub.arity)
    (hBehave :
      Run.Tracks rt c d m
        (u.behave rt (Target.enter rt j) args)) :
    Run.Tracks rt c d m (Target.enter rt (j + 1) u args) where
  matched := by
    intro s s' hSame hSound hSound'
    have hMatched :=
      hBehave.matched s _ (hSame.logEntry u args) hSound
        (hSound'.withTrace _)
    rw [Target.enter_succ hCount,
      Run.bind_ok (Target.pass_eq (some u) args s')]
    exact hMatched
  left := hBehave.left
  right := .node hCount hBehave.right

/- A target is tracked by itself, at the same or a greater depth. -/
theorem enter
    {j k : Nat}
    (hChecking : rt.compile = .checking)
    (hHost : rt.host.MakesNoTargets)
    (ht : t ∈ c.made)
    (ht' : t ∈ d.made)
    (hLe : j ≤ k)
    (args : List Value) :
    Run.Tracks rt c d (Target.enter rt j t args)
      (Target.enter rt k t args) where
  matched := by
    intro s s' hSame hSound hSound' hAll
    have hRepeats :
        Run.Repeats (j = k) [] (Target.enter rt j t args s)
          (Target.enter rt k t args (s.above [])) :=
      enterStub_repeats hLe t.stub t args s
    have hLater := hRepeats (.inr (Run.ended_iff.2 hAll))
    rw [State.above_nil, Run.above_nil] at hLater
    have hDeeper :=
      Target.enter_same hChecking hHost hSame hSound hSound' ht ht'
        k args
    rw [hLater] at hDeeper
    exact hDeeper
  left := Target.enter_staysSound hChecking hHost ht j args
  right := Target.enter_staysSound hChecking hHost ht' k args

end Run.Tracks

------------------------------------------------------------
-- Targets that are Tracked
------------------------------------------------------------

namespace Target

/-
  A target is tracked by another of its signature, a fixed
  number of nodes apart, where both were made.
-/
def TrackedBy
    (rt : Runtime)
    (t u : Target) : Prop :=
  u.signature = t.signature ∧
    ∃ j k, ∀ (c d : Catalog) (args : List Value) (n : Nat),
      c.Valid rt → d.Valid rt → t ∈ c.made → u ∈ d.made →
        args.length = t.count →
          Run.Tracks rt c d (Target.enter rt (n + j) t args)
            (Target.enter rt (n + k) u args)

theorem TrackedBy.matchedFrom
    (hTracked : t.TrackedBy rt u) :
    t.MatchedFrom Halt.IsEnd rt [t] [u] u := by
  rcases hTracked with ⟨hSig, j, k, hEnters⟩
  refine ⟨by simp, by simp, hSig, j, k, ?_⟩
  rintro s s' args n hSame ⟨c, hSound, hListed⟩
    ⟨d, hSound', hListed'⟩ hCount
  exact
    (hEnters c d args n hSound.valid hSound'.valid
      (hListed t (by simp)) (hListed' u (by simp)) hCount).matched
      s s' hSame hSound hSound'

/-
  Calls of the one target from a state come to what calls of
  the other one come to from another state, whatever way both
  are called and with whatever arguments.
-/
def CallsAlike
    (rt : Runtime)
    (t : Target)
    (s : State)
    (u : Target)
    (s' : State) : Prop :=
  ∀ (e e' : Entry) (args : List Value),
    e.Like e' → e.InLine t args → e'.InLine u args →
      e.Agrees rt t args s e' u args s'

/- So do calls with arguments that match exactly. -/
theorem CallsAlike.exact
    {r : EStateM.Result Halt State Value}
    (hAlike : t.CallsAlike rt s u s')
    (hComes : (Entry.way .exact).ComesTo rt t args s r) :
    ∃ r',
      (Entry.way .exact).ComesTo rt u args s' r' ∧
        Run.Same r r' := by
  rcases
    hAlike (.way .exact) (.way .exact) args (.way .exact) trivial
      trivial
    with ⟨hEnds, hSame⟩
  rcases hEnds.1 ⟨r, hComes⟩ with ⟨r', hOther⟩
  exact ⟨r', hOther, hSame r r' hComes hOther⟩

/- Calls that match each other come to the same. -/
theorem callsAlike_of_matched
    {ts us : List Target}
    (hForth : t.MatchedFrom Halt.IsEnd rt ts us u)
    (hBack : u.MatchedFrom Halt.IsEnd rt us ts t)
    (hChecking : rt.compile = .checking)
    (ht : t.isVarargs = false)
    (hu : u.isVarargs = false)
    (hSame : s.Same s')
    (hLists : s.Lists rt ts)
    (hLists' : s'.Lists rt us) :
    t.CallsAlike rt s u s' := by
  intro e e' args hLike hInLine hInLine'
  have hPlain : e.Plain t u := by
    unfold Entry.Plain
    split
    · exact ⟨ht, hu⟩
    · trivial
  have hPlain' : e'.Plain u t := by
    unfold Entry.Plain
    split
    · exact ⟨hu, ht⟩
    · trivial
  have hLike' : e'.Like e := by
    cases hLike with
    | way w => exact .way w
    | stub x y => exact .stub y x
  rcases
    hForth.run hChecking hSame hLists hLists' hLike hPlain hInLine
      hInLine'
    with ⟨j, k, hRun⟩
  rcases
    hBack.run hChecking hSame.symm hLists' hLists hLike' hPlain'
      hInLine' hInLine
    with ⟨j', k', hRun'⟩
  have hThere :
      ∀ r, e.ComesTo rt t args s r →
        ∃ r', e'.ComesTo rt u args s' r' ∧ Run.Same r r' :=
    fun r hComes =>
      Entry.comesTo_of_matched hRun hComes
        (Run.ended_iff.1 hComes.1)
  refine ⟨⟨?_, ?_⟩, ?_⟩
  · rintro ⟨r, hComes⟩
    rcases hThere r hComes with ⟨r', hComes', _⟩
    exact ⟨r', hComes'⟩
  · rintro ⟨r', hComes'⟩
    rcases
      Entry.comesTo_of_matched hRun' hComes'
        (Run.ended_iff.1 hComes'.1)
      with ⟨r, hComes, _⟩
    exact ⟨r, hComes⟩
  · intro r r' hComes hComes'
    rcases hThere r hComes with ⟨r'', hOther, hEnds⟩
    rw [hOther.unique hComes']
    exact hEnds

theorem callsAlike_of_tracked
    (hForth : t.TrackedBy rt u)
    (hBack : u.TrackedBy rt t)
    (hChecking : rt.compile = .checking)
    (ht : t.isVarargs = false)
    (hu : u.isVarargs = false)
    (hSame : s.Same s')
    (hLists : s.Lists rt [t])
    (hLists' : s'.Lists rt [u]) :
    t.CallsAlike rt s u s' :=
  callsAlike_of_matched hForth.matchedFrom hBack.matchedFrom
    hChecking ht hu hSame hLists hLists'

/- A target is called like itself, through whatever stub. -/
theorem CallsAlike.refl
    (hChecking : rt.compile = .checking)
    (hLists : s.Lists rt [t]) :
    t.CallsAlike rt s t s := by
  rcases hLists with ⟨c, hSound, hListed⟩
  have hArity :=
    (hSound.valid.serves t (hListed t (by simp))).arity_eq hChecking
  intro e e' args hLike hInLine hInLine'
  have hRun : ∀ n, e.run rt n t args s = e'.run rt n t args s := by
    intro n
    cases hLike with
    | way w => rfl
    | stub x y =>
        have hOwn :
            enterStub rt n x t args = Target.enter rt n t args :=
          enterStub_eq (hArity.trans hInLine.1.symm)
            (hInLine.2.trans hInLine.1.symm)
        have hOther :
            enterStub rt n y t args = Target.enter rt n t args :=
          enterStub_eq (hArity.trans hInLine'.1.symm)
            (hInLine'.2.trans hInLine'.1.symm)
        exact congrFun (hOwn.trans hOther.symm) s
  refine Entry.comesTo_of_same (j := 0) (k := 0) ?_
  intro n
  rw [Nat.add_zero, hRun n]
  exact .refl _

end Target

end Linkage
