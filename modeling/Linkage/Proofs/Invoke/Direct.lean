import Linkage.Proofs.Invoke.Vetted

/-
  Direct runs.  A direct run enters no stubs: it goes from
  node to node, and counts no arguments.  Where a node calls a
  given call site, it goes to the target of the site instead.
  If all that is entered in a run is counted, then the direct
  run comes to the same, apart from the entries in the trace;
  it needs no more depth, and at least half as much.

  Key definitions include:
    * `State.quiet`
    * `enterDirectly`
    * `Side`
    * `Mirrors`
    * `Entry.runDirectly`

  Key theorems include:
    * `Course.mirrors`
    * `behave_mirrors`
    * `enterStub_mirrors`
    * `Entry.mirrors`
-/

------------------------------------------------------------
-- Traces without Entries
------------------------------------------------------------

namespace Linkage

/- A state whose trace tells nothing of entries. -/
def State.quiet (s : State) : State :=
  { s with trace := hostEvents s.trace }

variable {α : Type}

/- An outcome whose trace tells nothing of entries. -/
def Run.quiet :
    EStateM.Result Halt State α → EStateM.Result Halt State α
| .ok a s => .ok a s.quiet
| .error e s => .error e s.quiet

/- A run that came to an end within its depth. -/
def Run.Ended (r : EStateM.Result Halt State α) : Prop :=
  Run.halt? r ≠ some .unfinished

theorem Run.ended_quiet
    (r : EStateM.Result Halt State α) :
    Run.Ended (Run.quiet r) ↔ Run.Ended r := by
  unfold Run.Ended
  cases r with
  | _ => exact Iff.rfl

namespace Run.Ended

variable {β : Type}
variable {s : State}

/- If a sequence comes to an end, so does its first part. -/
theorem first
    {m : Run β}
    {f : β → Run α}
    (hEnded : Run.Ended (EStateM.bind m f s)) :
    Run.Ended (m s) := by
  intro hHalt
  apply hEnded
  unfold EStateM.bind
  cases hRun : m s with
  | ok b t =>
      rw [hRun] at hHalt
      cases hHalt
  | error e t =>
      rw [hRun] at hHalt
      exact hHalt

theorem held
    {m : Run α}
    {rs : List Root}
    (hEnded : Run.Ended (Run.holding rs m s)) :
    Run.Ended (m { s with held := rs ++ s.held }) := by
  intro hHalt
  apply hEnded
  unfold Run.holding
  cases hRun : m { s with held := rs ++ s.held } with
  | ok b t =>
      rw [hRun] at hHalt
      cases hHalt
  | error e t =>
      rw [hRun] at hHalt
      exact hHalt

/- No end of a run is a fault that could be caught. -/
theorem caught
    {T : ClassTable}
    {n : ClassName}
    {m : Run α}
    {handler : Fault → Run α}
    (hEnded : Run.Ended (Run.catching T n m handler s)) :
    Run.Ended (m s) := by
  intro hHalt
  apply hEnded
  unfold Run.catching
  cases hRun : m s with
  | ok b t =>
      rw [hRun] at hHalt
      cases hHalt
  | error e t =>
      rw [hRun] at hHalt
      cases hHalt
      rfl

end Run.Ended

/- What neither reads nor writes the trace. -/
theorem Silent.quiet_eq
    {m : Run α}
    (hSilent : Silent m)
    (s : State) :
    m s.quiet = Run.quiet (m s) := by
  have hTrace := hSilent.trace s (hostEvents s.trace)
  have hSame := hSilent.trace_eq s
  change m { s with trace := hostEvents s.trace } = _
  rw [hTrace]
  cases hRun : m s with
  | _ =>
      rw [hRun] at hSame
      unfold Run.retrace Run.quiet State.quiet
      dsimp only
      rw [← hSame]
      rfl

------------------------------------------------------------
-- Direct Runs
------------------------------------------------------------

/- A node that calls a given call site. -/
def Target.isSite
    (i : SiteId)
    (t : Target) : Bool :=
  match t.form with
  | .site j => j = i
  | _ => false

theorem Target.isSite_iff
    {i : SiteId}
    {t : Target} :
    t.isSite i = true ↔ t.form = .site i := by
  unfold isSite
  constructor
  · intro hIs
    split at hIs
    · rename_i j hForm
      rw [hForm, of_decide_eq_true hIs]
    · cases hIs
  · intro hForm
    rw [hForm]
    exact decide_eq_true rfl

/-
  Enter targets without their stubs, and a target in place of
  the nodes that call a call site.
-/
def enterDirectly
    (rt : Runtime)
    (i : SiteId)
    (x : Target) : Nat → Enter
| 0, _, _ => throw .unfinished
| n + 1, t, args =>
    if t.isSite i then
      Run.holding [.target x]
        (x.behave rt (enterDirectly rt i x n) args)
    else t.behave rt (enterDirectly rt i x n) args

/- One of two runs: the plain one, or the direct one. -/
inductive Side where
| plain
| direct

namespace Side

/- The run of this side came to an end. -/
def Ended :
    Side → EStateM.Result Halt State α →
      EStateM.Result Halt State α → Prop
| plain, r, _ => Run.Ended r
| direct, _, r => Run.Ended r

/-
  The depths that are enough for the run of the other side,
  if the run of this side comes to an end: of the plain run,
  and of the direct one.
-/
def Enough : Side → Nat → Nat → Prop
| plain, n, k => n ≤ k
| direct, n, k => 2 * k ≤ n

end Side

/-
  If the run of one side came to an end, then the outcome of
  the direct run is that of the plain one without entries.
-/
def Mirrors
    (d : Side)
    (r r' : EStateM.Result Halt State α) : Prop :=
  d.Ended r r' → r' = Run.quiet r

variable {d : Side}
variable {rt : Runtime}
variable {P : Vetting}
variable {sites : Array Site}
variable {s : State}

namespace Mirrors

theorem of_eq
    {r r' : EStateM.Result Halt State α}
    (hEq : r' = Run.quiet r) :
    Mirrors d r r' :=
  fun _ => hEq

theorem bind
    {β : Type}
    {m n : Run β}
    {f g : β → Run α}
    (hFirst : Mirrors d (m s) (n s.quiet))
    (hRest :
      ∀ b s', m s = .ok b s' →
        Mirrors d (f b s') (g b s'.quiet)) :
    Mirrors d (EStateM.bind m f s) (EStateM.bind n g s.quiet) := by
  intro hEnded
  have hFirstEnded : d.Ended (m s) (n s.quiet) := by
    cases d with
    | plain => exact Run.Ended.first hEnded
    | direct => exact Run.Ended.first hEnded
  have hEq := hFirst hFirstEnded
  unfold EStateM.bind at hEnded ⊢
  rw [hEq] at hEnded ⊢
  cases hRun : m s with
  | ok b s' =>
      rw [hRun] at hEnded
      exact hRest b s' hRun hEnded
  | error e s' => rfl

theorem holding
    {m n : Run α}
    {rs : List Root}
    (hInner :
      Mirrors d (m { s with held := rs ++ s.held })
        (n ({ s with held := rs ++ s.held } : State).quiet)) :
    Mirrors d (Run.holding rs m s)
      (Run.holding rs n s.quiet) := by
  intro hEnded
  have hEq :
      n ({ s with held := rs ++ s.held } : State).quiet =
        Run.quiet (m { s with held := rs ++ s.held }) := by
    apply hInner
    cases d with
    | plain => exact Run.Ended.held hEnded
    | direct => exact Run.Ended.held hEnded
  change
    (match n ({ s with held := rs ++ s.held } : State).quiet with
      | .ok a s' => EStateM.Result.ok a { s' with held := s.held }
      | .error e s' => .error e { s' with held := s.held }) = _
  rw [hEq]
  unfold Run.holding
  cases m { s with held := rs ++ s.held } with
  | _ => rfl

theorem catching
    {T : ClassTable}
    {caught : ClassName}
    {m n : Run α}
    {f g : Fault → Run α}
    (hInner : Mirrors d (m s) (n s.quiet))
    (hRest :
      ∀ e s', m s = .error (.fault e) s' →
        e.isInstance T caught = true →
          Mirrors d (f e s') (g e s'.quiet)) :
    Mirrors d (Run.catching T caught m f s)
      (Run.catching T caught n g s.quiet) := by
  intro hEnded
  have hEq : n s.quiet = Run.quiet (m s) := by
    apply hInner
    cases d with
    | plain => exact Run.Ended.caught hEnded
    | direct => exact Run.Ended.caught hEnded
  unfold Run.catching at hEnded ⊢
  rw [hEq] at hEnded ⊢
  cases hRun : m s with
  | ok a s' => rfl
  | error e s' =>
      rw [hRun] at hEnded
      cases e with
      | outside => rfl
      | unfinished => rfl
      | fault f =>
          unfold Run.quiet at hEnded ⊢
          dsimp only at hEnded ⊢
          by_cases hCaught : f.isInstance T caught = true
          · rw [if_pos hCaught, if_pos hCaught] at hEnded ⊢
            exact hRest f s' hRun hCaught hEnded
          · rw [if_neg hCaught, if_neg hCaught]

end Mirrors

------------------------------------------------------------
-- Courses of Plain and Direct Runs
------------------------------------------------------------

variable {m : Enter → Run α}
variable {enter enter' : Enter}
variable {telling : Telling}

/- Calls of the host are told of in both traces. -/
theorem Course.mirrors
    (hSites :
      ∀ t args s, (Run.final (enter t args s)).sites = s.sites)
    (hEnter :
      ∀ t args s, s.sites = sites →
        Moment.AllEntered P (telling t args s) →
          Mirrors d (enter t args s) (enter' t args s.quiet))
    (c : Course rt α m)
    (s : State)
    (hState : s.sites = sites)
    (hAll : Moment.AllEntered P (c.moments enter telling s)) :
    Mirrors d (m enter s) (m enter' s.quiet) := by
  induction c generalizing s with
  | own m hSilent => exact .of_eq (hSilent.quiet_eq s)
  | call code args =>
      apply Mirrors.of_eq
      exact
        (Silent.onHeap (rt.host.call code args)).quiet_eq
          (s.log (.called code args s.heap))
  | allocate n =>
      apply Mirrors.of_eq
      unfold Run.allocate
      dsimp only [State.quiet]
      split
      all_goals rfl
  | enter t args => exact hEnter t args s hState hAll
  | @bind _ _ m f first rest ihFirst ihRest =>
      have hKeeps := first.sites_eq hSites s
      cases hRun : m enter s with
      | ok b s' =>
          rw [hRun] at hKeeps
          rw [moments_bind_ok hRun] at hAll
          refine .bind (ihFirst s hState hAll.left) ?_
          intro b' s'' hOk
          rw [hRun] at hOk
          cases hOk
          exact ihRest b s' (hKeeps.trans hState) hAll.right
      | error e s' =>
          rw [moments_bind_error hRun] at hAll
          refine .bind (ihFirst s hState hAll) ?_
          intro b' s'' hOk
          rw [hRun] at hOk
          cases hOk
  | @holding _ m rs inner ih => exact .holding (ih _ hState hAll)
  | @catching _ m handler caught inner rest ihInner ihRest =>
      have hKeeps := inner.sites_eq hSites s
      unfold moments at hAll
      refine .catching (ihInner s hState hAll.left) ?_
      intro f s' hFault hCaught
      rw [hFault] at hKeeps
      have hLater := hAll.right
      rw [hFault] at hLater
      dsimp only at hLater
      rw [if_pos hCaught] at hLater
      exact ihRest f s' (hKeeps.trans hState) hLater
  | same inner hSame ih =>
      rw [← hSame, ← hSame]
      exact ih s hState hAll

------------------------------------------------------------
-- Plain and Direct Runs of Targets
------------------------------------------------------------

/- What is entered has as many arguments as its stub takes. -/
def Vetting.counted : Vetting :=
  fun t args => args.length = t.stub.arity

/-
  At given depths, entering targets directly mirrors entering
  them, where all that is entered is counted.
-/
def MirrorsAt
    (d : Side)
    (rt : Runtime)
    (i : SiteId)
    (x : Target)
    (sites : Array Site)
    (n k : Nat) : Prop :=
  ∀ t args s,
    s.sites = sites →
      Moment.AllEntered .counted (momentsOf rt n t.stub t args s) →
        Mirrors d (enterStub rt n t.stub t args s)
          (enterDirectly rt i x k t args s.quiet)

variable {i : SiteId}
variable {x : Site}
variable {t : Target}
variable {args : List Value}
variable {n k : Nat}

/- A node that calls a call site enters its target. -/
theorem runSite_eq
    (hSite : s.site? i = some x) :
    runSite enter i args s =
      Run.holding [.target x.target] (enter x.target args) s := by
  unfold runSite
  rw [Run.get_bind, hSite]

theorem Course.moments_runSite
    (hSite : s.site? i = some x) :
    (runSite i args : Course rt Value _).moments enter telling s =
      telling x.target args
        { s with held := .target x.target :: s.held } := by
  unfold runSite look
  change [] ++ (option (s.site? i) _ _).moments enter telling s = _
  rw [hSite]
  rfl

/- A stub that counts as many arguments runs the node. -/
theorem enterStub_counted
    {stub : Stub}
    (hCount : args.length = stub.arity)
    (hAll :
      Moment.AllEntered .counted
        (momentsOf rt (n + 1) stub t args s)) :
    enterStub rt (n + 1) stub t args s =
        t.behave rt (fun u => enterStub rt n u.stub u) args
          (s.log (.entered t args)) ∧
      Moment.AllEntered .counted
        ((Course.behave t args : Course rt Value _).moments
          (fun u => enterStub rt n u.stub u)
          (fun u => momentsOf rt n u.stub u)
          (s.log (.entered t args))) := by
  rw [enterStub_succ]
  unfold momentsOf at hAll
  rw [if_pos hCount] at hAll ⊢
  refine ⟨rfl, ?_⟩
  intro u as hMem
  exact hAll u as (List.mem_cons_of_mem _ hMem)

/-
  What a node does is mirrored.  A node that calls the call
  site takes one more entry in the plain run.
-/
theorem behave_mirrors
    (hZero : n = 0 → d = .plain)
    (hEnter : MirrorsAt d rt i x.target sites n k)
    (hLess :
      ∀ p, n = p + 1 → MirrorsAt d rt i x.target sites p k)
    (hSite : sites[i.index]? = some x)
    (hState : s.sites = sites)
    (hAll :
      Moment.AllEntered .counted
        ((Course.behave t args : Course rt Value _).moments
          (fun u => enterStub rt n u.stub u)
          (fun u => momentsOf rt n u.stub u) s)) :
    Mirrors d
      (t.behave rt (fun u => enterStub rt n u.stub u) args s)
      (enterDirectly rt i x.target (k + 1) t args s.quiet) := by
  unfold enterDirectly
  cases hIs : t.isSite i with
  | false =>
      exact
        (Course.behave t args).mirrors
          (fun u as z => enterStub_sites n u.stub u as z) hEnter s
          hState hAll
  | true =>
      rcases t with ⟨id, sig, stub, form⟩
      have hForm : form = .site i := Target.isSite_iff.1 hIs
      subst hForm
      have hFound : s.site? i = some x := by
        unfold State.site?
        rw [hState]
        exact hSite
      change
        Moment.AllEntered .counted
          ((Course.runSite i args : Course rt Value _).moments
            (fun u => enterStub rt n u.stub u)
            (fun u => momentsOf rt n u.stub u) s)
        at hAll
      rw [Course.moments_runSite hFound] at hAll
      rw [if_pos rfl]
      change
        Mirrors d
          (runSite (fun u => enterStub rt n u.stub u) i args s) _
      rw [runSite_eq hFound]
      apply Mirrors.holding
      cases n with
      | zero =>
          rw [hZero rfl]
          intro hEnded
          exact absurd rfl hEnded
      | succ p =>
          have hCount := hAll _ _ List.mem_cons_self
          rcases enterStub_counted hCount hAll with ⟨hRun, hRest⟩
          dsimp only [List.singleton_append]
          rw [hRun]
          exact
            (Course.behave x.target args).mirrors
              (fun u as z => enterStub_sites p u.stub u as z)
              (hLess p rfl) _ hState hRest

/- Entering targets is mirrored at depths that are enough. -/
theorem enterStub_mirrors
    (hSite : sites[i.index]? = some x)
    (hEnough : d.Enough n k) :
    MirrorsAt d rt i x.target sites n k := by
  induction k generalizing n with
  | zero =>
      intro t args s _ _ hEnded
      cases d with
      | plain =>
          cases Nat.le_zero.1 hEnough
          exact absurd rfl hEnded
      | direct => exact absurd rfl hEnded
  | succ k ih =>
      intro t args s hState hAll
      cases n with
      | zero =>
          cases d with
          | plain =>
              intro hEnded
              exact absurd rfl hEnded
          | direct =>
              unfold Side.Enough at hEnough
              omega
      | succ n =>
          have hCount := hAll _ _ List.mem_cons_self
          rcases enterStub_counted hCount hAll with ⟨hRun, hRest⟩
          rw [hRun]
          refine
            behave_mirrors (s := s.log (.entered t args)) ?_ (ih ?_)
              (fun p hp => ih ?_) hSite hState hRest
          all_goals
            cases d with
            | _ =>
                unfold Side.Enough at *
                grind

------------------------------------------------------------
-- Plain and Direct Calls
------------------------------------------------------------

namespace Entry

/- A direct call. -/
def runDirectly
    (rt : Runtime)
    (i : SiteId)
    (x : Target)
    (k : Nat)
    (t : Target)
    (args : List Value) : Entry → Run Value
| way .interpret => enterDirectly rt i x (k + 1) t args
| way w => w.run rt (enterDirectly rt i x k) t args
| .stub _ => enterDirectly rt i x (k + 1) t args

/-
  The depths that are enough for a call on the other side.  A
  stub, and a node that calls the call site, may come first.
-/
def Enough : Side → Nat → Nat → Prop
| .plain, n, k => n ≤ k
| .direct, n, k => 2 * k + 2 ≤ n

/- Calls in which all that is entered is counted are mirrored. -/
theorem mirrors
    (e : Entry)
    (hSite : s.site? i = some x)
    (hEnough : Enough d n k)
    (hInLine : e.InLine t args)
    (hAll :
      Moment.AllEntered .counted (e.moments rt n t args s)) :
    Mirrors d (e.run rt n t args s)
      (e.runDirectly rt i x.target k t args s.quiet) := by
  have hEnter :
      ∀ p, p ≤ n → n ≤ p + 2 →
        MirrorsAt d rt i x.target s.sites p k := by
    intro p hp hn
    apply enterStub_mirrors hSite
    cases d with
    | _ =>
        unfold Enough at hEnough
        unfold Side.Enough
        omega
  have hZero : ∀ p, n ≤ p + 1 → p = 0 → d = .plain := by
    intro p hp hNone
    cases d with
    | plain => rfl
    | direct =>
        unfold Enough at hEnough
        omega
  cases e with
  | stub c =>
      cases n with
      | zero =>
          rw [hZero 0 (by omega) rfl]
          intro hEnded
          exact absurd rfl hEnded
      | succ p =>
          have hCount : args.length = c.arity :=
            hInLine.2.trans hInLine.1.symm
          rcases enterStub_counted hCount hAll with ⟨hRun, hRest⟩
          change Mirrors d (enterStub rt (p + 1) c t args s) _
          rw [hRun]
          refine
            behave_mirrors (s := s.log (.entered t args))
              (hZero p (by omega)) (hEnter p (by omega) (by omega))
              ?_ hSite rfl hRest
          intro q hq
          exact hEnter q (by omega) (by omega)
  | way w =>
      have hPlain :
          Mirrors d
            (w.run rt (fun u => enterStub rt n u.stub u) t args s)
            (w.run rt (enterDirectly rt i x.target k) t args
              s.quiet) :=
        (w.course t args).mirrors
          (fun u as z => enterStub_sites n u.stub u as z)
          (hEnter n (by omega) (by omega)) s rfl hAll
      cases w with
      | interpret =>
          refine
            behave_mirrors (hZero n (by omega))
              (hEnter n (by omega) (by omega)) ?_ hSite rfl hAll
          intro q hq
          exact hEnter q (by omega) (by omega)
      | _ => exact hPlain

end Entry

end Linkage
