import Linkage.Proofs.Invoke.Replaced

/-
  Runs that are repeated.  A run that came to an end does so
  at every greater depth, and in the same way.  What was
  traced before a run only stays below what it traces itself.
  So, entering a target from two states that differ at most
  in what was made, kept and entered comes to the same.

  Key definitions include:
    * `State.above`
    * `Run.Repeats`
    * `Standing`

  Key theorems include:
    * `enterStub_repeats`
    * `Entry.ComesTo.unique`
    * `Run.Same.trans`
    * `Target.enter_same`
-/

------------------------------------------------------------
-- Runs over Earlier Events
------------------------------------------------------------

namespace Linkage

/- A state with earlier events below its trace. -/
def State.above
    (s : State)
    (es : List Event) : State :=
  { s with trace := s.trace ++ es }

variable {α β : Type}

/- An outcome with earlier events below its trace. -/
def Run.above
    (es : List Event) :
    EStateM.Result Halt State α → EStateM.Result Halt State α
| .ok a s => .ok a (s.above es)
| .error e s => .error e (s.above es)

/-
  One run repeats another over earlier events: always, if
  `sure` holds, and else if the other came to an end.
-/
def Run.Repeats
    (sure : Prop)
    (es : List Event)
    (r r' : EStateM.Result Halt State α) : Prop :=
  sure ∨ Run.Ended r → r' = Run.above es r

theorem State.above_nil (s : State) :
    s.above [] = s := by
  unfold above
  rw [List.append_nil]

theorem Run.above_nil
    (r : EStateM.Result Halt State α) :
    Run.above [] r = r := by
  cases r with
  | ok a s => exact congrArg (EStateM.Result.ok a) s.above_nil
  | error e s => exact congrArg (EStateM.Result.error e) s.above_nil

/- What neither reads nor writes the trace. -/
theorem Silent.above_eq
    {m : Run α}
    (hSilent : Silent m)
    (s : State)
    (es : List Event) :
    m (s.above es) = Run.above es (m s) := by
  have hTrace := hSilent.trace s (s.trace ++ es)
  have hSame := hSilent.trace_eq s
  change m { s with trace := s.trace ++ es } = _
  rw [hTrace]
  cases hRun : m s with
  | _ =>
      rw [hRun] at hSame
      unfold Run.retrace Run.above State.above
      dsimp only
      rw [← hSame]
      rfl

variable {rt : Runtime}
variable {sure : Prop}
variable {es : List Event}
variable {s : State}
variable {m n : Run α}

namespace Run.Repeats

theorem of_eq
    {r r' : EStateM.Result Halt State α}
    (hEq : r' = Run.above es r) :
    Run.Repeats sure es r r' :=
  fun _ => hEq

theorem bind
    {m n : Run β}
    {f g : β → Run α}
    (hFirst : Run.Repeats sure es (m s) (n (s.above es)))
    (hRest :
      ∀ b s', m s = .ok b s' →
        Run.Repeats sure es (f b s') (g b (s'.above es))) :
    Run.Repeats sure es (EStateM.bind m f s)
      (EStateM.bind n g (s.above es)) := by
  intro hEnded
  have hEq := hFirst (hEnded.imp_right Run.Ended.first)
  unfold EStateM.bind at hEnded ⊢
  rw [hEq]
  cases hRun : m s with
  | ok b s' =>
      rw [hRun] at hEnded
      exact hRest b s' hRun hEnded
  | error e s' => rfl

theorem holding
    {rs : List Root}
    (hInner :
      Run.Repeats sure es (m { s with held := rs ++ s.held })
        (n (({ s with held := rs ++ s.held } : State).above es))) :
    Run.Repeats sure es (Run.holding rs m s)
      (Run.holding rs n (s.above es)) := by
  intro hEnded
  have hEq := hInner (hEnded.imp_right Run.Ended.held)
  change
    (match
      n (({ s with held := rs ++ s.held } : State).above es)
    with
      | .ok a s' => EStateM.Result.ok a { s' with held := s.held }
      | .error e s' => .error e { s' with held := s.held }) = _
  rw [hEq]
  unfold Run.holding
  cases m { s with held := rs ++ s.held } with
  | _ => rfl

theorem catching
    {T : ClassTable}
    {caught : ClassName}
    {f g : Fault → Run α}
    (hInner : Run.Repeats sure es (m s) (n (s.above es)))
    (hRest :
      ∀ e s', m s = .error (.fault e) s' →
        e.isInstance T caught = true →
          Run.Repeats sure es (f e s') (g e (s'.above es))) :
    Run.Repeats sure es (Run.catching T caught m f s)
      (Run.catching T caught n g (s.above es)) := by
  intro hEnded
  have hEq := hInner (hEnded.imp_right Run.Ended.caught)
  unfold Run.catching at hEnded ⊢
  rw [hEq]
  cases hRun : m s with
  | ok a s' => rfl
  | error e s' =>
      rw [hRun] at hEnded
      cases e with
      | outside => rfl
      | unfinished => rfl
      | fault x =>
          dsimp only at hEnded
          change
            (if x.isInstance T caught then g x (s'.above es)
              else .error (.fault x) (s'.above es)) =
              Run.above es (if x.isInstance T caught then _ else _)
          by_cases hCaught : x.isInstance T caught = true
          · rw [if_pos hCaught] at hEnded
            rw [if_pos hCaught, if_pos hCaught]
            exact hRest x s' hRun hCaught hEnded
          · rw [if_neg hCaught, if_neg hCaught]
            rfl

end Run.Repeats

------------------------------------------------------------
-- Depths that are Enough
------------------------------------------------------------

variable {t : Target}
variable {args : List Value}
variable {j k : Nat}

/- A course repeats if all entries on it do. -/
theorem Course.repeats
    {m : Enter → Run α}
    {enter enter' : Enter}
    (hEnter :
      ∀ t args s,
        Run.Repeats sure es (enter t args s)
          (enter' t args (s.above es)))
    (c : Course rt α m)
    (s : State) :
    Run.Repeats sure es (m enter s) (m enter' (s.above es)) := by
  induction c generalizing s with
  | own m hSilent => exact .of_eq (hSilent.above_eq s es)
  | call code args =>
      apply Run.Repeats.of_eq
      exact
        (Silent.onHeap (rt.host.call code args)).above_eq
          (s.log (.called code args s.heap)) es
  | allocate n =>
      apply Run.Repeats.of_eq
      unfold Run.allocate
      dsimp only [State.above]
      split
      all_goals rfl
  | enter t args => exact hEnter t args s
  | bind first rest ihFirst ihRest =>
      exact .bind (ihFirst s) (fun b s' _ => ihRest b s')
  | holding rs inner ih => exact .holding (ih _)
  | catching caught inner rest ihInner ihRest =>
      exact .catching (ihInner s) (fun f s' _ _ => ihRest f s')
  | same inner hSame ih =>
      rw [← hSame, ← hSame]
      exact ih s

/-
  Entering at the same depth repeats in any case, and at a
  greater depth if it came to an end.
-/
theorem enterStub_repeats
    (hLe : j ≤ k)
    (stub : Stub)
    (t : Target)
    (args : List Value)
    (s : State) :
    Run.Repeats (j = k) es (enterStub rt j stub t args s)
      (enterStub rt k stub t args (s.above es)) := by
  induction j generalizing k stub t args s with
  | zero =>
      rintro (rfl | hEnded)
      · rfl
      · exact absurd rfl hEnded
  | succ j ih =>
      cases k with
      | zero => exact absurd hLe (Nat.not_succ_le_zero j)
      | succ k =>
          have hEnter :
              ∀ (u : Target) as z,
                Run.Repeats (j + 1 = k + 1) es
                  (enterStub rt j u.stub u as z)
                  (enterStub rt k u.stub u as (z.above es)) := by
            intro u as z hEnded
            exact
              ih (Nat.le_of_succ_le_succ hLe) u.stub u as z
                (hEnded.imp_left Nat.succ.inj)
          rw [enterStub_succ, enterStub_succ]
          split
          · exact
              Course.repeats hEnter (Course.behave t args)
                (s.log (.entered t args))
          · exact .of_eq rfl

theorem Target.enter_above
    (s : State)
    (es : List Event) :
    Target.enter rt k t args (s.above es) =
      Run.above es (Target.enter rt k t args s) :=
  enterStub_repeats (Nat.le_refl k) t.stub t args s (Or.inl rfl)

namespace Entry

variable {e e' : Entry}
variable {u : Target}
variable {s' : State}
variable {r r' : EStateM.Result Halt State Value}

/- A call that came to an end does so at a greater depth. -/
theorem run_of_le
    (hLe : j ≤ k)
    (hEnded : Run.Ended (e.run rt j t args s)) :
    e.run rt k t args s = e.run rt j t args s := by
  have hEnter :
      ∀ (c : Stub) (u : Target) as z,
        Run.Repeats (j = k) [] (enterStub rt j c u as z)
          (enterStub rt k c u as (z.above [])) :=
    enterStub_repeats hLe
  have hRepeats :
      Run.Repeats (j = k) [] (e.run rt j t args s)
        (e.run rt k t args (s.above [])) := by
    cases e with
    | stub c => exact hEnter c t args s
    | way w =>
        exact
          (w.course t args).repeats
            (fun u => hEnter u.stub u) s
  have hEq := hRepeats (Or.inr hEnded)
  rw [State.above_nil, Run.above_nil] at hEq
  exact hEq

/- A call comes to one end. -/
theorem ComesTo.unique
    (hFirst : e.ComesTo rt t args s r)
    (hSecond : e.ComesTo rt t args s r') :
    r' = r := by
  rcases hFirst with ⟨hEnded, j, rfl⟩
  rcases hSecond with ⟨hEnded', k, rfl⟩
  have hLeft := run_of_le (Nat.le_max_left j k) hEnded
  have hRight := run_of_le (Nat.le_max_right j k) hEnded'
  exact hRight.symm.trans hLeft

end Entry

------------------------------------------------------------
-- Outcomes that are the Same
------------------------------------------------------------

variable {s' s'' : State}
variable {r r' r'' : EStateM.Result Halt State α}

namespace State.Same

theorem refl (s : State) :
    s.Same s :=
  ⟨rfl, rfl, rfl⟩

theorem symm
    (hSame : s.Same s') :
    s'.Same s :=
  ⟨hSame.heap_eq.symm, hSame.sites_eq.symm, hSame.calls_eq.symm⟩

theorem trans
    (hFirst : s.Same s')
    (hSecond : s'.Same s'') :
    s.Same s'' :=
  ⟨hSecond.heap_eq.trans hFirst.heap_eq,
    hSecond.sites_eq.trans hFirst.sites_eq,
    hSecond.calls_eq.trans hFirst.calls_eq⟩

/- What is held may differ. -/
theorem withHeld
    (hSame : s.Same s')
    (rs : List Root) :
    s.Same { s' with held := rs } :=
  ⟨hSame.heap_eq, hSame.sites_eq, hSame.calls_eq⟩

/- One more entry. -/
theorem logEntry
    (hSame : s.Same s')
    (t : Target)
    (args : List Value) :
    s.Same (s'.log (.entered t args)) :=
  ⟨hSame.heap_eq, hSame.sites_eq, hSame.calls_eq⟩

/- Other events below, of which those of the host are as many. -/
theorem above
    {es es' : List Event}
    (hSame : s.Same s')
    (hCalls : hostEvents es' = hostEvents es) :
    (s.above es).Same (s'.above es') := by
  refine ⟨hSame.heap_eq, hSame.sites_eq, ?_⟩
  have hAppend :
      ∀ xs ys, hostEvents (xs ++ ys) =
        hostEvents xs ++ hostEvents ys :=
    fun _ _ => List.filter_append ..
  change
    hostEvents (s'.trace ++ es') = hostEvents (s.trace ++ es)
  rw [hAppend, hAppend, hSame.calls_eq, hCalls]

end State.Same

namespace Run.Same

theorem symm
    (hSame : Run.Same r r') :
    Run.Same r' r := by
  cases hSame with
  | ok hStates => exact .ok hStates.symm
  | error hStates => exact .error hStates.symm

theorem trans
    (hFirst : Run.Same r r')
    (hSecond : Run.Same r' r'') :
    Run.Same r r'' := by
  cases hFirst with
  | ok hStates =>
      cases hSecond with
      | ok hStates' => exact .ok (hStates.trans hStates')
  | error hStates =>
      cases hSecond with
      | error hStates' => exact .error (hStates.trans hStates')

theorem ended_iff
    (hSame : Run.Same r r') :
    Run.Ended r ↔ Run.Ended r' := by
  cases hSame with
  | _ => exact Iff.rfl

theorem above
    {es es' : List Event}
    (hSame : Run.Same r r')
    (hCalls : hostEvents es' = hostEvents es) :
    Run.Same (Run.above es r) (Run.above es' r') := by
  cases hSame with
  | ok hStates => exact .ok (hStates.above hCalls)
  | error hStates => exact .error (hStates.above hCalls)

/- What is held while a run lasts is no part of its outcome. -/
theorem holding
    {rs : List Root}
    (hSame : Run.Same r (m { s with held := rs ++ s.held })) :
    Run.Same r (Run.holding rs m s) := by
  unfold Run.holding
  generalize m { s with held := rs ++ s.held } = r' at hSame
  cases hSame with
  | ok hStates => exact .ok (hStates.withHeld _)
  | error hStates => exact .error (hStates.withHeld _)

end Run.Same

/-
  The ends of two calls are related if the calls are at depths
  that are a fixed number apart.
-/
theorem Entry.comesTo_of_related
    {R :
      EStateM.Result Halt State Value →
        EStateM.Result Halt State Value → Prop}
    {e e' : Entry}
    {u : Target}
    {as : List Value}
    (hEnded : ∀ r r', R r r' → (Run.Ended r ↔ Run.Ended r'))
    (hRelated :
      ∀ n, R (e.run rt (n + j) t args s)
        (e'.run rt (n + k) u as s')) :
    ((∃ r, e.ComesTo rt t args s r) ↔
        ∃ r, e'.ComesTo rt u as s' r) ∧
      ∀ r r',
        e.ComesTo rt t args s r →
          e'.ComesTo rt u as s' r' → R r r' := by
  have hForth :
      ∀ r, e.ComesTo rt t args s r →
        ∃ r', e'.ComesTo rt u as s' r' ∧ R r r' := by
    rintro _ ⟨hEnd, n, rfl⟩
    have hHere := hRelated n
    rw [run_of_le (Nat.le_add_right n j) hEnd] at hHere
    exact ⟨_, ⟨(hEnded _ _ hHere).1 hEnd, _, rfl⟩, hHere⟩
  refine ⟨⟨?_, ?_⟩, ?_⟩
  · rintro ⟨r, hComes⟩
    rcases hForth r hComes with ⟨r', hComes', _⟩
    exact ⟨r', hComes'⟩
  · rintro ⟨_, hEnd, n, rfl⟩
    have hHere := hRelated n
    rw [run_of_le (Nat.le_add_right n k) hEnd] at hHere
    exact ⟨_, (hEnded _ _ hHere).2 hEnd, _, rfl⟩
  · intro r r' hComes hComes'
    rcases hForth r hComes with ⟨r'', hComes'', hHere⟩
    rw [hComes''.unique hComes']
    exact hHere

theorem Entry.comesTo_of_same
    {e e' : Entry}
    {u : Target}
    {as : List Value}
    (hSame :
      ∀ n, Run.Same (e.run rt (n + j) t args s)
        (e'.run rt (n + k) u as s')) :
    ((∃ r, e.ComesTo rt t args s r) ↔
        ∃ r, e'.ComesTo rt u as s' r) ∧
      ∀ r r',
        e.ComesTo rt t args s r →
          e'.ComesTo rt u as s' r' → Run.Same r r' :=
  comesTo_of_related (fun _ _ => Run.Same.ended_iff) hSame

------------------------------------------------------------
-- States that Differ in What was Made
------------------------------------------------------------

/- One target in two runs in which the host sees the same. -/
structure Standing
    (w : Pairing)
    (t u : Target) : Prop where
  same : w.same
  alike : t.Alike u

instance : Bond Standing where
  later := by
    intro w v t u hLe hStanding
    refine ⟨?_, hStanding.alike⟩
    rw [hLe.2.2]
    exact hStanding.same
  congruence := by
    intro w t u hStanding
    refine ⟨?_, fun hOther => hOther.alike.signature_eq, ?_⟩
    · intro x y hAlike
      exact ⟨hStanding.same, hAlike⟩
    · intro x y hSig hKey hForm
      refine ⟨hStanding.same, .of_parts hSig hKey ?_⟩
      exact hForm.imp (fun _ _ hOther => hOther.alike)

variable {c d : Catalog}

/- States that are the same are twins once nothing is traced. -/
theorem State.Same.twins
    {b : Bool}
    (hSame : s.Same s')
    (hSound : s.Sound rt c)
    (hSound' : s'.Sound (rt.memoizing b) d) :
    Twins rt b ⟨c, d, True⟩
      { s with trace := [] } { s' with trace := [] } where
  left := hSound.withTrace []
  right := hSound'.withTrace []
  heap := by
    rw [hSame.heap_eq]
    exact .refl s.heap
  sites := by
    rw [hSame.sites_eq]
    apply List.forall₂_same.2
    intro x _
    exact ⟨rfl, rfl, .refl x.target⟩
  trace := .nil
  same := fun _ => ⟨hSame.heap_eq, rfl⟩

/-
  Entering a target comes to the same from all states that
  differ at most in what was made, kept and entered, whether
  retypings are remembered or not.
-/
theorem Target.enter_memoizing
    (b : Bool)
    (hChecking : rt.compile = .checking)
    (hHost : rt.host.MakesNoTargets)
    (hSame : s.Same s')
    (hSound : s.Sound rt c)
    (hSound' : s'.Sound (rt.memoizing b) d)
    (ht : t ∈ c.made)
    (ht' : t ∈ d.made)
    (n : Nat)
    (args : List Value) :
    Run.Same (Target.enter rt n t args s)
      (Target.enter (rt.memoizing b) n t args s') := by
  have hKin : Kin Standing ⟨c, d, True⟩ t t :=
    ⟨ht, ht', trivial, .refl t⟩
  have hTogether :
      Together Standing rt b (Target.enter rt n)
        (Target.enter (rt.memoizing b) n) :=
    .throughStubs hChecking hHost (fun _ _ _ h => h.alike)
      (fun _ _ _ h => Or.inl h.same) n
  have hMeets :=
    hTogether _ t t args hKin _ _ (hSame.twins hSound hSound')
  have hEmpty :
      Run.Same (Target.enter rt n t args { s with trace := [] })
        (Target.enter (rt.memoizing b) n t args
          { s' with trace := [] }) := by
    apply hMeets.run_same trivial
    unfold Target.enter
    rw [enterStub_sites, enterStub_sites]
    exact hSame.sites_eq
  have hAbove := hEmpty.above hSame.calls_eq
  rw [← Target.enter_above, ← Target.enter_above] at hAbove
  exact hAbove

theorem Target.enter_same
    (hChecking : rt.compile = .checking)
    (hHost : rt.host.MakesNoTargets)
    (hSame : s.Same s')
    (hSound : s.Sound rt c)
    (hSound' : s'.Sound rt d)
    (ht : t ∈ c.made)
    (ht' : t ∈ d.made)
    (n : Nat)
    (args : List Value) :
    Run.Same (Target.enter rt n t args s)
      (Target.enter rt n t args s') :=
  enter_memoizing rt.memoizeAsType hChecking hHost hSame hSound
    hSound' ht ht' n args

end Linkage
