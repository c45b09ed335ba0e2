import Linkage.Proofs.Link.Filtering
import Linkage.Proofs.Session.Permuting
import Linkage.Proofs.Session.Tracking

/-
  Filters of arguments in parts.  Entering a filtered target
  calls the filters from the left to the right, up to the
  first one that fails, and enters the target only if none
  does.  So a list of filters may be split: the later ones
  stand before the target, and the earlier ones before what
  was made of them.  Both ways call the same filters in the
  same order; in the second one a node is passed in between.

  Key definitions include:
    * `Run.ComesTo`
    * `FiltersTo`
    * `Target.Filters`

  Key theorems include:
    * `filteredParams_split`
    * `filtersTo_iff`
    * `FiltersTo.append_iff`
    * `Target.Filters.enters`
    * `Run.Tracks.filters`
    * `Session.filters_split`
-/

------------------------------------------------------------
-- Lists of Filters in Parts
------------------------------------------------------------

namespace Linkage

variable {α β : Type}
variable {rt : Runtime}
variable {c d : Catalog}
variable {s s' : State}
variable {sig sig' : Signature}
variable {t u f h x y : Target}
variable {pos i j k : Nat}
variable {fs gs : List (Option Target)}
variable {args : List Value}

/-
  The later filters may be applied first, since the earlier
  ones replace other parameters.
-/
theorem filteredParams_split
    {ps : List Ty}
    (hEnough : pos + fs.length ≤ ps.length) :
    filteredParams pos ps (fs ++ gs) =
      filteredParams pos
        (filteredParams (pos + fs.length) ps gs) fs := by
  obtain ⟨kept, mid, rest, rfl, rfl, hMid⟩ :
      ∃ kept mid rest : List Ty,
        ps = kept ++ (mid ++ rest) ∧ pos = kept.length ∧
          fs.length = mid.length := by
    refine
      ⟨ps.take pos, (ps.drop pos).take fs.length,
        (ps.drop pos).drop fs.length, ?_, ?_, ?_⟩
    · rw [List.take_append_drop, List.take_append_drop]
    · rw [List.length_take]
      omega
    · rw [List.length_take, List.length_drop]
      omega
  have hLater :
      filteredParams (kept.length + fs.length)
          (kept ++ (mid ++ rest)) gs =
        kept ++
          (mid ++
            (gs.zipWith Target.source rest ++
              rest.drop gs.length)) := by
    rw [hMid, ← List.length_append, ← List.append_assoc,
      filteredParams_append]
    simp only [List.append_assoc]
  have hFirst (later : List Ty) :
      fs.zipWith Target.source (mid ++ later) =
        fs.zipWith Target.source mid := by
    have hZip :
        (fs ++ []).zipWith Target.source (mid ++ later) =
          fs.zipWith Target.source mid ++
            [].zipWith Target.source later :=
      List.zipWith_append hMid
    rwa [List.append_nil, List.zipWith_nil_left,
      List.append_nil] at hZip
  rw [hLater, filteredParams_append, filteredParams_append,
    List.zipWith_append hMid, hFirst, List.length_append,
    ← List.drop_drop, List.drop_left' hMid.symm,
    List.drop_left' hMid.symm]
  simp only [List.append_assoc]

/- Two lists of filters run one after the other. -/
theorem runFilters_append
    (e : Enter)
    (sig : Signature)
    (i : Nat)
    (fs gs : List (Option Target))
    (args : List Value) :
    runFilters e sig i (fs ++ gs) args =
      runFilters e sig i fs args >>=
        runFilters e sig (i + fs.length) gs := by
  induction fs generalizing i args with
  | nil => rfl
  | cons o fs ih =>
      have hNext : i + (o :: fs).length = i + 1 + fs.length := by
        rw [List.length_cons]
        omega
      rw [hNext]
      cases o with
      | none => exact ih (i + 1) args
      | some f =>
          rw [List.cons_append]
          unfold runFilters
          cases args[i]? with
          | none => rfl
          | some v =>
              dsimp only
              rw [bind_assoc]
              exact bind_congr fun w => ih (i + 1) (args.set i w)

/- Filters leave as many arguments as there are. -/
theorem runFilters_length
    (e : Enter)
    (sig : Signature)
    (i : Nat)
    (fs : List (Option Target))
    (args : List Value) :
    Run.GivesOnly (fun vs => vs.length = args.length)
      (runFilters e sig i fs args) := by
  induction fs generalizing i args with
  | nil =>
      intro s vs z hRun
      cases hRun
      rfl
  | cons o fs ih =>
      cases o with
      | none => exact ih (i + 1) args
      | some f =>
          intro s vs z hRun
          unfold runFilters at hRun
          cases hArg : args[i]? with
          | none =>
              rw [hArg] at hRun
              cases hRun
          | some v =>
              rw [hArg] at hRun
              dsimp only at hRun
              cases hCall :
                  Run.holding (rootsOf (args.set i .null))
                    (e f [v]) s with
              | error q r =>
                  rw [Run.bind_error hCall] at hRun
                  cases hRun
              | ok w r =>
                  rw [Run.bind_ok hCall] at hRun
                  exact
                    (ih (i + 1) (args.set i w) r vs z hRun).trans
                      List.length_set

------------------------------------------------------------
-- Ends of Runs
------------------------------------------------------------

/- A run comes to an end if it may go deep enough. -/
def Run.ComesTo
    (m : Nat → Run α)
    (s : State)
    (r : EStateM.Result Halt State α) : Prop :=
  Run.Ended r ∧ ∃ n, m n s = r

/- Its end is the same at any greater depth. -/
def Run.Deepens (m : Nat → Run α) : Prop :=
  ∀ j k s, j ≤ k → Run.Ended (m j s) → m k s = m j s

/- Entering a target with arguments comes to an end. -/
def Target.EntersTo
    (rt : Runtime)
    (t : Target)
    (args : List Value) :
    State → EStateM.Result Halt State Value → Prop :=
  Run.ComesTo (fun n => Target.enter rt n t args)

theorem Run.Deepens.enter
    (rt : Runtime)
    (t : Target)
    (args : List Value) :
    Run.Deepens (fun n => Target.enter rt n t args) := by
  intro j k s hLe hEnded
  exact Entry.run_of_le (e := .stub t.stub) hLe hEnded

theorem Run.Deepens.holding
    {m : Nat → Run α}
    (hDeepens : Run.Deepens m)
    (rs : List Root) :
    Run.Deepens (fun n => Run.holding rs (m n)) := by
  intro j k s hLe hEnded
  have hInner : Run.Ended (m j { s with held := rs ++ s.held }) := by
    change Run.Ended (Run.holding rs (m j) s) at hEnded
    unfold Run.holding at hEnded
    cases hRun : m j { s with held := rs ++ s.held } with
    | ok a z => exact nofun
    | error e z =>
        rw [hRun] at hEnded
        exact hEnded
  dsimp only
  unfold Run.holding
  rw [hDeepens j k _ hLe hInner]

theorem Run.Deepens.bind
    {m : Nat → Run β}
    {g : Nat → β → Run α}
    (hFirst : Run.Deepens m)
    (hRest : ∀ b, Run.Deepens (fun n => g n b)) :
    Run.Deepens (fun n => m n >>= g n) := by
  intro j k s hLe hEnded
  dsimp only at hEnded ⊢
  have hEarlier := hFirst j k s hLe
  cases hRun : m j s with
  | ok b z =>
      rw [Run.bind_ok hRun] at hEnded ⊢
      rw [hRun] at hEarlier
      rw [Run.bind_ok (hEarlier nofun)]
      exact hRest b j k z hLe hEnded
  | error e z =>
      rw [Run.bind_error hRun] at hEnded ⊢
      rw [hRun] at hEarlier
      exact Run.bind_error (hEarlier hEnded) _

/-
  Two runs in a row come to the end of the second one, or of
  the first one if that fails.
-/
theorem Run.comesTo_bind_iff
    {m : Nat → Run β}
    {g : Nat → β → Run α}
    {r : EStateM.Result Halt State α}
    (hFirst : Run.Deepens m)
    (hRest : ∀ b, Run.Deepens (fun n => g n b)) :
    Run.ComesTo (fun n => m n >>= g n) s r ↔
      (∃ b z, Run.ComesTo m s (.ok b z) ∧
        Run.ComesTo (fun n => g n b) z r) ∨
      ∃ e z, r = .error e z ∧ Run.ComesTo m s (.error e z) := by
  constructor
  · rintro ⟨hEnded, n, rfl⟩
    dsimp only at hEnded ⊢
    cases hRun : m n s with
    | ok b z =>
        rw [Run.bind_ok hRun] at hEnded ⊢
        exact .inl ⟨b, z, ⟨nofun, n, hRun⟩, ⟨hEnded, n, rfl⟩⟩
    | error e z =>
        rw [Run.bind_error hRun] at hEnded ⊢
        exact .inr ⟨e, z, rfl, ⟨hEnded, n, hRun⟩⟩
  · rintro (⟨b, z, ⟨hOk, j, hRun⟩, hEnded, k, hLater⟩ |
      ⟨e, z, rfl, hEnded, n, hRun⟩)
    · have hLeft :=
        hFirst j (max j k) s (Nat.le_max_left j k) (hRun ▸ hOk)
      have hRight :=
        hRest b k (max j k) z (Nat.le_max_right j k)
          (hLater ▸ hEnded)
      refine ⟨hEnded, max j k, ?_⟩
      dsimp only at hRight hLater ⊢
      rw [Run.bind_ok (hLeft.trans hRun), hRight, hLater]
    · exact ⟨hEnded, n, Run.bind_error hRun _⟩

------------------------------------------------------------
-- Filters one after another
------------------------------------------------------------

/-
  A filter is called with an argument, while the others are
  held.
-/
def Target.filterOne
    (rt : Runtime)
    (f : Target)
    (args : List Value)
    (i : Nat)
    (v : Value)
    (n : Nat) : Run Value :=
  Run.holding (rootsOf (args.set i .null))
    (Target.enter rt n f [v])

/-
  What filters from a position on come to, and what follows
  them.  Those that are there are called one after another,
  and the result of each takes the place of its argument.
  The first one that fails is the last one that is called,
  and nothing follows it.
-/
inductive FiltersTo
    (rt : Runtime)
    (next :
      List Value → State → EStateM.Result Halt State Value →
        Prop) :
    Nat → List (Option Target) → List Value → State →
      EStateM.Result Halt State Value → Prop
| done
    {i : Nat}
    {args : List Value}
    {s : State}
    {r : EStateM.Result Halt State Value} :
    next args s r → FiltersTo rt next i [] args s r
| skips
    {i : Nat}
    {fs : List (Option Target)}
    {args : List Value}
    {s : State}
    {r : EStateM.Result Halt State Value} :
    FiltersTo rt next (i + 1) fs args s r →
      FiltersTo rt next i (none :: fs) args s r
| passes
    {i : Nat}
    {f : Target}
    {fs : List (Option Target)}
    {args : List Value}
    {v w : Value}
    {s z : State}
    {r : EStateM.Result Halt State Value} :
    args[i]? = some v →
      Run.ComesTo (f.filterOne rt args i v) s (.ok w z) →
        FiltersTo rt next (i + 1) fs (args.set i w) z r →
          FiltersTo rt next i (some f :: fs) args s r
| stops
    {i : Nat}
    {f : Target}
    {fs : List (Option Target)}
    {args : List Value}
    {v : Value}
    {e : Halt}
    {s z : State} :
    args[i]? = some v →
      Run.ComesTo (f.filterOne rt args i v) s (.error e z) →
        FiltersTo rt next i (some f :: fs) args s (.error e z)

namespace FiltersTo

variable {next next' :
  List Value → State → EStateM.Result Halt State Value → Prop}
variable {r : EStateM.Result Halt State Value}

/- What follows is called with as many arguments. -/
theorem imp
    (hFilters : FiltersTo rt next i fs args s r)
    (hNext :
      ∀ vs z p, vs.length = args.length → next vs z p →
        next' vs z p) :
    FiltersTo rt next' i fs args s r := by
  induction hFilters with
  | done hLast => exact .done (hNext _ _ _ rfl hLast)
  | skips _ ih => exact .skips (ih hNext)
  | passes hArg hCall _ ih =>
      refine .passes hArg hCall (ih ?_)
      intro vs z p hLength hLast
      exact hNext vs z p (hLength.trans List.length_set) hLast
  | stops hArg hCall => exact .stops hArg hCall

/- The later filters are what follows the earlier ones. -/
theorem append_iff :
    FiltersTo rt next i (fs ++ gs) args s r ↔
      FiltersTo rt (FiltersTo rt next (i + fs.length) gs) i fs
        args s r := by
  induction fs generalizing i args s with
  | nil =>
      constructor
      · exact .done
      · rintro (hLast | _)
        exact hLast
  | cons o fs ih =>
      have hNext : i + (o :: fs).length = i + 1 + fs.length := by
        rw [List.length_cons]
        omega
      rw [hNext, List.cons_append]
      constructor
      · intro hFilters
        cases hFilters with
        | skips hRest => exact .skips (ih.1 hRest)
        | passes hArg hCall hRest =>
            exact .passes hArg hCall (ih.1 hRest)
        | stops hArg hCall => exact .stops hArg hCall
      · intro hFilters
        cases hFilters with
        | skips hRest => exact .skips (ih.2 hRest)
        | passes hArg hCall hRest =>
            exact .passes hArg hCall (ih.2 hRest)
        | stops hArg hCall => exact .stops hArg hCall

end FiltersTo

/- Filters that are run before a target is entered. -/
theorem deepens_filters
    (sig : Signature)
    (t : Target)
    (i : Nat)
    (fs : List (Option Target))
    (args : List Value) :
    Run.Deepens
      (fun n =>
        runFilters (Target.enter rt n) sig i fs args >>=
          Target.enter rt n t) := by
  induction fs generalizing i args with
  | nil => exact .enter rt t args
  | cons o fs ih =>
      cases o with
      | none => exact ih (i + 1) args
      | some f =>
          unfold runFilters
          cases args[i]? with
          | none => exact fun _ _ _ _ _ => rfl
          | some v =>
              dsimp only
              simp only [bind_assoc]
              exact
                .bind (.holding (.enter rt f [v]) _)
                  (fun w => ih (i + 1) (args.set i w))

/- They come to what they are described to come to. -/
theorem filtersTo_iff
    {r : EStateM.Result Halt State Value}
    (sig : Signature)
    (hEnough : i + fs.length ≤ args.length) :
    FiltersTo rt (t.EntersTo rt) i fs args s r ↔
      Run.ComesTo
        (fun n =>
          runFilters (Target.enter rt n) sig i fs args >>=
            Target.enter rt n t)
        s r := by
  induction fs generalizing i args s with
  | nil =>
      constructor
      · rintro (hLast | _)
        exact hLast
      · intro hComes
        exact .done hComes
  | cons o fs ih =>
      rw [List.length_cons] at hEnough
      cases o with
      | none =>
          have hWithin : i + 1 + fs.length ≤ args.length := by
            omega
          have hRest := ih (s := s) hWithin
          constructor
          · rintro (_ | hFilters)
            exact hRest.1 hFilters
          · intro hComes
            exact .skips (hRest.2 hComes)
      | some f =>
          have hAt : i < args.length := by omega
          have hArg : args[i]? = some args[i] :=
            List.getElem?_eq_getElem hAt
          generalize args[i] = v at hArg
          have hWithin (w : Value) :
              i + 1 + fs.length ≤ (args.set i w).length := by
            rw [List.length_set]
            omega
          have hRest (w : Value) (z : State) :=
            ih (s := z) (hWithin w)
          unfold runFilters
          rw [hArg]
          dsimp only
          simp only [bind_assoc]
          rw [Run.comesTo_bind_iff (.holding (.enter rt f [v]) _)
            (fun w => deepens_filters sig t (i + 1) fs
              (args.set i w))]
          constructor
          · intro hFilters
            cases hFilters with
            | passes hArg' hCall hLater =>
                cases hArg.symm.trans hArg'
                exact .inl ⟨_, _, hCall, (hRest _ _).1 hLater⟩
            | stops hArg' hCall =>
                cases hArg.symm.trans hArg'
                exact .inr ⟨_, _, rfl, hCall⟩
          · rintro (⟨w, z, hCall, hLater⟩ | ⟨e, z, rfl, hCall⟩)
            · exact .passes hArg hCall ((hRest w z).2 hLater)
            · exact .stops hArg hCall

/- Filters that run are tracked by themselves. -/
theorem Run.Tracks.filters
    (hChecking : rt.compile = .checking)
    (hHost : rt.host.MakesNoTargets)
    (hMade : ∀ f, some f ∈ fs → f ∈ c.made)
    (hMade' : ∀ f, some f ∈ fs → f ∈ d.made)
    (hLe : j ≤ k)
    (hEnough : i + fs.length ≤ args.length) :
    Run.Tracks rt c d (runFilters (Target.enter rt j) sig i fs args)
      (runFilters (Target.enter rt k) sig' i fs args) := by
  induction fs generalizing i c d args with
  | nil => exact .pure args
  | cons o fs ih =>
      rw [List.length_cons] at hEnough
      have hLater : ∀ f, some f ∈ fs → f ∈ c.made :=
        fun f hf => hMade f (.tail o hf)
      have hLater' : ∀ f, some f ∈ fs → f ∈ d.made :=
        fun f hf => hMade' f (.tail o hf)
      cases o with
      | none => exact ih hLater hLater' (by omega)
      | some f =>
          have hAt : i < args.length := by omega
          have hArg := List.getElem?_eq_getElem hAt
          unfold runFilters
          rw [hArg]
          refine .bind (.holding_left _ (.holding_right _ ?_)) ?_
          · exact
              .enter hChecking hHost (hMade f (.head fs))
                (hMade' f (.head fs)) hLe [args[i]]
          · intro c' d' hc hd w
            refine
              ih (fun f hf => Catalog.mem_of_le hc (hLater f hf))
                (fun f hf => Catalog.mem_of_le hd (hLater' f hf)) ?_
            rw [List.length_set]
            omega

------------------------------------------------------------
-- Filtered Targets
------------------------------------------------------------

namespace Target

/-
  A target with filters before its arguments from a position
  on.  If none is there it is the target itself.
-/
structure Filters
    (t : Target)
    (pos : Nat)
    (fs : List (Option Target))
    (u : Target) : Prop where
  enough : pos + fs.length ≤ t.count
  params_eq : u.params = filteredParams pos t.params fs
  ret_eq : u.ret = t.ret
  made :
    (∀ o ∈ fs, o = none) ∧ u = t ∨
      (¬∀ o ∈ fs, o = none) ∧ u.form = .filterArguments t pos fs

/- The node that was made for filters, if there are any. -/
def filterNode
    (u : Target)
    (fs : List (Option Target)) : Option Target :=
  if fs.all Option.isNone then none else some u

theorem behave_filterArguments
    (hForm : u.form = .filterArguments t pos fs)
    (e : Enter)
    (args : List Value) :
    u.behave rt e args =
      runFilters e u.signature pos fs args >>= e t := by
  unfold behave
  rw [hForm]

/- Without filters none run. -/
theorem runFilters_of_all_none
    (e : Enter)
    (sig : Signature)
    (i : Nat)
    (args : List Value)
    (hNone : ∀ o ∈ fs, o = none) :
    runFilters e sig i fs args = pure args := by
  induction fs generalizing i with
  | nil => rfl
  | cons o fs ih =>
      cases hNone o (.head fs)
      exact ih (i + 1) (fun o ho => hNone o (.tail none ho))

end Target

/- What filters of listed targets make. -/
theorem State.Lists.of_filterArguments
    {ts : List Target}
    (hLists : s.Lists rt ts)
    (hChecking : rt.compile = .checking)
    (ht : t ∈ ts)
    (hFilters : ∀ f, some f ∈ fs → f ∈ ts)
    (hOk : t.filterArguments rt pos fs s = .ok u s') :
    s'.Lists rt (u :: ts) ∧ t.Filters pos fs u := by
  rcases hLists with ⟨c, hSound, hListed⟩
  have hMade := hListed t ht
  have hEnough : pos + fs.length ≤ t.count := by
    refine Nat.le_of_not_lt fun hMore => ?_
    unfold Target.filterArguments at hOk
    rw [if_pos hMore] at hOk
    cases hOk
  rcases
    (Target.filterArguments_accepts hChecking t pos fs hEnough s).2
      u s' hOk
    with ⟨hParams, hRet⟩
  have hOutcome :
      Target.FilterOutcome t.params pos t.signature fs :=
    Target.filteredSignature_outcome hEnough (fun _ _ => rfl)
  unfold Target.filterArguments at hOk
  rw [if_neg (Nat.not_lt_of_le hEnough)] at hOk
  cases hOutcome with
  | refused e hEq _ =>
      rw [hEq] at hOk
      cases hOk
  | accepted sig' hEq _ _ _ _ =>
      rw [hEq, pure_bind] at hOk
      split at hOk
      · rename_i hAll
        cases hOk
        rw [List.all_eq_true] at hAll
        refine
          ⟨⟨c, hSound, List.forall_mem_cons.2 ⟨hMade, hListed⟩⟩,
            hEnough, hParams, hRet, .inl ⟨?_, rfl⟩⟩
        exact fun o ho => Option.isNone_iff_eq_none.1 (hAll o ho)
      · rename_i hSome
        have hTargets :
            ∀ f ∈ (Form.filterArguments t pos fs).targets,
              f ∈ c.made := by
          intro f hf
          rcases List.mem_cons.1 hf with rfl | hIn
          · exact hMade
          · rcases List.mem_filterMap.1 hIn with ⟨o, ho, rfl⟩
            exact hListed f (hFilters f ho)
        rcases hSound.build_ok hChecking sig' hTargets with
          ⟨v, r, hRun, hGrown, hIs⟩
        rw [hRun] at hOk
        cases hOk
        refine
          ⟨⟨c.addNode u, hGrown.sound,
              List.forall_mem_cons.2
                ⟨Catalog.mem_addNode.2 (Or.inr rfl), ?_⟩⟩,
            hEnough, hParams, hRet, .inr ⟨?_, hIs.form_eq⟩⟩
        · exact fun f hf =>
            Catalog.mem_of_le hGrown.le (hListed f hf)
        · exact fun hNone =>
            hSome
              (List.all_eq_true.2 fun o ho =>
                Option.isNone_iff_eq_none.2 (hNone o ho))

namespace Target.Filters

variable (hFilters : t.Filters pos fs u)
include hFilters

/- Filters do not change the number of parameters. -/
theorem count_eq : u.count = t.count := by
  have hEnough := hFilters.enough
  change pos + fs.length ≤ t.params.length at hEnough
  change u.params.length = t.params.length
  rw [hFilters.params_eq]
  unfold filteredParams
  simp only [List.length_append, List.length_take,
    List.length_zipWith, List.length_drop]
  omega

theorem enough_args
    (hCount : args.length = u.count) :
    pos + fs.length ≤ args.length := by
  rw [hCount, hFilters.count_eq]
  exact hFilters.enough

/- What was made of no filters is the target itself. -/
theorem eq_of_all_none
    (hNone : ∀ o ∈ fs, o = none) :
    u = t := by
  rcases hFilters.made with ⟨_, hSame⟩ | ⟨hSome, _⟩
  · exact hSame
  · exact absurd hNone hSome

/- Otherwise it gathers no trailing arguments. -/
theorem not_varargs
    (hSome : ¬∀ o ∈ fs, o = none) :
    u.isVarargs = false := by
  rcases hFilters.made with ⟨hNone, _⟩ | ⟨_, hForm⟩
  · exact absurd hNone hSome
  · unfold isVarargs
    rw [hForm]

theorem delegates
    (hValid : c.Valid rt)
    (hu : u ∈ c.made) :
    t ∈ c.made ∧ ∀ f, some f ∈ fs → f ∈ c.made := by
  rcases hFilters.made with ⟨hNone, rfl⟩ | ⟨_, hForm⟩
  · exact ⟨hu, fun f hf => nomatch hNone (some f) hf⟩
  · refine
      ⟨hValid.delegate hu hForm List.mem_cons_self, fun f hf => ?_⟩
    apply hValid.delegate hu hForm
    exact List.mem_cons_of_mem t (List.mem_filterMap.2 ⟨_, hf, rfl⟩)

/-
  Entering a filtered target passes its node, if it has one,
  calls the filters, and enters the target at last.
-/
theorem enters
    {r : EStateM.Result Halt State Value}
    (hCount : args.length = u.stub.arity)
    (hArity : u.stub.arity = u.count) :
    u.EntersTo rt args s r ↔
      FiltersTo rt (t.EntersTo rt) pos fs args
        (s.passed (u.filterNode fs) args) r := by
  have hEnough := hFilters.enough_args (hCount.trans hArity)
  have hAll :
      fs.all Option.isNone = true ↔ ∀ o ∈ fs, o = none := by
    simp only [List.all_eq_true, Option.isNone_iff_eq_none]
  rw [filtersTo_iff u.signature hEnough]
  rcases hFilters.made with ⟨hNone, rfl⟩ | ⟨hSome, hForm⟩
  · unfold filterNode
    rw [if_pos (hAll.2 hNone)]
    simp only [runFilters_of_all_none _ _ _ _ hNone, pure_bind]
    exact Iff.rfl
  · have hEnter (n : Nat) :
        enter rt (n + 1) u args s =
          (runFilters (enter rt n) u.signature pos fs args >>=
            enter rt n t) (s.passed (some u) args) := by
      rw [enter_succ hCount, Run.bind_ok (pass_eq (some u) args s),
        behave_filterArguments hForm]
    unfold filterNode
    rw [if_neg (mt hAll.1 hSome)]
    constructor
    · rintro ⟨hEnded, n, hRun⟩
      cases n with
      | zero =>
          cases hRun
          exact absurd rfl hEnded
      | succ n =>
          exact ⟨hEnded, n, (hEnter n).symm.trans hRun⟩
    · rintro ⟨hEnded, n, hRun⟩
      exact ⟨hEnded, n + 1, (hEnter n).trans hRun⟩

variable (hChecking : rt.compile = .checking)
variable (hHost : rt.host.MakesNoTargets)
variable (hArity : u.stub.arity = u.count)
variable (hMade : ∀ f, some f ∈ fs → f ∈ c.made)
variable (hMade' : ∀ f, some f ∈ fs → f ∈ d.made)
variable (hCount : args.length = u.count)
include hChecking hHost hArity hMade hMade' hCount

/-
  The filters and what follows them are tracked by the target
  that was made of them, if what follows is tracked by the
  target that is filtered.
-/
theorem tracks_right
    {m : List Value → Run Value}
    (sig : Signature)
    (ht : t ∈ d.made)
    (hLe : j ≤ k)
    (hNext :
      ∀ c' d', c ≤ c' → d ≤ d' →
        ∀ vs : List Value, vs.length = args.length →
          Run.Tracks rt c' d' (m vs) (enter rt k t vs)) :
    Run.Tracks rt c d
      (runFilters (enter rt j) sig pos fs args >>= m)
      (enter rt (k + 1) u args) := by
  rcases hFilters.made with ⟨hNone, rfl⟩ | ⟨_, hForm⟩
  · rw [runFilters_of_all_none _ _ _ _ hNone, pure_bind]
    exact
      (hNext c d (le_refl c) (le_refl d) args rfl).trans_right
        (.enter hChecking hHost ht ht (Nat.le_succ k) args)
  · apply Run.Tracks.node_right (hCount.trans hArity.symm)
    rw [behave_filterArguments hForm]
    have hEnough := hFilters.enough_args hCount
    exact
      .bind_given (runFilters_length _ _ _ _ _)
        (runFilters_length _ _ _ _ _)
        (.filters hChecking hHost hMade hMade' hLe hEnough) hNext

/- It is tracked by the filters and what follows them. -/
theorem tracks_left
    {m : List Value → Run Value}
    (sig : Signature)
    (ht : t ∈ c.made)
    (hLe : k ≤ j)
    (hNext :
      ∀ c' d', c ≤ c' → d ≤ d' →
        ∀ vs : List Value, vs.length = args.length →
          Run.Tracks rt c' d' (enter rt (k + 1) t vs) (m vs)) :
    Run.Tracks rt c d (enter rt (k + 1) u args)
      (runFilters (enter rt j) sig pos fs args >>= m) := by
  rcases hFilters.made with ⟨hNone, rfl⟩ | ⟨_, hForm⟩
  · rw [runFilters_of_all_none _ _ _ _ hNone, pure_bind]
    exact hNext c d (le_refl c) (le_refl d) args rfl
  · apply Run.Tracks.node_left (hCount.trans hArity.symm)
    rw [behave_filterArguments hForm]
    have hEnough := hFilters.enough_args hCount
    refine
      .bind_given (runFilters_length _ _ _ _ _)
        (runFilters_length _ _ _ _ _)
        (.filters hChecking hHost hMade hMade' hLe hEnough) ?_
    intro c' d' hc hd vs hLength
    have ht' := Catalog.mem_of_le hc ht
    have hDeeper :=
      Run.Tracks.enter hChecking hHost ht' ht' (Nat.le_succ k) vs
    exact hDeeper.trans (hNext c' d' hc hd vs hLength)

end Target.Filters

------------------------------------------------------------
-- Split Filters
------------------------------------------------------------

namespace Target

/-
  Filters that are applied at once, and in two parts, the
  later ones first.
-/
structure SplitsFilters
    (h : Target)
    (pos : Nat)
    (fs gs : List (Option Target))
    (u y x : Target) : Prop where
  whole : h.Filters pos (fs ++ gs) u
  inner : h.Filters (pos + fs.length) gs y
  outer : y.Filters pos fs x

namespace SplitsFilters

variable (hSplits : h.SplitsFilters pos fs gs u y x)
include hSplits

theorem signature_eq : x.signature = u.signature := by
  have hEnough := hSplits.whole.enough
  rw [List.length_append] at hEnough
  have hWithin : pos + fs.length ≤ h.params.length := by
    change _ ≤ h.params.length at hEnough
    omega
  apply Signature.eq_of_parts
  · change x.params = u.params
    rw [hSplits.outer.params_eq, hSplits.inner.params_eq,
      hSplits.whole.params_eq, filteredParams_split hWithin]
  · exact
      hSplits.outer.ret_eq.trans
        (hSplits.inner.ret_eq.trans hSplits.whole.ret_eq.symm)

/- Without filters both ways come to the target itself. -/
theorem eq_of_all_none
    (hNone : ∀ o ∈ fs ++ gs, o = none) :
    u = h ∧ x = h := by
  rcases List.forall_mem_append.1 hNone with ⟨hFirst, hLater⟩
  exact
    ⟨hSplits.whole.eq_of_all_none hNone,
      (hSplits.outer.eq_of_all_none hFirst).trans
        (hSplits.inner.eq_of_all_none hLater)⟩

/- Otherwise neither of them gathers trailing arguments. -/
theorem not_varargs
    (hSome : ¬∀ o ∈ fs ++ gs, o = none) :
    u.isVarargs = false ∧ x.isVarargs = false := by
  refine ⟨hSplits.whole.not_varargs hSome, ?_⟩
  by_cases hFirst : ∀ o ∈ fs, o = none
  · rw [hSplits.outer.eq_of_all_none hFirst]
    apply hSplits.inner.not_varargs
    exact fun hLater =>
      hSome (List.forall_mem_append.2 ⟨hFirst, hLater⟩)
  · exact hSplits.outer.not_varargs hFirst

/-
  Both ways call the earlier filters, then the later ones, and
  enter the target at last.  Where they are applied in two
  parts, the node of the later ones is passed before those.
-/
theorem enters
    {q : State}
    {p : EStateM.Result Halt State Value}
    (hArity : ∀ v ∈ [u, y, x], v.stub.arity = v.count)
    (hCount : args.length = h.count) :
    let last := FiltersTo rt (h.EntersTo rt) (pos + fs.length) gs
    (u.EntersTo rt args q p ↔
      FiltersTo rt last pos fs args
        (q.passed (u.filterNode (fs ++ gs)) args) p) ∧
    (x.EntersTo rt args q p ↔
      FiltersTo rt
        (fun vs o => last vs (o.passed (y.filterNode gs) vs)) pos fs
        args (q.passed (x.filterNode fs) args) p) := by
  intro last
  have hu := hArity u (by simp)
  have hy := hArity y (by simp)
  have hx := hArity x (by simp)
  have hCountU := hCount.trans hSplits.whole.count_eq.symm
  have hCountY := hCount.trans hSplits.inner.count_eq.symm
  have hCountX := hCountY.trans hSplits.outer.count_eq.symm
  refine ⟨?_, ?_⟩
  · rw [hSplits.whole.enters (hCountU.trans hu.symm) hu,
      FiltersTo.append_iff]
  · rw [hSplits.outer.enters (hCountX.trans hx.symm) hx]
    have hInside (vs : List Value) (o : State)
        (p : EStateM.Result Halt State Value)
        (hLength : vs.length = args.length) :
        y.EntersTo rt vs o p ↔
          last vs (o.passed (y.filterNode gs) vs) p :=
      hSplits.inner.enters ((hLength.trans hCountY).trans hy.symm) hy
    constructor
    · exact fun hRuns =>
        hRuns.imp fun vs o p hLength => (hInside vs o p hLength).1
    · exact fun hRuns =>
        hRuns.imp fun vs o p hLength => (hInside vs o p hLength).2

variable (hChecking : rt.compile = .checking)
variable (hHost : rt.host.MakesNoTargets)
include hChecking hHost

/- The parts come to an end if the whole does. -/
theorem trackedBy :
    u.TrackedBy rt x := by
  refine ⟨hSplits.signature_eq, 1, 3, ?_⟩
  intro c d args n hc hd hu hx hCount
  rcases hSplits.whole.delegates hc hu with ⟨hh, hAll⟩
  rcases hSplits.outer.delegates hd hx with ⟨hy, hFirst⟩
  rcases hSplits.inner.delegates hd hy with ⟨hh', hLater⟩
  have hFirst' : ∀ f, some f ∈ fs → f ∈ c.made :=
    fun f hf => hAll f (List.mem_append_left gs hf)
  have hLater' : ∀ f, some f ∈ gs → f ∈ c.made :=
    fun f hf => hAll f (List.mem_append_right fs hf)
  have hCount' : args.length = y.count :=
    hCount.trans
      (hSplits.whole.count_eq.trans hSplits.inner.count_eq.symm)
  have hWhole :=
    hSplits.whole.tracks_left (c := c) (d := c) hChecking hHost
      ((hc.serves u hu).arity_eq hChecking) hAll hAll hCount
      u.signature hh (Nat.le_refl n)
      (fun c' d' hc hd vs _ =>
        .enter hChecking hHost (Catalog.mem_of_le hc hh)
          (Catalog.mem_of_le hd hh) (Nat.le_refl (n + 1)) vs)
  rw [runFilters_append, bind_assoc] at hWhole
  refine hWhole.trans ?_
  refine
    hSplits.outer.tracks_right hChecking hHost
      ((hd.serves x hx).arity_eq hChecking) hFirst' hFirst
      (hCount'.trans hSplits.outer.count_eq.symm) u.signature hy
      (by omega : n ≤ n + 2) ?_
  intro c' d' hc' hd' vs hLength
  refine
    hSplits.inner.tracks_right hChecking hHost
      ((hd.serves y hy).arity_eq hChecking)
      (fun f hf => Catalog.mem_of_le hc' (hLater' f hf))
      (fun f hf => Catalog.mem_of_le hd' (hLater f hf))
      (hLength.trans hCount') u.signature
      (Catalog.mem_of_le hd' hh') (Nat.le_succ n) ?_
  intro c'' d'' hc'' hd'' ws _
  exact
    .enter hChecking hHost
      (Catalog.mem_of_le (le_trans hc' hc'') hh)
      (Catalog.mem_of_le (le_trans hd' hd'') hh')
      (Nat.le_refl (n + 1)) ws

/- The whole comes to an end if the parts do. -/
theorem tracked_back :
    x.TrackedBy rt u := by
  refine ⟨hSplits.signature_eq.symm, 2, 3, ?_⟩
  intro d c args n hd hc hx hu hCount
  rcases hSplits.whole.delegates hc hu with ⟨hh, hAll⟩
  rcases hSplits.outer.delegates hd hx with ⟨hy, hFirst⟩
  rcases hSplits.inner.delegates hd hy with ⟨hh', hLater⟩
  have hAll' : ∀ f, some f ∈ fs ++ gs → f ∈ d.made := by
    intro f hf
    rcases List.mem_append.1 hf with hOne | hOther
    · exact hFirst f hOne
    · exact hLater f hOther
  have hCount' : args.length = y.count :=
    hCount.trans hSplits.outer.count_eq
  have hParts :
      Run.Tracks rt d d (enter rt (n + 2) x args)
        (runFilters (enter rt (n + 1)) u.signature pos fs args >>=
          fun vs =>
            runFilters (enter rt (n + 1)) u.signature
                (pos + fs.length) gs vs >>=
              enter rt (n + 2) h) := by
    refine
      hSplits.outer.tracks_left hChecking hHost
        ((hd.serves x hx).arity_eq hChecking) hFirst hFirst hCount
        u.signature hy (Nat.le_refl (n + 1)) ?_
    intro c' d' hc' hd' vs hLength
    refine
      hSplits.inner.tracks_left hChecking hHost
        ((hd.serves y hy).arity_eq hChecking)
        (fun f hf => Catalog.mem_of_le hc' (hLater f hf))
        (fun f hf => Catalog.mem_of_le hd' (hLater f hf))
        (hLength.trans hCount') u.signature
        (Catalog.mem_of_le hc' hh') (Nat.le_refl (n + 1)) ?_
    intro c'' d'' hc'' hd'' ws _
    exact
      .enter hChecking hHost
        (Catalog.mem_of_le (le_trans hc' hc'') hh')
        (Catalog.mem_of_le (le_trans hd' hd'') hh')
        (Nat.le_refl (n + 2)) ws
  refine hParts.trans ?_
  rw [← bind_assoc, ← runFilters_append]
  refine
    hSplits.whole.tracks_right hChecking hHost
      ((hc.serves u hu).arity_eq hChecking) hAll' hAll
      (hCount'.trans
        (hSplits.inner.count_eq.trans hSplits.whole.count_eq.symm))
      u.signature hh (by omega : n + 1 ≤ n + 2) ?_
  intro d' c' hd' hc' ws _
  exact
    .enter hChecking hHost (Catalog.mem_of_le hd' hh')
      (Catalog.mem_of_le hc' hh) (Nat.le_refl (n + 2)) ws

/- Both ways are called alike. -/
theorem callsAlike
    {q : State}
    (hLists : q.Lists rt [u, x]) :
    u.CallsAlike rt q x q := by
  have hu : q.Lists rt [u] := hLists.mono (by simp)
  have hx : q.Lists rt [x] := hLists.mono (by simp)
  by_cases hNone : ∀ o ∈ fs ++ gs, o = none
  · rcases hSplits.eq_of_all_none hNone with ⟨rfl, rfl⟩
    exact .refl hChecking hu
  · rcases hSplits.not_varargs hNone with ⟨hPlain, hPlain'⟩
    exact
      callsAlike_of_tracked (hSplits.trackedBy hChecking hHost)
        (hSplits.tracked_back hChecking hHost) hChecking hPlain
        hPlain' (.refl q) hu hx

end SplitsFilters

end Target

------------------------------------------------------------
-- Filters of Named Targets
------------------------------------------------------------

namespace Session

variable {s : Session}

/-
  Filters that are applied at once, and filters that are
  applied in two parts, the later ones first.  What is made is
  of one signature.  It calls the same filters one after
  another up to the first one that fails, and the target only
  if none does; the second way a node is passed after the
  earlier filters.  Calls come to the same.
-/
theorem filters_split
    (hFresh : s.IsFresh)
    (hChecking : s.context.runtime.compile = .checking)
    (hHost : s.context.runtime.host.MakesNoTargets)
    (xs : List Step)
    (hNamed : (s.after xs).context.Names h)
    (hFilters :
      ∀ f, some f ∈ fs ++ gs → (s.after xs).context.Names f)
    {s₁ : State}
    (hWhole :
      h.filterArguments s.context.runtime pos (fs ++ gs)
        (s.after xs).state = .ok u s₁) :
    let rt := s.context.runtime
    let ts := u :: h :: (fs ++ gs).filterMap id
    let last := FiltersTo rt (h.EntersTo rt) (pos + fs.length) gs
    s₁.Lists rt ts ∧
      ∀ r : State, r.Lists rt ts →
        ∀ y r',
          h.filterArguments rt (pos + fs.length) gs r = .ok y r' →
          r'.Lists rt (y :: ts) ∧
            ∀ z : State, z.Lists rt (y :: ts) →
              ∀ x z',
                y.filterArguments rt pos fs z = .ok x z' →
                z'.Lists rt (x :: y :: ts) ∧
                  x.signature = u.signature ∧
                  (∀ args q p, args.length = h.count →
                    (u.EntersTo rt args q p ↔
                      FiltersTo rt last pos fs args
                        (q.passed (u.filterNode (fs ++ gs)) args)
                        p) ∧
                    (x.EntersTo rt args q p ↔
                      FiltersTo rt
                        (fun vs o =>
                          last vs (o.passed (y.filterNode gs) vs))
                        pos fs args
                        (q.passed (x.filterNode fs) args) p)) ∧
                  ∀ q : State, q.Lists rt [u, x] →
                    u.CallsAlike rt q x q := by
  intro rt ts last
  have hHere : (s.after xs).state.Lists rt
      (h :: (fs ++ gs).filterMap id) := by
    rcases named_after hFresh hHost xs with ⟨c, _, hSound, hMade⟩
    refine ⟨c, hSound, ?_⟩
    intro f hf
    rcases List.mem_cons.1 hf with rfl | hIn
    · exact hMade f hNamed
    · rcases List.mem_filterMap.1 hIn with ⟨o, ho, rfl⟩
      exact hMade f (hFilters f ho)
  have hAll : ∀ f, some f ∈ fs ++ gs → f ∈ ts :=
    fun f hf => .tail u (.tail h (List.mem_filterMap.2 ⟨_, hf, rfl⟩))
  have hEarly : ∀ f, some f ∈ fs → f ∈ ts :=
    fun f hf => hAll f (List.mem_append_left gs hf)
  have hLate : ∀ f, some f ∈ gs → f ∈ ts :=
    fun f hf => hAll f (List.mem_append_right fs hf)
  rcases
    hHere.of_filterArguments hChecking (.head _)
      (fun f hf => .tail h (List.mem_filterMap.2 ⟨_, hf, rfl⟩))
      hWhole
    with ⟨hLists, hAtOnce⟩
  refine ⟨hLists, ?_⟩
  intro r hr y r' hInner
  rcases
    hr.of_filterArguments hChecking (.tail u (.head _)) hLate hInner
    with ⟨hLists', hLater⟩
  refine ⟨hLists', ?_⟩
  intro z hz x z' hOuter
  rcases
    hz.of_filterArguments hChecking (.head _)
      (fun f hf => .tail y (hEarly f hf)) hOuter
    with ⟨hLists'', hFirst⟩
  have hSplits : h.SplitsFilters pos fs gs u y x :=
    ⟨hAtOnce, hLater, hFirst⟩
  refine
    ⟨hLists'', hSplits.signature_eq, ?_,
      fun q hq => hSplits.callsAlike hChecking hHost hq⟩
  rcases hLists'' with ⟨c, hSound, hListed⟩
  have hArity : ∀ v ∈ [u, y, x], v.stub.arity = v.count := by
    intro v hv
    apply (hSound.valid.serves v (hListed v ?_)).arity_eq hChecking
    simp only [List.mem_cons, List.not_mem_nil, or_false] at hv
    rcases hv with rfl | rfl | rfl
    · exact .tail _ (.tail _ (.head _))
    · exact .tail _ (.head _)
    · exact .head _
  exact fun args q p hCount => hSplits.enters hArity hCount

/- A pair of integers, one of them wide, and filters of both. -/
def filteredPair : List Step :=
  pairs ++ [.make (.identity .int) (some "one")]

/-
  Whether the filters can be applied to the pair at once and
  one by one, and seven comes of the pair when they are
  applied at once.
-/
def filtersPair (s : Session) : Bool :=
  let rt := s.context.runtime
  let named (n : String) := s.context.names.targets.lookup n
  match named "pair", named "same", named "one" with
  | some h, some f, some g =>
      match h.filterArguments rt 0 ([some f] ++ [some g]) s.state with
      | .error _ _ => false
      | .ok u s₁ =>
          match h.filterArguments rt (0 + 1) [some g] s₁ with
          | .error _ _ => false
          | .ok y r =>
              match y.filterArguments rt 0 [some f] r with
              | .error _ _ => false
              | .ok _ z =>
                  isSeven
                    ((Entry.way .exact).run rt 9 u sevenAndTwo z)
  | _, _, _ => false

/- Seven comes of the pair with one filter after the other, too. -/
theorem filters_split_pair :
    ∃ h f g u y x s₁ r z q,
      (plain.after filteredPair).context.Names h ∧
        h.filterArguments plain.context.runtime 0
          ([some f] ++ [some g]) (plain.after filteredPair).state =
            .ok u s₁ ∧
        h.filterArguments plain.context.runtime (0 + 1) [some g]
          s₁ = .ok y r ∧
        y.filterArguments plain.context.runtime 0 [some f] r =
          .ok x z ∧
        (Entry.way .exact).ComesTo plain.context.runtime x
          sevenAndTwo z (.ok (.prim (.long 7)) q) := by
  have hCheck : filtersPair (plain.after filteredPair) = true := by
    decide +kernel
  unfold filtersPair at hCheck
  rw [runtime_after] at hCheck
  dsimp only at hCheck
  split at hCheck
  · rename_i h f g hTarget hFirst hSecond
    split at hCheck
    · cases hCheck
    · rename_i u s₁ hWhole
      split at hCheck
      · cases hCheck
      · rename_i y r hInner
        split at hCheck
        · cases hCheck
        · rename_i x z hOuter
          have hNamed := names_of_lookup hTarget
          have hFilters :
              ∀ o, some o ∈ [some f] ++ [some g] →
                (plain.after filteredPair).context.Names o := by
            intro o ho
            simp only [List.mem_append, List.mem_singleton,
              Option.some.injEq] at ho
            rcases ho with rfl | rfl
            · exact names_of_lookup hFirst
            · exact names_of_lookup hSecond
          have hHost := World.host_makesNoTargets (.initial .empty)
          rcases
            filters_split plain_isFresh rfl hHost filteredPair
              hNamed hFilters hWhole
            with ⟨hLists, hLater⟩
          rcases hLater s₁ hLists y r hInner with ⟨hLists', hOnce⟩
          rcases hOnce r hLists' x z hOuter with
            ⟨hListed, _, _, hAlike⟩
          rcases exists_of_isSeven hCheck with ⟨p, hRun⟩
          have hComes :
              (Entry.way .exact).ComesTo plain.context.runtime u
                sevenAndTwo z (.ok (.prim (.long 7)) p) :=
            ⟨nofun, 9, hRun⟩
          have hBoth : z.Lists plain.context.runtime [u, x] :=
            hListed.mono (by simp)
          rcases (hAlike z hBoth).exact hComes with
            ⟨_, hOther, hSame⟩
          cases hSame with
          | @ok _ _ q _ =>
              exact
                ⟨h, f, g, u, y, x, s₁, r, z, q, hNamed, hWhole,
                  hInner, hOuter, hOther⟩
  · cases hCheck

end Session

end Linkage
