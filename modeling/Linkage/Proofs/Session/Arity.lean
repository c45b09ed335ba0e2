import Linkage.Proofs.Session.Steps
import Linkage.Proofs.World

/-
  Arity safety of sessions.  Whatever targets a session has
  made, in whatever order, and whatever its host, its classes
  and its settings are: when a named target is entered with
  as many arguments as it has parameters, then so is every
  target that is entered in the run.  It takes the checking
  compiler, with which a stub that is shared by many
  signatures takes as many arguments as each of them has.

  Key definitions include:
    * `Run.CountsIn`

  Key theorems include:
    * `Session.enter_counts`
-/

------------------------------------------------------------
-- Runs that Count
------------------------------------------------------------

namespace Linkage

/-
  The run of an operation from a state.  All that it enters
  is counted, it does not stop at an edit outside of an
  argument list, and it does not complain of too few
  arguments unless the host does.
-/
structure Run.CountsIn
    (H : Host)
    (m : Run Value)
    (s : State) : Prop where
  entered :
    ∀ t args, Event.entered t args ∈ (final (m s)).trace →
      t.Counted args
  inside : ∀ s', m s ≠ .error .outside s'
  enough :
    H.NeverShort →
      ∀ f s', m s = .error (.fault f) s' → ¬f.IsShortage

/- An orderly run from a state with an empty trace counts. -/
theorem Orderly.countsIn
    {rt : Runtime}
    {c : Catalog}
    {m : Run Value}
    {Q : Value → Prop}
    {s : State}
    (hOrderly : Orderly True rt [] c m Q)
    (hFits : c.Fits rt)
    (hSound : s.Sound rt c)
    (hTrace : s.trace = []) :
    Run.CountsIn rt.host m s := by
  have hKnown : Known rt (CountedSince True []) c s := by
    refine ⟨hFits, hSound, ?_⟩
    intro _ t args hMem
    rw [hTrace] at hMem
    cases hMem
  have hLeaves := hOrderly s hKnown
  have hOnly :
      ∀ d s', Known rt (CountedSince True []) d s' →
        ∀ t args, Event.entered t args ∈ s'.trace →
          t.Counted args := by
    intro d s' hKnown' t args hMem
    rcases hKnown'.around trivial t args hMem with hOld | hNew
    · cases hOld
    · exact hNew
  cases hRun : m s with
  | ok v s' =>
      rw [hRun] at hLeaves
      rcases hLeaves with ⟨d, _, hKnown', _⟩
      constructor
      · rw [hRun]
        exact hOnly d s' hKnown'
      · rw [hRun]
        intro s' hEq
        cases hEq
      · rw [hRun]
        intro _ f s' hEq
        cases hEq
  | error e s' =>
      rw [hRun] at hLeaves
      rcases hLeaves with ⟨d, _, hKnown', hProper⟩
      rcases hProper trivial with ⟨hInside, hEnough⟩
      constructor
      · rw [hRun]
        exact hOnly d s' hKnown'
      · rw [hRun]
        intro s'' hEq
        cases hEq
        exact hInside rfl
      · rw [hRun]
        intro hHost f s'' hEq
        cases hEq
        exact hEnough hHost f rfl

------------------------------------------------------------
-- Arity Safety
------------------------------------------------------------

namespace Session

/-
  Every target that is entered takes as many arguments as its
  signature has parameters, once the first one does.
-/
theorem enter_counts
    {s : Session}
    {t : Target}
    {args : List Value}
    (hFresh : s.IsFresh)
    (hCompile : s.context.runtime.compile = .checking)
    (hHost : s.context.runtime.host.MakesNoTargets)
    (xs : List Step)
    (fuel : Nat)
    (hNamed : (s.after xs).context.Names t)
    (hCount : args.length = t.count) :
    Run.CountsIn s.context.runtime.host
      (t.enter s.context.runtime fuel args)
      { (s.after xs).state with trace := [] } := by
  rcases listed_after hFresh hHost xs with ⟨c, hKnown, hNames⟩
  rw [runtime_after] at hKnown
  have hEnter :
      Entering True s.context.runtime []
        (Target.enter s.context.runtime fuel) :=
    entering_enter hHost (fun _ => hCompile) fuel
  have hOrderly :=
    hEnter c t args (hNames t hNamed) (fun _ => hCount)
  exact
    hOrderly.countsIn hKnown.fits (hKnown.sound.withTrace []) rfl

/- The session of the world in which nothing is declared. -/
def plain : Session :=
  .start (.initial .empty) .empty {} .checking

theorem plain_isFresh : plain.IsFresh where
  names := rfl
  state := by
    refine ⟨.empty, none, rfl, ?_⟩
    intro i t hAt
    cases hAt

/-
  Two targets with one stub: the first parameter, which they
  drop, is of a class in one of them and an array in the
  other.
-/
def sharing : List Step :=
  [.make (.identity .int) (some "same"),
   .make (.dropArguments "same" 0 [.object]) (some "first"),
   .make (.dropArguments "same" 0 [.array .int]) (some "second")]

/-
  The later of the two is entered through the stub that was
  compiled for the other, with arguments of wrong types.
-/
theorem enter_counts_sharing :
    (plain.after sharing).state.cache.compiles = 2 ∧
      ∃ t,
        (plain.after sharing).context.Names t ∧
          [Value.void, Value.null].length = t.count ∧
          Run.CountsIn plain.context.runtime.host
            (t.enter plain.context.runtime 9 [.void, .null])
            { (plain.after sharing).state with trace := [] } := by
  refine ⟨by decide +kernel, ?_⟩
  have hLast :
      (plain.after sharing).context.names.targets.head?.map
          (fun p => (p.1, p.2.count)) =
        some ("second", 2) := by
    decide +kernel
  rcases Option.map_eq_some_iff.1 hLast with ⟨⟨n, t⟩, hHead, hEq⟩
  have hNamed : (plain.after sharing).context.Names t :=
    ⟨n, List.mem_of_head? hHead⟩
  have hCount : [Value.void, Value.null].length = t.count :=
    (congrArg Prod.snd hEq).symm
  exact
    ⟨t, hNamed, hCount,
      enter_counts plain_isFresh rfl (World.host_makesNoTargets _)
        sharing 9 hNamed hCount⟩

end Session

end Linkage
