import Linkage.Invoke
import Mathlib.Order.Defs.PartialOrder

/-
  Invariants of operations on the state.  An invariant speaks
  of a state as seen from a world, which says what is known
  so far; an operation moves on to a later world, in which
  the invariant holds again and its result or its error is as
  promised.

  Key definitions include:
    * `Leaves`
    * `Keeps`

  Key theorems include:
    * `Keeps.bind`
    * `Keeps.get_bind`
    * `Keeps.holding`
    * `Keeps.ofLink`
-/

------------------------------------------------------------
-- Promises on Results
------------------------------------------------------------

namespace Linkage

variable {ω ε α β : Type}
variable [Preorder ω]

/-
  A result is as promised in some world from `w` on, in which
  the invariant holds of its state.
-/
def Leaves
    (I : ω → State → Prop)
    (Q : ω → α → Prop)
    (E : ω → ε → Prop)
    (w : ω) : EStateM.Result ε State α → Prop
| .ok a s => ∃ v, w ≤ v ∧ I v s ∧ Q v a
| .error e s => ∃ v, w ≤ v ∧ I v s ∧ E v e

/-
  From every state of the invariant an operation comes to a
  result that is as promised.
-/
def Keeps
    (I : ω → State → Prop)
    (Q : ω → α → Prop)
    (E : ω → ε → Prop)
    (w : ω)
    (m : EStateM ε State α) : Prop :=
  ∀ s, I w s → Leaves I Q E w (m s)

variable {I : ω → State → Prop}
variable {Q Q' : ω → α → Prop}
variable {R : ω → β → Prop}
variable {E E' : ω → ε → Prop}
variable {w v : ω}

/- What is promised from a later world is promised. -/
theorem Leaves.earlier
    {r : EStateM.Result ε State α}
    (hLe : w ≤ v)
    (hLeaves : Leaves I Q E v r) :
    Leaves I Q E w r := by
  cases r with
  | ok a s =>
      rcases hLeaves with ⟨u, hu, hInv, hPost⟩
      exact ⟨u, le_trans hLe hu, hInv, hPost⟩
  | error e s =>
      rcases hLeaves with ⟨u, hu, hInv, hPost⟩
      exact ⟨u, le_trans hLe hu, hInv, hPost⟩

/- Weaker promises follow, in all worlds from `w` on. -/
theorem Leaves.imp
    {r : EStateM.Result ε State α}
    (hLeaves : Leaves I Q E w r)
    (hOk : ∀ v, w ≤ v → ∀ a, Q v a → Q' v a)
    (hError : ∀ v, w ≤ v → ∀ e, E v e → E' v e) :
    Leaves I Q' E' w r := by
  cases r with
  | ok a s =>
      rcases hLeaves with ⟨u, hu, hInv, hPost⟩
      exact ⟨u, hu, hInv, hOk u hu a hPost⟩
  | error e s =>
      rcases hLeaves with ⟨u, hu, hInv, hPost⟩
      exact ⟨u, hu, hInv, hError u hu e hPost⟩

/- The state after an operation, whether it failed or not. -/
def Run.final : EStateM.Result ε State α → State
| .ok _ s => s
| .error _ s => s

/- What is done with the state is done with it as it is. -/
theorem Run.get_bind
    (f : State → EStateM ε State α)
    (s : State) :
    (MonadState.get >>= f) s = f s s :=
  rfl

/- An operation goes on from what its first part comes to. -/
theorem Run.bind_ok
    {m : EStateM ε State β}
    {f : β → EStateM ε State α}
    {b : β}
    {s s' : State}
    (hRun : m s = .ok b s') :
    (m >>= f) s = f b s' := by
  change EStateM.bind m f s = f b s'
  unfold EStateM.bind
  rw [hRun]

/- It ends if the first part fails. -/
theorem Run.bind_error
    {m : EStateM ε State β}
    {e : ε}
    {s s' : State}
    (hRun : m s = .error e s')
    (f : β → EStateM ε State α) :
    (m >>= f) s = .error e s' := by
  change EStateM.bind m f s = .error e s'
  unfold EStateM.bind
  rw [hRun]

------------------------------------------------------------
-- Sequences of Operations
------------------------------------------------------------

namespace Keeps

theorem imp
    {m : EStateM ε State α}
    (hKeeps : Keeps I Q E w m)
    (hOk : ∀ v, w ≤ v → ∀ a, Q v a → Q' v a)
    (hError : ∀ v, w ≤ v → ∀ e, E v e → E' v e) :
    Keeps I Q' E' w m := by
  intro s hInv
  exact (hKeeps s hInv).imp hOk hError

/- A weaker promise on results, the errors as they are. -/
theorem imp_ok
    {m : EStateM ε State α}
    (hKeeps : Keeps I Q E w m)
    (hOk : ∀ v, w ≤ v → ∀ a, Q v a → Q' v a) :
    Keeps I Q' E w m :=
  hKeeps.imp hOk (fun _ _ _ h => h)

theorem pure
    {a : α}
    (hPost : Q w a) :
    Keeps I Q E w (Pure.pure a) := by
  intro s hInv
  exact ⟨w, le_refl w, hInv, hPost⟩

theorem throw
    {e : ε}
    (hPost : E w e) :
    Keeps I Q E w (MonadExcept.throw e) := by
  intro s hInv
  exact ⟨w, le_refl w, hInv, hPost⟩

/-
  An operation and one that uses its result: what the first
  promises in a later world is what the second may rely on.
-/
theorem bind
    {m : EStateM ε State β}
    {f : β → EStateM ε State α}
    (hFirst : Keeps I R E w m)
    (hSecond : ∀ v, w ≤ v → ∀ b, R v b → Keeps I Q E v (f b)) :
    Keeps I Q E w (m >>= f) := by
  intro s hInv
  have hLeaves := hFirst s hInv
  change Leaves I Q E w (EStateM.bind m f s)
  unfold EStateM.bind
  cases hRun : m s with
  | ok b t =>
      rw [hRun] at hLeaves
      rcases hLeaves with ⟨v, hv, hInv', hPost⟩
      exact (hSecond v hv b hPost t hInv').earlier hv
  | error e t =>
      rw [hRun] at hLeaves
      exact hLeaves

/- The invariant may be relied on. -/
theorem relying
    {m : EStateM ε State α}
    (hRest : ∀ s, I w s → Keeps I Q E w m) :
    Keeps I Q E w m := by
  intro s hInv
  exact hRest s hInv s hInv

/- Either branch keeps the invariant. -/
theorem ite
    {p : Prop}
    [Decidable p]
    {m n : EStateM ε State α}
    (hThen : p → Keeps I Q E w m)
    (hElse : ¬p → Keeps I Q E w n) :
    Keeps I Q E w (if p then m else n) := by
  split
  · rename_i hp
    exact hThen hp
  · rename_i hp
    exact hElse hp

/- What follows may rely on the state that it reads. -/
theorem get_bind
    {f : State → EStateM ε State α}
    (hRest : ∀ s, I w s → Keeps I Q E w (f s)) :
    Keeps I Q E w (MonadState.get >>= f) := by
  intro s hInv
  exact hRest s hInv s hInv

/- A change of the state that the invariant allows. -/
theorem change
    {f : State → State}
    {Q : ω → PUnit → Prop}
    (hChange : ∀ s, I w s → I w (f s))
    (hPost : Q w ⟨⟩) :
    Keeps I Q E w (modify f) := by
  intro s hInv
  exact ⟨w, le_refl w, hChange s hInv, hPost⟩

------------------------------------------------------------
-- Runs and Link Operations
------------------------------------------------------------

/-
  More roots are held for a while.  The invariant must not
  depend on what is held.
-/
theorem holding
    {E : ω → Halt → Prop}
    {m : Run α}
    (hHeld : ∀ v s rs, I v s → I v { s with held := rs })
    (rs : List Root)
    (hKeeps : Keeps I Q E w m) :
    Keeps I Q E w (Run.holding rs m) := by
  intro s hInv
  have hLeaves := hKeeps _ (hHeld w s (rs ++ s.held) hInv)
  unfold Run.holding
  cases hRun : m { s with held := rs ++ s.held } with
  | ok a t =>
      rw [hRun] at hLeaves
      rcases hLeaves with ⟨v, hv, hInv', hPost⟩
      exact ⟨v, hv, hHeld v t s.held hInv', hPost⟩
  | error e t =>
      rw [hRun] at hLeaves
      rcases hLeaves with ⟨v, hv, hInv', hPost⟩
      exact ⟨v, hv, hHeld v t s.held hInv', hPost⟩

/- A link operation whose errors become one fault. -/
theorem ofLink
    {L : ω → LinkError → Prop}
    {E : ω → Halt → Prop}
    {m : Link α}
    {f : Fault}
    (hKeeps : Keeps I Q L w m)
    (hFault : ∀ v, E v (.fault f)) :
    Keeps I Q E w (Run.ofLink m f) := by
  intro s hInv
  have hLeaves := hKeeps s hInv
  unfold Run.ofLink
  cases hRun : m s with
  | ok a t =>
      rw [hRun] at hLeaves
      exact hLeaves
  | error e t =>
      rw [hRun] at hLeaves
      rcases hLeaves with ⟨v, hv, hInv', _⟩
      exact ⟨v, hv, hInv', hFault v⟩

end Keeps

end Linkage
