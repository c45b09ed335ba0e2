import Linkage.Proofs.Caching.Entering
import Linkage.Proofs.Invoke.Direct

/-
  Trees of targets in which nodes that call a call site are
  replaced by the current target of the site.  Direct runs of
  the two trees agree: one result or one failure, one heap,
  and the same calls of the host.  So the calls of the trees
  themselves come to the same if they come to an end, and the
  one does if the other does.

  Key definitions include:
    * `Target.Replaces`
    * `Replacing`
    * `Run.Same`
    * `Entry.ComesTo`

  Key theorems include:
    * `together_enterDirectly`
    * `Entry.agree_directly`
    * `Entry.Replaced.same`
    * `Entry.Replaced.comesTo_iff`
-/

------------------------------------------------------------
-- Targets in Place of Call Sites
------------------------------------------------------------

namespace Linkage

/-
  A target replaces some nodes of a tree that call a call
  site, and is of their signature.
-/
inductive Target.Replaces
    (i : SiteId)
    (x : Target) : Target → Target → Prop
| site {t u : Target} :
    t.form = .site i →
    t.signature = x.signature →
    x.Alike u →
    Replaces i x t u
| node {t u : Target} :
    u.signature = t.signature →
    t.form.Rel (Replaces i x) u.form →
    Replaces i x t u

/-
  The targets that were made in two runs, the one that takes
  the place of others among them.  The host is called with
  the very same heaps.
-/
structure Replacing
    (i : SiteId)
    (x : Target)
    (w : Pairing)
    (t u : Target) : Prop where
  same : w.same
  left : x ∈ w.left.made
  right : x ∈ w.right.made
  replaces : x.Replaces i t u

variable {rt : Runtime}
variable {b : Bool}
variable {w v : Pairing}
variable {i : SiteId}
variable {x t u : Target}
variable {args : List Value}
variable {k n : Nat}

theorem Target.Replaces.signature_eq
    (hReplaces : x.Replaces i t u) :
    u.signature = t.signature := by
  cases hReplaces with
  | site _ hSig hAlike => exact hAlike.signature_eq.trans hSig.symm
  | node hSig _ => exact hSig

/- No node need be replaced. -/
theorem Target.Alike.replaces
    (hAlike : t.Alike u) :
    x.Replaces i t u := by
  induction hSize : sizeOf t using Nat.strongRecOn
    generalizing t u with
  | ind n ih =>
      refine .node hAlike.signature_eq (hAlike.form.imp_mem ?_)
      intro y z hy _ hyz
      have hSmaller : sizeOf y < n := by
        rw [← hSize]
        exact Target.sizeOf_lt_node hy
      exact ih _ hSmaller hyz rfl

/- Nodes of related forms call the site, or neither does. -/
theorem Target.isSite_of_rel
    {R : Target → Target → Prop}
    (hForm : t.form.Rel R u.form) :
    u.isSite i = t.isSite i := by
  unfold Target.isSite
  generalize t.form = f at hForm
  generalize u.form = g at hForm
  cases hForm with
  | _ => rfl

namespace Replacing

theorem of_replaces
    {y z : Target}
    (hReplacing : Replacing i x w t u)
    (hReplaces : x.Replaces i y z) :
    Replacing i x w y z :=
  ⟨hReplacing.same, hReplacing.left, hReplacing.right,
    hReplaces⟩

end Replacing

instance : Bond (Replacing i x) where
  later := by
    intro w v t u hLe hReplacing
    refine ⟨?_, ?_, ?_, hReplacing.replaces⟩
    · rw [hLe.2.2]
      exact hReplacing.same
    · exact Catalog.mem_of_le hLe.1 hReplacing.left
    · exact Catalog.mem_of_le hLe.2.1 hReplacing.right
  congruence := by
    intro w t u hReplacing
    refine ⟨?_, fun hOther => hOther.replaces.signature_eq, ?_⟩
    · intro y z hAlike
      exact hReplacing.of_replaces hAlike.replaces
    · intro y z hSig _ hForm
      apply hReplacing.of_replaces
      exact .node hSig (hForm.imp (fun _ _ h => h.replaces))

------------------------------------------------------------
-- Direct Runs Agree
------------------------------------------------------------

/-
  In direct runs a node that calls the site does what the
  target does that is in its place.
-/
theorem together_enterDirectly
    (hChecking : rt.compile = .checking)
    (hHost : rt.host.MakesNoTargets)
    (k : Nat) :
    Together (Replacing i x) rt b (enterDirectly rt i x k)
      (enterDirectly (rt.memoizing b) i x k) := by
  induction k with
  | zero =>
      intro w t u args _
      exact .throw _
  | succ k ih =>
      intro w t u args hKin
      have hSees : rt.host.SameOrBlind w := Or.inl hKin.alike.same
      have hBehave :
          ∀ {y z}, Kin (Replacing i x) w y z →
            y.form.Rel (x.Replaces i) z.form →
              Agree rt b w
                (y.behave rt (enterDirectly rt i x k) args)
                (z.behave (rt.memoizing b)
                  (enterDirectly (rt.memoizing b) i x k) args)
                (fun _ a a' => a' = a) := by
        intro y z hyz hForm
        apply Agree.relying
        intro s s' hTwins
        apply Together.behave hChecking hHost hSees ih hyz
        apply hyz.delegates hTwins
        exact hForm.imp (fun _ _ => hyz.alike.of_replaces)
      have hInPlace :
          ∀ {z}, x.Alike z → z ∈ w.right.made →
            Agree rt b w
              (x.behave rt (enterDirectly rt i x k) args)
              (z.behave (rt.memoizing b)
                (enterDirectly (rt.memoizing b) i x k) args)
              (fun _ a a' => a' = a) := by
        intro z hAlike hz
        apply hBehave (hKin.of_twin ⟨hKin.alike.left, hz, hAlike⟩)
        exact hAlike.form.imp (fun _ _ hOther => hOther.replaces)
      have hSelf := hInPlace (.refl x) hKin.alike.right
      unfold enterDirectly
      cases hKin.alike.replaces with
      | site hSite _ hAlike =>
          rw [if_pos (Target.isSite_iff.2 hSite)]
          split
          · exact .holding _ _ hSelf
          · exact .holding_left _ (hInPlace hAlike hKin.right)
      | node hSig hForm =>
          rw [Target.isSite_of_rel hForm]
          apply Agree.ite
          · intro _
            exact .holding _ _ hSelf
          · intro _
            exact hBehave hKin hForm

------------------------------------------------------------
-- Direct Calls Agree
------------------------------------------------------------

/- Arguments are collected for no other targets. -/
theorem Target.arityAdapted_eq
    (hFixed : t.isVarargs = false) :
    t.arityAdapted rt args = pure t := by
  unfold isVarargs at hFixed
  unfold arityAdapted
  split
  · rename_i y array hForm
    rw [hForm] at hFixed
    cases hFixed
  · rfl

namespace Entry

/- One way of calling, or two stubs. -/
inductive Like : Entry → Entry → Prop
| way (w : Way) :
    Like (.way w) (.way w)
| stub (c d : Stub) :
    Like (.stub c) (.stub d)

/-
  A call with any arguments is not of a node in whose place
  there is a target that collects trailing arguments.
-/
def Fixed
    (i : SiteId)
    (x t : Target) : Entry → Prop
| way .flexible => t.isSite i = true → x.isVarargs = false
| _ => True

variable {e e' : Entry}

theorem agree_directly
    (hChecking : rt.compile = .checking)
    (hHost : rt.host.MakesNoTargets)
    (hLike : e.Like e')
    (hFixed : e.Fixed i x t)
    (ht : Kin (Replacing i x) w t u) :
    Agree rt b w (e.runDirectly rt i x k t args)
      (e'.runDirectly (rt.memoizing b) i x k u args)
      (fun _ a a' => a' = a) := by
  have hEnter :
      ∀ k,
        Together (Replacing i x) rt b (enterDirectly rt i x k)
          (enterDirectly (rt.memoizing b) i x k) :=
    together_enterDirectly hChecking hHost
  cases hLike with
  | stub c d => exact hEnter (k + 1) w t u args ht
  | way way =>
      cases way with
      | interpret => exact hEnter (k + 1) w t u args ht
      | exact => exact Together.invokeExact (hEnter k) ht
      | exactTyped sig =>
          exact Together.invokeExactTyped (hEnter k) ht
      | typed sig =>
          exact Together.invokeTyped hChecking (hEnter k) ht
      | flexible =>
          apply Together.invokeFlexibly hChecking (hEnter k)
          cases ht.alike.replaces with
          | site hSite _ hAlike =>
              have hLeft : t.isVarargs = false := by
                unfold Target.isVarargs
                rw [hSite]
              have hRight : u.isVarargs = false :=
                hAlike.isVarargs_eq.trans
                  (hFixed (Target.isSite_iff.2 hSite))
              rw [Target.arityAdapted_eq hLeft,
                Target.arityAdapted_eq hRight]
              exact .pure ht
          | node hSig hForm =>
              apply Agree.relying
              intro s s' hTwins
              apply Together.arityAdapted hChecking ht
              apply ht.delegates hTwins
              exact hForm.imp (fun _ _ => ht.alike.of_replaces)

end Entry

------------------------------------------------------------
-- Calls Come to the Same
------------------------------------------------------------

/-
  States that differ at most in what was made, kept and
  entered.
-/
structure State.Same (s s' : State) : Prop where
  heap_eq : s'.heap = s.heap
  sites_eq : s'.sites = s.sites
  calls_eq : hostEvents s'.trace = hostEvents s.trace

/- One result, or one failure, in states that are the same. -/
inductive Run.Same
    {α : Type} :
    EStateM.Result Halt State α →
      EStateM.Result Halt State α → Prop
| ok {a : α} {s s' : State} :
    s.Same s' →
    Same (.ok a s) (.ok a s')
| error {e : Halt} {s s' : State} :
    s.Same s' →
    Same (.error e s) (.error e s')

variable {c : Catalog}
variable {s : State}
variable {y : Site}
variable {e e' : Entry}

theorem hostEvents_hostEvents (es : List Event) :
    hostEvents (hostEvents es) = hostEvents es := by
  unfold hostEvents
  rw [List.filter_filter]
  simp

/- A state is a twin of itself. -/
theorem State.Sound.twins
    (hSound : s.Sound rt c) :
    Twins rt rt.memoizeAsType ⟨c, c, True⟩ s s where
  left := hSound
  right := hSound
  heap := .refl s.heap
  sites := by
    apply List.forall₂_same.2
    intro x _
    exact ⟨rfl, rfl, .refl x.target⟩
  trace := by
    apply List.forall₂_same.2
    intro e _
    cases e with
    | entered t args => exact .entered args (.refl t)
    | allocated n => exact .allocated n
    | called code args h => exact .called code args (.refl h)
  same := fun _ => ⟨rfl, rfl⟩

/- Outcomes that meet are the same if the host sees the same. -/
theorem Meets.run_same
    {α : Type}
    {r r' : EStateM.Result Halt State α}
    (hMeets : Meets rt b (fun _ a a' => a' = a) w r r')
    (hSame : w.same)
    (hSites : (Run.final r').sites = (Run.final r).sites) :
    Run.Same r r' := by
  have hState :
      ∀ {v z z'}, w ≤ v → Twins rt b v z z' →
        z'.sites = z.sites → State.Same z z' := by
    intro v z z' hLe hTwins hEq
    have hAre : v.same := by
      rw [hLe.2.2]
      exact hSame
    rcases hTwins.same hAre with ⟨hHeap, hTrace⟩
    exact ⟨hHeap, hEq, hTrace⟩
  cases hMeets with
  | ok hLe hTwins hEq =>
      cases hEq
      exact .ok (hState hLe hTwins hSites)
  | error hLe hTwins => exact .error (hState hLe hTwins hSites)

/- Entries make no difference. -/
theorem Run.Same.of_quiet
    {α : Type}
    {r r' : EStateM.Result Halt State α}
    (hSame : Run.Same (Run.quiet r) (Run.quiet r')) :
    Run.Same r r' := by
  have hState :
      ∀ {z z' : State}, z.quiet.Same z'.quiet → z.Same z' := by
    intro z z' hQuiet
    have hCalls :
        hostEvents (hostEvents z'.trace) =
          hostEvents (hostEvents z.trace) :=
      hQuiet.calls_eq
    rw [hostEvents_hostEvents, hostEvents_hostEvents] at hCalls
    exact ⟨hQuiet.heap_eq, hQuiet.sites_eq, hCalls⟩
  cases r with
  | ok a z =>
      cases r' with
      | ok a' z' =>
          cases hSame with
          | ok hQuiet => exact .ok (hState hQuiet)
      | error f z' => cases hSame
  | error f z =>
      cases r' with
      | ok a' z' => cases hSame
      | error f' z' =>
          cases hSame with
          | error hQuiet => exact .error (hState hQuiet)

/- Outcomes that meet but for entries are the same. -/
theorem Meets.same
    {r r' : EStateM.Result Halt State Value}
    (hMeets :
      Meets rt b (fun _ a a' => a' = a) w (Run.quiet r)
        (Run.quiet r'))
    (hSame : w.same)
    (hSites : (Run.final r').sites = (Run.final r).sites) :
    Run.Same r r' := by
  apply Run.Same.of_quiet
  apply hMeets.run_same hSame
  cases r with
  | _ =>
      cases r' with
      | _ => exact hSites

/- If one of two outcomes that meet is an end, so is the other. -/
theorem Meets.ended_iff
    {r r' : EStateM.Result Halt State Value}
    (hMeets : Meets rt b (fun _ a a' => a' = a) w r r') :
    Run.Ended r ↔ Run.Ended r' := by
  unfold Run.Ended
  cases hMeets with
  | _ => exact Iff.rfl

namespace Entry

/- At some depth the call comes to this end. -/
def ComesTo
    (rt : Runtime)
    (t : Target)
    (args : List Value)
    (s : State)
    (e : Entry)
    (r : EStateM.Result Halt State Value) : Prop :=
  Run.Ended r ∧ ∃ n, e.run rt n t args s = r

/-
  A call of a listed tree, and such a call of the tree with
  the current target of a site in place of the site.
-/
structure Replaced
    (rt : Runtime)
    (c : Catalog)
    (s : State)
    (i : SiteId)
    (y : Site)
    (args : List Value)
    (t u : Target)
    (e e' : Entry) : Prop where
  fits : c.Fits rt
  sound : s.Sound rt c
  site : s.site? i = some y
  made : t ∈ c.made
  made' : u ∈ c.made
  replaces : y.target.Replaces i t u
  like : e.Like e'
  fixed : e.Fixed i y.target t
  inLine : e.InLine t args
  inLine' : e'.InLine u args

/- The stubs of listed targets count their parameters. -/
theorem lists_counted
    (hChecking : rt.compile = .checking) :
    Vetting.counted.Lists rt := by
  intro c t args _ hValid ht hCount
  rw [Vetting.counted, (hValid.serves t ht).arity_eq hChecking]
  exact hCount

theorem mirrors_listed
    {d : Side}
    (hChecking : rt.compile = .checking)
    (hHost : rt.host.MakesNoTargets)
    (hFits : c.Fits rt)
    (hSound : s.Sound rt c)
    (hSite : s.site? i = some y)
    (ht : t ∈ c.made)
    (hInLine : e.InLine t args)
    (hEnough : Enough d n k) :
    Mirrors d (e.run rt n t args s)
      (e.runDirectly rt i y.target k t args s.quiet) :=
  e.mirrors hSite hEnough hInLine
    (allEntered hHost hChecking (lists_counted hChecking) hFits
      hSound ht hInLine)

/- A listed call comes to an end if a direct one does. -/
theorem comesTo_iff_directly
    (hChecking : rt.compile = .checking)
    (hHost : rt.host.MakesNoTargets)
    (hFits : c.Fits rt)
    (hSound : s.Sound rt c)
    (hSite : s.site? i = some y)
    (ht : t ∈ c.made)
    (hInLine : e.InLine t args) :
    (∃ r, e.ComesTo rt t args s r) ↔
      ∃ k,
        Run.Ended
          (e.runDirectly rt i y.target k t args s.quiet) := by
  constructor
  · rintro ⟨r, hEnded, n, rfl⟩
    have hMirrors :=
      mirrors_listed (d := .plain) hChecking hHost hFits hSound
        hSite ht hInLine (Nat.le_refl n) hEnded
    refine ⟨n, ?_⟩
    rw [hMirrors]
    exact (Run.ended_quiet _).2 hEnded
  · rintro ⟨k, hEnded⟩
    have hMirrors :=
      mirrors_listed (d := .direct) hChecking hHost hFits hSound
        hSite ht hInLine (Nat.le_refl (2 * k + 2)) hEnded
    rw [hMirrors] at hEnded
    exact ⟨_, (Run.ended_quiet _).1 hEnded, _, rfl⟩

namespace Replaced

variable (hReplaced : Replaced rt c s i y args t u e e')

include hReplaced

theorem meets
    (hChecking : rt.compile = .checking)
    (hHost : rt.host.MakesNoTargets)
    (k : Nat) :
    Meets rt rt.memoizeAsType (fun _ a a' => a' = a)
      ⟨c, c, True⟩
      (e.runDirectly rt i y.target k t args s.quiet)
      (e'.runDirectly rt i y.target k u args s.quiet) := by
  rcases hReplaced.sound.site i y hReplaced.site with ⟨_, hMade, _⟩
  have hKin :
      Kin (Replacing i y.target) ⟨c, c, True⟩ t u :=
    ⟨hReplaced.made, hReplaced.made',
      ⟨trivial, hMade, hMade, hReplaced.replaces⟩⟩
  have hQuiet : s.quiet.Sound rt c :=
    hReplaced.sound.withTrace (hostEvents s.trace)
  exact
    agree_directly hChecking hHost hReplaced.like hReplaced.fixed
      hKin _ _ hQuiet.twins

/- Ends of both calls are the same. -/
theorem same
    {r r' : EStateM.Result Halt State Value}
    (hChecking : rt.compile = .checking)
    (hHost : rt.host.MakesNoTargets)
    (hLeft : e.ComesTo rt t args s r)
    (hRight : e'.ComesTo rt u args s r') :
    Run.Same r r' := by
  rcases hLeft with ⟨hEnded, m, rfl⟩
  rcases hRight with ⟨hEnded', n, rfl⟩
  have hDirect :=
    mirrors_listed (d := .plain) (k := max m n) hChecking hHost
      hReplaced.fits hReplaced.sound hReplaced.site hReplaced.made
      hReplaced.inLine (Nat.le_max_left m n) hEnded
  have hDirect' :=
    mirrors_listed (d := .plain) (k := max m n) hChecking hHost
      hReplaced.fits hReplaced.sound hReplaced.site hReplaced.made'
      hReplaced.inLine' (Nat.le_max_right m n) hEnded'
  have hMeets := hReplaced.meets hChecking hHost (max m n)
  rw [hDirect, hDirect'] at hMeets
  apply hMeets.same trivial
  rw [e.sites_eq s, e'.sites_eq s]

/- The one call comes to an end if the other does. -/
theorem comesTo_iff
    (hChecking : rt.compile = .checking)
    (hHost : rt.host.MakesNoTargets) :
    (∃ r, e.ComesTo rt t args s r) ↔
      ∃ r, e'.ComesTo rt u args s r := by
  rw [comesTo_iff_directly hChecking hHost hReplaced.fits
      hReplaced.sound hReplaced.site hReplaced.made
      hReplaced.inLine,
    comesTo_iff_directly hChecking hHost hReplaced.fits
      hReplaced.sound hReplaced.site hReplaced.made'
      hReplaced.inLine']
  exact
    exists_congr
      (fun k => (hReplaced.meets hChecking hHost k).ended_iff)

end Replaced

end Entry

end Linkage
