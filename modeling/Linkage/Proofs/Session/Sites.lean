import Linkage.Proofs.Invoke.Replaced
import Linkage.Proofs.Link.Results
import Linkage.Proofs.Session.Arity

/-
  Call sites in sessions.  A call site keeps its policy and
  its signature, and a constant one its target; its target is
  always of its signature, and others are refused.  A tree
  that was made over the site at any time does what the tree
  does in which the current target is in its place.

  Key definitions include:
    * `Site.Becomes`
    * `Session.RefusesTargets`
    * `Session.CallsThrough`

  Key theorems include:
    * `Session.setTarget_eq`
    * `Session.Listed.site_step`
    * `Session.Listed.site_after`
    * `Session.call_sites_transparent`
-/

------------------------------------------------------------
-- Setting Targets
------------------------------------------------------------

namespace Linkage

variable {c d : Catalog}
variable {i : SiteId}
variable {t u : Target}
variable {x y z : Site}

/- What a named call site is. -/
theorem Context.siteState_eq
    (c : Context)
    (n : String)
    (s : State) :
    c.siteState n s =
      match Names.get c.names.sites n with
      | .error e => .error e s
      | .ok i =>
          match s.site? i with
          | none => .error (.unbound n) s
          | some y => .ok (i, y) s := by
  unfold siteState
  cases hSite : Names.get c.names.sites n with
  | error e =>
      apply Run.bind_error
      unfold Context.site
      rw [hSite]
      rfl
  | ok i =>
      have hFirst : c.site n s = .ok i s := by
        unfold Context.site
        rw [hSite]
        rfl
      rw [Run.bind_ok hFirst, Run.get_bind]
      dsimp only
      cases s.site? i with
      | none => rfl
      | some y => rfl

namespace Session

/-
  A named call site takes a named target if it accepts it;
  otherwise the step fails, and all is as before.
-/
theorem setTarget_eq
    {c : Context}
    {site n : String}
    {s : State}
    (hSite : Names.get c.names.sites site = .ok i)
    (hState : s.site? i = some y)
    (hTarget : Names.get c.names.targets n = .ok t) :
    stepping c (.setTarget site n) s =
      match y.accepts t with
      | .error e => .error (.link e) s
      | .ok () =>
          .ok (.done, c.names)
            { s with
              sites :=
                s.sites.setIfInBounds i.index
                  { y with target := t } } := by
  have hFirst : c.siteState site s = .ok (i, y) s := by
    rw [Context.siteState_eq, hSite]
    dsimp only
    rw [hState]
  have hSecond : c.target n s = .ok t s := by
    unfold Context.target
    rw [hTarget]
    rfl
  unfold stepping
  dsimp only
  rw [Run.bind_ok hFirst]
  dsimp only
  rw [Run.bind_ok hSecond]
  change EStateM.bind (Script.ofLink (Site.setTarget i y t)) _ s = _
  unfold EStateM.bind Script.ofLink Site.setTarget
  cases y.accepts t with
  | error e => rfl
  | ok _ => rfl

/- A target is set, or nothing is. -/
theorem setTarget_cases
    (c : Context)
    (site n : String)
    (s : State) :
    (∃ e, stepping c (.setTarget site n) s = .error e s) ∨
      ∃ i y t,
        s.site? i = some y ∧ y.accepts t = .ok () ∧
          stepping c (.setTarget site n) s =
            .ok (.done, c.names)
              { s with
                sites :=
                  s.sites.setIfInBounds i.index
                    { y with target := t } } := by
  have hFirst := c.siteState_eq site s
  cases hSite : Names.get c.names.sites site with
  | error e =>
      rw [hSite] at hFirst
      exact Or.inl ⟨e, Run.bind_error hFirst _⟩
  | ok i =>
      rw [hSite] at hFirst
      dsimp only at hFirst
      cases hState : s.site? i with
      | none =>
          rw [hState] at hFirst
          exact Or.inl ⟨.unbound site, Run.bind_error hFirst _⟩
      | some y =>
          rw [hState] at hFirst
          cases hTarget : Names.get c.names.targets n with
          | error e =>
              refine Or.inl ⟨e, ?_⟩
              unfold stepping
              dsimp only
              rw [Run.bind_ok hFirst]
              apply Run.bind_error
              unfold Context.target
              rw [hTarget]
              rfl
          | ok t =>
              have hRun := setTarget_eq hSite hState hTarget
              cases hAccepts : y.accepts t with
              | error e =>
                  rw [hAccepts] at hRun
                  exact Or.inl ⟨.link e, hRun⟩
              | ok _ =>
                  rw [hAccepts] at hRun
                  exact Or.inr ⟨i, y, t, hState, hAccepts, hRun⟩

end Session

------------------------------------------------------------
-- What Becomes of Call Sites
------------------------------------------------------------

/-
  What a call site may become: it keeps its policy and its
  signature, and its target if it is constant.
-/
structure Site.Becomes (y z : Site) : Prop where
  policy_eq : z.policy = y.policy
  signature_eq : z.signature = y.signature
  target_eq : y.policy = .constant → z.target = y.target

namespace Site.Becomes

theorem refl (y : Site) :
    y.Becomes y :=
  ⟨rfl, rfl, fun _ => rfl⟩

theorem trans
    (hFirst : x.Becomes y)
    (hSecond : y.Becomes z) :
    x.Becomes z where
  policy_eq := hSecond.policy_eq.trans hFirst.policy_eq
  signature_eq := hSecond.signature_eq.trans hFirst.signature_eq
  target_eq := by
    intro hConstant
    have hLater : y.policy = .constant :=
      hFirst.policy_eq.trans hConstant
    exact
      (hSecond.target_eq hLater).trans (hFirst.target_eq hConstant)

/- A target that is accepted. -/
theorem of_accepts
    (hAccepts : y.accepts t = .ok ()) :
    y.Becomes { y with target := t } where
  policy_eq := rfl
  signature_eq := rfl
  target_eq := by
    intro hConstant
    unfold accepts at hAccepts
    rw [if_pos hConstant] at hAccepts
    cases hAccepts

end Site.Becomes

/- The call sites among these are still there. -/
def SitesFrom
    (xs ys : Array Site) : Prop :=
  ∀ (i : Nat) (y : Site), xs[i]? = some y → ys[i]? = some y

theorem sitesFrom_allowsSites
    (xs : Array Site) :
    (OfSites (SitesFrom xs)).AllowsSites := by
  intro h ys es x hFrom i y hy
  have hOld := hFrom i y hy
  rw [Array.getElem?_push]
  split
  · rename_i hi
    rw [hi] at hOld
    rw [Array.getElem?_size] at hOld
    cases hOld
  · exact hOld

namespace Session

variable {s : Session}

theorem step_state
    (s : Session)
    (x : Step) :
    (s.step x).2.state =
      Run.final
        (stepping s.context x
          { s.state with trace := [], held := s.roots }) := by
  unfold step
  dsimp only
  split
  · rename_i hRun
    rw [hRun]
    rfl
  · rename_i hRun
    rw [hRun]
    rfl

/- After each step a call site is what it may become. -/
theorem Listed.site_step
    (hHost : s.context.runtime.host.MakesNoTargets)
    (hListed : s.Listed c)
    (hSite : s.state.site? i = some y)
    (x : Step) :
    ∃ z, (s.step x).2.state.site? i = some z ∧ y.Becomes z := by
  rw [step_state]
  by_cases hSet : ∃ site n, x = .setTarget site n
  · rcases hSet with ⟨site, n, rfl⟩
    rcases
        setTarget_cases s.context site n
          { s.state with trace := [], held := s.roots } with
      ⟨e, hRun⟩ | ⟨j, w, t, hState, hAccepts, hRun⟩
    · rw [hRun]
      exact ⟨y, hSite, .refl y⟩
    · rw [hRun]
      change
        ∃ z,
          (s.state.sites.setIfInBounds j.index
              { w with target := t })[i.index]? = some z ∧ _
      rw [Array.getElem?_setIfInBounds]
      split
      · rename_i hSame
        have hEq : w = y := by
          have hThere : s.state.sites[j.index]? = some w := hState
          rw [hSame] at hThere
          exact Option.some.inj (hThere.symm.trans hSite)
        subst hEq
        have hThere : s.state.sites[i.index]? = some w := hSite
        rcases Array.getElem?_eq_some_iff.1 hThere with ⟨hLt, _⟩
        rw [hSame, if_pos hLt]
        exact ⟨_, rfl, .of_accepts hAccepts⟩
      · exact ⟨y, hSite, .refl y⟩
  · have hBefore :=
      hListed.before (G := SitesFrom s.state.sites)
        (fun _ _ h => h)
    have hLeaves :=
      Lists.stepping hHost (sitesFrom_allowsSites _) x
        (fun site n hEq => absurd ⟨site, n, hEq⟩ hSet)
        hListed.names _ hBefore
    cases hRun :
        stepping s.context x
          { s.state with trace := [], held := s.roots } with
    | ok a t =>
        rw [hRun] at hLeaves
        rcases hLeaves with ⟨_, _, hKnown, _⟩
        exact ⟨y, hKnown.around _ _ hSite, .refl y⟩
    | error e t =>
        rw [hRun] at hLeaves
        rcases hLeaves with ⟨_, _, hKnown, _⟩
        exact ⟨y, hKnown.around _ _ hSite, .refl y⟩

theorem Listed.site_after
    (hHost : s.context.runtime.host.MakesNoTargets)
    (hListed : s.Listed c)
    (hSite : s.state.site? i = some y)
    (xs : List Step) :
    ∃ z, (s.after xs).state.site? i = some z ∧ y.Becomes z := by
  induction xs generalizing s c y with
  | nil => exact ⟨y, hSite, .refl y⟩
  | cons x xs ih =>
      rcases hListed.step hHost x with ⟨d, _, hStep⟩
      rcases hListed.site_step hHost hSite x with ⟨z, hz, hFirst⟩
      have hHost' :
          (s.step x).2.context.runtime.host.MakesNoTargets := by
        rw [runtime_step]
        exact hHost
      rcases ih hHost' hStep hz with ⟨w, hw, hRest⟩
      exact ⟨w, hw, hFirst.trans hRest⟩

end Session

------------------------------------------------------------
-- Call Sites and Their Targets
------------------------------------------------------------

/-
  The dynamic invoker that was made of a call site stands for
  the target that the site has by now.
-/
theorem Site.dynamicInvoker_replaces
    {rt : Runtime}
    {r r' : State}
    (hBecomes : y.Becomes z)
    (hSig : z.target.signature = z.signature)
    (hMade : y.dynamicInvoker rt i r = .ok t r') :
    z.target.Replaces i t z.target := by
  unfold dynamicInvoker at hMade
  split at hMade
  · rename_i hConstant
    cases hMade
    rw [hBecomes.target_eq hConstant]
    exact (Target.Alike.refl y.target).replaces
  · rcases Target.build_yields rt _ _ r t r' hMade with
      ⟨hSame, hForm⟩
    apply Target.Replaces.site hForm _ (.refl z.target)
    rw [hSame, hSig, hBecomes.signature_eq]

namespace Session

variable {s : Session}

/-
  A target that a call site does not take is refused: none if
  the site is constant, and else none of its signature.  Then
  all targets stay.
-/
def RefusesTargets
    (s : Session)
    (i : SiteId)
    (y : Site) : Prop :=
  ∀ site n t,
    Names.get s.context.names.sites site = .ok i →
      Names.get s.context.names.targets n = .ok t →
        y.policy = .constant ∨ t.signature ≠ y.signature →
          (∃ e,
            (s.step (.setTarget site n)).1 = .failed (.link e)) ∧
            (s.step (.setTarget site n)).2.state.sites =
              s.state.sites

/-
  Calls of a tree come to what calls of the tree come to in
  which the current target is in place of the call site: they
  come to an end or do not, and their ends are the same.
-/
def CallsThrough
    (s : Session)
    (i : SiteId)
    (y : Site) : Prop :=
  ∀ t u args e e' held,
    s.context.Names t → s.context.Names u →
      y.target.Replaces i t u → Entry.Like e e' →
        e.Fixed i y.target t → e.InLine t args →
          e'.InLine u args →
            let now := { s.state with trace := [], held := held }
            let rt := s.context.runtime
            ((∃ r, e.ComesTo rt t args now r) ↔
                ∃ r, e'.ComesTo rt u args now r) ∧
              ∀ r r',
                e.ComesTo rt t args now r →
                  e'.ComesTo rt u args now r' → Run.Same r r'

theorem refusesTargets
    (hSite : s.state.site? i = some y) :
    s.RefusesTargets i y := by
  intro site n t hNamed hTarget hRefuse
  have hError : ∃ e, y.accepts t = .error e := by
    unfold Site.accepts
    split
    · exact ⟨_, rfl⟩
    · rename_i hOther
      rcases hRefuse with hConstant | hDiffers
      · exact absurd hConstant hOther
      · rw [if_pos hDiffers]
        exact ⟨_, rfl⟩
  rcases hError with ⟨e, hAccepts⟩
  have hRun :=
    setTarget_eq
      (s := { s.state with trace := [], held := s.roots })
      hNamed hSite hTarget
  rw [hAccepts] at hRun
  unfold step
  dsimp only
  rw [hRun]
  exact ⟨⟨e, rfl⟩, rfl⟩

theorem Listed.callsThrough
    (hChecking : s.context.runtime.compile = .checking)
    (hHost : s.context.runtime.host.MakesNoTargets)
    (hListed : s.Listed c)
    (hSite : s.state.site? i = some y) :
    s.CallsThrough i y := by
  intro t u args e e' held ht hu hReplaces hLike hFixed hInLine
    hInLine'
  have hReplaced :
      Entry.Replaced s.context.runtime c
        { s.state with trace := [], held := held } i y args t u e
        e' :=
    { fits := hListed.known.fits
      sound := (hListed.known.sound.withTrace []).withHeld held
      site := hSite
      made := hListed.names t ht
      made' := hListed.names u hu
      replaces := hReplaces
      like := hLike
      fixed := hFixed
      inLine := hInLine
      inLine' := hInLine' }
  refine ⟨hReplaced.comesTo_iff hChecking hHost, ?_⟩
  intro r r' hLeft hRight
  exact hReplaced.same hChecking hHost hLeft hRight

/-
  However a session goes on, a call site has a target of its
  signature, refuses others, and keeps its target if it is
  constant; and trees over its dynamic invoker, whenever they
  were made, do what they do with its current target.
-/
theorem call_sites_transparent
    (hFresh : s.IsFresh)
    (hChecking : s.context.runtime.compile = .checking)
    (hHost : s.context.runtime.host.MakesNoTargets)
    (xs ys : List Step)
    (hSite : (s.after xs).state.site? i = some y) :
    ∃ z,
      ((s.after xs).after ys).state.site? i = some z ∧
        y.Becomes z ∧
        z.target.signature = y.signature ∧
        ((s.after xs).after ys).RefusesTargets i z ∧
        (∀ r r' t,
          y.dynamicInvoker s.context.runtime i r = .ok t r' →
            z.target.Replaces i t z.target) ∧
        ((s.after xs).after ys).CallsThrough i z := by
  rcases listed_after hFresh hHost xs with ⟨c, hListed⟩
  have hHost' :
      (s.after xs).context.runtime.host.MakesNoTargets := by
    rw [runtime_after]
    exact hHost
  rcases hListed.site_after hHost' hSite ys with
    ⟨z, hz, hBecomes⟩
  rcases hListed.after hHost' ys with ⟨d, _, hLater⟩
  have hRuntime :
      ((s.after xs).after ys).context.runtime =
        s.context.runtime := by
    rw [runtime_after, runtime_after]
  rcases hLater.known.sound.site i z hz with ⟨_, _, hSig⟩
  refine
    ⟨z, hz, hBecomes, hSig.trans hBecomes.signature_eq,
      refusesTargets hz, ?_, ?_⟩
  · intro r r' t hMade
    exact Site.dynamicInvoker_replaces hBecomes hSig hMade
  · apply hLater.callsThrough _ _ hz
    · rw [hRuntime]
      exact hChecking
    · rw [hRuntime]
      exact hHost

/- The number of a node tells it from all that were made. -/
theorem Listed.eq_of_id
    (hListed : s.Listed c)
    (ht : t ∈ c.made)
    (hu : u ∈ c.made)
    (hId : t.id = u.id) :
    t = u := by
  have hValid := hListed.known.sound.valid
  have hFirst := hValid.getElem?_id ht
  rw [hId, hValid.getElem?_id hu] at hFirst
  exact (Option.some.inj hFirst).symm

/- A call gives this value. -/
def Gives
    (s : Session)
    (w : Way)
    (t : Target)
    (args : List Value)
    (a : Value) : Prop :=
  ∃ r,
    (Entry.way w).ComesTo s.context.runtime t args
      { s.state with trace := [] } (.ok a r)

/- A check of a call site and of two named targets. -/
def checks
    (s : Session)
    (i : SiteId)
    (m n : String)
    (p : Site → Target → Target → Bool) : Bool :=
  match
    s.state.site? i, s.context.names.targets.lookup m,
      s.context.names.targets.lookup n with
  | some y, some t, some u => p y t u
  | _, _, _ => false

theorem names_of_lookup
    {x : Context}
    {n : String}
    (hLookup : x.names.targets.lookup n = some t) :
    x.Names t := by
  rcases List.lookup_eq_some_iff.1 hLookup with ⟨_, _, hEq, _⟩
  refine ⟨n, ?_⟩
  rw [hEq]
  simp

theorem exists_of_checks
    {m n : String}
    {p : Site → Target → Target → Bool}
    (hChecks : s.checks i m n p = true) :
    ∃ y t u,
      s.state.site? i = some y ∧ s.context.Names t ∧
        s.context.Names u ∧ p y t u = true := by
  unfold checks at hChecks
  split at hChecks
  · rename_i y t u hSite hFirst hSecond
    exact
      ⟨y, t, u, hSite, names_of_lookup hFirst,
        names_of_lookup hSecond, hChecks⟩
  · cases hChecks

/- The result of a call site is widened. -/
def widening : List Step :=
  [.make (.constant .int (.prim (.int 3))) (some "three"),
   .make (.dropArguments "three" 0 [.int]) (some "const"),
   .make (.identity .int) (some "same"),
   .makeSite .mutable (.linked "const") (some "site"),
   .make (.dynamicInvoker "site") (some "calls"),
   .make (.asType "calls" ⟨[.int], .prim .long⟩) (some "wide")]

/- Another target is set, and its result is widened. -/
def retargeting : List Step :=
  [.setTarget "site" "same",
   .make (.siteTarget "site") (some "now"),
   .make (.asType "now" ⟨[.int], .prim .long⟩) (some "instead")]

/-
  Whether two targets widen the results of a call site, and of
  a given target.
-/
def standsIn
    (i : SiteId)
    (x t u : Target) : Bool :=
  match t.form, u.form with
  | .convertReturn l k, .convertReturn z m =>
      l.isSite i && l.signature = x.signature && z.id = x.id &&
        m = k && u.signature = t.signature
  | _, _ => false

theorem Listed.standsIn_replaces
    {x : Target}
    (hListed : s.Listed c)
    (hx : x ∈ c.made)
    (hu : u ∈ c.made)
    (hStands : standsIn i x t u = true) :
    x.Replaces i t u := by
  have hClosed := hListed.known.sound.valid.closed u hu
  unfold standsIn at hStands
  split at hStands
  · rename_i l k z m hForm hForm'
    simp only [Bool.and_eq_true, decide_eq_true_eq] at hStands
    rcases hStands with ⟨⟨⟨⟨hIs, hSig⟩, hId⟩, hSame⟩, hWhole⟩
    have hz : z ∈ c.made := by
      apply hClosed
      unfold Target.wrapped
      rw [hForm']
      exact List.mem_cons_self
    have hEq : z = x := hListed.eq_of_id hz hx hId
    subst hEq hSame
    apply Target.Replaces.node hWhole
    rw [hForm, hForm']
    exact
      .convertReturn m
        (.site (Target.isSite_iff.1 hIs) hSig (.refl z))
  · cases hStands

/- Whether a run gives seven, as a wide number. -/
def isSeven : EStateM.Result Halt State Value → Bool
| .ok a _ => a = .prim (.long 7)
| .error _ _ => false

theorem exists_of_isSeven
    {r : EStateM.Result Halt State Value}
    (hSeven : isSeven r = true) :
    ∃ s, r = .ok (.prim (.long 7)) s := by
  unfold isSeven at hSeven
  split at hSeven
  · rename_i a t
    rw [of_decide_eq_true hSeven]
    exact ⟨t, rfl⟩
  · cases hSeven

/- The session after both. -/
def retargeted : Session :=
  (plain.after widening).after retargeting

/-
  The tree over the site was made while the site had another
  target; it gives what the tree over the new target gives.
-/
theorem call_sites_transparent_widened :
    ∃ (y z : Site) (t u : Target),
      (plain.after widening).state.site? ⟨0⟩ = some y ∧
        retargeted.state.site? ⟨0⟩ = some z ∧
        y.target ≠ z.target ∧
        retargeted.context.Names t ∧
        retargeted.context.Names u ∧
        z.target.Replaces ⟨0⟩ t u ∧
        retargeted.Gives .exact t [.prim (.int 7)]
          (.prim (.long 7)) ∧
        retargeted.Gives .exact u [.prim (.int 7)]
          (.prim (.long 7)) := by
  have hBefore :
      ((plain.after widening).state.site? ⟨0⟩).map
          (fun y => y.target.id) =
        some 1 := by
    decide +kernel
  have hAfter :
      retargeted.checks ⟨0⟩ "wide" "instead"
          (fun z t u =>
            z.target.id = 2 && standsIn ⟨0⟩ z.target t u &&
              isSeven
                ((Entry.way .exact).run retargeted.context.runtime
                  9 t [.prim (.int 7)]
                  { retargeted.state with trace := [] })) =
        true := by
    decide +kernel
  rcases Option.map_eq_some_iff.1 hBefore with ⟨y, hy, hId⟩
  rcases exists_of_checks hAfter with
    ⟨z, t, u, hz, ht, hu, hChecks⟩
  simp only [Bool.and_eq_true, decide_eq_true_eq] at hChecks
  rcases hChecks with ⟨⟨hId', hStands⟩, hSeven⟩
  have hHost := World.host_makesNoTargets (.initial .empty)
  have hReplaces : z.target.Replaces ⟨0⟩ t u := by
    rcases listed_after plain_isFresh hHost widening with
      ⟨c, hListed⟩
    have hHost' :
        (plain.after
          widening).context.runtime.host.MakesNoTargets := by
      rw [runtime_after]
      exact hHost
    rcases hListed.after hHost' retargeting with ⟨d, _, hLater⟩
    rcases hLater.known.sound.site _ z hz with ⟨_, hMade, _⟩
    exact hLater.standsIn_replaces hMade (hLater.names u hu) hStands
  have hGives :
      retargeted.Gives .exact t [.prim (.int 7)]
        (.prim (.long 7)) := by
    rcases exists_of_isSeven hSeven with ⟨r, hRun⟩
    exact ⟨r, nofun, 9, hRun⟩
  rcases
      call_sites_transparent plain_isFresh rfl hHost widening
        retargeting hy with
    ⟨z', hz', _, _, _, _, hCalls⟩
  have hSame : z' = z := Option.some.inj (hz'.symm.trans hz)
  subst hSame
  rcases
      hCalls t u [.prim (.int 7)] (.way .exact) (.way .exact)
        retargeted.state.held ht hu hReplaces (.way .exact) trivial
        trivial trivial with
    ⟨hEnds, hAlike⟩
  refine
    ⟨y, z', t, u, hy, hz, ?_, ht, hu, hReplaces, hGives, ?_⟩
  · intro hEq
    rw [hEq, hId'] at hId
    cases hId
  · rcases hGives with ⟨r, hGives⟩
    rcases hEnds.1 ⟨_, hGives⟩ with ⟨r', hRight⟩
    cases hAlike _ _ hGives hRight with
    | @ok _ _ q hState => exact ⟨q, hRight⟩

/- The target of a call site collects trailing arguments. -/
def collecting : List Step :=
  [.make (.identity (.array .int)) (some "same"),
   .make (.asVarargsCollector "same" (.array .int)) (some "all"),
   .makeSite .mutable (.linked "all") (some "site"),
   .make (.dynamicInvoker "site") (some "calls"),
   .make (.siteTarget "site") (some "now")]

/- Whether a run gives a value, or fails with a fault. -/
def isValue : EStateM.Result Halt State Value → Option Bool
| .ok _ _ => some true
| .error (.fault _) _ => some false
| .error _ _ => none

theorem ended_of_isValue
    {r : EStateM.Result Halt State Value}
    {b : Bool}
    (hValue : isValue r = some b) :
    Run.Ended r := by
  intro hHalt
  unfold isValue at hValue
  split at hValue
  · cases hHalt
  · cases hHalt
  · cases hValue

theorem isValue_eq
    {r r' : EStateM.Result Halt State Value}
    (hSame : Run.Same r r') :
    isValue r' = isValue r := by
  cases hSame with
  | ok _ => rfl
  | @error e _ _ _ =>
      cases e with
      | _ => rfl

/-
  A call with no arguments has them collected by the target of
  the site, but not by the dynamic invoker.
-/
theorem call_sites_transparent_varargs :
    ∃ (z : Site) (t u : Target) (r r' : _),
      (plain.after collecting).state.site? ⟨0⟩ = some z ∧
        (plain.after collecting).context.Names t ∧
        (plain.after collecting).context.Names u ∧
        z.target.Replaces ⟨0⟩ t u ∧
        (Entry.way .flexible).ComesTo plain.context.runtime t []
          { (plain.after collecting).state with trace := [] } r ∧
        (Entry.way .flexible).ComesTo plain.context.runtime u []
          { (plain.after collecting).state with trace := [] } r' ∧
        isValue r = some false ∧
        isValue r' = some true ∧
        ¬Run.Same r r' := by
  have hCheck :
      (plain.after collecting).checks ⟨0⟩ "calls" "now"
          (fun z t u =>
            t.isSite ⟨0⟩ && t.signature = z.target.signature &&
              z.target.id = u.id &&
              isValue
                  ((Entry.way .flexible).run plain.context.runtime
                    9 t []
                    { (plain.after collecting).state with
                      trace := [] }) =
                some false &&
              isValue
                  ((Entry.way .flexible).run plain.context.runtime
                    9 u []
                    { (plain.after collecting).state with
                      trace := [] }) =
                some true) =
        true := by
    decide +kernel
  rcases exists_of_checks hCheck with
    ⟨z, t, u, hz, ht, hu, hChecks⟩
  simp only [Bool.and_eq_true, decide_eq_true_eq] at hChecks
  rcases hChecks with ⟨⟨⟨⟨hIs, hSig⟩, hId⟩, hLeft⟩, hRight⟩
  have hReplaces : z.target.Replaces ⟨0⟩ t u := by
    have hHost := World.host_makesNoTargets (.initial .empty)
    rcases listed_after plain_isFresh hHost collecting with
      ⟨c, hListed⟩
    rcases hListed.known.sound.site _ z hz with ⟨_, hMade, _⟩
    rw [← hListed.eq_of_id hMade (hListed.names u hu) hId]
    exact .site (Target.isSite_iff.1 hIs) hSig (.refl z.target)
  refine
    ⟨z, t, u, _, _, hz, ht, hu, hReplaces,
      ⟨ended_of_isValue hLeft, 9, rfl⟩,
      ⟨ended_of_isValue hRight, 9, rfl⟩, hLeft, hRight, ?_⟩
  intro hSame
  have hEq := isValue_eq hSame
  rw [hLeft, hRight] at hEq
  cases hEq

end Session

end Linkage
