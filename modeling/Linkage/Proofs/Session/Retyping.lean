import Linkage.Proofs.Caching.Retyping
import Linkage.Proofs.Invoke.Converted
import Linkage.Proofs.Session.Arity

/-
  Retypings in sessions.  A named target is asked for another
  signature, implicitly or explicitly, after any script, and
  so after any earlier retypings.  It succeeds if there is a
  plan, it fails with the first reason that there is none,
  and what it gives runs as the plan tells, whether it was
  remembered or made anew and whichever nodes it has.

  Key definitions include:
    * `Target.retypeAs`

  Key theorems include:
    * `State.Sound.retypeAs_cases`
    * `State.Sound.retypeAs_ok`
    * `State.Sound.of_asType`
    * `Session.retype_follows_plan`
-/

------------------------------------------------------------
-- Retyping at Either Strength
------------------------------------------------------------

namespace Linkage

/- A target as one of another signature, at a strength. -/
def Target.retypeAs
    (rt : Runtime)
    (t : Target)
    (sig : Signature) : Strength → Link Target
| .implicit => t.asType rt sig
| .explicit => t.explicitCast rt sig

theorem Target.retypeAs_self
    {rt : Runtime}
    {t : Target}
    {sig : Signature}
    (how : Strength)
    (hSame : t.signature = sig) :
    t.retypeAs rt sig how = pure t := by
  cases how with
  | implicit => exact if_pos hSame
  | explicit => exact if_pos hSame

/- An explicit cast is made along the plan, if there is one. -/
theorem Target.retypeAs_explicit
    {rt : Runtime}
    {t : Target}
    {sig : Signature}
    (s : State)
    (hNe : t.signature ≠ sig) :
    t.retypeAs rt sig .explicit s =
      match
        planSignature rt.classes sig t.signature .explicit
      with
      | .error e => .error (.signature e) s
      | .ok p => t.convert rt sig p s := by
  unfold Target.retypeAs Target.explicitCast
  rw [if_neg hNe]
  cases planSignature rt.classes sig t.signature .explicit with
  | error e => rfl
  | ok p => rfl

/-
  A retyping fails with the reason that there is no plan, and
  leaves the state; or there is a plan, and the target is
  converted along it.
-/
theorem State.Sound.retypeAs_cases
    {rt : Runtime}
    {c : Catalog}
    {s : State}
    {t : Target}
    (hSound : s.Sound rt c)
    (hChecking : rt.compile = .checking)
    (ht : t ∈ c.made)
    (how : Strength)
    (sig : Signature) :
    (∃ e,
      t.signature ≠ sig ∧
        planSignature rt.classes sig t.signature how = .error e ∧
        t.retypeAs rt sig how s = .error (.signature e) s) ∨
    ∃ p x d s',
      planSignature rt.classes sig t.signature how = .ok p ∧
        t.retypeAs rt sig how s = .ok x s' ∧
        State.Grown rt c s d s' ∧ x ∈ d.made ∧
        t.Converted sig p x := by
  by_cases hSame : t.signature = sig
  · right
    rw [Target.retypeAs_self how hSame]
    subst hSame
    exact
      ⟨_, t, c, s, planSignature_self _ _ _, rfl, .refl hSound, ht,
        t, .same rfl, .same rfl⟩
  · cases how with
    | implicit =>
        have hOutcome := hSound.asType_outcome hChecking ht hSame
        cases hPlan :
            planSignature rt.classes sig t.signature .implicit with
        | error e =>
            rw [hPlan] at hOutcome
            exact Or.inl ⟨e, hSame, rfl, hOutcome⟩
        | ok p =>
            rw [hPlan] at hOutcome
            rcases hOutcome with ⟨x, d, s', hOutcome⟩
            exact Or.inr ⟨p, x, d, s', rfl, hOutcome⟩
    | explicit =>
        rw [Target.retypeAs_explicit s hSame]
        cases planSignature rt.classes sig t.signature .explicit with
        | error e => exact Or.inl ⟨e, hSame, rfl, rfl⟩
        | ok p =>
            rcases hSound.convert_ok hChecking sig p ht with
              ⟨x, d, s', hOutcome⟩
            exact Or.inr ⟨p, x, d, s', rfl, hOutcome⟩

/- A target is retyped to a signature with a plan. -/
theorem State.Sound.retypeAs_ok
    {rt : Runtime}
    {c : Catalog}
    {s : State}
    {t : Target}
    {sig : Signature}
    {how : Strength}
    {p : Plan}
    (hSound : s.Sound rt c)
    (hChecking : rt.compile = .checking)
    (ht : t ∈ c.made)
    (hPlan :
      planSignature rt.classes sig t.signature how = .ok p) :
    ∃ x d s',
      t.retypeAs rt sig how s = .ok x s' ∧
        State.Grown rt c s d s' ∧ x ∈ d.made ∧
        t.Converted sig p x := by
  rcases hSound.retypeAs_cases hChecking ht how sig with
    ⟨_, _, hNone, _⟩ | ⟨q, x, d, s', hSome, hMade⟩
  · rw [hPlan] at hNone
    cases hNone
  · rw [hPlan] at hSome
    cases hSome
    exact ⟨x, d, s', hMade⟩

/- What a target was retyped to is converted along a plan. -/
theorem State.Sound.of_asType
    {rt : Runtime}
    {c : Catalog}
    {s s' : State}
    {t u : Target}
    {sig : Signature}
    (hSound : s.Sound rt c)
    (hChecking : rt.compile = .checking)
    (ht : t ∈ c.made)
    (hOk : t.asType rt sig s = .ok u s') :
    ∃ p d,
      planSignature rt.classes sig t.signature .implicit = .ok p ∧
        State.Grown rt c s d s' ∧ u ∈ d.made ∧
        t.Converted sig p u := by
  rcases hSound.retypeAs_cases hChecking ht .implicit sig with
    ⟨_, _, _, hRun⟩ | ⟨p, x, d, r, hPlan, hRun, hMade⟩
  · change t.asType rt sig s = _ at hRun
    rw [hOk] at hRun
    cases hRun
  · change t.asType rt sig s = _ at hRun
    rw [hOk] at hRun
    cases hRun
    exact ⟨p, d, hPlan, hMade⟩

------------------------------------------------------------
-- Retypings of Named Targets
------------------------------------------------------------

namespace Session

/-
  A retyping of a named target follows a plan, or tells why
  there is none.  With the checking compiler no stub is
  missing.
-/
theorem retype_follows_plan
    {s : Session}
    {t : Target}
    (hFresh : s.IsFresh)
    (hChecking : s.context.runtime.compile = .checking)
    (hHost : s.context.runtime.host.MakesNoTargets)
    (xs : List Step)
    (hNamed : (s.after xs).context.Names t)
    (how : Strength)
    (sig : Signature) :
    let rt := s.context.runtime
    let s₀ := (s.after xs).state
    ((∃ u s', t.retypeAs rt sig how s₀ = .ok u s') ↔
      t.signature = sig ∨
        sig.Convertible rt.classes how t.signature) ∧
    (∀ e s',
      t.retypeAs rt sig how s₀ = .error e s' ↔
        s' = s₀ ∧ t.signature ≠ sig ∧
          ∃ err,
            e = .signature err ∧
              sig.Clash rt.classes how t.signature err) ∧
    ∀ u s',
      t.retypeAs rt sig how s₀ = .ok u s' →
        u.signature = sig ∧
          ∃ (p : Plan) (w : Target.Wrapping),
            p.Converts rt.classes how sig t.signature ∧
              w.depth ≤ 2 ∧ u.Above w.depth t ∧
              ∀ n args,
                Target.admits rt.classes sig args = true →
                  u.invokeExact rt (Target.enter rt (n + w.depth))
                      args =
                    t.followPlan rt p w (Target.enter rt n)
                      args := by
  intro rt s₀
  rcases listed_after hFresh hHost xs with ⟨c, hKnown, hNames⟩
  rw [runtime_after] at hKnown
  rcases
    hKnown.sound.retypeAs_cases hChecking (hNames t hNamed) how sig
    with
    ⟨err, hNe, hPlan, hRun⟩ |
      ⟨p, x, d, s'', hPlan, hRun, hGrown, hx, hConverted⟩
  · change t.retypeAs rt sig how s₀ = _ at hRun
    have hClash := planSignature_eq_error_iff.1 hPlan
    rw [hRun]
    refine ⟨⟨nofun, ?_⟩, ?_, nofun⟩
    · rintro (hEq | hConvertible)
      · exact absurd hEq hNe
      · rcases exists_plan_iff.2 hConvertible with ⟨p, hp⟩
        rw [hp] at hPlan
        cases hPlan
    · intro e s'
      constructor
      · intro hError
        cases hError
        exact ⟨rfl, hNe, err, rfl, hClash⟩
      · rintro ⟨rfl, _, err', rfl, hClash'⟩
        rw [planSignature_eq_error_iff.2 hClash'] at hPlan
        cases hPlan
        rfl
  · change t.retypeAs rt sig how s₀ = _ at hRun
    rw [hRun]
    refine ⟨⟨?_, fun _ => ⟨x, s'', rfl⟩⟩, ?_, ?_⟩
    · intro _
      exact Or.inr (exists_plan_iff.1 ⟨p, hPlan⟩)
    · intro e s'
      refine ⟨nofun, ?_⟩
      rintro ⟨_, _, err, _, hClash⟩
      rw [planSignature_eq_error_iff.2 hClash] at hPlan
      cases hPlan
    · intro u s' hOk
      cases hOk
      rcases
        hConverted.follows hGrown.sound.valid hChecking hx hPlan
        with ⟨w, hAbove, hFollows⟩
      exact
        ⟨hConverted.signature_eq, p, w,
          planSignature_eq_ok_iff.1 hPlan, w.depth_le, hAbove,
          hFollows⟩

/- A target of integers, which was retyped before. -/
def widened : List Step :=
  [.make (.identity .int) (some "same"),
   .make (.asType "same" ⟨[.int], .prim .long⟩) none]

/- A box in, and a wide integer out. -/
def unboxing : Signature :=
  ⟨[.cls Kind.int.box], .prim .long, ⟨by decide, by decide⟩⟩

/- A text in place of the integer. -/
def worded : Signature :=
  ⟨[.string], .int, ⟨by decide, by decide⟩⟩

/-
  Unboxing before the target and widening after it are
  planned; a text is refused for its parameter.
-/
theorem retype_follows_plan_widened :
    let rt := plain.context.runtime
    let s₀ := (plain.after widened).state
    ∃ t,
      (plain.after widened).context.Names t ∧
        (∃ u s' p w,
          t.retypeAs rt unboxing .implicit s₀ = .ok u s' ∧
            u.signature = unboxing ∧ w.depth ≤ 2 ∧
            ∀ n,
              u.invokeExact rt (Target.enter rt (n + w.depth))
                  [.null] =
                t.followPlan rt p w (Target.enter rt n) [.null]) ∧
        t.retypeAs rt worded .implicit s₀ =
          .error (.signature (.mismatch (some 0) .string .int))
            s₀ := by
  intro rt s₀
  have hLast :
      (plain.after widened).context.names.targets.head?.map
          (fun p => (p.1, p.2.signature)) =
        some ("same", ⟨[.int], .int, ⟨by decide, by decide⟩⟩) := by
    decide +kernel
  rcases Option.map_eq_some_iff.1 hLast with ⟨⟨n, t⟩, hHead, hEq⟩
  have hNamed : (plain.after widened).context.Names t :=
    ⟨n, List.mem_of_head? hHead⟩
  have hSig : t.signature = ⟨[.int], .int, ⟨by decide, by decide⟩⟩ :=
    congrArg Prod.snd hEq
  have hHost := World.host_makesNoTargets (.initial .empty)
  have hPlanned :=
    retype_follows_plan plain_isFresh rfl hHost widened hNamed
      .implicit unboxing
  have hRefused :=
    retype_follows_plan plain_isFresh rfl hHost widened hNamed
      .implicit worded
  have hConvertible :
      unboxing.Convertible rt.classes .implicit t.signature := by
    rw [hSig]
    refine ⟨rfl, ?_, _, rfl⟩
    exact ParamsConvert.cons_iff.2 ⟨⟨_, rfl⟩, .nil⟩
  have hClash :
      worded.Clash rt.classes .implicit t.signature
        (.mismatch (some 0) .string .int) := by
    rw [hSig]
    exact
      .param 0 .string .int rfl rfl rfl (Ty.not_convertsTo.2 rfl)
        .nil
  have hNe : t.signature ≠ worded := by
    rw [hSig]
    decide
  refine ⟨t, hNamed, ?_, ?_⟩
  · rcases hPlanned.1.2 (Or.inr hConvertible) with ⟨u, s', hOk⟩
    rcases hPlanned.2.2 u s' hOk with
      ⟨hSame, p, w, _, hDepth, _, hFollows⟩
    exact
      ⟨u, s', p, w, hOk, hSame, hDepth,
        fun n => hFollows n [.null] rfl⟩
  · exact (hRefused.2.1 _ _).2 ⟨rfl, hNe, _, rfl, hClash⟩

end Session

end Linkage
