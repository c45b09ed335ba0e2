import Linkage.Proofs.Link.Results
import Linkage.World

/-
  Filters of arguments.  The parameters are replaced from the
  left to the right, and after each of them the list so far
  must fit the slots of a signature.  So filters that narrow
  make no room for those before them: they are accepted if
  each one feeds its parameter and the lists of all their
  prefixes fit, and the last list is the one that is made.

  Key definitions include:
    * `Target.source`
    * `filteredParams`
    * `Feeds`
    * `PrefixesFit`

  Key theorems include:
    * `Target.filteredSignature_outcome`
    * `Target.filterArguments_accepts`
-/

------------------------------------------------------------
-- Filtered Parameters
------------------------------------------------------------

namespace Linkage

/- What a filter, if there is one, takes for a type. -/
def Target.source
    (filter : Option Target)
    (p : Ty) : Ty :=
  match filter with
  | some f => f.params.headD p
  | none => p

/- The parameters from a position on, each one filtered. -/
def filteredParams
    (pos : Nat)
    (ps : List Ty)
    (fs : List (Option Target)) : List Ty :=
  ps.take pos ++ fs.zipWith Target.source (ps.drop pos) ++
    ps.drop (pos + fs.length)

/-
  Each filter takes one argument and returns just the type of
  the parameter that it feeds.
-/
def Feeds
    (pos : Nat)
    (fs : List (Option Target))
    (ps : List Ty) : Prop :=
  ∀ (j : Nat) (f : Target), fs[j]? = some (some f) →
    f.count = 1 ∧ ps[pos + j]? = some f.ret

/- However many filters are applied, the parameters fit. -/
def PrefixesFit
    (pos : Nat)
    (fs : List (Option Target))
    (ps : List Ty) : Prop :=
  ∀ k ≤ fs.length,
    slotCount (filteredParams pos ps (fs.take k)) ≤ maxSlots

instance
    (pos : Nat)
    (fs : List (Option Target))
    (ps : List Ty) :
    Decidable (PrefixesFit pos fs ps) :=
  inferInstanceAs (Decidable (∀ k ≤ fs.length, _))

variable {rt : Runtime}
variable {pos : Nat}
variable {params ps : List Ty}
variable {f : Target}
variable {o : Option Target}
variable {fs : List (Option Target)}
variable {sig sig' : Signature}
variable {t : Target}

@[simp]
theorem filteredParams_nil :
    filteredParams pos ps [] = ps := by
  simp [filteredParams]

theorem filteredParams_append
    (kept rest : List Ty)
    (fs : List (Option Target)) :
    filteredParams kept.length (kept ++ rest) fs =
      kept ++ fs.zipWith Target.source rest ++
        rest.drop fs.length := by
  simp [filteredParams, List.drop_append]

theorem set_of_getElem?
    {p : Ty}
    (hParam : ps[pos]? = some p) :
    ps.set pos p = ps := by
  rcases List.getElem?_eq_some_iff.1 hParam with ⟨hPos, rfl⟩
  exact List.set_getElem_self hPos

/- The first filter is applied first. -/
theorem filteredParams_cons
    {p : Ty}
    (hParam : ps[pos]? = some p) :
    filteredParams pos ps (o :: fs) =
      filteredParams (pos + 1) (ps.set pos (Target.source o p))
        fs := by
  rcases List.getElem?_eq_some_iff.1 hParam with ⟨hPos, hEq⟩
  have hSplit : ps = ps.take pos ++ p :: ps.drop (pos + 1) := by
    rw [← hEq, List.getElem_cons_drop, List.take_append_drop]
  have hLength : (ps.take pos).length = pos :=
    List.length_take_of_le (Nat.le_of_lt hPos)
  generalize ps.take pos = kept at hSplit hLength
  generalize ps.drop (pos + 1) = rest at hSplit
  subst hLength
  subst hSplit
  have hSet :
      (kept ++ p :: rest).set kept.length (Target.source o p) =
        (kept ++ [Target.source o p]) ++ rest := by
    simp
  have hNext :
      kept.length + 1 = (kept ++ [Target.source o p]).length := by
    simp
  rw [hSet, hNext, filteredParams_append, filteredParams_append]
  simp

/- Where no filter stands, nothing is replaced. -/
theorem filteredParams_none
    {p : Ty}
    (hParam : ps[pos]? = some p) :
    filteredParams pos ps (none :: fs) =
      filteredParams (pos + 1) ps fs := by
  rw [filteredParams_cons hParam, Target.source,
    set_of_getElem? hParam]

------------------------------------------------------------
-- Filters that are Accepted
------------------------------------------------------------

theorem Feeds.nil :
    Feeds pos [] ps := by
  intro j f hf
  cases hf

theorem Feeds.none_iff :
    Feeds pos (none :: fs) ps ↔ Feeds (pos + 1) fs ps := by
  constructor
  · intro hFeeds j f hf
    have hAt := hFeeds (j + 1) f hf
    rwa [Nat.add_right_comm pos 1 j]
  · intro hFeeds j f hf
    cases j with
    | zero => cases hf
    | succ j =>
        have hAt := hFeeds j f hf
        rwa [Nat.add_right_comm pos 1 j] at hAt

theorem Feeds.some_iff :
    Feeds pos (some f :: fs) ps ↔
      (f.count = 1 ∧ ps[pos]? = some f.ret) ∧
        Feeds (pos + 1) fs ps := by
  constructor
  · intro hFeeds
    refine ⟨hFeeds 0 f rfl, ?_⟩
    intro j g hg
    have hAt := hFeeds (j + 1) g hg
    rwa [Nat.add_right_comm pos 1 j]
  · rintro ⟨hFirst, hRest⟩ j g hg
    cases j with
    | zero =>
        cases hg
        exact hFirst
    | succ j =>
        have hAt := hRest j g hg
        rwa [Nat.add_right_comm pos 1 j] at hAt

theorem PrefixesFit.cons_iff
    {p : Ty}
    (hParam : ps[pos]? = some p) :
    PrefixesFit pos (o :: fs) ps ↔
      slotCount ps ≤ maxSlots ∧
        PrefixesFit (pos + 1) fs
          (ps.set pos (Target.source o p)) := by
  constructor
  · intro hFits
    refine ⟨?_, ?_⟩
    · have hNone := hFits 0 (Nat.zero_le _)
      rwa [List.take_zero, filteredParams_nil] at hNone
    · intro k hk
      have hMore := hFits (k + 1) (Nat.succ_le_succ hk)
      rwa [List.take_succ_cons, filteredParams_cons hParam] at hMore
  · rintro ⟨hNone, hRest⟩ k hk
    cases k with
    | zero => rwa [List.take_zero, filteredParams_nil]
    | succ k =>
        rw [List.take_succ_cons, filteredParams_cons hParam]
        exact hRest k (Nat.le_of_succ_le_succ hk)

------------------------------------------------------------
-- Signatures of Filtered Targets
------------------------------------------------------------

/- Without `void` only the slots decide on a replacement. -/
theorem Signature.setParam_cases
    {p : Ty}
    (hPos : pos < sig.count)
    (hVoid : p.IsVoid = false) :
    (∃ hFits : Admissible (sig.params.set pos p),
      sig.setParam pos p = .ok ⟨_, sig.ret, hFits⟩) ∨
    (maxSlots < slotCount (sig.params.set pos p) ∧
      ∃ e, sig.setParam pos p = .error e) := by
  unfold setParam
  rw [if_pos hPos]
  have hNoVoid : ∀ q ∈ sig.params.set pos p, q.IsVoid = false := by
    intro q hq
    rcases List.mem_or_eq_of_mem_set hq with hOld | rfl
    · exact sig.admissible.noVoid q hOld
    · exact hVoid
  by_cases hSlots : slotCount (sig.params.set pos p) ≤ maxSlots
  · have hFits : Admissible (sig.params.set pos p) :=
      ⟨hNoVoid, hSlots⟩
    exact Or.inl ⟨hFits, build_of_admissible sig.ret hFits⟩
  · have hMore := Nat.lt_of_not_le hSlots
    exact
      Or.inr ⟨hMore, _, build_of_slots_lt sig.ret hNoVoid hMore⟩

namespace Target

/-
  The outcome of replacing parameters by filters: the
  signature of the filtered parameters, or an error if a
  filter does not feed its parameter or the slots of a prefix
  are too many.
-/
inductive FilterOutcome
    (params : List Ty)
    (pos : Nat)
    (sig : Signature)
    (fs : List (Option Target)) : Prop where
| accepted
    (sig' : Signature)
    (hEq : filteredSignature params pos sig fs = pure sig')
    (hFeeds : Feeds pos fs params)
    (hFits : PrefixesFit pos fs sig.params)
    (hParams : sig'.params = filteredParams pos sig.params fs)
    (hRet : sig'.ret = sig.ret)
| refused
    (e : LinkError)
    (hEq : filteredSignature params pos sig fs = throw e)
    (hNot : Feeds pos fs params → ¬PrefixesFit pos fs sig.params)

/- A filter that is there feeds its parameter, or it is refused. -/
theorem filteredSignature_some
    (f : Target)
    (sig : Signature)
    (fs : List (Option Target))
    {p : Ty}
    (hParam : params[pos]? = some p) :
    (∃ q, f.params = [q] ∧ f.ret = p ∧
      filteredSignature params pos sig (some f :: fs) =
        (do
          let next ← Link.ofSignature (sig.setParam pos q)
          filteredSignature params (pos + 1) next fs)) ∨
    (¬(f.count = 1 ∧ params[pos]? = some f.ret) ∧
      ∃ e, filteredSignature params pos sig (some f :: fs) =
        throw e) := by
  have hGet : params.getD pos .void = p := by
    rw [List.getD_eq_getElem?_getD, hParam]
    rfl
  rw [filteredSignature, hGet]
  split
  · rename_i q hUnary
    by_cases hRet : f.ret = p
    · rw [if_pos hRet]
      exact Or.inl ⟨q, hUnary, hRet, rfl⟩
    · rw [if_neg hRet]
      refine Or.inr ⟨?_, _, rfl⟩
      rintro ⟨_, hFed⟩
      rw [hParam] at hFed
      exact hRet (Option.some.inj hFed).symm
  · rename_i hNotUnary
    refine Or.inr ⟨?_, _, rfl⟩
    rintro ⟨hCount, _⟩
    rcases List.length_eq_one_iff.1 hCount with ⟨q, hq⟩
    exact hNotUnary q hq

/- Where no filter stands, the next position decides. -/
theorem FilterOutcome.none
    {p : Ty}
    (hSig : sig.params[pos]? = some p)
    (hRest : FilterOutcome params (pos + 1) sig fs) :
    FilterOutcome params pos sig (none :: fs) := by
  have hFit :
      PrefixesFit pos (Option.none :: fs) sig.params ↔
        PrefixesFit (pos + 1) fs sig.params := by
    rw [PrefixesFit.cons_iff hSig, source, set_of_getElem? hSig]
    exact and_iff_right sig.admissible.slots_le
  cases hRest with
  | accepted sig' hEq hFeeds hFits hParams hRet =>
      refine
        .accepted sig' hEq (Feeds.none_iff.2 hFeeds)
          (hFit.2 hFits) ?_ hRet
      rw [hParams, filteredParams_none hSig]
  | refused e hEq hNot =>
      refine .refused e hEq ?_
      rw [Feeds.none_iff, hFit]
      exact hNot

/-
  A filter that feeds its parameter is put before it if the
  slots allow it, and the next position decides.
-/
theorem FilterOutcome.some
    {p q : Ty}
    (hUnary : f.params = [q])
    (hParam : params[pos]? = some f.ret)
    (hSig : sig.params[pos]? = some p)
    (hEq :
      filteredSignature params pos sig (some f :: fs) =
        (do
          let next ← Link.ofSignature (sig.setParam pos q)
          filteredSignature params (pos + 1) next fs))
    (hRest :
      ∀ next : Signature, next.params = sig.params.set pos q →
        FilterOutcome params (pos + 1) next fs) :
    FilterOutcome params pos sig (some f :: fs) := by
  have hPos : pos < sig.count :=
    (List.getElem?_eq_some_iff.1 hSig).1
  have hVoid : q.IsVoid = false := by
    apply f.signature.admissible.noVoid
    change q ∈ f.params
    rw [hUnary]
    exact List.mem_cons_self
  have hSource : source (Option.some f) p = q := by
    rw [source, hUnary]
    rfl
  have hFit :
      PrefixesFit pos (Option.some f :: fs) sig.params ↔
        PrefixesFit (pos + 1) fs (sig.params.set pos q) := by
    rw [PrefixesFit.cons_iff hSig, hSource]
    exact and_iff_right sig.admissible.slots_le
  have hFeed :
      Feeds pos (Option.some f :: fs) params ↔
        Feeds (pos + 1) fs params := by
    have hCount : f.count = 1 := congrArg List.length hUnary
    rw [Feeds.some_iff]
    exact and_iff_right ⟨hCount, hParam⟩
  rcases Signature.setParam_cases hPos hVoid with
    ⟨hFits, hSet⟩ | ⟨hMore, e, hSet⟩
  · have hNext := hRest ⟨_, sig.ret, hFits⟩ rfl
    rw [hSet] at hEq
    cases hNext with
    | accepted sig' hGo hFeeds hSlots hParams hRet =>
        refine
          .accepted sig' (hEq.trans hGo) (hFeed.2 hFeeds)
            (hFit.2 hSlots) ?_ hRet
        rw [hParams, filteredParams_cons hSig, hSource]
    | refused e hGo hNot =>
        refine .refused e (hEq.trans hGo) ?_
        rw [hFeed, hFit]
        exact hNot
  · rw [hSet] at hEq
    refine .refused (.signature e) hEq ?_
    intro _ hSlots
    have hNone := (hFit.1 hSlots) 0 (Nat.zero_le _)
    rw [List.take_zero, filteredParams_nil] at hNone
    exact absurd hNone (Nat.not_le_of_lt hMore)

/-
  The induction is on the filters.  The parameters of the
  target and those of the signature so far are the same from
  the next position on.
-/
theorem filteredSignature_outcome
    (hLength : pos + fs.length ≤ sig.count)
    (hSame : ∀ j, pos ≤ j → params[j]? = sig.params[j]?) :
    FilterOutcome params pos sig fs := by
  induction fs generalizing pos sig with
  | nil =>
      refine .accepted sig rfl .nil ?_ ?_ rfl
      · intro k _
        rw [List.take_nil, filteredParams_nil]
        exact sig.admissible.slots_le
      · rw [filteredParams_nil]
  | cons o fs ih =>
      rw [List.length_cons] at hLength
      have hPos : pos < sig.count := by omega
      have hNext : pos + 1 + fs.length ≤ sig.count := by omega
      have hLater :
          ∀ j, pos + 1 ≤ j → params[j]? = sig.params[j]? :=
        fun j hj => hSame j (Nat.le_of_succ_le hj)
      obtain ⟨p, hSig⟩ : ∃ p, sig.params[pos]? = some p :=
        ⟨_, List.getElem?_eq_getElem hPos⟩
      have hParam : params[pos]? = some p :=
        (hSame pos (Nat.le_refl pos)).trans hSig
      cases o with
      | none => exact .none hSig (ih hNext hLater)
      | some f =>
          rcases filteredSignature_some f sig fs hParam with
            ⟨q, hUnary, rfl, hEq⟩ | ⟨hNot, e, hEq⟩
          · refine .some hUnary hParam hSig hEq ?_
            intro next hSet
            apply ih
            · rw [Signature.count, hSet, List.length_set]
              exact hNext
            · intro j hj
              rw [hSet, List.getElem?_set_ne (by omega)]
              exact hLater j hj
          · refine .refused e hEq ?_
            intro hFeeds
            exact absurd (Feeds.some_iff.1 hFeeds).1 hNot

------------------------------------------------------------
-- Filtered Targets
------------------------------------------------------------

/- If no filters are there, nothing is replaced. -/
theorem filteredParams_of_all_none
    (pos : Nat)
    (ps : List Ty)
    (hNone : ∀ o ∈ fs, o = none) :
    filteredParams pos ps fs = ps := by
  have hZip (rest : List Ty) :
      fs.zipWith source rest = rest.take fs.length := by
    induction fs generalizing rest with
    | nil => simp
    | cons o fs ih =>
        cases rest with
        | nil => rfl
        | cons p rest =>
            rw [hNone o List.mem_cons_self, List.zipWith_cons_cons,
              ih (fun x hx => hNone x (List.mem_cons_of_mem o hx))]
            rfl
  unfold filteredParams
  rw [hZip, List.append_assoc, ← List.drop_drop,
    List.take_append_drop, List.take_append_drop]

/- Filters that do not feed, or of too many slots, are refused. -/
theorem filterArguments_refuses
    (rt : Runtime)
    (hLength : pos + fs.length ≤ t.count)
    (hNot : Feeds pos fs t.params → ¬PrefixesFit pos fs t.params) :
    ∃ e, t.filterArguments rt pos fs = throw e := by
  have hOutcome : FilterOutcome t.params pos t.signature fs :=
    filteredSignature_outcome hLength (fun _ _ => rfl)
  unfold filterArguments
  rw [if_neg (Nat.not_lt_of_le hLength)]
  cases hOutcome with
  | accepted sig' hEq hFeeds hFits hParams hRet =>
      exact absurd hFits (hNot hFeeds)
  | refused e hEq _ =>
      rw [hEq]
      exact ⟨e, rfl⟩

/- All other filters are accepted. -/
theorem filterArguments_succeeds
    (hChecking : rt.compile = .checking)
    (hLength : pos + fs.length ≤ t.count)
    (hFeeds : Feeds pos fs t.params)
    (hFits : PrefixesFit pos fs t.params) :
    (t.filterArguments rt pos fs).Succeeds
      (fun u =>
        u.params = filteredParams pos t.params fs ∧
          u.ret = t.ret) := by
  have hOutcome : FilterOutcome t.params pos t.signature fs :=
    filteredSignature_outcome hLength (fun _ _ => rfl)
  unfold filterArguments
  rw [if_neg (Nat.not_lt_of_le hLength)]
  cases hOutcome with
  | accepted sig' hEq _ _ hParams hRet =>
      rw [hEq, pure_bind]
      split
      · rename_i hAll
        simp only [List.all_eq_true, Option.isNone_iff_eq_none]
          at hAll
        refine .pure ⟨?_, rfl⟩
        exact (filteredParams_of_all_none pos t.params hAll).symm
      · refine (build_succeeds hChecking sig' _).imp ?_
        rintro u ⟨hSig, _⟩
        rw [Target.params, Target.ret, hSig]
        exact ⟨hParams, hRet⟩
  | refused e _ hNot => exact absurd hFits (hNot hFeeds)

/-
  Filters are accepted if each one feeds its parameter and
  the slots of all prefixes fit.  The parameters of the
  target that is made are those of the filters in the places
  of the parameters that they feed.
-/
theorem filterArguments_accepts
    (hChecking : rt.compile = .checking)
    (t : Target)
    (pos : Nat)
    (fs : List (Option Target))
    (hLength : pos + fs.length ≤ t.count)
    (s : State) :
    ((∃ u s', t.filterArguments rt pos fs s = .ok u s') ↔
      Feeds pos fs t.params ∧ PrefixesFit pos fs t.params) ∧
    (∀ u s',
      t.filterArguments rt pos fs s = .ok u s' →
        u.params = filteredParams pos t.params fs ∧
          u.ret = t.ret) := by
  by_cases hBoth :
      Feeds pos fs t.params ∧ PrefixesFit pos fs t.params
  · have hMade :=
      filterArguments_succeeds hChecking hLength hBoth.1 hBoth.2
    refine ⟨⟨fun _ => hBoth, fun _ => ?_⟩, hMade.yields s⟩
    rcases hMade s with ⟨u, s', hRun, _⟩
    exact ⟨u, s', hRun⟩
  · rcases filterArguments_refuses rt hLength (not_and.1 hBoth) with
      ⟨e, hEq⟩
    rw [hEq]
    refine ⟨⟨?_, fun h => absurd h hBoth⟩, ?_⟩
    · rintro ⟨u, s', hRun⟩
      cases hRun
    · intro u s' hRun
      cases hRun

/- A target that does nothing, of given types. -/
def typed (sig : Signature) : Target :=
  .node 0 sig ⟨0, .ofSignature sig .none none, sig.count⟩ .unlinked

/- It takes a `long` for an `int`, which has fewer slots. -/
def intOfLong : Target :=
  typed ⟨[.prim .long], .int, ⟨by decide, by decide⟩⟩

theorem admissible_int : Admissible [.int] :=
  ⟨by decide, by decide⟩

/- It takes an `int` for a `long`. -/
def longOfInt : Target :=
  typed ⟨[.int], .prim .long, admissible_int⟩

/- The well-known classes, and a host without methods. -/
def hostless : Runtime where
  classes := .wellKnown
  host := (World.initial .wellKnown).host
  compile := .checking
  memoizeAsType := true

/- The second of two parameters is filtered. -/
theorem filterArguments_accepts_second :
    ∃ u s',
      (typed ⟨[.int, .int], .void, ⟨by decide, by decide⟩⟩
          ).filterArguments hostless 0 [none, some intOfLong]
          (.initial .empty none) =
        .ok u s' ∧
      u.params = [.int, .prim .long] := by
  have hFeeds :
      Feeds 0 [none, some intOfLong] [.int, .int] :=
    Feeds.none_iff.2 (Feeds.some_iff.2 ⟨⟨rfl, rfl⟩, .nil⟩)
  have hFits :
      PrefixesFit 0 [none, some intOfLong] [.int, .int] := by
    decide +kernel
  have hLength :
      0 + [none, some intOfLong].length ≤
        (typed ⟨[.int, .int], .void,
          ⟨by decide, by decide⟩⟩).count :=
    Nat.le_refl 2
  have hChecking : hostless.compile = .checking := rfl
  have hAccepts :=
    filterArguments_accepts hChecking _ 0 _ hLength
      (.initial .empty none)
  rcases hAccepts.1.2 ⟨hFeeds, hFits⟩ with ⟨u, s', hRun⟩
  exact ⟨u, s', hRun, (hAccepts.2 u s' hRun).1⟩

/- As many slots as there may be, and one of two among them. -/
def full : Target :=
  typed
    ⟨.int :: .prim .long :: List.replicate 251 .int, .void,
      ⟨by decide +kernel, by decide +kernel⟩⟩

/-
  The filters feed their parameters, and all they take fits,
  but the first one alone takes too many slots.
-/
theorem filterArguments_refuses_prefix :
    Feeds 0 [some intOfLong, some longOfInt] full.params ∧
      slotCount
          (filteredParams 0 full.params
            [some intOfLong, some longOfInt]) ≤
        maxSlots ∧
      ¬∃ u s',
        full.filterArguments hostless 0
            [some intOfLong, some longOfInt]
            (.initial .empty none) =
          .ok u s' := by
  have hFeeds :
      Feeds 0 [some intOfLong, some longOfInt] full.params :=
    Feeds.some_iff.2
      ⟨⟨rfl, rfl⟩, Feeds.some_iff.2 ⟨⟨rfl, rfl⟩, .nil⟩⟩
  have hNot :
      ¬PrefixesFit 0 [some intOfLong, some longOfInt]
        full.params := by
    decide +kernel
  have hLength :
      0 + [some intOfLong, some longOfInt].length ≤ full.count := by
    decide +kernel
  refine ⟨hFeeds, by decide +kernel, ?_⟩
  rintro ⟨u, s', hRun⟩
  rcases filterArguments_refuses hostless hLength (fun _ => hNot) with
    ⟨e, hEq⟩
  rw [hEq] at hRun
  cases hRun

end Target

end Linkage
