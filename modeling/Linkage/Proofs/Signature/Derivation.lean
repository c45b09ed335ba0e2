import Linkage.Descriptor
import Linkage.Proofs.Signature

/-
  Sequences of derivations.  A draft is a pair of parameter
  types and a result type that promises nothing.  Reading a
  sequence of derivations on drafts checks the parameters only
  where a derivation asks for it: another result, erasing and
  boxing do not.  The drafts that such a sequence ends with
  are admissible all the same, and are the signatures that
  the derivations give.  An edit of the parameter list gives
  the edited list or one error: its positions are looked at
  before the types of the edited list, and a `void` among
  those before their slots.

  Key definitions include:
    * `ParamEdit`
    * `ParamEdit.Gives`
    * `ParamEdit.Stray`
    * `ParamEdit.Refused`
    * `Derivation`
    * `Origin`
    * `Draft`

  Key theorems include:
    * `paramsError?_eq_some_iff`
    * `ParamEdit.on_eq_ok_iff`
    * `ParamEdit.on_eq_error_iff`
    * `Derivation.onDraft_admissible`
    * `Origin.derive_draft`
    * `Signature.derivations_exact`
-/

------------------------------------------------------------
-- Checked Parameter Lists
------------------------------------------------------------

namespace Linkage

/- Why a list of types is no parameter list. -/
inductive Unfit (ps : List Ty) : SignatureError → Prop where
| void
    (i : Nat)
    (hVoid : ps[i]? = some .void)
    (hFirst : ∀ j < i, ps[j]? ≠ some .void) :
    Unfit ps (.voidParameter i)
| slots
    (hNoVoid : .void ∉ ps)
    (hSlots : maxSlots < slotCount ps) :
    Unfit ps (.tooManyParameters (slotCount ps))

theorem firstVoid?_eq_some_iff
    {ps : List Ty}
    {i : Nat} :
    firstVoid? ps = some i ↔
      ps[i]? = some .void ∧ ∀ j < i, ps[j]? ≠ some .void := by
  unfold firstVoid?
  rw [List.findIdx?_eq_some_iff_getElem]
  constructor
  · rintro ⟨hi, hVoid, hFirst⟩
    refine ⟨?_, ?_⟩
    · rw [List.getElem?_eq_getElem hi, (Ty.isVoid_iff _).1 hVoid]
    · intro j hj hVoidAt
      have hLength : j < ps.length := Nat.lt_trans hj hi
      rw [List.getElem?_eq_getElem hLength] at hVoidAt
      apply hFirst j hj
      exact (Ty.isVoid_iff _).2 (Option.some.inj hVoidAt)
  · rintro ⟨hVoid, hFirst⟩
    rcases List.getElem?_eq_some_iff.1 hVoid with ⟨hi, hAt⟩
    refine ⟨hi, (Ty.isVoid_iff _).2 hAt, ?_⟩
    intro j hj hVoidAt
    apply hFirst j hj
    rw [List.getElem?_eq_getElem (Nat.lt_trans hj hi),
      (Ty.isVoid_iff _).1 hVoidAt]

theorem firstVoid?_eq_none_iff
    {ps : List Ty} :
    firstVoid? ps = none ↔ .void ∉ ps := by
  unfold firstVoid?
  rw [List.findIdx?_eq_none_iff]
  constructor
  · intro hNone hMem
    have hVoid := hNone .void hMem
    cases hVoid
  · intro hNone p hp
    cases hVoid : p.IsVoid with
    | false => rfl
    | true =>
        rw [(Ty.isVoid_iff p).1 hVoid] at hp
        exact absurd hp hNone

/- The check finds what is wrong, and the first of it. -/
theorem paramsError?_eq_some_iff
    {ps : List Ty}
    {e : SignatureError} :
    paramsError? ps = some e ↔ Unfit ps e := by
  unfold paramsError?
  cases hVoid : firstVoid? ps with
  | some i =>
      have hFirst := firstVoid?_eq_some_iff.1 hVoid
      constructor
      · intro hError
        cases hError
        exact .void i hFirst.1 hFirst.2
      · intro hUnfit
        cases hUnfit with
        | void j hVoidAt hFirstAt =>
            rw [firstVoid?_eq_some_iff.2 ⟨hVoidAt, hFirstAt⟩]
              at hVoid
            cases hVoid
            rfl
        | slots hNoVoid hSlots =>
            rw [firstVoid?_eq_none_iff.2 hNoVoid] at hVoid
            cases hVoid
  | none =>
      have hNoVoid := firstVoid?_eq_none_iff.1 hVoid
      dsimp only
      split
      · rename_i hSlots
        constructor
        · intro hError
          cases hError
        · intro hUnfit
          cases hUnfit with
          | void i hVoidAt hFirstAt =>
              exact absurd (List.mem_of_getElem? hVoidAt) hNoVoid
          | slots hNone hOver =>
              exact absurd hSlots (Nat.not_le_of_lt hOver)
      · rename_i hSlots
        constructor
        · intro hError
          cases hError
          exact .slots hNoVoid (Nat.lt_of_not_le hSlots)
        · intro hUnfit
          cases hUnfit with
          | void i hVoidAt hFirstAt =>
              exact absurd (List.mem_of_getElem? hVoidAt) hNoVoid
          | slots hNone hOver => rfl

------------------------------------------------------------
-- Edits of a Parameter List
------------------------------------------------------------

/- An edit of the parameters of a signature. -/
inductive ParamEdit where
| set (i : Nat) (t : Ty)
| insert (pos : Nat) (ts : List Ty)
| append (ts : List Ty)
| drop (start stop : Nat)
deriving DecidableEq, Repr

namespace ParamEdit

/- The derivation of signatures that makes an edit. -/
def on
    (s : Signature) :
    ParamEdit → Except SignatureError Signature
| set i t => s.setParam i t
| insert pos ts => s.insertParams pos ts
| append ts => s.appendParams ts
| drop start stop => s.dropParams start stop

/- The list that an edit asks for, told by its parts. -/
inductive Gives : ParamEdit → List Ty → List Ty → Prop where
| set (before : List Ty) (old new : Ty) (after : List Ty) :
    Gives (.set before.length new)
      (before ++ old :: after) (before ++ new :: after)
| insert (before ts after : List Ty) :
    Gives (.insert before.length ts)
      (before ++ after) (before ++ ts ++ after)
| append (ps ts : List Ty) :
    Gives (.append ts) ps (ps ++ ts)
| drop (before gone after : List Ty) :
    Gives (.drop before.length (before.length + gone.length))
      (before ++ gone ++ after) (before ++ after)

/- A position that an edit names and the list does not have. -/
inductive Stray (ps : List Ty) : ParamEdit → Nat → Prop where
| set (i : Nat) (t : Ty) (hPast : ps.length ≤ i) :
    Stray ps (.set i t) i
| insert (pos : Nat) (ts : List Ty) (hPast : ps.length < pos) :
    Stray ps (.insert pos ts) pos
| stop (start stop : Nat) (hPast : ps.length < stop) :
    Stray ps (.drop start stop) stop
| start (start stop : Nat)
    (hStop : stop ≤ ps.length)
    (hPast : stop < start) :
    Stray ps (.drop start stop) start

/-
  Why an edit of a list is refused: it names a stray position,
  or it gives a list that is no parameter list.
-/
inductive Refused
    (e : ParamEdit)
    (ps : List Ty) : SignatureError → Prop where
| range (i : Nat) (hStray : Stray ps e i) :
    Refused e ps (.parameterIndex i ps.length)
| list (qs : List Ty) (err : SignatureError)
    (hGives : e.Gives ps qs)
    (hUnfit : Unfit qs err) :
    Refused e ps err

/- The first stray position of an edit. -/
def stray?
    (ps : List Ty) : ParamEdit → Option Nat
| set i _ => if i < ps.length then none else some i
| insert pos _ => if pos ≤ ps.length then none else some pos
| append _ => none
| drop start stop =>
    if ps.length < stop then some stop
    else if stop < start then some start
    else none

/- The edited list. -/
def edited
    (ps : List Ty) : ParamEdit → List Ty
| set i t => ps.set i t
| insert pos ts => ps.take pos ++ ts ++ ps.drop pos
| append ts => ps ++ ts
| drop start stop => ps.take start ++ ps.drop stop

theorem stray?_eq_some_iff
    {e : ParamEdit}
    {ps : List Ty}
    {i : Nat} :
    e.stray? ps = some i ↔ Stray ps e i := by
  constructor
  · intro hStray
    cases e with
    | set j t =>
        simp only [stray?, Option.ite_none_left_eq_some,
          Option.some.injEq] at hStray
        rcases hStray with ⟨hPast, rfl⟩
        exact .set j t (Nat.le_of_not_lt hPast)
    | insert pos ts =>
        simp only [stray?, Option.ite_none_left_eq_some,
          Option.some.injEq] at hStray
        rcases hStray with ⟨hPast, rfl⟩
        exact .insert pos ts (Nat.lt_of_not_le hPast)
    | append ts => cases hStray
    | drop start stop =>
        simp only [stray?] at hStray
        by_cases hStop : ps.length < stop
        · rw [if_pos hStop] at hStray
          cases hStray
          exact .stop start i hStop
        · rw [if_neg hStop] at hStray
          by_cases hStart : stop < start
          · rw [if_pos hStart] at hStray
            cases hStray
            exact .start i stop (Nat.le_of_not_lt hStop) hStart
          · rw [if_neg hStart] at hStray
            cases hStray
  · intro hStray
    cases hStray with
    | set i t hPast =>
        exact if_neg (Nat.not_lt_of_le hPast)
    | insert pos ts hPast =>
        exact if_neg (Nat.not_le_of_lt hPast)
    | stop start stop hPast => exact if_pos hPast
    | start start stop hStop hPast =>
        simp only [stray?]
        rw [if_neg (Nat.not_lt_of_le hStop), if_pos hPast]

/- The edited list is the one that the edit asks for. -/
theorem gives_iff
    {e : ParamEdit}
    {ps qs : List Ty} :
    e.Gives ps qs ↔ e.stray? ps = none ∧ qs = e.edited ps := by
  constructor
  · intro hGives
    cases hGives with
    | set before old new after =>
        refine ⟨if_pos ?_, ?_⟩
        · simp
        · simp [edited]
    | insert before ts after =>
        refine ⟨if_pos ?_, ?_⟩
        · simp
        · simp [edited]
    | append ps ts => exact ⟨rfl, rfl⟩
    | drop before gone after =>
        refine ⟨?_, ?_⟩
        · simp only [stray?, List.length_append]
          rw [if_neg (by omega), if_neg (by omega)]
        · simp only [edited]
          rw [← List.length_append, List.drop_left,
            List.append_assoc, List.take_left]
  · rintro ⟨hStray, rfl⟩
    cases e with
    | set i t =>
        simp only [stray?, ite_eq_left_iff, reduceCtorEq,
          imp_false, Decidable.not_not] at hStray
        have hGives :=
          Gives.set (ps.take i) ps[i] t (ps.drop (i + 1))
        rw [List.length_take_of_le (Nat.le_of_lt hStray),
          List.getElem_cons_drop, List.take_append_drop] at hGives
        rw [edited, List.set_eq_take_append_cons_drop,
          if_pos hStray]
        exact hGives
    | insert pos ts =>
        simp only [stray?, ite_eq_left_iff, reduceCtorEq,
          imp_false, Decidable.not_not] at hStray
        have hGives := Gives.insert (ps.take pos) ts (ps.drop pos)
        rw [List.length_take_of_le hStray, List.take_append_drop]
          at hGives
        exact hGives
    | append ts => exact .append ps ts
    | drop start stop =>
        simp only [stray?] at hStray
        split at hStray
        · cases hStray
        · rename_i hPast
          have hStop := Nat.le_of_not_lt hPast
          split at hStray
          · cases hStray
          · rename_i hAfter
            have hStart := Nat.le_of_not_lt hAfter
            have hGives :=
              Gives.drop (ps.take start) ((ps.take stop).drop start)
                (ps.drop stop)
            have hBefore :
                ps.take start ++ (ps.take stop).drop start =
                  ps.take stop := by
              have hTake := List.take_append_drop start (ps.take stop)
              rwa [List.take_take, Nat.min_eq_left hStart] at hTake
            rw [← List.length_append, hBefore,
              List.length_take_of_le hStop,
              List.length_take_of_le (Nat.le_trans hStart hStop),
              List.take_append_drop] at hGives
            exact hGives

/- Every edit is one check of positions and one of types. -/
theorem on_eq
    (e : ParamEdit)
    (s : Signature) :
    e.on s =
      match e.stray? s.params with
      | some i => .error (.parameterIndex i s.count)
      | none => Signature.build s.ret (e.edited s.params) := by
  cases e with
  | set i t =>
      simp only [on, stray?, edited]
      unfold Signature.setParam Signature.count
      by_cases hi : i < s.params.length
      · simp only [hi, if_true]
      · simp only [hi, if_false]
  | insert pos ts =>
      simp only [on, stray?, edited]
      unfold Signature.insertParams Signature.count
      by_cases hPos : pos ≤ s.params.length
      · simp only [hPos, if_true]
      · simp only [hPos, if_false]
  | append ts =>
      simp only [on, stray?, edited]
      unfold Signature.appendParams Signature.insertParams
        Signature.count
      rw [if_pos (Nat.le_refl _), List.take_length,
        List.drop_length, List.append_nil]
  | drop start stop =>
      simp only [on, stray?, edited]
      unfold Signature.dropParams Signature.count
      by_cases hStop : s.params.length < stop
      · simp only [hStop, if_true]
      · by_cases hStart : stop < start
        · simp only [hStop, hStart, if_false, if_true]
        · simp only [hStop, hStart, if_false]

/- An edit that succeeds gives just the edited list. -/
theorem on_eq_ok_iff
    {e : ParamEdit}
    {s s' : Signature} :
    e.on s = .ok s' ↔
      e.Gives s.params s'.params ∧ s'.ret = s.ret := by
  rw [on_eq, gives_iff]
  cases hStray : e.stray? s.params with
  | some i => simp
  | none =>
      constructor
      · intro hBuild
        rcases Signature.params_of_build hBuild with
          ⟨hParams, hRet⟩
        exact ⟨⟨rfl, hParams⟩, hRet⟩
      · rintro ⟨⟨_, hParams⟩, hRet⟩
        have hAdmissible := s'.admissible
        rw [hParams] at hAdmissible
        refine
          (Signature.build_of_admissible s.ret hAdmissible).trans ?_
        exact
          congrArg Except.ok
            (Signature.eq_of_parts hParams.symm hRet.symm)

/- An edit fails for the one reason that refuses it. -/
theorem on_eq_error_iff
    {e : ParamEdit}
    {s : Signature}
    {err : SignatureError} :
    e.on s = .error err ↔ e.Refused s.params err := by
  rw [on_eq]
  cases hStray : e.stray? s.params with
  | some i =>
      constructor
      · intro hError
        cases hError
        exact .range i (stray?_eq_some_iff.1 hStray)
      · intro hRefused
        cases hRefused with
        | range j hStrayAt =>
            rw [stray?_eq_some_iff.2 hStrayAt] at hStray
            cases hStray
            rfl
        | list qs err hGives hUnfit =>
            rw [(gives_iff.1 hGives).1] at hStray
            cases hStray
  | none =>
      rw [Signature.build_eq_error_iff, paramsError?_eq_some_iff]
      constructor
      · intro hUnfit
        exact .list _ err (gives_iff.2 ⟨hStray, rfl⟩) hUnfit
      · intro hRefused
        cases hRefused with
        | range i hStrayAt =>
            rw [stray?_eq_some_iff.2 hStrayAt] at hStray
            cases hStray
        | list qs err hGives hUnfit =>
            rw [(gives_iff.1 hGives).2] at hUnfit
            exact hUnfit

end ParamEdit

------------------------------------------------------------
-- Sequences of Derivations
------------------------------------------------------------

/- One derivation of a signature from another one. -/
inductive Derivation where
| edit (e : ParamEdit)
| withRet (ret : Ty)
| erase
| wrap
| unwrap
deriving DecidableEq, Repr

/- Where a sequence of derivations starts. -/
inductive Origin where
| types (ret : Ty) (params : List Ty)
| generic (n : Nat)
| descriptor (cs : List Char)
deriving DecidableEq, Repr

/- The signature that a derivation gives. -/
def Derivation.on
    (s : Signature) :
    Derivation → Except SignatureError Signature
| edit e => e.on s
| withRet ret => .ok (s.withRet ret)
| erase => .ok s.erase
| wrap => .ok s.wrap
| unwrap => s.unwrap

namespace Origin

/- The signature that a sequence starts from. -/
def signature : Origin → Except SignatureError Signature
| types ret params => Signature.build ret params
| generic n => Signature.generic n
| descriptor cs => Signature.ofDescriptor cs

/- The signature that a sequence of derivations ends with. -/
def derive
    (o : Origin)
    (ds : List Derivation) : Except SignatureError Signature :=
  o.signature >>= fun s => ds.foldlM Derivation.on s

end Origin

------------------------------------------------------------
-- Drafts
------------------------------------------------------------

/- The types of a signature, and no promise about them. -/
structure Signature.Draft where
  params : List Ty
  ret : Ty
deriving DecidableEq, Repr

namespace Signature

def draft (s : Signature) : Draft :=
  ⟨s.params, s.ret⟩

/- A draft that passes the check of its parameters. -/
def Draft.checked (d : Draft) : Except SignatureError Draft :=
  match paramsError? d.params with
  | none => .ok d
  | some e => .error e

/- The check keeps what a signature is built of. -/
theorem build_draft
    (ret : Ty)
    (ps : List Ty) :
    (build ret ps).map draft = Draft.checked ⟨ps, ret⟩ := by
  unfold Draft.checked
  cases hError : paramsError? ps with
  | none =>
      have hAdmissible := paramsError?_eq_none_iff.1 hError
      rw [build_of_admissible ret hAdmissible]
      rfl
  | some e =>
      rw [build_eq_error_iff.2 hError]
      rfl

theorem Draft.admissible_of_checked
    {d d' : Draft}
    (h : d.checked = .ok d') :
    Admissible d'.params := by
  unfold checked at h
  split at h
  · rename_i hError
    cases h
    exact paramsError?_eq_none_iff.1 hError
  · cases h

end Signature

namespace Derivation

/-
  A derivation of drafts.  Only the edits and unboxing check
  the parameters they come to.
-/
def onDraft
    (d : Signature.Draft) :
    Derivation → Except SignatureError Signature.Draft
| edit e =>
    match e.stray? d.params with
    | some i => .error (.parameterIndex i d.params.length)
    | none => Signature.Draft.checked ⟨e.edited d.params, d.ret⟩
| withRet ret => .ok ⟨d.params, ret⟩
| erase => .ok ⟨d.params.map Ty.erased, d.ret.erased⟩
| wrap => .ok ⟨d.params.map Ty.boxed, d.ret.boxed⟩
| unwrap =>
    Signature.Draft.checked
      ⟨d.params.map Ty.unboxed, d.ret.unboxed⟩

/- A derivation of drafts keeps their parameters admissible. -/
theorem onDraft_admissible
    {x : Derivation}
    {d d' : Signature.Draft}
    (hAdmissible : Admissible d.params)
    (h : x.onDraft d = .ok d') :
    Admissible d'.params := by
  cases x with
  | edit e =>
      simp only [onDraft] at h
      split at h
      · cases h
      · exact Signature.Draft.admissible_of_checked h
  | withRet ret =>
      cases h
      exact hAdmissible
  | erase =>
      cases h
      exact hAdmissible.erased
  | wrap =>
      cases h
      exact hAdmissible.boxed
  | unwrap => exact Signature.Draft.admissible_of_checked h

/- Signatures are derived as their drafts are. -/
theorem on_draft
    (x : Derivation)
    (s : Signature) :
    (x.on s).map Signature.draft = x.onDraft s.draft := by
  cases x with
  | edit e =>
      simp only [on, onDraft, ParamEdit.on_eq, Signature.draft]
      cases e.stray? s.params with
      | some i => rfl
      | none => exact Signature.build_draft _ _
  | withRet ret => rfl
  | erase => rfl
  | wrap => rfl
  | unwrap => exact Signature.build_draft _ _

end Derivation

namespace Origin

/- The draft that a sequence of derivations starts from. -/
def startDraft : Origin → Except SignatureError Signature.Draft
| types ret params => Signature.Draft.checked ⟨params, ret⟩
| generic n =>
    Signature.Draft.checked ⟨List.replicate n .object, .object⟩
| descriptor cs => (Signature.ofDescriptor cs).map Signature.draft

/- The draft that a sequence of derivations ends with. -/
def deriveDraft
    (o : Origin)
    (ds : List Derivation) :
    Except SignatureError Signature.Draft :=
  o.startDraft >>= fun d => ds.foldlM Derivation.onDraft d

theorem signature_draft (o : Origin) :
    o.signature.map Signature.draft = o.startDraft := by
  cases o with
  | types ret params => exact Signature.build_draft _ _
  | generic n => exact Signature.build_draft _ _
  | descriptor cs => rfl

theorem startDraft_admissible
    {o : Origin}
    {d : Signature.Draft}
    (h : o.startDraft = .ok d) :
    Admissible d.params := by
  cases o with
  | types ret params =>
      exact Signature.Draft.admissible_of_checked h
  | generic n => exact Signature.Draft.admissible_of_checked h
  | descriptor cs =>
      simp only [startDraft] at h
      cases hRead : Signature.ofDescriptor cs with
      | error e =>
          rw [hRead] at h
          cases h
      | ok s =>
          rw [hRead] at h
          cases h
          exact s.admissible

end Origin

namespace Derivation

/- Runs of derivations keep parameters admissible. -/
theorem run_admissible
    {ds : List Derivation}
    {d d' : Signature.Draft}
    (hAdmissible : Admissible d.params)
    (h : ds.foldlM onDraft d = .ok d') :
    Admissible d'.params := by
  induction ds generalizing d with
  | nil =>
      cases h
      exact hAdmissible
  | cons x ds ih =>
      rw [List.foldlM_cons] at h
      cases hStep : x.onDraft d with
      | error e =>
          rw [hStep] at h
          cases h
      | ok d₁ =>
          rw [hStep] at h
          exact ih (onDraft_admissible hAdmissible hStep) h

/- Runs on signatures and runs on drafts go together. -/
theorem run_draft
    (ds : List Derivation)
    (s : Signature) :
    (ds.foldlM on s).map Signature.draft =
      ds.foldlM onDraft s.draft := by
  induction ds generalizing s with
  | nil => rfl
  | cons x ds ih =>
      rw [List.foldlM_cons, List.foldlM_cons, ← on_draft]
      cases x.on s with
      | error e => rfl
      | ok s₁ => exact ih s₁

end Derivation

namespace Origin

theorem derive_draft
    (o : Origin)
    (ds : List Derivation) :
    (o.derive ds).map Signature.draft = o.deriveDraft ds := by
  unfold derive deriveDraft
  rw [← signature_draft]
  cases o.signature with
  | error e => rfl
  | ok s => exact Derivation.run_draft ds s

theorem deriveDraft_admissible
    {o : Origin}
    {ds : List Derivation}
    {d : Signature.Draft}
    (h : o.deriveDraft ds = .ok d) :
    Admissible d.params := by
  unfold deriveDraft at h
  cases hStart : o.startDraft with
  | error e =>
      rw [hStart] at h
      cases h
  | ok d₀ =>
      rw [hStart] at h
      exact
        Derivation.run_admissible (startDraft_admissible hStart) h

end Origin

------------------------------------------------------------
-- Exact Derivations
------------------------------------------------------------

namespace Signature

/-
  However a signature is derived, the sequence that checks
  its parameters only here and there comes to the same types,
  and none of its parameters is `void` nor do they take more
  than 254 slots.  An edit of what was derived gives just the
  edited list beside the same result, or fails for the one
  reason that refuses it.
-/
theorem derivations_exact
    (o : Origin)
    (ds : List Derivation) :
    (o.derive ds).map draft = o.deriveDraft ds ∧
      (∀ d, o.deriveDraft ds = .ok d →
        .void ∉ d.params ∧ slotCount d.params ≤ 254) ∧
      ∀ s, o.derive ds = .ok s →
        ∀ e : ParamEdit,
          (∀ s', o.derive (ds ++ [.edit e]) = .ok s' ↔
            e.Gives s.params s'.params ∧ s'.ret = s.ret) ∧
          ∀ err, o.derive (ds ++ [.edit e]) = .error err ↔
            e.Refused s.params err := by
  refine ⟨o.derive_draft ds, ?_, ?_⟩
  · intro d hDraft
    have hAdmissible := Origin.deriveDraft_admissible hDraft
    refine ⟨?_, hAdmissible.slots_le⟩
    intro hMem
    have hVoid := hAdmissible.noVoid .void hMem
    cases hVoid
  · intro s hDerive e
    have hLast : o.derive (ds ++ [.edit e]) = e.on s := by
      unfold Origin.derive at hDerive ⊢
      cases hStart : o.signature with
      | error err =>
          rw [hStart] at hDerive
          cases hDerive
      | ok s₀ =>
          rw [hStart] at hDerive
          change ds.foldlM Derivation.on s₀ = .ok s at hDerive
          change
            (ds ++ [Derivation.edit e]).foldlM Derivation.on s₀ =
              e.on s
          rw [List.foldlM_append, hDerive]
          change [Derivation.edit e].foldlM Derivation.on s = e.on s
          rw [List.foldlM_cons]
          exact bind_pure (e.on s)
    rw [hLast]
    exact
      ⟨fun _ => ParamEdit.on_eq_ok_iff,
        fun _ => ParamEdit.on_eq_error_iff⟩

/-
  Unboxing makes the first parameter wide.  Of two positions
  in the wrong order the first one is named, and of inserted
  types the `void` one is named by its place in the new list.
-/
theorem derivations_exact_unboxed :
    let o := Origin.types .void [.cls Kind.long.box, .int]
    let ds := [Derivation.unwrap, .erase]
    ∃ s,
      o.derive ds = .ok s ∧
      o.deriveDraft ds = .ok ⟨[.prim .long, .int], .void⟩ ∧
      (.void ∉ s.params ∧ slotCount s.params ≤ 254) ∧
      o.derive (ds ++ [.edit (.drop 2 1)]) =
        .error (.parameterIndex 2 2) ∧
      o.derive (ds ++ [.edit (.insert 1 [.object, .void])]) =
        .error (.voidParameter 2) := by
  intro o ds
  have hDerive :
      o.derive ds =
        .ok ⟨[.prim .long, .int], .void,
          ⟨by decide, by decide⟩⟩ := by
    rfl
  have hExact := derivations_exact o ds
  have hDraft :
      o.deriveDraft ds = .ok ⟨[.prim .long, .int], .void⟩ := by
    rw [← hExact.1, hDerive]
    rfl
  refine ⟨_, hDerive, hDraft, hExact.2.1 _ hDraft, ?_, ?_⟩
  · refine ((hExact.2.2 _ hDerive _).2 _).2 ?_
    exact .range 2 (.start 2 1 (by decide) (by decide))
  · refine ((hExact.2.2 _ hDerive _).2 _).2 ?_
    exact
      .list _ _
        (.insert [.prim .long] [.object, .void] [.int])
        (.void 2 rfl (by decide))

end Signature

end Linkage
