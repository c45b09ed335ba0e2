import Linkage.Proofs.Session.Matched

/-
  Explicit casts extend implicit retypings.  Where there is
  an implicit conversion there is an explicit one, which does
  the same to each value that the implicit one takes; and so
  a target that is cast gives what it gives when it is
  retyped, and makes the same calls of the host.

  Key definitions include:
    * `Conversion.ExtendedBy`
    * `Target.GivesAlso`

  Key theorems include:
    * `classify_explicit`
    * `planSignature_explicit`
    * `Target.Converted.matchedBy`
    * `Session.explicitCast_extends_asType`
-/

------------------------------------------------------------
-- Conversions
------------------------------------------------------------

namespace Linkage

variable {T : ClassTable}
variable {a b : Ty}
variable {c : Conversion}

/- What the one conversion makes of a value the other makes. -/
def Conversion.ExtendedBy
    (T : ClassTable)
    (c c' : Conversion) : Prop :=
  ∀ v h w k, c.apply T v h = (.ok w, k) → c'.apply T v h = (.ok w, k)

theorem Conversion.ExtendedBy.refl (c : Conversion) :
    c.ExtendedBy T c :=
  fun _ _ _ _ hApply => hApply

theorem Conversion.ExtendedBy.matchedBy
    {c' : Conversion}
    (hExtended : c.ExtendedBy T c') :
    c.MatchedBy False T c' := by
  intro v h hCase
  rcases hCase.resolve_left id with ⟨w, k, hApply⟩
  rw [hApply, hExtended v h w k hApply]

/- Unboxing refuses fewer boxes explicitly. -/
theorem Conversion.ExtendedBy.unbox
    (source : UnboxSource)
    (k : Kind) :
    (Conversion.unbox source k .implicit).ExtendedBy T
      (.unbox source k .explicit) := by
  intro v h w z hApply
  change (unboxValue source k .implicit v, h) = _ at hApply
  change (unboxValue source k .explicit v, h) = _
  unfold unboxValue at hApply ⊢
  cases v with
  | ref o =>
      cases hBox : o.boxed? with
      | none => simp [hBox] at hApply
      | some p =>
          simp only [hBox] at hApply ⊢
          by_cases hAdmits : source.admits p.kind = true
          · by_cases hReaches : p.kind.reaches k = true
            · simpa [hAdmits, hReaches] using hApply
            · simp [hAdmits, hReaches] at hApply
          · simp [hAdmits] at hApply
  | _ => exact hApply

/- Only unboxing depends on the strength in what it does. -/
theorem classifyUnbox_explicit
    {k : Kind}
    (hImplicit : classifyUnbox a k .implicit = some c) :
    ∃ source,
      c = .unbox source k .implicit ∧
        classifyUnbox a k .explicit =
          some (.unbox source k .explicit) := by
  unfold classifyUnbox at hImplicit ⊢
  by_cases hObject : a = .object
  · rw [if_pos hObject] at hImplicit ⊢
    cases hImplicit
    exact ⟨_, rfl, rfl⟩
  · rw [if_neg hObject] at hImplicit ⊢
    by_cases hNumber : a = .cls .number
    · rw [if_pos hNumber] at hImplicit ⊢
      split at hImplicit
      · cases hImplicit
        exact ⟨_, rfl, by simp⟩
      · cases hImplicit
    · rw [if_neg hNumber] at hImplicit ⊢
      split at hImplicit
      · cases hImplicit
      · cases hImplicit
      · split at hImplicit
        · cases hImplicit
          exact ⟨_, rfl, by simp⟩
        · cases hImplicit

theorem classifyPrim_explicit
    {j k : Kind}
    (hImplicit : classifyPrim j k .implicit = some c) :
    classifyPrim j k .explicit = some c := by
  unfold classifyPrim at hImplicit ⊢
  by_cases hWidens : j.widensTo k = true
  · rw [if_pos hWidens] at hImplicit ⊢
    exact hImplicit
  · simp [hWidens] at hImplicit

theorem classifyBox_explicit
    {k : Kind}
    (hImplicit : classifyBox T k b .implicit = some c) :
    classifyBox T k b .explicit = some c := by
  unfold classifyBox at hImplicit ⊢
  by_cases hAssign : T.isAssignable (.cls k.box) b = true
  · rw [if_pos hAssign] at hImplicit ⊢
    exact hImplicit
  · simp [hAssign] at hImplicit

theorem classifyCast_explicit
    (hImplicit : classifyCast T a b .implicit = some c) :
    classifyCast T a b .explicit = some c := by
  unfold classifyCast at hImplicit ⊢
  by_cases hAssign : T.isAssignable a b = true
  · rw [if_pos hAssign] at hImplicit ⊢
    exact hImplicit
  · simp [hAssign] at hImplicit

/-
  An implicit conversion has an explicit one in its place,
  which makes the same of each value that it takes.
-/
theorem classify_explicit
    (hImplicit : classify T a b .implicit = some c) :
    ∃ c', classify T a b .explicit = some c' ∧ c.ExtendedBy T c' := by
  unfold classify at hImplicit ⊢
  by_cases hSame : a = b
  · rw [if_pos hSame] at hImplicit ⊢
    exact ⟨_, hImplicit, .refl c⟩
  · rw [if_neg hSame] at hImplicit ⊢
    split at hImplicit
    · exact ⟨_, hImplicit, .refl c⟩
    · exact ⟨_, hImplicit, .refl c⟩
    · exact ⟨_, classifyPrim_explicit hImplicit, .refl c⟩
    · exact ⟨_, classifyBox_explicit hImplicit, .refl c⟩
    · rcases classifyUnbox_explicit hImplicit with
        ⟨source, rfl, hExplicit⟩
      exact ⟨_, hExplicit, .unbox _ _⟩
    · exact ⟨_, classifyCast_explicit hImplicit, .refl c⟩

------------------------------------------------------------
-- Plans
------------------------------------------------------------

variable {caller callee : Signature}
variable {p : Plan}

/- An implicit plan has an explicit one in its place. -/
theorem planSignature_explicit
    (hImplicit :
      planSignature T caller callee .implicit = .ok p) :
    ∃ q,
      planSignature T caller callee .explicit = .ok q ∧
        List.Forall₂ (Conversion.ExtendedBy T) p.params q.params ∧
        p.ret.ExtendedBy T q.ret := by
  rcases planSignature_eq_ok_iff.1 hImplicit with
    ⟨hCount, hParams, hRet⟩
  have hAll :
      ∃ ds,
        List.Forall₂
          (fun (x : Ty × Ty) d =>
            classify T x.1 x.2 .explicit = some d)
          (caller.params.zip callee.params) ds ∧
          List.Forall₂ (Conversion.ExtendedBy T) p.params ds := by
    generalize p.params = cs at hParams
    generalize caller.params.zip callee.params = slots at hParams
    induction hParams with
    | nil => exact ⟨[], .nil, .nil⟩
    | cons hFirst _ ih =>
        rcases classify_explicit hFirst with ⟨d, hd, hExtended⟩
        rcases ih with ⟨ds, hRest, hOthers⟩
        exact ⟨d :: ds, .cons hd hRest, .cons hExtended hOthers⟩
  rcases hAll with ⟨ds, hds, hExtended⟩
  rcases classify_explicit hRet with ⟨d, hd, hLast⟩
  exact
    ⟨⟨ds, d⟩, planSignature_eq_ok_iff.2 ⟨hCount, hds, hd⟩,
      hExtended, hLast⟩

------------------------------------------------------------
-- Targets
------------------------------------------------------------

namespace Target

variable {rt : Runtime}
variable {cat : Catalog}
variable {sig : Signature}
variable {t u x : Target}
variable {q : Plan}
variable {n : Nat}

theorem Above.mem
    (hAbove : u.Above n t)
    (hValid : cat.Valid rt)
    (hu : u ∈ cat.made) :
    t ∈ cat.made := by
  induction hAbove with
  | self t => exact hu
  | node hWrapped _ ih =>
      apply ih
      apply hValid.closed _ hu
      rw [hWrapped]
      exact List.mem_singleton_self _

/- A target that is retyped gathers no arguments any more. -/
theorem Converted.isVarargs_eq
    (hConverted : t.Converted sig p u)
    (hNe : t.signature ≠ sig) :
    u.isVarargs = false := by
  rcases hConverted with ⟨v, hResult, hParams⟩
  unfold isVarargs
  cases hParams with
  | same hSame =>
      cases hResult with
      | same => exact absurd hSame hNe
      | node _ hIs => rw [hIs.form_eq]
  | node _ hIs => rw [hIs.form_eq]

/- A target of the signature needs no node to be retyped. -/
theorem Converted.eq_of_signature_eq
    (hConverted : t.Converted sig p u)
    (hSame : t.signature = sig) :
    u = t := by
  rcases hConverted with ⟨v, hResult, hParams⟩
  cases hResult with
  | same _ =>
      cases hParams with
      | same _ => rfl
      | node hNe _ => exact absurd hSame hNe
  | node hNe _ => exact absurd (congrArg Signature.ret hSame) hNe

/-
  Two retypings of a target along plans of which the one is
  matched by the other.
-/
theorem Converted.matchedBy
    {strict : Prop}
    {how how' : Strength}
    (hChecking : rt.compile = .checking)
    (hHost : rt.host.MakesNoTargets)
    (hValid : cat.Valid rt)
    (hu : u ∈ cat.made)
    (hx : x ∈ cat.made)
    (hPlan :
      planSignature rt.classes sig t.signature how = .ok p)
    (hPlan' :
      planSignature rt.classes sig t.signature how' = .ok q)
    (hConverted : t.Converted sig p u)
    (hConverted' : t.Converted sig q x)
    (hParams :
      List.Forall₂ (Conversion.MatchedBy strict rt.classes)
        p.params q.params)
    (hRet : p.ret.MatchedBy strict rt.classes q.ret) :
    u.MatchedBy strict rt x := by
  rcases
    hConverted.enter_follows hValid hChecking hu hPlan
    with ⟨w, hAbove, _, hFollows⟩
  rcases
    hConverted'.enter_follows hValid hChecking hx hPlan'
    with ⟨w', _, _, hFollows'⟩
  have hSig := hConverted.signature_eq
  have hSig' := hConverted'.signature_eq
  refine ⟨hSig'.trans hSig.symm, w.depth, w'.depth, ?_⟩
  rintro s args n ⟨d, hSound, hListed⟩ hCount
  have ht := hAbove.mem hSound.valid (hListed u (by simp))
  have hCount' : args.length = sig.count := by
    rw [← hSig]
    exact hCount
  rcases followPlan_length hPlan with ⟨hLength, hCounts⟩
  rw [hFollows n args hCount', hFollows' n args hCount']
  have hMade : ∀ x ∈ [t], x ∈ d.made :=
    List.forall_mem_singleton.2 ht
  -- The target below both is one, and entering it is the same.
  exact
    Run.matchedBy_iff.2
      (followPlan_matched (fun _ hStrict => hStrict)
        (entersAs_refl _ hChecking hHost t) hParams hRet (.refl s)
        hSound hSound hMade hMade hLength (hCount'.trans hCounts) n)

/-
  What a call of the one target gives, a call of the other
  gives too, whatever way both are called and with whatever
  arguments; heap and call sites are the same then, and so are
  the calls of the host.
-/
def GivesAlso
    (rt : Runtime)
    (r : State)
    (u x : Target) : Prop :=
  ∀ (e e' : Entry) (args : List Value) (v : Value) (r' : State),
    e.Like e' → e.InLine u args → e'.InLine x args →
      e.ComesTo rt u args r (.ok v r') →
        ∃ r'',
          e'.ComesTo rt x args r (.ok v r'') ∧ r'.Same r''

theorem MatchedBy.refl
    {strict : Prop}
    (t : Target) :
    t.MatchedBy strict rt t :=
  ⟨rfl, 0, 0, fun _ _ _ _ _ => .of_same (.refl _)⟩

theorem MatchedBy.givesAlso
    {strict : Prop}
    {r : State}
    (hMatched : u.MatchedBy strict rt x)
    (hChecking : rt.compile = .checking)
    (hHost : rt.host.MakesNoTargets)
    (hPlain : u = x ∨ u.isVarargs = false ∧ x.isVarargs = false)
    (hLists : r.Lists rt [u, x]) :
    u.GivesAlso rt r x := by
  intro e e' args v r' hLike hInLine hInLine' hComes
  have hSame :
      (∀ w, e ≠ .way w) ∨
          u.isVarargs = false ∧ x.isVarargs = false →
        ∃ r'',
          e'.ComesTo rt x args r (.ok v r'') ∧ r'.Same r'' := by
    intro hCase
    have hEntry : e.Plain u x := by
      unfold Entry.Plain
      split
      · exact hCase.resolve_left (fun hNo => hNo _ rfl)
      · trivial
    rcases
      hMatched.run hChecking hHost hLists hLike hEntry hInLine
        hInLine'
      with ⟨j, k, hRun⟩
    rcases
      Entry.comesTo_of_matched hRun hComes nofun
      with ⟨_, hOther, hEnd⟩
    cases hEnd with
    | ok hStates => exact ⟨_, hOther, hStates⟩
  rcases hPlain with rfl | hPlain
  · cases hLike with
    | way w => exact ⟨r', hComes, .refl r'⟩
    | stub => exact hSame (.inl (fun _ hWay => by cases hWay))
  · exact hSame (.inr hPlain)

/-
  What a retyped target gives, it also gives when it is
  retyped along a plan that matches.
-/
theorem Converted.givesAlso
    {how how' : Strength}
    {r : State}
    (hConverted : t.Converted sig p u)
    (hChecking : rt.compile = .checking)
    (hHost : rt.host.MakesNoTargets)
    (hValid : cat.Valid rt)
    (hu : u ∈ cat.made)
    (hx : x ∈ cat.made)
    (hPlan :
      planSignature rt.classes sig t.signature how = .ok p)
    (hPlan' :
      planSignature rt.classes sig t.signature how' = .ok q)
    (hConverted' : t.Converted sig q x)
    (hParams :
      List.Forall₂ (Conversion.MatchedBy False rt.classes)
        p.params q.params)
    (hRet : p.ret.MatchedBy False rt.classes q.ret)
    (hLists : r.Lists rt [u, x]) :
    u.GivesAlso rt r x := by
  have hMatched : u.MatchedBy False rt x :=
    Target.Converted.matchedBy hChecking hHost hValid hu hx hPlan
      hPlan' hConverted hConverted' hParams hRet
  apply hMatched.givesAlso hChecking hHost _ hLists
  by_cases hSame : t.signature = sig
  · left
    rw [hConverted.eq_of_signature_eq hSame,
      hConverted'.eq_of_signature_eq hSame]
  · right
    exact
      ⟨hConverted.isVarargs_eq hSame,
        hConverted'.isVarargs_eq hSame⟩

end Target

------------------------------------------------------------
-- Retypings and Casts of Named Targets
------------------------------------------------------------

namespace Session

variable {s : Session}
variable {t u : Target}
variable {sig : Signature}
variable {s₁ : State}

/-
  Explicit casts extend implicit retypings.  Each implicit
  conversion has an explicit one in its place, that makes the
  same of what the implicit one takes.  A target that is
  retyped can be cast as well, from any state in which it is
  listed; and from any state in which both are listed, what
  is returned by the retyping is returned by the cast.
-/
theorem explicitCast_extends_asType
    (hFresh : s.IsFresh)
    (hChecking : s.context.runtime.compile = .checking)
    (hHost : s.context.runtime.host.MakesNoTargets)
    (xs : List Step)
    (hNamed : (s.after xs).context.Names t)
    (hOk :
      t.asType s.context.runtime sig (s.after xs).state =
        .ok u s₁) :
    let rt := s.context.runtime
    (∀ (T : ClassTable) a b c,
      classify T a b .implicit = some c →
        ∃ c',
          classify T a b .explicit = some c' ∧
            c.ExtendedBy T c') ∧
      s₁.Lists rt [t, u] ∧
      ∀ r, r.Lists rt [t, u] →
        ∃ x r',
          t.explicitCast rt sig r = .ok x r' ∧
            r'.Lists rt [t, u, x] ∧
            x.signature = u.signature ∧
            ∀ q, q.Lists rt [u, x] → u.GivesAlso rt q x := by
  intro rt
  refine ⟨fun T a b c => classify_explicit, ?_⟩
  rcases listed_after hFresh hHost xs with ⟨c, hListed⟩
  have hSound := hListed.known.sound
  rw [runtime_after] at hSound
  have ht := hListed.names t hNamed
  rcases hSound.of_asType hChecking ht hOk with
    ⟨p, d, hPlan, hGrown, hu, hCon⟩
  refine
    ⟨hGrown.sound.lists_two (Catalog.mem_of_le hGrown.le ht) hu, ?_⟩
  rintro r ⟨d', hSound', hListed'⟩
  have ht' := hListed' t (by simp)
  have hu' := hListed' u (by simp)
  rcases planSignature_explicit hPlan with
    ⟨q, hPlan', hParams, hRet⟩
  rcases hSound'.retypeAs_ok hChecking ht' hPlan' with
    ⟨x, d'', r', hRun, hGrown', hx, hCon'⟩
  have ht'' := Catalog.mem_of_le hGrown'.le ht'
  have hu'' := Catalog.mem_of_le hGrown'.le hu'
  refine ⟨x, r', hRun, ⟨d'', hGrown'.sound, ?_⟩, ?_, ?_⟩
  · exact
      List.forall_mem_cons.2
        ⟨ht'', List.forall_mem_cons.2
          ⟨hu'', List.forall_mem_singleton.2 hx⟩⟩
  · exact hCon'.signature_eq.trans hCon.signature_eq.symm
  · intro now hLists
    exact
      hCon.givesAlso hChecking hHost hGrown'.sound.valid hu'' hx
        hPlan hPlan' hCon'
        (hParams.imp fun _ _ hExtended => hExtended.matchedBy)
        hRet.matchedBy hLists

/- A target of integers. -/
def integers : List Step :=
  [.make (.identity .int) (some "same")]

/- An object in, and a wide integer out. -/
def wideOfObject : Signature :=
  ⟨[.object], .prim .long, admissible_object⟩

/- A box of seven. -/
def boxOfSeven : List Value :=
  [.ref ⟨0, .boxed (.int 7)⟩]

/-
  Whether a named target is retyped and cast, and the retyping
  gives seven afterwards.
-/
def retypesAndCasts
    (s : Session)
    (n : String)
    (sig : Signature) : Bool :=
  match s.context.names.targets.lookup n with
  | none => false
  | some t =>
      match t.asType s.context.runtime sig s.state with
      | .error _ _ => false
      | .ok u s₁ =>
          match t.explicitCast s.context.runtime sig s₁ with
          | .error _ _ => false
          | .ok _ s₂ =>
              isSeven
                ((Entry.way .exact).run s.context.runtime 9 u
                  boxOfSeven s₂)

/- The box is unboxed and widened by the cast, too. -/
theorem explicitCast_extends_asType_boxed :
    ∃ t u x s₁ s₂ r,
      (plain.after integers).context.Names t ∧
        t.asType plain.context.runtime wideOfObject
          (plain.after integers).state = .ok u s₁ ∧
        t.explicitCast plain.context.runtime wideOfObject s₁ =
          .ok x s₂ ∧
        (Entry.way .exact).ComesTo plain.context.runtime x
          boxOfSeven s₂ (.ok (.prim (.long 7)) r) := by
  have hCheck :
      retypesAndCasts (plain.after integers) "same" wideOfObject =
        true := by
    decide +kernel
  unfold retypesAndCasts at hCheck
  rw [runtime_after] at hCheck
  split at hCheck
  · cases hCheck
  · rename_i t hLookup
    have hNamed : (plain.after integers).context.Names t :=
      names_of_lookup hLookup
    split at hCheck
    · cases hCheck
    · rename_i u s₁ hOk
      have hHost := World.host_makesNoTargets (.initial .empty)
      rcases
        explicitCast_extends_asType plain_isFresh rfl hHost integers
          hNamed hOk
        with ⟨_, hLists, hCasts⟩
      rcases hCasts s₁ hLists with
        ⟨x, s₂, hCast, hListed, _, hGives⟩
      rw [hCast] at hCheck
      rcases exists_of_isSeven hCheck with ⟨r, hRun⟩
      rcases
        hGives s₂ (State.Lists.tail hListed) (.way .exact)
          (.way .exact) boxOfSeven _ r (.way .exact) trivial trivial
          ⟨nofun, 9, hRun⟩
        with ⟨r', hComes, _⟩
      exact ⟨t, u, x, s₁, s₂, r', hNamed, hOk, hCast, hComes⟩

end Session

end Linkage
