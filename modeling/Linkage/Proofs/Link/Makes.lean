import Linkage.Proofs.Keeps
import Linkage.Proofs.Link.Fits
import Linkage.Proofs.Signature

/-
  Operations that make targets keep catalogs.  From a sound
  state they come to a sound one with more in the catalog,
  whether they fail or not, and each node that is made fits
  its signature.  Whatever else is known of the heap, the
  call sites and the trace stays known.

  Key definitions include:
    * `Link.Inspects`
    * `Known`
    * `Makes`

  Key theorems include:
    * `Makes.check_bind`
    * `Makes.buildKeyed`
    * `Makes.build`
    * `Makes.convert`
    * `Makes.asType`
    * `Makes.explicitCast`
-/

------------------------------------------------------------
-- Operations that Look at their Arguments
------------------------------------------------------------

namespace Linkage

/-
  An operation has an outcome that does not depend on the
  state, and leaves the state as it is.
-/
def Link.Inspects
    {α : Type}
    (m : Link α)
    (P : α → Prop) : Prop :=
  ∃ x : Except LinkError α,
    (∀ s,
      m s =
        match x with
        | .ok a => .ok a s
        | .error e => .error e s) ∧
      ∀ a, x = .ok a → P a

namespace Link.Inspects

variable {α β : Type}
variable {P : α → Prop}
variable {R : β → Prop}

theorem pure
    {a : α}
    (hPost : P a) :
    Link.Inspects (Pure.pure a) P := by
  refine ⟨.ok a, fun _ => rfl, ?_⟩
  intro b hb
  cases hb
  exact hPost

theorem throw
    (e : LinkError) :
    Link.Inspects (MonadExcept.throw e) P := by
  refine ⟨.error e, fun _ => rfl, ?_⟩
  intro b hb
  cases hb

theorem bind
    {m : Link β}
    {f : β → Link α}
    (hFirst : m.Inspects R)
    (hSecond : ∀ b, R b → (f b).Inspects P) :
    Link.Inspects (m >>= f) P := by
  rcases hFirst with ⟨x, hx, hOk⟩
  cases x with
  | ok b =>
      rcases hSecond b (hOk b rfl) with ⟨y, hy, hPost⟩
      refine ⟨y, ?_, hPost⟩
      intro s
      change EStateM.bind m f s = _
      unfold EStateM.bind
      rw [hx]
      exact hy s
  | error e =>
      refine ⟨.error e, ?_, ?_⟩
      · intro s
        change EStateM.bind m f s = _
        unfold EStateM.bind
        rw [hx]
      · intro a ha
        cases ha

/- What follows was run with a result that it allows. -/
theorem of_bind_ok
    {m : Link β}
    {f : β → Link α}
    {s s' : State}
    {a : α}
    (hInspects : m.Inspects R)
    (hOk : (m >>= f) s = .ok a s') :
    ∃ b, R b ∧ f b s = .ok a s' := by
  rcases hInspects with ⟨x, hx, hPost⟩
  change EStateM.bind m f s = _ at hOk
  unfold EStateM.bind at hOk
  rw [hx] at hOk
  cases x with
  | ok b => exact ⟨b, hPost b rfl, hOk⟩
  | error e => cases hOk

theorem imp
    {P' : α → Prop}
    {m : Link α}
    (hInspects : m.Inspects P)
    (hPost : ∀ a, P a → P' a) :
    m.Inspects P' := by
  rcases hInspects with ⟨x, hx, hOk⟩
  exact ⟨x, hx, fun a ha => hPost a (hOk a ha)⟩

/- A signature that is derived is the one of the derivation. -/
theorem ofSignature
    (x : Except SignatureError α) :
    (Link.ofSignature x).Inspects (fun a => x = .ok a) := by
  cases x with
  | ok a => exact pure rfl
  | error e => exact throw _

end Link.Inspects

------------------------------------------------------------
-- Operations that Make Targets
------------------------------------------------------------

/- A fact about the heap, the call sites and the trace. -/
abbrev Surroundings :=
  Heap → Array Site → List Event → Prop

/-
  A catalog of nodes that fit, for which a state is sound,
  and a fact about the rest of the state.
-/
structure Known
    (rt : Runtime)
    (F : Surroundings)
    (c : Catalog)
    (s : State) : Prop where
  fits : c.Fits rt
  sound : s.Sound rt c
  around : F s.heap s.sites s.trace

/- What is known does not depend on what is held. -/
theorem Known.withHeld
    {rt : Runtime}
    {F : Surroundings}
    (c : Catalog)
    (s : State)
    (rs : List Root)
    (hKnown : Known rt F c s) :
    Known rt F c { s with held := rs } :=
  ⟨hKnown.fits, hKnown.sound.withHeld rs, hKnown.around⟩

/-
  A link operation comes to a state that is known again, and
  to a result that is as promised if it succeeds.
-/
def Makes
    {α : Type}
    (rt : Runtime)
    (F : Surroundings)
    (c : Catalog)
    (m : Link α)
    (Q : Catalog → α → Prop) : Prop :=
  Keeps (Known rt F) Q (fun _ _ => True) c m

variable {α β : Type}
variable {rt : Runtime}
variable {F : Surroundings}
variable {c d : Catalog}
variable {sig : Signature}
variable {form : Form Target}
variable {t u : Target}
variable {Q Q' : Catalog → α → Prop}
variable {R : Catalog → β → Prop}

namespace Makes

theorem pure
    {a : α}
    (hPost : Q c a) :
    Makes rt F c (Pure.pure a) Q :=
  Keeps.pure hPost

theorem throw
    (e : LinkError) :
    Makes rt F c (MonadExcept.throw e) Q :=
  Keeps.throw trivial

theorem bind
    {m : Link β}
    {f : β → Link α}
    (hFirst : Makes rt F c m R)
    (hSecond : ∀ d, c ≤ d → ∀ b, R d b → Makes rt F d (f b) Q) :
    Makes rt F c (m >>= f) Q :=
  Keeps.bind hFirst hSecond

theorem imp
    {m : Link α}
    (hMakes : Makes rt F c m Q)
    (hPost : ∀ d, c ≤ d → ∀ a, Q d a → Q' d a) :
    Makes rt F c m Q' :=
  hMakes.imp_ok hPost

/- What the catalog says may be relied on. -/
theorem known
    {m : Link α}
    (hMakes : c.Fits rt → c.Valid rt → Makes rt F c m Q) :
    Makes rt F c m Q := by
  intro s hKnown
  exact hMakes hKnown.fits hKnown.sound.valid s hKnown

/- A check before an operation. -/
theorem check_bind
    {P : β → Prop}
    {m : Link β}
    {f : β → Link α}
    (hCheck : m.Inspects P)
    (hRest : ∀ b, P b → Makes rt F c (f b) Q) :
    Makes rt F c (m >>= f) Q := by
  rcases hCheck with ⟨x, hx, hOk⟩
  intro s hKnown
  change Leaves (Known rt F) Q _ c (EStateM.bind m f s)
  unfold EStateM.bind
  rw [hx]
  cases x with
  | ok b => exact hRest b (hOk b rfl) s hKnown
  | error e => exact ⟨c, le_refl c, hKnown, trivial⟩

------------------------------------------------------------
-- New Nodes
------------------------------------------------------------

theorem buildKeyed
    {exact : SlotRange}
    {extra : Option Stub.Extra}
    (hTargets : ∀ u ∈ form.targets, u ∈ c.made)
    (hFits : form.Fits rt c.sites sig)
    (hExact :
      exact = .none ∨
        exact = ⟨0, 1⟩ ∧ sig.params.head? = some .methodHandle) :
    Makes rt F c (Target.buildKeyed rt sig form exact extra)
      (fun d u =>
        u ∈ d.made ∧ u.signature = sig ∧ u.form = form ∧
          u.stub.key = .ofSignature sig exact extra) := by
  intro s hKnown
  have hBuild :=
    hKnown.sound.buildKeyed extra hTargets hExact
  cases hRun : Target.buildKeyed rt sig form exact extra s with
  | ok t s' =>
      rw [hRun] at hBuild
      rcases hBuild with ⟨hSound, hSig, hForm, hKey, k, n, rfl⟩
      have hNode : t.form.Fits rt c.sites t.signature := by
        rw [hForm, hSig]
        exact hFits
      refine
        ⟨c.addNode t, Catalog.le_addNode c t,
          ⟨hKnown.fits.addNode hNode, hSound, hKnown.around⟩,
          ?_, hSig, hForm, hKey⟩
      exact Catalog.mem_addNode.2 (Or.inr rfl)
  | error e s' =>
      rw [hRun] at hBuild
      rcases hBuild with ⟨hSound, k, rfl⟩
      exact
        ⟨c, le_refl c, ⟨hKnown.fits, hSound, hKnown.around⟩,
          trivial⟩

/- A node with a plain stub. -/
theorem build
    (hTargets : ∀ u ∈ form.targets, u ∈ c.made)
    (hFits : form.Fits rt c.sites sig) :
    Makes rt F c (Target.build rt sig form)
      (fun d u => u ∈ d.made ∧ u.Is sig form) := by
  have hKeyed :
      Makes rt F c
        (Target.buildKeyed rt sig form .none none) _ :=
    buildKeyed hTargets hFits (Or.inl rfl)
  refine hKeyed.imp ?_
  intro d _ u hu
  exact ⟨hu.1, hu.2.1, hu.2.2.1, hu.2.2.2⟩

/- A node that is only known to be in the catalog. -/
theorem build_mem
    (hTargets : ∀ u ∈ form.targets, u ∈ c.made)
    (hFits : form.Fits rt c.sites sig) :
    Makes rt F c (Target.build rt sig form)
      (fun d u => u ∈ d.made) :=
  (build hTargets hFits).imp (fun _ _ _ h => h.1)

------------------------------------------------------------
-- Conversions along a Plan
------------------------------------------------------------

/- What a plan is made of. -/
theorem of_planSignature
    {T : ClassTable}
    {caller callee : Signature}
    {how : Strength}
    {p : Plan}
    (hPlan : planSignature T caller callee how = .ok p) :
    caller.count = callee.count ∧
      planParams T how 0 caller.params callee.params =
        .ok p.params ∧
      classify T callee.ret caller.ret how = some p.ret := by
  unfold planSignature at hPlan
  split at hPlan
  · cases hPlan
  · rename_i hCount
    split at hPlan
    · cases hPlan
    · rename_i cs hParams
      split at hPlan
      · cases hPlan
      · rename_i r hRet
        cases hPlan
        exact ⟨not_not.1 hCount, hParams, hRet⟩

theorem convertResult
    {ret : Ty}
    {r : Conversion}
    {how : Strength}
    (ht : t ∈ c.made)
    (hClass : classify rt.classes t.ret ret how = some r) :
    Makes rt F c (t.convertResult rt ret r)
      (fun d v => v ∈ d.made ∧ t.ResultConverted ret r v) := by
  unfold Target.convertResult
  split
  · rename_i hRet
    exact Makes.pure ⟨ht, .same hRet⟩
  · rename_i hRet
    have hFits :
        (Form.convertReturn t r).Fits rt c.sites
          (t.signature.withRet ret) :=
      .convertReturn rfl hClass
    refine (Makes.build ?_ hFits).imp ?_
    · intro u hu
      rw [List.mem_singleton.1 hu]
      exact ht
    · intro d _ v hv
      exact ⟨hv.1, .node hRet hv.2⟩

theorem convertParams
    {cs : List Conversion}
    {how : Strength}
    (ht : t ∈ c.made)
    (hPlan :
      planParams rt.classes how 0 sig.params t.params = .ok cs)
    (hCount : sig.count = t.count)
    (hRet : t.ret = sig.ret) :
    Makes rt F c (t.convertParams rt sig cs)
      (fun d v => v ∈ d.made ∧ t.ParamsConverted sig cs v) := by
  unfold Target.convertParams
  split
  · rename_i hSig
    exact Makes.pure ⟨ht, .same hSig⟩
  · rename_i hSig
    have hFits :
        (Form.convertArguments t cs).Fits rt c.sites sig :=
      .convertArguments hPlan hCount hRet
    refine (Makes.build ?_ hFits).imp ?_
    · intro u hu
      rw [List.mem_singleton.1 hu]
      exact ht
    · intro d _ v hv
      exact ⟨hv.1, .node hSig hv.2⟩

/-
  After the conversion of the result, the parameters are
  those of the target and the result is the wanted one.
-/
theorem of_resultConverted
    {ret : Ty}
    {r : Conversion}
    {v : Target}
    (h : t.ResultConverted ret r v) :
    v.params = t.params ∧ v.ret = ret := by
  cases h with
  | same hRet => exact ⟨rfl, hRet⟩
  | node _ hIs =>
      unfold Target.params Target.ret
      rw [hIs.signature_eq]
      exact ⟨rfl, rfl⟩

theorem convert
    {p : Plan}
    {how : Strength}
    (ht : t ∈ c.made)
    (hPlan :
      planSignature rt.classes sig t.signature how = .ok p) :
    Makes rt F c (t.convert rt sig p)
      (fun d u => u ∈ d.made ∧ t.Converted sig p u) := by
  rcases of_planSignature hPlan with ⟨hCount, hParams, hRet⟩
  unfold Target.convert
  refine Makes.bind (convertResult ht hRet) ?_
  intro d _ v hv
  rcases of_resultConverted hv.2 with ⟨hSame, hv'⟩
  have hPlan' :
      planParams rt.classes how 0 sig.params v.params =
        .ok p.params := by
    rw [hSame]
    exact hParams
  have hCount' : sig.count = v.count :=
    hCount.trans (congrArg List.length hSame.symm)
  refine (convertParams hv.1 hPlan' hCount' hv').imp ?_
  intro e _ u hu
  exact ⟨hu.1, v, hv.2, hu.2⟩

------------------------------------------------------------
-- Retyping
------------------------------------------------------------

/- A target that is retyped remembers it. -/
theorem retype
    (ht : t ∈ c.made) :
    Makes rt F c (t.retype rt sig)
      (fun d u =>
        u ∈ d.made ∧ u.signature = sig ∧
          t.Retyped rt.classes u) := by
  unfold Target.retype
  refine Makes.check_bind (.ofSignature _) ?_
  intro p hPlan
  refine Makes.bind (convert ht hPlan) ?_
  intro d hd u hu
  have hSig : u.signature = sig := hu.2.signature_eq
  have hRetyped : t.Retyped rt.classes u := by
    refine ⟨p, ?_, ?_⟩
    · rw [hSig]
      exact hPlan
    · rw [hSig]
      exact hu.2
  have hPost :
      Makes rt F d (Pure.pure u)
        (fun d u =>
          u ∈ d.made ∧ u.signature = sig ∧
            t.Retyped rt.classes u) :=
    Makes.pure ⟨hu.1, hSig, hRetyped⟩
  dsimp only
  split
  · refine Makes.bind (R := fun e _ => e = d) ?_ ?_
    · apply Keeps.change
      · intro s hKnown
        have ht' : t ∈ d.made := Catalog.mem_of_le hd ht
        exact
          ⟨hKnown.fits, hKnown.sound.remember ht' hu.1 hRetyped,
            hKnown.around⟩
      · rfl
    · intro e _ _ hEq
      subst hEq
      exact hPost
  · exact hPost

/-
  Retyping gives the target itself, what it remembers, or a
  new retyping of it.
-/
theorem asType
    (ht : t ∈ c.made) :
    Makes rt F c (t.asType rt sig)
      (fun d u =>
        u ∈ d.made ∧ u.signature = sig ∧
          (u = t ∨ t.Retyped rt.classes u)) := by
  unfold Target.asType
  split
  · rename_i hSig
    exact Makes.pure ⟨ht, hSig, Or.inl rfl⟩
  · apply Keeps.get_bind
    intro s hKnown
    split
    · rename_i u hMemo
      unfold Target.remembered? at hMemo
      split at hMemo
      · split at hMemo
        · rename_i v hRemembered
          split at hMemo
          · rename_i hCond
            cases hMemo
            rcases hKnown.sound.memoOf ht hRemembered with
              ⟨hu, hRetyped⟩
            have hSig : u.signature = sig := by
              simp only [Bool.and_eq_true,
                decide_eq_true_eq] at hCond
              exact hCond.1
            exact Makes.pure ⟨hu, hSig, Or.inr hRetyped⟩
          · cases hMemo
        · cases hMemo
      · cases hMemo
    · refine (retype ht).imp ?_
      intro d _ u hu
      exact ⟨hu.1, hu.2.1, Or.inr hu.2.2⟩

theorem explicitCast
    (ht : t ∈ c.made) :
    Makes rt F c (t.explicitCast rt sig)
      (fun d u => u ∈ d.made) := by
  unfold Target.explicitCast
  split
  · exact Makes.pure ht
  · refine Makes.check_bind (.ofSignature _) ?_
    intro p hPlan
    refine (convert ht hPlan).imp ?_
    intro d _ u hu
    exact hu.1

end Makes

end Linkage
