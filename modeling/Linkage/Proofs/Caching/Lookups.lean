import Linkage.Proofs.Caching.Adapters

/-
  Lookups and operations on call sites agree.  What a lookup
  finds is settled by the host and the classes, which both
  runs share; a call site is found under one number in both,
  with one signature and with targets that are twins.

  Key definitions include:
    * `SiteTwin`

  Key theorems include:
    * `Agree.findVirtual`
    * `Agree.bindMethod`
    * `Agree.findField`
    * `Agree.makeSite`
    * `Agree.setTarget`
    * `Agree.dynamicInvoker`
-/

------------------------------------------------------------
-- Methods
------------------------------------------------------------

namespace Linkage

variable {rt : Runtime}
variable {b : Bool}
variable {w v : Pairing}
variable {s s' : State}
variable {l : Lookup}
variable {owner : ClassName}
variable {name : String}
variable {sig : Signature}
variable {t u : Target}
variable {f : Form Target}

namespace Agree

theorem withVarargs
    {flags : Flags}
    (hChecking : rt.compile = .checking)
    (ht : Twin w t u) :
    Agree rt b w (Lookup.withVarargs rt t flags)
      (Lookup.withVarargs (rt.memoizing b) u flags) Twin := by
  unfold Lookup.withVarargs
  rw [ht.alike.params_eq]
  cases t.params.getLast? with
  | none => exact pure ht
  | some last =>
      dsimp only
      apply ite
      · intro _
        exact asVarargsCollector hChecking ht
      · intro _
        exact pure ht

/- A node without delegates that may collect its arguments. -/
theorem buildMember
    {flags : Flags}
    (hChecking : rt.compile = .checking)
    (hTargets : f.targets = []) :
    Agree rt b w
      (do
        let t ← Target.build rt sig f
        Lookup.withVarargs rt t flags)
      (do
        let t ← Target.build (rt.memoizing b) sig f
        Lookup.withVarargs (rt.memoizing b) t flags)
      Twin := by
  refine bind (R := Twin) (build hChecking (.leaf hTargets)) ?_
  intro v _ t u ht
  exact withVarargs hChecking ht

theorem findStatic
    (hChecking : rt.compile = .checking) :
    Agree rt b w (l.findStatic rt owner name sig)
      (l.findStatic (rt.memoizing b) owner name sig) Twin := by
  unfold Lookup.findStatic
  refine check_bind (Lookup.ofHost_inspects _) ?_
  intro m _
  apply guarded
  intro _
  refine check_bind
    (Lookup.checkAccess_inspects rt l m.declaring owner m.flags
      name) ?_
  intro _ _
  refine check_bind (Lookup.addressOf_inspects m) ?_
  intro entry _
  exact buildMember hChecking rfl

theorem findVirtual
    (hChecking : rt.compile = .checking) :
    Agree rt b w (l.findVirtual rt owner name sig)
      (l.findVirtual (rt.memoizing b) owner name sig) Twin := by
  unfold Lookup.findVirtual
  dsimp only
  refine check_bind (Lookup.ofHost_inspects _) ?_
  intro m _
  apply guarded
  intro _
  refine check_bind
    (Lookup.checkAccess_inspects rt l m.declaring owner m.flags
      name) ?_
  intro _ _
  refine check_bind (.ofSignature _) ?_
  intro whole _
  refine check_bind (Lookup.instanceForm_inspects m _) ?_
  intro form hCalls
  have hTargets : form.targets = [] := by
    cases hCalls with
    | direct a _ => rfl
    | virtual n _ => rfl
    | interface n _ => rfl
  exact buildMember hChecking hTargets

theorem findSpecial
    {caller : ClassName}
    (hChecking : rt.compile = .checking) :
    Agree rt b w (l.findSpecial rt owner name sig caller)
      (l.findSpecial (rt.memoizing b) owner name sig caller)
      Twin := by
  unfold Lookup.findSpecial
  apply guarded
  intro _
  apply guarded
  intro _
  refine check_bind (Lookup.ofHost_inspects _) ?_
  intro m _
  apply guarded
  intro _
  refine check_bind
    (Lookup.checkAccess_inspects rt l m.declaring owner
      m.flags name) ?_
  intro _ _
  refine check_bind (Lookup.specialEntry_inspects rt m) ?_
  intro entry _
  refine check_bind (.ofSignature _) ?_
  intro whole _
  exact buildMember hChecking rfl

theorem findConstructor
    (hChecking : rt.compile = .checking) :
    Agree rt b w (l.findConstructor rt owner sig)
      (l.findConstructor (rt.memoizing b) owner sig) Twin := by
  unfold Lookup.findConstructor
  apply guarded
  intro _
  apply guarded
  intro _
  refine check_bind (Lookup.ofHost_inspects _) ?_
  intro m _
  refine check_bind
    (Lookup.checkAccess_inspects rt l m.declaring owner m.flags
      constructorName) ?_
  intro _ _
  refine check_bind (Lookup.addressOf_inspects m) ?_
  intro entry _
  exact buildMember hChecking rfl

theorem bindMethod
    {receiver : Value}
    (hChecking : rt.compile = .checking) :
    Agree rt b w (l.bind rt receiver name sig)
      (l.bind (rt.memoizing b) receiver name sig) Twin := by
  unfold Lookup.bind
  cases receiver.type? with
  | none => exact throw _
  | some p =>
      cases p with
      | prim k => exact throw _
      | array c => exact throw _
      | cls n =>
          refine bind (findVirtual hChecking) ?_
          intro v _ t u ht
          apply relying
          intro s s' hTwins
          rw [ht.alike.isVarargs_eq]
          refine bind
            (bindTo hChecking (asFixedArity hTwins ht)) ?_
          intro z _ x y hxy
          apply ite
          · intro _
            rw [hxy.alike.params_eq]
            cases x.params.getLast? with
            | none => exact pure hxy
            | some last => exact asVarargsCollector hChecking hxy
          · intro _
            exact pure hxy

------------------------------------------------------------
-- Fields
------------------------------------------------------------

theorem findField
    {p : Ty}
    {isStatic setter : Bool}
    (hChecking : rt.compile = .checking) :
    Agree rt b w (l.findField rt owner name p isStatic setter)
      (l.findField (rt.memoizing b) owner name p isStatic setter)
      Twin := by
  unfold Lookup.findField
  refine check_bind (Lookup.ofHost_inspects _) ?_
  intro f _
  apply guarded
  intro _
  apply guarded
  intro _
  refine check_bind
    (Lookup.checkAccess_inspects rt l f.declaring owner f.flags
      name) ?_
  intro _ _
  refine check_bind (Lookup.offsetOf_inspects owner name f) ?_
  intro offset _
  refine check_bind (.ofSignature _) ?_
  intro sig _
  apply build hChecking
  cases setter with
  | true => exact .leaf rfl
  | false => exact .leaf rfl

end Agree

------------------------------------------------------------
-- Call Sites
------------------------------------------------------------

/-
  Call sites of one number that are alike; the signatures are
  the ones that were listed, and the targets are twins.
-/
structure SiteTwin
    (w : Pairing)
    (i : SiteId)
    (x y : Site) : Prop where
  alike : x.Alike y
  left : w.left.sites[i.index]? = some x.signature
  right : w.right.sites[i.index]? = some y.signature
  target : Twin w x.target y.target

theorem SiteTwin.later
    {i : SiteId}
    {x y : Site}
    (hSite : SiteTwin w i x y)
    (hLe : w ≤ v) :
    SiteTwin v i x y where
  alike := hSite.alike
  left := Catalog.getElem?_of_prefix hLe.1.2 hSite.left
  right := Catalog.getElem?_of_prefix hLe.2.1.2 hSite.right
  target := hSite.target.later hLe

/- A call site accepts a target whenever its twin does so. -/
theorem Site.Alike.accepts_eq
    {x y : Site}
    (hSite : x.Alike y)
    (ht : t.Alike u) :
    y.accepts u = x.accepts t := by
  unfold Site.accepts
  rw [hSite.policy_eq, hSite.signature_eq, ht.signature_eq]

/- Lists in which one member each is replaced. -/
theorem forall₂_set
    {α : Type}
    {R : α → α → Prop}
    {xs ys : List α}
    {x y : α}
    (hLists : List.Forall₂ R xs ys)
    (hNew : R x y)
    (n : Nat) :
    List.Forall₂ R (xs.set n x) (ys.set n y) := by
  induction hLists generalizing n with
  | nil => exact .nil
  | cons hxy hRest ih =>
      cases n with
      | zero => exact .cons hNew hRest
      | succ n => exact .cons hxy (ih n)

namespace Twins

/- The call sites of twins are twins. -/
theorem siteTwin
    (hTwins : Twins rt b w s s')
    (i : SiteId) :
    Option.Rel (SiteTwin w i) (s.site? i) (s'.site? i) := by
  have hLeft := hTwins.left.site i
  have hRight := hTwins.right.site i
  have hRel := hTwins.site? i
  generalize s.site? i = x at hRel hLeft
  generalize s'.site? i = y at hRel hRight
  cases hRel with
  | none => exact .none
  | some hAlike =>
      rcases hLeft _ rfl with ⟨hSig, hMem, _⟩
      rcases hRight _ rfl with ⟨hSig', hMem', _⟩
      exact
        .some ⟨hAlike, hSig, hSig', hMem, hMem', hAlike.target⟩

/- As many call sites were made. -/
theorem size_sites_eq
    (hTwins : Twins rt b w s s') :
    s'.sites.size = s.sites.size :=
  hTwins.sites.length_eq.symm

/- A call site that is added in both. -/
theorem addSite
    {policy : Policy}
    (hTwins : Twins rt b w s s')
    (ht : Twin w t u) :
    Twins rt b
      ⟨w.left.addSite t.signature, w.right.addSite u.signature,
        w.same⟩
      { s with sites := s.sites.push ⟨policy, t.signature, t⟩ }
      { s' with
        sites := s'.sites.push ⟨policy, u.signature, u⟩ } where
  left := hTwins.left.addSite ht.left
  right := hTwins.right.addSite ht.right
  heap := hTwins.heap
  sites := by
    simp only [Array.toList_push]
    refine List.rel_append hTwins.sites (.cons ?_ .nil)
    exact ⟨rfl, ht.alike.signature_eq, ht.alike⟩
  trace := hTwins.trace
  same := hTwins.same

/- A call site that gets twins as its targets. -/
theorem setSite
    {i : SiteId}
    {x y : Site}
    (hTwins : Twins rt b w s s')
    (hSite : SiteTwin w i x y)
    (ht : Twin w t u)
    (hSig : t.signature = x.signature) :
    Twins rt b w
      { s with
        sites :=
          s.sites.setIfInBounds i.index { x with target := t } }
      { s' with
        sites :=
          s'.sites.setIfInBounds i.index
            { y with target := u } } where
  left := hTwins.left.setSite hSite.left ht.left hSig
  right := by
    apply hTwins.right.setSite hSite.right ht.right
    rw [ht.alike.signature_eq, hSig, hSite.alike.signature_eq]
  heap := hTwins.heap
  sites := by
    simp only [Array.toList_setIfInBounds]
    apply forall₂_set hTwins.sites
    exact
      ⟨hSite.alike.policy_eq, hSite.alike.signature_eq, ht.alike⟩
  trace := hTwins.trace
  same := hTwins.same

end Twins

namespace Agree

theorem makeSite
    {policy : Policy}
    (ht : Twin w t u) :
    Agree rt b w (Site.make policy t) (Site.make policy u)
      (fun _ i j => j = i) := by
  intro s s' hTwins
  have hLe :
      w ≤
        ⟨w.left.addSite t.signature, w.right.addSite u.signature,
          w.same⟩ :=
    ⟨Catalog.le_addSite _ _, Catalog.le_addSite _ _, rfl⟩
  refine .ok hLe (hTwins.addSite ht) ?_
  rw [hTwins.size_sites_eq]

theorem unlinkedSite
    {policy : Policy}
    (hChecking : rt.compile = .checking) :
    Agree rt b w (Site.unlinked rt policy sig)
      (Site.unlinked (rt.memoizing b) policy sig)
      (fun _ i j => j = i) := by
  unfold Site.unlinked
  apply guarded
  intro _
  refine bind (R := Twin) (build hChecking (.leaf rfl)) ?_
  intro v _ t u ht
  exact makeSite ht

theorem setTarget
    {i : SiteId}
    {x y : Site}
    (hSite : SiteTwin w i x y)
    (ht : Twin w t u) :
    Agree rt b w (Site.setTarget i x t) (Site.setTarget i y u)
      (fun _ _ _ => True) := by
  intro s s' hTwins
  unfold Site.setTarget
  rw [hSite.alike.accepts_eq ht.alike]
  cases hAccepts : x.accepts t with
  | error e => exact .error (le_refl w) hTwins
  | ok _ =>
      have hSig : t.signature = x.signature :=
        Site.signature_of_accepts hAccepts
      exact
        .ok (le_refl w) (hTwins.setSite hSite ht hSig) trivial

theorem dynamicInvoker
    {i : SiteId}
    {x y : Site}
    (hChecking : rt.compile = .checking)
    (hSite : SiteTwin w i x y) :
    Agree rt b w (Site.dynamicInvoker rt i x)
      (Site.dynamicInvoker (rt.memoizing b) i y) Twin := by
  unfold Site.dynamicInvoker
  rw [hSite.alike.policy_eq, hSite.alike.signature_eq]
  apply ite
  · intro _
    exact pure hSite.target
  · intro _
    exact build hChecking (.leaf rfl)

end Agree

end Linkage
