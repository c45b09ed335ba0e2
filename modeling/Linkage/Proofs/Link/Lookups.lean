import Linkage.Proofs.Link.Adapters

/-
  Lookups and call sites make nodes that fit: the node of a
  member has the signature of what the host resolved, after
  the receiver.

  Key definitions include:
    * `Surroundings.AllowsSites`
    * `Surroundings.IgnoresSites`

  Key theorems include:
    * `Makes.findStatic`
    * `Makes.findVirtual`
    * `Makes.findSpecial`
    * `Makes.findConstructor`
    * `Makes.findField`
    * `Makes.bindMethod`
    * `Makes.unlinkedSite`
    * `Makes.setTarget`
-/

------------------------------------------------------------
-- Answers of the Host
------------------------------------------------------------

namespace Linkage

/- A fact stays known when a call site is made. -/
def Surroundings.AllowsSites (F : Surroundings) : Prop :=
  ∀ h xs es x, F h xs es → F h (xs.push x) es

/- A fact that is known whatever call sites there are. -/
def Surroundings.IgnoresSites (F : Surroundings) : Prop :=
  ∀ h xs ys es, F h xs es → F h ys es

variable {rt : Runtime}
variable {F : Surroundings}
variable {c d : Catalog}
variable {l : Lookup}
variable {owner : ClassName}
variable {name : String}
variable {sig : Signature}
variable {t : Target}

namespace Lookup

theorem ofHost_inspects
    {α : Type}
    (x : Except LinkError α) :
    (ofHost x).Inspects (fun a => x = .ok a) := by
  cases x with
  | ok a => exact .pure rfl
  | error e => exact .throw e

theorem checkAccess_inspects
    (rt : Runtime)
    (l : Lookup)
    (defining reference : ClassName)
    (flags : Flags)
    (member : String) :
    (l.checkAccess rt defining reference flags member).Inspects
      (fun _ => True) := by
  unfold checkAccess
  split
  · exact .throw _
  · exact (ofHost_inspects _).imp (fun _ _ => trivial)

theorem addressOf_inspects (m : Method) :
    (addressOf m).Inspects (fun a => m.slot = .address a) := by
  unfold addressOf
  split
  · rename_i a hSlot
    exact .pure hSlot
  · exact .throw _

theorem instanceForm_inspects
    (m : Method)
    (how : MethodKind) :
    (instanceForm m how).Inspects (fun f => f.Calls m how) := by
  unfold instanceForm
  split
  · rename_i a hSlot
    exact .pure (.direct a hSlot)
  · rename_i n hSlot
    exact .pure (.virtual n hSlot)
  · rename_i n hSlot
    exact .pure (.interface n hSlot)
  · exact .throw _

theorem specialEntry_inspects
    (rt : Runtime)
    (m : Method) :
    (specialEntry rt m).Inspects
      (fun a => rt.host.Selects m (.cls m.declaring) a) := by
  unfold specialEntry
  dsimp only
  split
  · rename_i a hSlot
    exact .pure (.address hSlot)
  · rename_i n hSlot
    split
    · rename_i a hEntry
      exact .pure (.virtualTable n hSlot hEntry)
    · exact .throw _
  · rename_i n hSlot
    split
    · rename_i a hEntry
      exact .pure (.interfaceTable n hSlot hEntry)
    · exact .throw _
  · exact .throw _

theorem offsetOf_inspects
    (owner : ClassName)
    (name : String)
    (f : Field) :
    (offsetOf owner name f).Inspects
      (fun n => f.slot = .fieldOffset n) := by
  unfold offsetOf
  split
  · rename_i n hSlot
    exact .pure hSlot
  · exact .throw _

/- The receiver is of the owner or of the class that looks. -/
theorem receiverType_eq
    (rt : Runtime)
    (l : Lookup)
    (owner : ClassName)
    (m : Method) :
    ∃ n,
      l.receiverType rt owner m = .cls n ∧
        rt.classes.isSubclass n owner = true := by
  unfold receiverType
  split
  · rename_i hCond
    simp only [Bool.and_eq_true] at hCond
    exact ⟨l.cls, rfl, hCond.2⟩
  · exact ⟨owner, rfl, rt.classes.isSubclass_refl owner⟩

end Lookup

/- What a call site accepts has its signature. -/
theorem Site.signature_of_accepts
    {x : Site}
    (hAccepts : x.accepts t = .ok ()) :
    t.signature = x.signature := by
  unfold Site.accepts at hAccepts
  split at hAccepts
  · cases hAccepts
  · split at hAccepts
    · cases hAccepts
    · rename_i hEq
      exact not_not.1 hEq

namespace Makes

------------------------------------------------------------
-- Methods
------------------------------------------------------------

theorem withVarargs
    {flags : Flags}
    (ht : t ∈ c.made) :
    Makes rt F c (Lookup.withVarargs rt t flags)
      (fun d u => u ∈ d.made) := by
  unfold Lookup.withVarargs
  split
  · split
    · exact asVarargsCollector ht
    · exact Makes.pure ht
  · exact Makes.pure ht

/- A node without delegates that may collect its arguments. -/
theorem buildMember
    {form : Form Target}
    {flags : Flags}
    (hTargets : form.targets = [])
    (hFits : form.Fits rt c.sites sig) :
    Makes rt F c
      (do
        let t ← Target.build rt sig form
        Lookup.withVarargs rt t flags)
      (fun d u => u ∈ d.made) := by
  refine Makes.bind (build_mem ?_ hFits) ?_
  · intro u hu
    rw [hTargets] at hu
    cases hu
  · intro d _ t ht
    exact withVarargs ht

theorem findStatic :
    Makes rt F c (l.findStatic rt owner name sig)
      (fun d u => u ∈ d.made) := by
  unfold Lookup.findStatic
  refine check_bind (Lookup.ofHost_inspects _) ?_
  intro m hResolve
  split
  · exact Makes.throw _
  · refine check_bind (Lookup.checkAccess_inspects ..) ?_
    intro _ _
    refine check_bind (Lookup.addressOf_inspects m) ?_
    intro entry hSlot
    exact buildMember rfl (.static hResolve hSlot rfl)

theorem findVirtual :
    Makes rt F c (l.findVirtual rt owner name sig)
      (fun d u => u ∈ d.made) := by
  unfold Lookup.findVirtual
  dsimp only
  refine check_bind (Lookup.ofHost_inspects _) ?_
  intro m hResolve
  split
  · exact Makes.throw _
  · refine check_bind (Lookup.checkAccess_inspects ..) ?_
    intro _ _
    refine check_bind (.ofSignature _) ?_
    intro whole hWhole
    refine check_bind (Lookup.instanceForm_inspects m _) ?_
    intro form hCalls
    rcases Signature.of_insertParams hWhole with
      ⟨_, hParams, hRet⟩
    rcases Lookup.receiverType_eq rt l owner m with
      ⟨n, hReceiver, hSub⟩
    rw [hReceiver] at hParams
    have hHow :
        Lookup.instanceKind rt owner = .isVirtual ∨
          Lookup.instanceKind rt owner = .isInterface := by
      unfold Lookup.instanceKind
      split
      · exact Or.inr rfl
      · exact Or.inl rfl
    have hTargets : form.targets = [] := by
      cases hCalls with
      | direct a _ => rfl
      | virtual n _ => rfl
      | interface n _ => rfl
    exact
      buildMember hTargets
        (.method hHow hResolve hSub hParams hRet hCalls)

theorem findSpecial
    {caller : ClassName} :
    Makes rt F c (l.findSpecial rt owner name sig caller)
      (fun d u => u ∈ d.made) := by
  unfold Lookup.findSpecial
  split
  · exact Makes.throw _
  · split
    · exact Makes.throw _
    · rename_i hSub
      refine check_bind (Lookup.ofHost_inspects _) ?_
      intro m hResolve
      split
      · exact Makes.throw _
      · refine check_bind (Lookup.checkAccess_inspects ..) ?_
        intro _ _
        refine check_bind (Lookup.specialEntry_inspects rt m) ?_
        intro entry hSelects
        refine check_bind (.ofSignature _) ?_
        intro whole hWhole
        rcases Signature.of_insertParams hWhole with
          ⟨_, hParams, hRet⟩
        have hReceiver :
            rt.classes.isSubclass caller owner = true := by
          simpa using hSub
        exact
          buildMember rfl
            (.special hResolve hSelects hReceiver hParams hRet)

theorem findConstructor :
    Makes rt F c (l.findConstructor rt owner sig)
      (fun d u => u ∈ d.made) := by
  unfold Lookup.findConstructor
  split
  · exact Makes.throw _
  · split
    · exact Makes.throw _
    · refine check_bind (Lookup.ofHost_inspects _) ?_
      intro m hResolve
      refine check_bind (Lookup.checkAccess_inspects ..) ?_
      intro _ _
      refine check_bind (Lookup.addressOf_inspects m) ?_
      intro entry hSlot
      exact buildMember rfl (.constructor hResolve hSlot rfl)

/- A bound method keeps collecting trailing arguments. -/
theorem bindMethod
    {receiver : Value}
    (hBoxes : F.AllowsBoxes) :
    Makes rt F c (l.bind rt receiver name sig)
      (fun d u => u ∈ d.made) := by
  unfold Lookup.bind
  split
  · exact Makes.throw _
  · refine Makes.bind findVirtual ?_
    intro d _ t ht
    apply known
    intro hFits hValid
    rcases asFixedArity_mem hFits hValid ht with ⟨hFixed, _⟩
    refine Makes.bind (bindTo hBoxes hFixed) ?_
    intro e _ bound hBound
    split
    · split
      · exact asVarargsCollector hBound
      · exact Makes.pure hBound
    · exact Makes.pure hBound
  · exact Makes.throw _

------------------------------------------------------------
-- Fields
------------------------------------------------------------

theorem findField
    {p : Ty}
    {isStatic setter : Bool} :
    Makes rt F c (l.findField rt owner name p isStatic setter)
      (fun d u => u ∈ d.made) := by
  unfold Lookup.findField
  refine check_bind (Lookup.ofHost_inspects _) ?_
  intro f hResolve
  split
  · exact Makes.throw _
  · rename_i hStatic
    split
    · exact Makes.throw _
    · refine check_bind (Lookup.checkAccess_inspects ..) ?_
      intro _ _
      refine check_bind (Lookup.offsetOf_inspects ..) ?_
      intro offset hSlot
      refine check_bind (.ofSignature _) ?_
      intro sig hSig
      rw [← not_not.1 hStatic] at hSig
      cases setter with
      | true =>
          refine build_mem ?_ (.fieldSet hResolve hSlot hSig)
          intro u hu
          cases hu
      | false =>
          refine build_mem ?_ (.fieldGet hResolve hSlot hSig)
          intro u hu
          cases hu

------------------------------------------------------------
-- Call Sites
------------------------------------------------------------

/- A new call site has the signature of its target. -/
theorem makeSite
    {policy : Policy}
    (hSites : F.AllowsSites)
    (ht : t ∈ c.made) :
    Makes rt F c (Site.make policy t) (fun _ _ => True) := by
  intro s hKnown
  refine
    ⟨c.addSite t.signature, Catalog.le_addSite _ _,
      ⟨hKnown.fits.addSite _, ?_, ?_⟩, trivial⟩
  · exact hKnown.sound.addSite ht
  · exact hSites _ _ _ _ hKnown.around

theorem unlinkedSite
    {policy : Policy}
    (hSites : F.AllowsSites) :
    Makes rt F c (Site.unlinked rt policy sig)
      (fun _ _ => True) := by
  unfold Site.unlinked
  split
  · exact Makes.throw _
  · refine Makes.bind (build_mem ?_ .unlinked) ?_
    · intro u hu
      cases hu
    · intro d _ t ht
      exact makeSite hSites ht

/- A call site may get a target of its own signature. -/
theorem setTarget
    {i : SiteId}
    {x : Site}
    (hSites : F.IgnoresSites)
    (hSite : c.sites[i.index]? = some x.signature)
    (ht : t ∈ c.made) :
    Makes rt F c (Site.setTarget i x t) (fun _ _ => True) := by
  intro s hKnown
  unfold Site.setTarget
  cases hAccepts : x.accepts t with
  | error e => exact ⟨c, le_refl c, hKnown, trivial⟩
  | ok _ =>
      have hSig : t.signature = x.signature :=
        Site.signature_of_accepts hAccepts
      refine ⟨c, le_refl c, ⟨hKnown.fits, ?_, ?_⟩, trivial⟩
      · exact hKnown.sound.setSite hSite ht hSig
      · exact hSites _ _ _ _ hKnown.around

theorem dynamicInvoker
    {i : SiteId}
    {x : Site}
    (hSite : c.sites[i.index]? = some x.signature)
    (hTarget : x.target ∈ c.made) :
    Makes rt F c (Site.dynamicInvoker rt i x)
      (fun d u => u ∈ d.made) := by
  unfold Site.dynamicInvoker
  split
  · exact Makes.pure hTarget
  · refine build_mem ?_ (.site hSite)
    intro u hu
    cases hu

end Makes

end Linkage
