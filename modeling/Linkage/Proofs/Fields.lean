import Linkage.Proofs.Protected
import Linkage.Proofs.Typing.Members

/-
  Fields that are found.  The receiver of a field is of the
  class that was asked for it, whatever the flags of the
  field are.  A protected field of another package is kept
  for receivers of the class that looks only if that class
  was asked, or one below it.

  Key definitions include:
    * `Field.IsRestricted`
    * `Lookup.Accesses`
    * `Target.TakesOnly`

  Key theorems include:
    * `Lookup.findField_yields`
    * `Lookup.fieldSignature_ok`
    * `Lookup.findField_succeeds`
    * `Lookup.Accesses.takesOnly_iff`
    * `Lookup.Accesses.as_method_iff`
    * `Lookup.restricted_fields_take_owners`
-/

------------------------------------------------------------
-- Fields that are Found
------------------------------------------------------------

namespace Linkage

variable {rt : Runtime}
variable {l : Lookup}
variable {f : Field}
variable {owner : ClassName}
variable {name : String}
variable {t : Ty}
variable {isStatic setter : Bool}
variable {u : Target}

/- A protected field, seen from a class of another package. -/
def Field.IsRestricted
    (f : Field)
    (n : ClassName) : Prop :=
  f.flags.has .isProtected = true ∧ ¬f.declaring.SamePackage n

/- Every first argument is of the class or of one below it. -/
def Target.TakesOnly
    (T : ClassTable)
    (u : Target)
    (n : ClassName) : Prop :=
  ∃ c, u.params.head? = some (.cls c) ∧ T.isSubclass c n = true

namespace Lookup

/-
  What is found for a request for a field: the host resolved
  one that suits the request, it was granted and allowed, and
  the target reads or writes it where it lives.
-/
structure Accesses
    (rt : Runtime)
    (l : Lookup)
    (owner : ClassName)
    (name : String)
    (t : Ty)
    (isStatic setter : Bool)
    (f : Field)
    (u : Target) : Prop where
  resolved : rt.host.resolveField owner name t l.cls = .ok f
  suits : f.flags.has .isStatic = isStatic
  writable : setter = true → f.flags.has .isFinal = false
  granted : l.Grants rt.classes f.declaring owner f.flags
  allowed :
    rt.host.check f.declaring owner f.flags l.cls = .ok ()
  params :
    u.params =
      (if isStatic then [] else [.cls owner]) ++
        (if setter then [f.type] else [])
  ret : u.ret = if setter then .void else f.type
  place :
    ∃ offset,
      f.slot = .fieldOffset offset ∧
        u.form =
          if setter then .fieldSet f offset
          else .fieldGet f offset

theorem findField_yields
    (rt : Runtime)
    (l : Lookup)
    (owner : ClassName)
    (name : String)
    (t : Ty)
    (isStatic setter : Bool) :
    (l.findField rt owner name t isStatic setter).Yields
      (fun u =>
        ∃ f, l.Accesses rt owner name t isStatic setter f u) := by
  unfold findField
  refine .bind (ofHost_inspects _).yields ?_
  intro f hResolve
  split
  · exact .throw _
  · rename_i hStatic
    split
    · exact .throw _
    · rename_i hFinal
      refine .bind (checkAccess_grants ..).yields ?_
      intro _ hAccess
      refine .bind (offsetOf_inspects ..).yields ?_
      intro offset hSlot
      refine .bind (Link.Inspects.ofSignature _).yields ?_
      intro sig hSig
      refine (Target.build_yields rt sig _).imp ?_
      rintro u ⟨rfl, hForm⟩
      have hShape := of_fieldSignature hSig
      exact
        ⟨f,
          { resolved := hResolve
            suits := not_not.1 hStatic
            writable := by simpa using hFinal
            granted := hAccess.1
            allowed := hAccess.2
            params := hShape.1
            ret := hShape.2
            place := ⟨offset, hSlot, hForm⟩ }⟩

/- There is a signature to access a field that is not void. -/
theorem fieldSignature_ok
    (owner : ClassName)
    (isStatic : Bool)
    (hValue : setter = true → t.IsVoid = false) :
    ∃ sig,
      fieldSignature owner t isStatic setter = .ok sig := by
  have hSlots : t.slots ≤ 2 := by
    cases t with
    | prim k => cases k <;> decide
    | cls n => exact Nat.le_of_ble_eq_true rfl
    | array a => exact Nat.le_of_ble_eq_true rfl
  have hReceiver : (Ty.cls owner).IsVoid = false := rfl
  have hBuild
      (ret : Ty)
      (ps : List Ty)
      (hNoVoid : ∀ p ∈ ps, p.IsVoid = false)
      (hCount : slotCount ps ≤ 3) :
      ∃ sig, Signature.build ret ps = .ok sig :=
    ⟨_, Signature.build_of_admissible ret
      ⟨hNoVoid, hCount.trans (by decide)⟩⟩
  cases isStatic with
  | false =>
      cases setter with
      | false =>
          refine hBuild t [.cls owner] ?_ ?_
          · simpa using hReceiver
          · simp [slotCount, Ty.slots]
      | true =>
          refine hBuild .void [.cls owner, t] ?_ ?_
          · simpa using ⟨hReceiver, hValue rfl⟩
          · simp [slotCount, Ty.slots] at hSlots ⊢
            omega
  | true =>
      cases setter with
      | false =>
          refine hBuild t [] ?_ ?_
          · simp
          · simp [slotCount]
      | true =>
          refine hBuild .void [t] ?_ ?_
          · simpa using hValue rfl
          · simp [slotCount] at hSlots ⊢
            omega

/- A field that is granted and allowed is found. -/
theorem findField_succeeds
    {offset : Nat}
    (hChecking : rt.compile = .checking)
    (hResolve : rt.host.resolveField owner name t l.cls = .ok f)
    (hStatic : f.flags.has .isStatic = isStatic)
    (hFinal : setter = true → f.flags.has .isFinal = false)
    (hGrants : l.Grants rt.classes f.declaring owner f.flags)
    (hCheck :
      rt.host.check f.declaring owner f.flags l.cls = .ok ())
    (hSlot : f.slot = .fieldOffset offset)
    (hValue : setter = true → f.type.IsVoid = false) :
    (l.findField rt owner name t isStatic setter).Succeeds
      (l.Accesses rt owner name t isStatic setter f) := by
  intro s
  have hAccess := checkAccess_eq hGrants hCheck name
  have hWritable : (setter && f.flags.has .isFinal) = false := by
    cases setter with
    | false => rfl
    | true => exact hFinal rfl
  rcases fieldSignature_ok owner isStatic hValue with ⟨sig, hSig⟩
  have hOffset : offsetOf owner name f = pure offset := by
    unfold offsetOf
    rw [hSlot]
  have hRun :
      l.findField rt owner name t isStatic setter =
        Target.build rt sig
          (if setter then .fieldSet f offset
          else .fieldGet f offset) := by
    simp only [findField, hResolve, Request.ofHost_ok_bind,
      hStatic, ne_eq, not_true_eq_false, if_false, hWritable,
      Bool.false_eq_true, hAccess, hOffset, Link.ofSignature,
      hSig, pure_bind]
  rcases Target.build_succeeds hChecking sig
      (if setter then .fieldSet f offset else .fieldGet f offset)
      s
    with ⟨u, s', hBuild, -⟩
  rw [← hRun] at hBuild
  rcases findField_yields rt l owner name t isStatic setter s u s'
      hBuild
    with ⟨g, hAccesses⟩
  have hSame := hAccesses.resolved.symm.trans hResolve
  cases hSame
  exact ⟨u, s', hBuild, hAccesses⟩

namespace Accesses

/- A receiver comes first, and is of the class that was asked. -/
theorem receiver
    (hAccesses : l.Accesses rt owner name t false setter f u) :
    u.params.head? = some (.cls owner) := by
  rw [hAccesses.params]
  rfl

/- Which classes keep the field for receivers of theirs. -/
theorem takesOnly_iff
    (hAccesses : l.Accesses rt owner name t false setter f u)
    (n : ClassName) :
    u.TakesOnly rt.classes n ↔
      rt.classes.isSubclass owner n = true := by
  unfold Target.TakesOnly
  rw [hAccesses.receiver]
  constructor
  · rintro ⟨c, hFirst, hBelow⟩
    cases hFirst
    exact hBelow
  · intro hBelow
    exact ⟨owner, rfl, hBelow⟩

/- A restricted field is granted to heirs of its class. -/
theorem below_declaring
    (hAccesses : l.Accesses rt owner name t isStatic setter f u)
    (hPublic : f.flags.has .isPublic = false)
    (hPrivate : f.flags.has .isPrivate = false)
    (hRestricted : f.IsRestricted l.cls) :
    l.modes.has .protectedAccess = true ∧
      rt.classes.isSubclass l.cls f.declaring = true := by
  have hAsked := (grants_iff.1 hAccesses.granted).2
  rw [hPublic, hPrivate, hRestricted.1,
    if_neg Bool.false_ne_true, if_neg Bool.false_ne_true,
    if_pos rfl] at hAsked
  simpa [grantsProtected, hRestricted.2] using hAsked

/-
  A method of the same class and flags takes the receivers
  that the field takes, unless the class that was asked is a
  proper superclass of the one that looks.
-/
theorem as_method_iff
    {m : Method}
    (hAccesses : l.Accesses rt owner name t false setter f u)
    (hRestricted : f.IsRestricted l.cls)
    (hDeclaring : m.declaring = f.declaring)
    (hFlags : m.flags = f.flags) :
    u.params.head? = some (l.receiverType rt owner m) ↔
      (rt.classes.isSubclass l.cls owner = true →
        l.cls = owner) := by
  have hMethod : m.IsRestricted l.cls := by
    unfold Method.IsRestricted
    rw [hDeclaring, hFlags]
    exact hRestricted
  rw [hAccesses.receiver, receiverType_of_restricted hMethod]
  by_cases hBelow : rt.classes.isSubclass l.cls owner = true
  · rw [if_pos hBelow]
    constructor
    · intro hSame _
      cases hSame
      rfl
    · intro hSame
      rw [hSame hBelow]
  · rw [if_neg hBelow]
    exact ⟨fun _ h => absurd h hBelow, fun _ => rfl⟩

end Accesses

/-
  What is left of the rule for restricted members.  It is
  kept if the class that was asked is the one that looks or
  below it; a method would keep it also if that class is
  above.
-/
structure ReceivesOwner
    (rt : Runtime)
    (l : Lookup)
    (owner : ClassName)
    (f : Field)
    (u : Target) : Prop where
  kept :
    u.TakesOnly rt.classes l.cls ↔
      rt.classes.isSubclass owner l.cls = true
  method :
    ∀ m : Method,
      m.declaring = f.declaring →
      m.flags = f.flags →
        (u.params.head? = some (l.receiverType rt owner m) ↔
          (rt.classes.isSubclass l.cls owner = true →
            l.cls = owner))
  heir :
    f.flags.has .isPublic = false →
    f.flags.has .isPrivate = false →
      l.modes.has .protectedAccess = true ∧
        rt.classes.isSubclass l.cls f.declaring = true

theorem Accesses.receivesOwner
    (hAccesses : l.Accesses rt owner name t false setter f u)
    (hRestricted : f.IsRestricted l.cls) :
    l.ReceivesOwner rt owner f u where
  kept := hAccesses.takesOnly_iff l.cls
  method := fun _ => hAccesses.as_method_iff hRestricted
  heir := fun hPublic hPrivate =>
    hAccesses.below_declaring hPublic hPrivate hRestricted

/-
  A getter or a setter that is found takes receivers of the
  class that was asked.  For a restricted field these are of
  the class that looks only if the class that was asked is
  that class or one below it.
-/
theorem restricted_fields_take_owners
    (rt : Runtime)
    (l : Lookup)
    (owner : ClassName)
    (name : String)
    (t : Ty)
    (s : State) :
    (∀ u s',
      l.findGetter rt owner name t s = .ok u s' →
        ∃ f,
          l.Accesses rt owner name t false false f u ∧
            u.params = [.cls owner] ∧ u.ret = f.type ∧
            (f.IsRestricted l.cls →
              l.ReceivesOwner rt owner f u)) ∧
      ∀ u s',
        l.findSetter rt owner name t s = .ok u s' →
          ∃ f,
            l.Accesses rt owner name t false true f u ∧
              u.params = [.cls owner, f.type] ∧
              u.ret = .void ∧
              (f.IsRestricted l.cls →
                l.ReceivesOwner rt owner f u) := by
  constructor
  · intro u s' hFind
    rcases findField_yields rt l owner name t false false s u s'
        hFind
      with ⟨f, hAccesses⟩
    exact
      ⟨f, hAccesses, hAccesses.params, hAccesses.ret,
        hAccesses.receivesOwner⟩
  · intro u s' hFind
    rcases findField_yields rt l owner name t false true s u s'
        hFind
      with ⟨f, hAccesses⟩
    exact
      ⟨f, hAccesses, hAccesses.params, hAccesses.ret,
        hAccesses.receivesOwner⟩

------------------------------------------------------------
-- A Class Above
------------------------------------------------------------

/- A protected field of the class that has two subclasses. -/
def count : Field :=
  ⟨⟨"a.Base"⟩, "count", .int, .ofList [.isProtected],
    .fieldOffset 0⟩

def counts : Runtime where
  classes := family
  host :=
    { World.initial family with
      fields := [count]
      layouts := [(⟨"a.Base"⟩, [.int])] }.host
  compile := .checking
  memoizeAsType := true

theorem count_isRestricted :
    count.IsRestricted ⟨"b.Derived"⟩ := by
  constructor
  · decide +kernel
  · decide +kernel

/- It is granted through any public class. -/
theorem count_found
    (setter : Bool)
    (hResolve :
      counts.host.resolveField owner "count" .int
        ⟨"b.Derived"⟩ = .ok count)
    (hPublic :
      isClassAccessible family owner ⟨"b.Derived"⟩ .all = true) :
    ∃ u s',
      (full ⟨"b.Derived"⟩).findField counts owner "count" .int
          false setter (.initial .empty none) = .ok u s' ∧
        (full ⟨"b.Derived"⟩).Accesses counts owner "count" .int
          false setter count u := by
  have hFlags :
      count.flags.has .isStatic = false ∧
        count.flags.has .isFinal = false := by
    decide +kernel
  exact
    findField_succeeds rfl hResolve hFlags.1 (fun _ => hFlags.2)
      (secret_grants hPublic) rfl rfl (fun _ => rfl)
      (.initial .empty none)

/-
  Asked of the class that looks, the field is kept for
  receivers of that class.
-/
theorem restricted_fields_take_owners_derived :
    (∃ u s',
      (full ⟨"b.Derived"⟩).findGetter counts ⟨"b.Derived"⟩
          "count" .int (.initial .empty none) = .ok u s' ∧
        u.params = [.cls ⟨"b.Derived"⟩] ∧
        u.TakesOnly family ⟨"b.Derived"⟩) ∧
      ∃ u s',
        (full ⟨"b.Derived"⟩).findSetter counts ⟨"b.Derived"⟩
            "count" .int (.initial .empty none) = .ok u s' ∧
          u.params = [.cls ⟨"b.Derived"⟩, .int] ∧
          u.TakesOnly family ⟨"b.Derived"⟩ := by
  have hResolve :
      counts.host.resolveField ⟨"b.Derived"⟩ "count" .int
        ⟨"b.Derived"⟩ = .ok count := by
    cbv
  have hSelf := family.isSubclass_refl ⟨"b.Derived"⟩
  rcases restricted_fields_take_owners counts
      (full ⟨"b.Derived"⟩) ⟨"b.Derived"⟩ "count" .int
      (.initial .empty none)
    with ⟨hGetter, hSetter⟩
  constructor
  · rcases count_found false hResolve (by decide +kernel) with
      ⟨u, s', hFind, -⟩
    rcases hGetter u s' hFind with
      ⟨f, hAccesses, hParams, -, hRestricted⟩
    cases hAccesses.resolved.symm.trans hResolve
    exact
      ⟨u, s', hFind, hParams,
        (hRestricted count_isRestricted).kept.2 hSelf⟩
  · rcases count_found true hResolve (by decide +kernel) with
      ⟨u, s', hFind, -⟩
    rcases hSetter u s' hFind with
      ⟨f, hAccesses, hParams, -, hRestricted⟩
    cases hAccesses.resolved.symm.trans hResolve
    exact
      ⟨u, s', hFind, hParams,
        (hRestricted count_isRestricted).kept.2 hSelf⟩

/-
  Asked of the class that declares it, the field is read in
  any object of that class.
-/
theorem restricted_fields_above :
    ∃ (u : Target) (s' : State),
      (full ⟨"b.Derived"⟩).findGetter counts ⟨"a.Base"⟩
          "count" .int (.initial .empty none) = .ok u s' ∧
        counts.host.resolveField ⟨"a.Base"⟩ "count" .int
          ⟨"b.Derived"⟩ = .ok count ∧
        count.flags.has .isStatic = false ∧
        count.IsRestricted ⟨"b.Derived"⟩ ∧
        u.params = [.cls ⟨"a.Base"⟩] ∧
        family.isSubclass ⟨"a.Base"⟩ ⟨"b.Derived"⟩ = false ∧
        ¬u.TakesOnly family ⟨"b.Derived"⟩ := by
  have hResolve :
      counts.host.resolveField ⟨"a.Base"⟩ "count" .int
        ⟨"b.Derived"⟩ = .ok count := by
    cbv
  have hAbove :
      family.isSubclass ⟨"a.Base"⟩ ⟨"b.Derived"⟩ = false := by
    cbv
  rcases count_found false hResolve (by decide +kernel) with
    ⟨u, s', hFind, hAccesses⟩
  refine
    ⟨u, s', hFind, hResolve, hAccesses.suits,
      count_isRestricted, hAccesses.params, hAbove, ?_⟩
  intro hOnly
  have hBelow := (hAccesses.takesOnly_iff ⟨"b.Derived"⟩).1 hOnly
  exact Bool.false_ne_true (hAbove.symm.trans hBelow)

end Lookup

end Linkage
