import Linkage.Proofs.Link.Results
import Linkage.Proofs.Lookup
import Linkage.World
import Mathlib

/-
  The receivers of protected methods.  A protected method of
  another package is for receivers of the class that looks.
  A lookup keeps to that if it asks the method of a class
  above or below its own.  Asked of a class beside its own,
  the method takes any receiver of the class that was asked.

  Key definitions include:
    * `Method.IsRestricted`
    * `ClassTable.InLine`
    * `Lookup.Receives`

  Key theorems include:
    * `Lookup.receives_receiverType`
    * `Lookup.findVirtual_yields`
    * `Lookup.bind_yields`
    * `Lookup.restricted_receivers_in_line`
-/

------------------------------------------------------------
-- Results of Operations
------------------------------------------------------------

namespace Linkage

variable {rt : Runtime}
variable {l : Lookup}
variable {m : Method}
variable {owner : ClassName}
variable {t : Target}

theorem Link.Compiles.yields
    {α : Type}
    {Q : α → Prop}
    {m : Link α}
    (hCompiles : m.Compiles Q) :
    m.Yields Q := by
  intro s a s' hRun
  have hM := hCompiles s
  rw [hRun] at hM
  exact hM

------------------------------------------------------------
-- Classes of Receivers
------------------------------------------------------------

/- A protected method, seen from a class of another package. -/
def Method.IsRestricted
    (m : Method)
    (n : ClassName) : Prop :=
  m.flags.has .isProtected = true ∧ ¬m.declaring.SamePackage n

/- One of two classes is a subclass of the other. -/
def ClassTable.InLine
    (T : ClassTable)
    (a b : ClassName) : Prop :=
  T.isSubclass a b = true ∨ T.isSubclass b a = true

namespace Lookup

/-
  A class of receivers for a method that is asked of a class.
  Receivers of a restricted method are of the class that
  looks exactly if one of the two classes is above the other.
-/
structure Receives
    (T : ClassTable)
    (l : Lookup)
    (owner : ClassName)
    (m : Method)
    (n : ClassName) : Prop where
  either : n = owner ∨ n = l.cls ∧ m.IsRestricted l.cls
  below : T.isSubclass n owner = true
  restricted :
    m.IsRestricted l.cls →
      (T.isSubclass n l.cls = true ↔ T.InLine l.cls owner)

theorem receiverType_of_restricted
    (hRestricted : m.IsRestricted l.cls) :
    l.receiverType rt owner m =
      .cls
        (if rt.classes.isSubclass l.cls owner
        then l.cls
        else owner) := by
  unfold receiverType
  rw [hRestricted.1, decide_eq_false hRestricted.2]
  cases rt.classes.isSubclass l.cls owner with
  | true => rfl
  | false => rfl

theorem receiverType_of_not_restricted
    (hFree : ¬m.IsRestricted l.cls) :
    l.receiverType rt owner m = .cls owner := by
  unfold receiverType
  rw [if_neg]
  intro hNarrow
  simp only [Bool.and_eq_true, Bool.not_eq_true',
    decide_eq_false_iff_not] at hNarrow
  exact hFree hNarrow.1

theorem receives_receiverType
    (rt : Runtime)
    (l : Lookup)
    (owner : ClassName)
    (m : Method) :
    ∃ n,
      l.receiverType rt owner m = .cls n ∧
        l.Receives rt.classes owner m n := by
  have hOwner := rt.classes.isSubclass_refl owner
  by_cases hRestricted : m.IsRestricted l.cls
  · refine ⟨_, receiverType_of_restricted hRestricted, ?_⟩
    by_cases hBelow : rt.classes.isSubclass l.cls owner = true
    · rw [if_pos hBelow]
      refine ⟨Or.inr ⟨rfl, hRestricted⟩, hBelow, fun _ => ?_⟩
      have hSelf := rt.classes.isSubclass_refl l.cls
      exact ⟨fun _ => Or.inl hBelow, fun _ => hSelf⟩
    · rw [if_neg hBelow]
      refine ⟨Or.inl rfl, hOwner, fun _ => ?_⟩
      exact ⟨Or.inr, fun hLine => hLine.resolve_left hBelow⟩
  · exact
      ⟨owner, receiverType_of_not_restricted hRestricted,
        Or.inl rfl, hOwner, fun h => absurd h hRestricted⟩

------------------------------------------------------------
-- Methods that are Found
------------------------------------------------------------

/-
  What is found for a request for a method: the host resolved
  an instance method, the table of member access granted it,
  and `n` is the class of its receivers.
-/
structure Finds
    (rt : Runtime)
    (l : Lookup)
    (owner : ClassName)
    (name : String)
    (sig : Signature)
    (m : Method)
    (n : ClassName) : Prop where
  resolved :
    rt.host.resolveMethod owner name sig (instanceKind rt owner)
      l.cls = .ok m
  isInstance : m.flags.has .isStatic = false
  granted : l.Grants rt.classes m.declaring owner m.flags
  receives : l.Receives rt.classes owner m n

/- A method may be made to collect its arguments. -/
theorem withVarargs_yields
    (rt : Runtime)
    (flags : Flags)
    (hPlain : t.isVarargs = false) :
    (withVarargs rt t flags).Yields
      (fun u =>
        u.signature = t.signature ∧ u.asFixedArity = t) := by
  refine .and ?_ (withVarargs_compiles flags hPlain).yields
  unfold withVarargs
  split
  · split
    · exact Target.asVarargsCollector_yields rt t _
    · exact .pure rfl
  · exact .pure rfl

/- What calls a method has no delegates, and collects nothing. -/
theorem isVarargs_of_calls
    {how : MethodKind}
    {form : Form Target}
    (hForm : t.form = form)
    (hCalls : form.Calls m how) :
    t.isVarargs = false := by
  unfold Target.isVarargs
  rw [hForm]
  cases hCalls with
  | direct a _ => rfl
  | virtual n _ => rfl
  | interface n _ => rfl

/-
  A method that is found takes its receiver first.  That it
  collects its arguments does not change its signature.
-/
theorem findVirtual_yields
    (rt : Runtime)
    (l : Lookup)
    (owner : ClassName)
    (name : String)
    (sig : Signature) :
    (l.findVirtual rt owner name sig).Yields
      (fun u =>
        ∃ m n,
          l.Finds rt owner name sig m n ∧
            u.params = .cls n :: m.signature.params ∧
            u.ret = m.signature.ret ∧
            u.asFixedArity.signature = u.signature) := by
  unfold findVirtual
  dsimp only
  refine .bind (ofHost_inspects _).yields ?_
  intro m hResolve
  split
  · exact .throw _
  · rename_i hStatic
    refine .bind (checkAccess_grants ..).yields ?_
    intro _ hAccess
    refine .bind (Link.Inspects.ofSignature _).yields ?_
    intro whole hWhole
    refine .bind (instanceForm_inspects m _).yields ?_
    intro form hCalls
    refine .bind (Target.build_yields rt whole form) ?_
    rintro t ⟨hSig, hForm⟩
    have hPlain := isVarargs_of_calls hForm hCalls
    refine (withVarargs_yields rt m.flags hPlain).imp ?_
    rintro u ⟨hu, hFixed⟩
    rcases receives_receiverType rt l owner m with
      ⟨n, hReceiver, hReceives⟩
    rw [hReceiver] at hWhole
    rcases Signature.of_insertParams hWhole with
      ⟨_, hParams, hRet⟩
    refine ⟨m, n, ⟨hResolve, ?_, hAccess.1, hReceives⟩, ?_, ?_, ?_⟩
    · simpa using hStatic
    · rw [Target.params, hu, hSig, hParams]
      rfl
    · rw [Target.ret, hu, hSig, hRet]
    · rw [hFixed, hu]

/-
  An instance method that is granted and allowed is found, if
  there is a signature for it and it has a place.
-/
theorem findVirtual_succeeds
    {name : String}
    {sig whole : Signature}
    {form : Form Target}
    (hChecking : rt.compile = .checking)
    (hResolve :
      rt.host.resolveMethod owner name sig (instanceKind rt owner)
        l.cls = .ok m)
    (hStatic : m.flags.has .isStatic = false)
    (hVarargs : m.flags.has .isVarargs = false)
    (hGrants : l.Grants rt.classes m.declaring owner m.flags)
    (hCheck :
      rt.host.check m.declaring owner m.flags l.cls = .ok ())
    (hWhole :
      m.signature.insertParams 0 [l.receiverType rt owner m] =
        .ok whole)
    (hForm : instanceForm m (instanceKind rt owner) = pure form) :
    (l.findVirtual rt owner name sig).Succeeds
      (fun u => u.signature = whole) := by
  have hAccess := checkAccess_eq hGrants hCheck name
  have hPlain (t : Target) : withVarargs rt t m.flags = pure t := by
    unfold withVarargs
    rw [hVarargs]
    cases t.params.getLast? with
    | none => rfl
    | some last => rfl
  simp only [findVirtual, Lookup.resolve, hResolve,
    Request.ofHost_ok_bind, hStatic, Bool.false_eq_true, if_false,
    hAccess, hWhole, hForm, Link.ofSignature, hPlain, pure_bind,
    bind_pure]
  exact
    (Target.build_succeeds hChecking whole form).imp
      (fun _ hu => hu.1)

/-
  A method is bound to an object of the class that it is
  asked of, and of the class of its receivers.
-/
theorem bind_yields
    {receiver : Value}
    (hReceiver : receiver.type? = some (.cls owner))
    (rt : Runtime)
    (l : Lookup)
    (name : String)
    (sig : Signature) :
    (l.bind rt receiver name sig).Yields
      (fun u =>
        ∃ m n,
          l.Finds rt owner name sig m n ∧
            rt.classes.isSubclass owner n = true ∧
            u.params = m.signature.params ∧
            u.ret = m.signature.ret) := by
  unfold bind
  rw [hReceiver]
  dsimp only
  refine .bind (findVirtual_yields rt l owner name sig) ?_
  rintro t ⟨m, n, hFinds, hParams, hRet, hFixed⟩
  have hFixedParams :
      t.asFixedArity.params = .cls n :: m.signature.params := by
    rw [Target.params, hFixed]
    exact hParams
  refine .bind (Target.bindTo_yields hReceiver hFixedParams) ?_
  rintro bound ⟨hSub, hRest, hResult⟩
  have hSame :
      ∀ u : Target, u.signature = bound.signature →
        u.params = m.signature.params ∧ u.ret = m.signature.ret := by
    intro u hu
    have hFixedRet : t.asFixedArity.ret = t.ret :=
      congrArg Signature.ret hFixed
    rw [Target.params, Target.ret, hu]
    exact ⟨hRest, hResult.trans (hFixedRet.trans hRet)⟩
  split
  · split
    · rename_i last _
      refine
        (Target.asVarargsCollector_yields rt bound last).imp ?_
      intro u hu
      exact ⟨m, n, hFinds, hSub, hSame u hu⟩
    · exact .pure ⟨m, n, hFinds, hSub, hSame bound rfl⟩
  · exact .pure ⟨m, n, hFinds, hSub, hSame bound rfl⟩

/-
  What is found takes its receiver first.  A receiver of a
  restricted method is of the class that looks exactly if the
  class that was asked is above or below it.  The same holds
  of a method that is bound to an object, which is of the
  class of receivers itself.
-/
theorem restricted_receivers_in_line
    (rt : Runtime)
    (l : Lookup)
    (name : String)
    (sig : Signature)
    (s : State) :
    (∀ owner u s',
      l.findVirtual rt owner name sig s = .ok u s' →
        ∃ m n,
          l.Finds rt owner name sig m n ∧
            u.params = .cls n :: m.signature.params ∧
            u.ret = m.signature.ret ∧
            (m.IsRestricted l.cls →
              (rt.classes.isSubclass n l.cls = true ↔
                rt.classes.InLine l.cls owner))) ∧
    (∀ receiver owner u s',
      receiver.type? = some (.cls owner) →
        l.bind rt receiver name sig s = .ok u s' →
          ∃ m n,
            l.Finds rt owner name sig m n ∧
              u.params = m.signature.params ∧
              u.ret = m.signature.ret ∧
              rt.classes.isSubclass owner n = true ∧
              (m.IsRestricted l.cls →
                (rt.classes.isSubclass n l.cls = true ↔
                  rt.classes.InLine l.cls owner))) := by
  constructor
  · intro owner u s' hFind
    rcases findVirtual_yields rt l owner name sig s u s' hFind with
      ⟨m, n, hFinds, hParams, hRet, _⟩
    exact
      ⟨m, n, hFinds, hParams, hRet, hFinds.receives.restricted⟩
  · intro receiver owner u s' hReceiver hBind
    rcases bind_yields hReceiver rt l name sig s u s' hBind with
      ⟨m, n, hFinds, hSub, hParams, hRet⟩
    exact
      ⟨m, n, hFinds, hParams, hRet, hSub,
        hFinds.receives.restricted⟩

------------------------------------------------------------
-- A Class Beside
------------------------------------------------------------

/- A class with two subclasses, each in a package of its own. -/
def family : ClassTable :=
  ⟨[.ofClass ⟨"a.Base"⟩,
    { ClassInfo.ofClass ⟨"b.Derived"⟩ with
      superclass := some ⟨"a.Base"⟩ },
    { ClassInfo.ofClass ⟨"c.Sibling"⟩ with
      superclass := some ⟨"a.Base"⟩ }]⟩

theorem admissible_nil : Admissible [] :=
  ⟨by decide, by decide⟩

/- The first class has a protected method. -/
def secret : Method :=
  ⟨⟨"a.Base"⟩, "secret", ⟨[], .int, admissible_nil⟩,
    .ofList [.isProtected], .virtualTable 1⟩

def secrets : Runtime where
  classes := family
  host :=
    { World.initial family with methods := [secret] }.host
  compile := .checking
  memoizeAsType := true

/- The host knows no other method. -/
theorem secrets_resolves
    {name : String}
    {sig : Signature}
    {how : MethodKind}
    {caller : ClassName}
    (hResolve :
      secrets.host.resolveMethod owner name sig how caller =
        .ok m) :
    m = secret := by
  change
    World.resolveMethod { World.initial family with methods := [secret] }
      owner name sig how = _ at hResolve
  unfold World.resolveMethod at hResolve
  dsimp only at hResolve
  split at hResolve
  · rename_i m' hFound
    cases hResolve
    rcases List.exists_of_findSome?_eq_some hFound with
      ⟨n, _, hDeclared⟩
    have hMem := List.mem_of_find?_eq_some hDeclared
    cases List.mem_singleton.1 hMem
    rfl
  · cases hResolve

theorem secret_isRestricted :
    secret.IsRestricted ⟨"b.Derived"⟩ := by
  constructor
  · decide +kernel
  · decide +kernel

/- The method is granted through any public class. -/
theorem secret_grants
    (hPublic :
      isClassAccessible family owner ⟨"b.Derived"⟩ .all = true) :
    (full ⟨"b.Derived"⟩).Grants family secret.declaring owner
      secret.flags := by
  have hBelow :
      family.isSubclass ⟨"b.Derived"⟩ ⟨"a.Base"⟩ = true := by
    cbv
  have hFlags :
      secret.flags.has .isPublic = false ∧
        secret.flags.has .isPrivate = false ∧
        secret.flags.has .isProtected = true := by
    decide +kernel
  have hMode : Modes.all.has .protectedAccess = true := by
    decide
  refine grants_iff.2 ⟨hPublic, ?_⟩
  rw [hFlags.1, hFlags.2.1, hFlags.2.2]
  simp [grantsProtected, full, secret, hBelow, hMode]

/- The class of its receivers, by the class that is asked. -/
def secretReceiver (owner : ClassName) : ClassName :=
  if family.isSubclass ⟨"b.Derived"⟩ owner
  then ⟨"b.Derived"⟩
  else owner

/- It is found, with the class of its receivers as parameter. -/
theorem secret_found
    (hResolve :
      secrets.host.resolveMethod owner "secret" secret.signature
        (instanceKind secrets owner) ⟨"b.Derived"⟩ = .ok secret)
    (hPublic :
      isClassAccessible family owner ⟨"b.Derived"⟩ .all = true) :
    ∃ u s',
      (full ⟨"b.Derived"⟩).findVirtual secrets owner "secret"
          secret.signature (.initial .empty none) = .ok u s' ∧
        u.params = [.cls (secretReceiver owner)] := by
  have hFlags :
      secret.flags.has .isStatic = false ∧
        secret.flags.has .isVarargs = false := by
    decide +kernel
  have hAdmissible (n : ClassName) : Admissible [.cls n] := by
    constructor
    · simp [Ty.IsVoid]
    · exact Nat.le_of_ble_eq_true rfl
  have hWhole :
      secret.signature.insertParams 0
          [(full ⟨"b.Derived"⟩).receiverType secrets owner secret] =
        .ok
          ⟨[.cls (secretReceiver owner)], .int,
            hAdmissible (secretReceiver owner)⟩ := by
    have hReceiver :
        (full ⟨"b.Derived"⟩).receiverType secrets owner secret =
          .cls (secretReceiver owner) :=
      receiverType_of_restricted secret_isRestricted
    rw [hReceiver]
    exact Signature.build_of_admissible .int (hAdmissible _)
  rcases
    findVirtual_succeeds (l := full ⟨"b.Derived"⟩) rfl hResolve
      hFlags.1 hFlags.2 (secret_grants hPublic) rfl hWhole rfl
      (.initial .empty none)
    with ⟨u, s', hFind, hSig⟩
  refine ⟨u, s', hFind, ?_⟩
  rw [Target.params, hSig]

/- An object of the class that looks. -/
def derived : Value :=
  .ref ⟨0, .plain ⟨"b.Derived"⟩⟩

/- Whether an operation came to an end. -/
def isDone {α : Type} : EStateM.Result LinkError State α → Bool
| .ok _ _ => true
| .error _ _ => false

theorem secret_bound :
    ∃ u s',
      (full ⟨"b.Derived"⟩).bind secrets derived "secret"
        secret.signature (.initial .empty none) = .ok u s' := by
  have hDone :
      isDone
          ((full ⟨"b.Derived"⟩).bind secrets derived "secret"
            secret.signature (.initial .empty none)) =
        true := by
    decide_cbv
  cases hRun :
      (full ⟨"b.Derived"⟩).bind secrets derived "secret"
        secret.signature (.initial .empty none) with
  | ok u s' => exact ⟨u, s', rfl⟩
  | error e s' =>
      rw [hRun] at hDone
      cases hDone

/-
  Asked of the class that declares it, the method takes
  receivers of the class that looks, and it is bound to one.
-/
theorem restricted_receivers_in_line_base :
    (∃ u s' m n,
      (full ⟨"b.Derived"⟩).findVirtual secrets ⟨"a.Base"⟩ "secret"
          secret.signature (.initial .empty none) = .ok u s' ∧
        Method.IsRestricted m ⟨"b.Derived"⟩ ∧
        u.params = .cls n :: m.signature.params ∧
        family.isSubclass n ⟨"b.Derived"⟩ = true) ∧
    (∃ u s' m n,
      (full ⟨"b.Derived"⟩).bind secrets derived "secret"
          secret.signature (.initial .empty none) = .ok u s' ∧
        Method.IsRestricted m ⟨"b.Derived"⟩ ∧
        u.params = m.signature.params ∧
        family.isSubclass n ⟨"b.Derived"⟩ = true) := by
  have hBelow :
      family.isSubclass ⟨"b.Derived"⟩ ⟨"a.Base"⟩ = true := by
    cbv
  constructor
  · have hResolve :
        secrets.host.resolveMethod ⟨"a.Base"⟩ "secret"
            secret.signature .isVirtual ⟨"b.Derived"⟩ =
          .ok secret := by
      cbv
    rcases secret_found hResolve (by decide +kernel) with
      ⟨u, s', hFind, _⟩
    rcases
      (restricted_receivers_in_line secrets (full ⟨"b.Derived"⟩)
        "secret" secret.signature _).1 _ u s' hFind
      with ⟨m, n, hFinds, hParams, _, hLine⟩
    rw [secrets_resolves hFinds.resolved] at hParams hLine
    exact
      ⟨u, s', secret, n, hFind, secret_isRestricted, hParams,
        (hLine secret_isRestricted).2 (Or.inl hBelow)⟩
  · rcases secret_bound with ⟨u, s', hBind⟩
    rcases
      (restricted_receivers_in_line secrets (full ⟨"b.Derived"⟩)
        "secret" secret.signature _).2 _ ⟨"b.Derived"⟩ u s' rfl
        hBind
      with ⟨m, n, hFinds, hParams, _, _, hLine⟩
    rw [secrets_resolves hFinds.resolved] at hParams hLine
    have hSelf :=
      ClassTable.isSubclass_refl family ⟨"b.Derived"⟩
    exact
      ⟨u, s', secret, n, hBind, secret_isRestricted, hParams,
        (hLine secret_isRestricted).2 (Or.inl hSelf)⟩

/-
  Asked of the class beside, it takes receivers of that
  class, which are not of the class that looks.
-/
theorem restricted_receivers_beside :
    ∃ (u : Target) (s' : State) (m : Method) (n : ClassName),
      (full ⟨"b.Derived"⟩).findVirtual secrets ⟨"c.Sibling"⟩
          "secret" m.signature (.initial .empty none) = .ok u s' ∧
        secrets.host.resolveMethod ⟨"c.Sibling"⟩ "secret"
          m.signature .isVirtual ⟨"b.Derived"⟩ = .ok m ∧
        m.flags.has .isStatic = false ∧
        m.IsRestricted ⟨"b.Derived"⟩ ∧
        u.params.head? = some (.cls n) ∧
        family.isSubclass n ⟨"b.Derived"⟩ = false := by
  have hResolve :
      secrets.host.resolveMethod ⟨"c.Sibling"⟩ "secret"
          secret.signature .isVirtual ⟨"b.Derived"⟩ =
        .ok secret := by
    cbv
  have hBeside :
      family.isSubclass ⟨"b.Derived"⟩ ⟨"c.Sibling"⟩ = false ∧
        family.isSubclass ⟨"c.Sibling"⟩ ⟨"b.Derived"⟩ = false := by
    constructor
    · cbv
    · cbv
  rcases secret_found hResolve (by decide +kernel) with
    ⟨u, s', hFind, hParams⟩
  unfold secretReceiver at hParams
  rw [hBeside.1] at hParams
  refine
    ⟨u, s', secret, ⟨"c.Sibling"⟩, hFind, hResolve, ?_,
      secret_isRestricted, ?_, hBeside.2⟩
  · decide +kernel
  · rw [hParams]
    rfl

end Lookup

end Linkage
