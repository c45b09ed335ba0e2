import Linkage.Proofs.Access
import Linkage.Proofs.Link.Lookups

/-
  What lookups grant.  A request to a lookup is one of eight.
  It reaches a member if the request itself is in order, the
  host resolves a member that suits it, the table of member
  access grants that member and the host allows it.  A request
  that is refused leaves no trace: nodes are made only after
  the last check, and then only a stub can be missing.

  Key definitions include:
    * `Member`
    * `Lookup.Request`
    * `Lookup.Request.find`
    * `Lookup.Request.Permits`
    * `Link.Compiles`
    * `Link.Spares`

  Key theorems include:
    * `Lookup.withVarargs_compiles`
    * `Lookup.Request.find_spares`
    * `Lookup.Request.find_of_resolve_error`
    * `Lookup.Request.find_of_check_error`
    * `Lookup.Request.find_grants_only_permitted`
-/

------------------------------------------------------------
-- Requests
------------------------------------------------------------

namespace Linkage

/- A member as a host resolves it. -/
inductive Member where
| method (m : Method)
| field (f : Field)

namespace Member

def declaring : Member → ClassName
| method m => m.declaring
| field f => f.declaring

def flags : Member → Flags
| method m => m.flags
| field f => f.flags

end Member

namespace Lookup

/- What a lookup may be asked for. -/
inductive Request where
| static (owner : ClassName) (name : String) (sig : Signature)
| virtual (owner : ClassName) (name : String) (sig : Signature)
| special
    (owner : ClassName) (name : String) (sig : Signature)
    (caller : ClassName)
| constructor (owner : ClassName) (sig : Signature)
| getter (owner : ClassName) (name : String) (type : Ty)
| setter (owner : ClassName) (name : String) (type : Ty)
| staticGetter (owner : ClassName) (name : String) (type : Ty)
| staticSetter (owner : ClassName) (name : String) (type : Ty)

namespace Request

/- The operation that answers a request. -/
def find
    (rt : Runtime)
    (l : Lookup) : Request → Link Target
| static owner name sig => l.findStatic rt owner name sig
| virtual owner name sig => l.findVirtual rt owner name sig
| special owner name sig caller =>
    l.findSpecial rt owner name sig caller
| constructor owner sig => l.findConstructor rt owner sig
| getter owner name t => l.findGetter rt owner name t
| setter owner name t => l.findSetter rt owner name t
| staticGetter owner name t => l.findStaticGetter rt owner name t
| staticSetter owner name t => l.findStaticSetter rt owner name t

/- The class that a member is asked of. -/
def owner : Request → ClassName
| static o _ _ | virtual o _ _ | special o _ _ _
| constructor o _ | getter o _ _ | setter o _ _
| staticGetter o _ _ | staticSetter o _ _ => o

/- What the host resolves for a request. -/
def resolve
    (rt : Runtime)
    (l : Lookup) : Request → Except LinkError Member
| static owner name sig =>
    .method <$> rt.host.resolveMethod owner name sig .isStatic l.cls
| virtual owner name sig =>
    .method <$>
      rt.host.resolveMethod owner name sig
        (instanceKind rt owner) l.cls
| special owner name sig _ =>
    .method <$> rt.host.resolveMethod owner name sig .isSpecial l.cls
| constructor owner sig =>
    .method <$>
      rt.host.resolveMethod owner constructorName sig
        .isConstructor l.cls
| getter owner name t | setter owner name t
| staticGetter owner name t | staticSetter owner name t =>
    .field <$> rt.host.resolveField owner name t l.cls

/- What is in order before the host is asked. -/
def Asks
    (rt : Runtime)
    (l : Lookup) : Request → Prop
| special owner _ _ caller =>
    caller = l.cls ∧ l.modes.has .privateAccess = true ∧
      rt.classes.isSubclass caller owner = true
| constructor owner sig =>
    sig.ret.IsVoid = true ∧ isAbstract rt.classes owner = false
| _ => True

/-
  The flags of a member suit a request: it is static if a
  static one is wanted, and it is not final if it is to be
  written.
-/
def Suits
    (flags : Flags) : Request → Prop
| static _ _ _ | staticGetter _ _ _ => flags.has .isStatic = true
| virtual _ _ _ | special _ _ _ _ | getter _ _ _ =>
    flags.has .isStatic = false
| constructor _ _ => True
| setter _ _ _ =>
    flags.has .isStatic = false ∧ flags.has .isFinal = false
| staticSetter _ _ _ =>
    flags.has .isStatic = true ∧ flags.has .isFinal = false

/- The form by which a request reaches a member. -/
inductive Reaches : Request → Member → Form Target → Prop
| static {owner name sig} {m : Method} (entry : Code) :
    m.slot = .address entry →
    Reaches (static owner name sig) (.method m)
      (.direct m .isStatic entry)
| virtual {owner name sig} {m : Method} {how form} :
    form.Calls m how →
    Reaches (virtual owner name sig) (.method m) form
| special {owner name sig caller} {m : Method} (entry : Code) :
    Reaches (special owner name sig caller) (.method m)
      (.direct m .isSpecial entry)
| constructor {owner sig} {m : Method} (entry : Code) :
    m.slot = .address entry →
    Reaches (constructor owner sig) (.method m)
      (.direct m .isConstructor entry)
| getter {owner name t} {f : Field} (offset : Nat) :
    Reaches (getter owner name t) (.field f) (.fieldGet f offset)
| setter {owner name t} {f : Field} (offset : Nat) :
    Reaches (setter owner name t) (.field f) (.fieldSet f offset)
| staticGetter {owner name t} {f : Field} (offset : Nat) :
    Reaches (staticGetter owner name t) (.field f)
      (.fieldGet f offset)
| staticSetter {owner name t} {f : Field} (offset : Nat) :
    Reaches (staticSetter owner name t) (.field f)
      (.fieldSet f offset)

/-
  A target is permitted: all that was to be checked holds of
  the member that it reaches.
-/
structure Permits
    (rt : Runtime)
    (l : Lookup)
    (q : Request)
    (t : Target)
    (m : Member) : Prop where
  asks : q.Asks rt l
  resolved : q.resolve rt l = .ok m
  suits : q.Suits m.flags
  granted : l.Grants rt.classes m.declaring q.owner m.flags
  allowed :
    rt.host.check m.declaring q.owner m.flags l.cls = .ok ()
  reaches : q.Reaches m t.asFixedArity.form

end Request

end Lookup

------------------------------------------------------------
-- Operations that Fail without a Trace
------------------------------------------------------------

namespace Link

variable {α β : Type}
variable {P : β → Prop}
variable {Q : α → Prop}

/- Only a stub can be missing. -/
def Compiles
    (m : Link α)
    (Q : α → Prop) : Prop :=
  ∀ s,
    match m s with
    | .ok a _ => Q a
    | .error e _ => ∃ f, e = .stubFailed f

/- A failure leaves the state, unless a stub is missing. -/
def Spares
    (m : Link α)
    (Q : α → Prop) : Prop :=
  ∀ s,
    match m s with
    | .ok a _ => Q a
    | .error e s' => (∃ f, e = .stubFailed f) ∨ s' = s

theorem Compiles.imp
    {Q' : α → Prop}
    {m : Link α}
    (hCompiles : m.Compiles Q)
    (hPost : ∀ a, Q a → Q' a) :
    m.Compiles Q' := by
  intro s
  have hM := hCompiles s
  cases hRun : m s with
  | ok a s' =>
      rw [hRun] at hM
      exact hPost a hM
  | error e s' =>
      rw [hRun] at hM
      exact hM

theorem Compiles.bind
    {m : Link β}
    {f : β → Link α}
    (hFirst : m.Compiles P)
    (hSecond : ∀ b, P b → (f b).Compiles Q) :
    Compiles (m >>= f) Q := by
  intro s
  change
    match EStateM.bind m f s with
    | .ok a _ => Q a
    | .error e _ => ∃ f, e = .stubFailed f
  have hM := hFirst s
  unfold EStateM.bind
  cases hRun : m s with
  | ok b s' =>
      rw [hRun] at hM
      exact hSecond b hM s'
  | error e s' =>
      rw [hRun] at hM
      exact hM

theorem Compiles.spares
    {m : Link α}
    (hCompiles : m.Compiles Q) :
    m.Spares Q := by
  intro s
  have hM := hCompiles s
  cases hRun : m s with
  | ok a s' =>
      rw [hRun] at hM
      exact hM
  | error e s' =>
      rw [hRun] at hM
      exact Or.inl hM

theorem Spares.throw
    (e : LinkError) :
    Spares (MonadExcept.throw e : Link α) Q :=
  fun _ => Or.inr rfl

/- A check comes before anything that changes the state. -/
theorem Spares.check_bind
    {m : Link β}
    {f : β → Link α}
    (hCheck : m.Inspects P)
    (hRest : ∀ b, P b → (f b).Spares Q) :
    Spares (m >>= f) Q := by
  rcases hCheck with ⟨x, hx, hOk⟩
  intro s
  change
    match EStateM.bind m f s with
    | .ok a _ => Q a
    | .error e s' => (∃ f, e = .stubFailed f) ∨ s' = s
  unfold EStateM.bind
  rw [hx]
  cases x with
  | ok b => exact hRest b (hOk b rfl) s
  | error e => exact Or.inr rfl

end Link

theorem Target.build_compiles
    (rt : Runtime)
    (sig : Signature)
    (form : Form Target) :
    (Target.build rt sig form).Compiles
      (fun t => t.form = form) := by
  intro s
  unfold Target.build Target.buildKeyed
  dsimp only
  split
  · rename_i hRun
    split at hRun
    · cases hRun
    · cases hRun
      rfl
  · rename_i hRun
    split at hRun
    · cases hRun
      exact ⟨_, rfl⟩
    · cases hRun

namespace Lookup

variable {rt : Runtime}
variable {l : Lookup}
variable {t : Target}

/-
  A node that takes an array last can collect its trailing
  arguments: no check of its own array type fails.
-/
theorem withVarargs_compiles
    (flags : Flags)
    (hPlain : t.isVarargs = false) :
    (withVarargs rt t flags).Compiles
      (fun u => u.asFixedArity = t) := by
  have hFixed : t.asFixedArity = t := by
    unfold Target.isVarargs at hPlain
    unfold Target.asFixedArity
    split <;> simp_all
  have hSame :
      Link.Compiles (pure t : Link Target)
        (fun u => u.asFixedArity = t) :=
    fun _ => hFixed
  unfold withVarargs
  split
  · rename_i last hLast
    split
    · rename_i hArray
      simp only [Bool.and_eq_true] at hArray
      have hCheck : t.checkTrailingArray rt last = pure () := by
        simp [Target.checkTrailingArray, hArray.2, hLast,
          rt.classes.isAssignable_refl last]
      unfold Target.asVarargsCollector
      rw [hCheck, pure_bind]
      unfold Target.isVarargs at hPlain
      split
      · simp_all
      · refine (Target.build_compiles rt _ _).imp ?_
        intro u hu
        simp [Target.asFixedArity, hu]
    · exact hSame
  · exact hSame

/- The node of a method, which may collect its arguments. -/
theorem buildMember_spares
    {sig : Signature}
    {form : Form Target}
    {flags : Flags}
    {Q : Target → Prop}
    (hTargets : form.targets = [])
    (hPost : ∀ u, u.asFixedArity.form = form → Q u) :
    Link.Spares
      (do
        let t ← Target.build rt sig form
        withVarargs rt t flags) Q := by
  apply Link.Compiles.spares
  refine (Target.build_compiles rt sig form).bind ?_
  intro t ht
  have hPlain : t.isVarargs = false := by
    unfold Target.isVarargs
    rw [ht]
    cases form with
    | varargs u array => cases hTargets
    | _ => rfl
  refine (withVarargs_compiles flags hPlain).imp ?_
  intro u hu
  apply hPost
  rw [hu, ht]

/- What both the table and the host say to a member. -/
theorem checkAccess_grants
    (rt : Runtime)
    (l : Lookup)
    (defining reference : ClassName)
    (flags : Flags)
    (member : String) :
    (l.checkAccess rt defining reference flags member).Inspects
      (fun _ =>
        l.Grants rt.classes defining reference flags ∧
          rt.host.check defining reference flags l.cls =
            .ok ()) := by
  unfold checkAccess
  split
  · exact .throw _
  · rename_i hGrants
    refine (ofHost_inspects _).imp ?_
    intro _ hCheck
    exact ⟨hGrants, hCheck⟩

/- A member that both allow is passed. -/
theorem checkAccess_eq
    {rt : Runtime}
    {l : Lookup}
    {defining reference : ClassName}
    {flags : Flags}
    (hGrants : l.Grants rt.classes defining reference flags)
    (hCheck :
      rt.host.check defining reference flags l.cls = .ok ())
    (member : String) :
    l.checkAccess rt defining reference flags member = pure () := by
  unfold checkAccess
  rw [show checkMember .. = .ok () from hGrants]
  dsimp only
  rw [hCheck]
  rfl

------------------------------------------------------------
-- Requests that are Granted
------------------------------------------------------------

namespace Request

/- What a request promises of its target. -/
def Promise
    (rt : Runtime)
    (l : Lookup)
    (q : Request)
    (t : Target) : Prop :=
  ∃ m, q.Permits rt l t m

theorem static_spares
    (rt : Runtime)
    (l : Lookup)
    (owner : ClassName)
    (name : String)
    (sig : Signature) :
    (l.findStatic rt owner name sig).Spares
      (Promise rt l (.static owner name sig)) := by
  unfold findStatic
  refine .check_bind (ofHost_inspects _) ?_
  intro m hResolve
  split
  · exact .throw _
  · rename_i hStatic
    refine .check_bind (checkAccess_grants ..) ?_
    intro _ hAccess
    refine .check_bind (addressOf_inspects m) ?_
    intro entry hSlot
    refine buildMember_spares rfl ?_
    intro u hu
    refine ⟨.method m, trivial, ?_, ?_, hAccess.1, hAccess.2, ?_⟩
    · simp [resolve, hResolve]
    · simpa [Suits, Member.flags] using hStatic
    · rw [hu]
      exact .static entry hSlot

theorem virtual_spares
    (rt : Runtime)
    (l : Lookup)
    (owner : ClassName)
    (name : String)
    (sig : Signature) :
    (l.findVirtual rt owner name sig).Spares
      (Promise rt l (.virtual owner name sig)) := by
  unfold findVirtual
  dsimp only
  refine .check_bind (ofHost_inspects _) ?_
  intro m hResolve
  split
  · exact .throw _
  · rename_i hStatic
    refine .check_bind (checkAccess_grants ..) ?_
    intro _ hAccess
    refine .check_bind (.ofSignature _) ?_
    intro whole _
    refine .check_bind (instanceForm_inspects m _) ?_
    intro form hCalls
    have hTargets : form.targets = [] := by
      cases hCalls with
      | direct a _ => rfl
      | virtual n _ => rfl
      | interface n _ => rfl
    refine buildMember_spares hTargets ?_
    intro u hu
    refine ⟨.method m, trivial, ?_, ?_, hAccess.1, hAccess.2, ?_⟩
    · simp [resolve, hResolve]
    · simpa [Suits, Member.flags] using hStatic
    · rw [hu]
      exact .virtual hCalls

theorem special_spares
    (rt : Runtime)
    (l : Lookup)
    (owner : ClassName)
    (name : String)
    (sig : Signature)
    (caller : ClassName) :
    (l.findSpecial rt owner name sig caller).Spares
      (Promise rt l (.special owner name sig caller)) := by
  unfold findSpecial
  split
  · exact .throw _
  · rename_i hCaller
    split
    · exact .throw _
    · rename_i hSub
      refine .check_bind (ofHost_inspects _) ?_
      intro m hResolve
      split
      · exact .throw _
      · rename_i hStatic
        refine .check_bind (checkAccess_grants ..) ?_
        intro _ hAccess
        refine .check_bind (specialEntry_inspects rt m) ?_
        intro entry _
        refine .check_bind (.ofSignature _) ?_
        intro whole _
        refine buildMember_spares rfl ?_
        intro u hu
        refine
          ⟨.method m, ?_, ?_, ?_, hAccess.1, hAccess.2, ?_⟩
        · simp only [Bool.or_eq_true, decide_eq_true_eq,
            not_or, not_not, Bool.not_eq_true',
            Bool.not_eq_false] at hCaller hSub
          exact ⟨hCaller.1, hCaller.2, hSub⟩
        · simp [resolve, hResolve]
        · simpa [Suits, Member.flags] using hStatic
        · rw [hu]
          exact .special entry

theorem constructor_spares
    (rt : Runtime)
    (l : Lookup)
    (owner : ClassName)
    (sig : Signature) :
    (l.findConstructor rt owner sig).Spares
      (Promise rt l (.constructor owner sig)) := by
  unfold findConstructor
  split
  · exact .throw _
  · rename_i hVoid
    split
    · exact .throw _
    · rename_i hAbstract
      refine .check_bind (ofHost_inspects _) ?_
      intro m hResolve
      refine .check_bind (checkAccess_grants ..) ?_
      intro _ hAccess
      refine .check_bind (addressOf_inspects m) ?_
      intro entry hSlot
      refine buildMember_spares rfl ?_
      intro u hu
      refine
        ⟨.method m, ?_, ?_, trivial, hAccess.1, hAccess.2, ?_⟩
      · exact ⟨by simpa using hVoid, by simpa using hAbstract⟩
      · simp [resolve, hResolve]
      · rw [hu]
        exact .constructor entry hSlot

/-
  The four requests for fields are one operation: what the
  node of a field promises follows from its flags.
-/
theorem field_spares
    {Q : Target → Prop}
    (rt : Runtime)
    (l : Lookup)
    (owner : ClassName)
    (name : String)
    (t : Ty)
    (isStatic setter : Bool)
    (hPost :
      ∀ f offset u,
        rt.host.resolveField owner name t l.cls = .ok f →
          f.flags.has .isStatic = isStatic →
          (setter = true → f.flags.has .isFinal = false) →
          l.Grants rt.classes f.declaring owner f.flags →
          rt.host.check f.declaring owner f.flags l.cls = .ok () →
          u.asFixedArity.form =
            (if setter
            then .fieldSet f offset
            else .fieldGet f offset) →
          Q u) :
    (l.findField rt owner name t isStatic setter).Spares Q := by
  unfold findField
  refine .check_bind (ofHost_inspects _) ?_
  intro f hResolve
  split
  · exact .throw _
  · rename_i hStatic
    split
    · exact .throw _
    · rename_i hFinal
      refine .check_bind (checkAccess_grants ..) ?_
      intro _ hAccess
      refine .check_bind (offsetOf_inspects ..) ?_
      intro offset _
      refine .check_bind (.ofSignature _) ?_
      intro sig _
      apply Link.Compiles.spares
      refine (Target.build_compiles rt sig _).imp ?_
      intro u hu
      have hForm :
          u.asFixedArity.form =
            (if setter
            then .fieldSet f offset
            else .fieldGet f offset) := by
        unfold Target.asFixedArity
        cases setter <;> simp [hu]
      refine
        hPost f offset u hResolve (not_not.1 hStatic) ?_
          hAccess.1 hAccess.2 hForm
      intro hSetter
      simpa [hSetter] using hFinal

/-
  A request gives a target that is permitted, or it fails and
  nothing has changed, or a stub is missing.
-/
theorem find_spares
    (rt : Runtime)
    (l : Lookup)
    (q : Request) :
    (q.find rt l).Spares (Promise rt l q) := by
  cases q with
  | static owner name sig => exact static_spares rt l owner name sig
  | virtual owner name sig =>
      exact virtual_spares rt l owner name sig
  | special owner name sig caller =>
      exact special_spares rt l owner name sig caller
  | constructor owner sig => exact constructor_spares rt l owner sig
  | getter owner name t =>
      refine field_spares rt l owner name t false false ?_
      intro f n u hResolve hStatic _ hGrants hCheck hForm
      refine ⟨.field f, trivial, ?_, hStatic, hGrants, hCheck, ?_⟩
      · simp [resolve, hResolve]
      · rw [hForm]
        exact .getter n
  | setter owner name t =>
      refine field_spares rt l owner name t false true ?_
      intro f n u hResolve hStatic hFinal hGrants hCheck hForm
      refine
        ⟨.field f, trivial, ?_, ⟨hStatic, hFinal rfl⟩, hGrants,
          hCheck, ?_⟩
      · simp [resolve, hResolve]
      · rw [hForm]
        exact .setter n
  | staticGetter owner name t =>
      refine field_spares rt l owner name t true false ?_
      intro f n u hResolve hStatic _ hGrants hCheck hForm
      refine ⟨.field f, trivial, ?_, hStatic, hGrants, hCheck, ?_⟩
      · simp [resolve, hResolve]
      · rw [hForm]
        exact .staticGetter n
  | staticSetter owner name t =>
      refine field_spares rt l owner name t true true ?_
      intro f n u hResolve hStatic hFinal hGrants hCheck hForm
      refine
        ⟨.field f, trivial, ?_, ⟨hStatic, hFinal rfl⟩, hGrants,
          hCheck, ?_⟩
      · simp [resolve, hResolve]
      · rw [hForm]
        exact .staticSetter n

------------------------------------------------------------
-- Errors of the Host
------------------------------------------------------------

/- An error of the host is the error of the operation. -/
theorem ofHost_error_bind
    {α β : Type}
    (e : LinkError)
    (f : α → Link β)
    (s : State) :
    (ofHost (.error e) >>= f) s = .error e s :=
  rfl

theorem error_of_map_error
    {α β : Type}
    {f : α → β}
    {x : Except LinkError α}
    {e : LinkError}
    (hMap : f <$> x = .error e) :
    x = .error e := by
  cases x with
  | ok a => cases hMap
  | error e' =>
      cases hMap
      rfl

theorem ok_of_map_ok
    {α β : Type}
    {f : α → β}
    {x : Except LinkError α}
    {b : β}
    (hMap : f <$> x = .ok b) :
    ∃ a, x = .ok a ∧ f a = b := by
  cases x with
  | ok a =>
      cases hMap
      exact ⟨a, rfl, rfl⟩
  | error e' => cases hMap

theorem ofHost_ok_bind
    {α β : Type}
    (a : α)
    (f : α → Link β) :
    (ofHost (.ok a) >>= f) = f a :=
  rfl

/-
  A member that the table grants is put before the host, and
  nothing is done after the host has refused it.
-/
theorem checkAccess_error_bind
    {α : Type}
    {rt : Runtime}
    {l : Lookup}
    {defining reference : ClassName}
    {flags : Flags}
    {e : LinkError}
    (member : String)
    (hGrants : l.Grants rt.classes defining reference flags)
    (hCheck :
      rt.host.check defining reference flags l.cls = .error e)
    (f : Unit → Link α)
    (s : State) :
    (l.checkAccess rt defining reference flags member >>= f) s =
      .error e s := by
  unfold checkAccess
  rw [show checkMember .. = .ok () from hGrants]
  dsimp only
  rw [hCheck]
  exact ofHost_error_bind e f s

variable {rt : Runtime}
variable {l : Lookup}
variable {q : Request}
variable {m : Member}
variable {e : LinkError}

/- What the host cannot resolve is not looked at further. -/
theorem find_of_resolve_error
    (hAsks : q.Asks rt l)
    (hResolve : q.resolve rt l = .error e)
    (s : State) :
    q.find rt l s = .error e s := by
  cases q with
  | static owner name sig =>
      simp only [find, findStatic, Lookup.resolve,
        error_of_map_error hResolve, ofHost_error_bind]
  | virtual owner name sig =>
      simp only [find, findVirtual, Lookup.resolve,
        error_of_map_error hResolve, ofHost_error_bind]
  | special owner name sig caller =>
      rcases hAsks with ⟨rfl, hPrivate, hSub⟩
      simp [find, findSpecial, hPrivate, hSub, Lookup.resolve,
        error_of_map_error hResolve, ofHost_error_bind]
  | constructor owner sig =>
      simp [find, findConstructor, hAsks.1, hAsks.2, Lookup.resolve,
        error_of_map_error hResolve, ofHost_error_bind]
  | getter owner name t
  | setter owner name t
  | staticGetter owner name t
  | staticSetter owner name t =>
      simp only [find, findGetter, findSetter, findStaticGetter,
        findStaticSetter, findField,
        error_of_map_error hResolve, ofHost_error_bind]

/- A field that suits is put before the table and the host. -/
theorem findField_of_check_error
    {owner : ClassName}
    {name : String}
    {t : Ty}
    {isStatic setter : Bool}
    {f : Field}
    (hResolve :
      rt.host.resolveField owner name t l.cls = .ok f)
    (hStatic : f.flags.has .isStatic = isStatic)
    (hFinal : (setter && f.flags.has .isFinal) = false)
    (hGrants : l.Grants rt.classes f.declaring owner f.flags)
    (hCheck :
      rt.host.check f.declaring owner f.flags l.cls = .error e)
    (s : State) :
    l.findField rt owner name t isStatic setter s =
      .error e s := by
  simp only [findField, hResolve, ofHost_ok_bind, hStatic, hFinal,
    ne_eq, not_true_eq_false, if_false, Bool.false_eq_true]
  exact checkAccess_error_bind name hGrants hCheck _ s

/- What the host refuses is not made. -/
theorem find_of_check_error
    (hAsks : q.Asks rt l)
    (hResolve : q.resolve rt l = .ok m)
    (hSuits : q.Suits m.flags)
    (hGrants : l.Grants rt.classes m.declaring q.owner m.flags)
    (hCheck :
      rt.host.check m.declaring q.owner m.flags l.cls = .error e)
    (s : State) :
    q.find rt l s = .error e s := by
  cases q with
  | static owner name sig =>
      rcases ok_of_map_ok hResolve with ⟨m, hMethod, rfl⟩
      have hStatic : m.flags.has .isStatic = true := hSuits
      simp only [find, findStatic, Lookup.resolve, hMethod,
        ofHost_ok_bind, hStatic, Bool.not_true, Bool.false_eq_true,
        if_false]
      exact checkAccess_error_bind name hGrants hCheck _ s
  | virtual owner name sig =>
      rcases ok_of_map_ok hResolve with ⟨m, hMethod, rfl⟩
      have hStatic : m.flags.has .isStatic = false := hSuits
      simp only [find, findVirtual, Lookup.resolve, hMethod,
        ofHost_ok_bind, hStatic, Bool.false_eq_true, if_false]
      exact checkAccess_error_bind name hGrants hCheck _ s
  | special owner name sig caller =>
      rcases hAsks with ⟨rfl, hPrivate, hSub⟩
      rcases ok_of_map_ok hResolve with ⟨m, hMethod, rfl⟩
      have hStatic : m.flags.has .isStatic = false := hSuits
      simp only [find, findSpecial, hPrivate, hSub, ne_eq,
        not_true_eq_false, decide_false, Bool.not_true,
        Bool.or_self, Bool.false_eq_true, if_false,
        Lookup.resolve, hMethod, ofHost_ok_bind, hStatic]
      exact checkAccess_error_bind name hGrants hCheck _ s
  | constructor owner sig =>
      rcases hAsks with ⟨hVoid, hAbstract⟩
      rcases ok_of_map_ok hResolve with ⟨m, hMethod, rfl⟩
      simp only [find, findConstructor, hVoid, hAbstract,
        Bool.not_true, Bool.false_eq_true, if_false,
        Lookup.resolve, hMethod, ofHost_ok_bind]
      exact
        checkAccess_error_bind constructorName hGrants hCheck _ s
  | getter owner name t =>
      rcases ok_of_map_ok hResolve with ⟨f, hField, rfl⟩
      exact
        findField_of_check_error hField hSuits rfl hGrants hCheck s
  | setter owner name t =>
      rcases ok_of_map_ok hResolve with ⟨f, hField, rfl⟩
      rcases hSuits with ⟨hStatic, hFinal⟩
      exact
        findField_of_check_error hField hStatic
          (Bool.and_eq_false_imp.2 (fun _ => hFinal)) hGrants
          hCheck s
  | staticGetter owner name t =>
      rcases ok_of_map_ok hResolve with ⟨f, hField, rfl⟩
      exact
        findField_of_check_error hField hSuits rfl hGrants hCheck s
  | staticSetter owner name t =>
      rcases ok_of_map_ok hResolve with ⟨f, hField, rfl⟩
      rcases hSuits with ⟨hStatic, hFinal⟩
      exact
        findField_of_check_error hField hStatic
          (Bool.and_eq_false_imp.2 (fun _ => hFinal)) hGrants
          hCheck s

------------------------------------------------------------
-- Lookups
------------------------------------------------------------

/-
  A request that gives a target gives a permitted one.  Errors
  of the host come back as they are.  A request that fails
  for want of anything but a stub leaves the state as it was,
  and with it the cache of stubs.
-/
theorem find_grants_only_permitted
    (rt : Runtime)
    (l : Lookup)
    (q : Request)
    (s : State) :
    (∀ t s',
      q.find rt l s = .ok t s' → ∃ m, q.Permits rt l t m) ∧
    (∀ e,
      q.Asks rt l →
        q.resolve rt l = .error e →
          q.find rt l s = .error e s) ∧
    (∀ m e,
      q.Asks rt l →
        q.resolve rt l = .ok m →
          q.Suits m.flags →
            l.Grants rt.classes m.declaring q.owner m.flags →
              rt.host.check m.declaring q.owner m.flags l.cls =
                .error e →
              q.find rt l s = .error e s) ∧
    (∀ e s',
      q.find rt l s = .error e s' →
        (∀ f, e ≠ .stubFailed f) →
          s' = s ∧ s'.cache = s.cache) := by
  have hSpares := find_spares rt l q s
  refine ⟨?_, ?_, ?_, ?_⟩
  · intro t s' hFind
    rw [hFind] at hSpares
    exact hSpares
  · intro e hAsks hResolve
    exact find_of_resolve_error hAsks hResolve s
  · intro m e hAsks hResolve hSuits hGrants hCheck
    exact
      find_of_check_error hAsks hResolve hSuits hGrants hCheck s
  · intro e s' hFind hStub
    rw [hFind] at hSpares
    rcases hSpares with ⟨f, rfl⟩ | rfl
    · exact absurd rfl (hStub f)
    · exact ⟨rfl, rfl⟩

/-
  A host that resolves one private field, and that allows
  members to all classes but one.
-/
def vault : Runtime where
  classes := neighbours
  host :=
    { resolveMethod := fun owner name sig _ _ =>
        .error (.noSuchMethod owner name sig)
      resolveField := fun owner name t _ =>
        if name = "secret"
        then .ok ⟨owner, name, t, ⟨2⟩, .fieldOffset 0⟩
        else .error (.noSuchField owner name)
      check := fun _ owner _ caller =>
        if caller = ⟨"a.Base$Inner"⟩
        then .error (.securityViolation owner "secret" "sealed")
        else .ok ()
      call := fun _ _ h => (.ok .void, h)
      virtualEntry := fun _ _ => none
      interfaceEntry := fun _ _ _ => none
      allocate := fun _ _ => none
      staticCell := fun _ _ => none }
  compile := fun _ _ => .ok 2
  memoizeAsType := true

/-
  The class itself may write its private field; the host keeps
  the nested class from it, and the table the neighbour.
-/
theorem find_grants_only_permitted_vault :
    (∃ t s' m,
      (setter ⟨"a.Base"⟩ "secret" .int).find vault
          (full ⟨"a.Base"⟩) (.initial .empty none) = .ok t s' ∧
        (setter ⟨"a.Base"⟩ "secret" .int).Permits vault
          (full ⟨"a.Base"⟩) t m) ∧
    (getter ⟨"a.Base"⟩ "other" .int).find vault
        (full ⟨"a.Base"⟩) (.initial .empty none) =
      .error (.noSuchField ⟨"a.Base"⟩ "other")
        (.initial .empty none) ∧
    (getter ⟨"a.Base"⟩ "secret" .int).find vault
        (full ⟨"a.Base$Inner"⟩) (.initial .empty none) =
      .error (.securityViolation ⟨"a.Base"⟩ "secret" "sealed")
        (.initial .empty none) ∧
    (∃ e s',
      (getter ⟨"a.Base"⟩ "secret" .int).find vault
          (full ⟨"a.Other"⟩) (.initial .empty none) =
        .error e s' ∧
      s'.cache = (State.initial .empty none).cache) := by
  refine ⟨?_, ?_, ?_, ?_⟩
  · have hFind :
        ∃ t s',
          (setter ⟨"a.Base"⟩ "secret" .int).find vault
            (full ⟨"a.Base"⟩) (.initial .empty none) =
          .ok t s' :=
      ⟨_, _, rfl⟩
    rcases hFind with ⟨t, s', hFind⟩
    rcases
      (find_grants_only_permitted vault _ _ _).1 t s' hFind
      with ⟨m, hPermits⟩
    exact ⟨t, s', m, hFind, hPermits⟩
  · exact
      (find_grants_only_permitted vault (full ⟨"a.Base"⟩)
        (getter ⟨"a.Base"⟩ "other" .int)
        (.initial .empty none)).2.1 _ trivial rfl
  · exact
      (find_grants_only_permitted vault (full ⟨"a.Base$Inner"⟩)
        (getter ⟨"a.Base"⟩ "secret" .int)
        (.initial .empty none)).2.2.1 _ _ trivial rfl rfl
          (by decide +kernel) rfl
  · have hFind :
        ∃ e s',
          (getter ⟨"a.Base"⟩ "secret" .int).find vault
            (full ⟨"a.Other"⟩) (.initial .empty none) =
          .error e s' ∧ ∀ f, e ≠ .stubFailed f :=
      ⟨_, _, rfl, fun _ => LinkError.noConfusion⟩
    rcases hFind with ⟨e, s', hFind, hStub⟩
    exact
      ⟨e, s', hFind,
        ((find_grants_only_permitted vault _ _ _).2.2.2 e s'
          hFind hStub).2⟩

end Request

end Lookup

end Linkage
