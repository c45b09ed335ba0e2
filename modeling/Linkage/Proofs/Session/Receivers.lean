import Linkage.Proofs.Invoke.Receivers
import Linkage.Proofs.Invoke.Vetted
import Linkage.Proofs.Session.Steps
import Linkage.Proofs.World

/-
  Receivers in sessions.  In a call of a target that a session
  has made, each node for an instance method that is entered
  either lets the host run on a receiver that is an object,
  or fails for its receiver or for want of code.  The node is
  of a subclass of the class that declares the method; so a
  receiver that is a value of the first parameter is one of
  that class, and a node that calls through an interface lets
  no others pass.

  Key definitions include:
    * `Host.Consistent`
    * `Target.Owns`
    * `Session.ReceiversAttended`

  Key theorems include:
    * `World.host_consistent`
    * `Form.Fits.owns`
    * `Session.call_attends_receivers`
-/

------------------------------------------------------------
-- Consistent Hosts
------------------------------------------------------------

namespace Linkage

/-
  A member that is not a constructor is found in a class of
  which its owner is a subclass.
-/
def Host.Consistent
    (H : Host)
    (T : ClassTable) : Prop :=
  ∀ owner name sig how caller m,
    how ≠ .isConstructor →
      H.resolveMethod owner name sig how caller = .ok m →
        T.isSubclass owner m.declaring = true

theorem World.host_consistent (w : World) :
    w.host.Consistent w.classes := by
  intro owner name sig how caller m hHow hResolve
  change w.resolveMethod owner name sig how = .ok m at hResolve
  unfold resolveMethod at hResolve
  dsimp only at hResolve
  rw [if_neg hHow] at hResolve
  split at hResolve
  · rename_i m' hFound
    rcases List.exists_of_findSome?_eq_some hFound with
      ⟨n, hn, hDeclared⟩
    unfold declared? at hDeclared
    have hCond := List.find?_some hDeclared
    simp only [Bool.and_eq_true, decide_eq_true_eq] at hCond
    cases hResolve
    apply ClassTable.isSubclass_of_mem_supertypes
    rw [hCond.1.1]
    exact hn
  · cases hResolve

------------------------------------------------------------
-- Nodes and the Classes of Their Methods
------------------------------------------------------------

/-
  The receiver of a node for an instance method is declared
  to be of a subclass of the class of the method.
-/
def Target.Owns
    (T : ClassTable)
    (t : Target) : Prop :=
  ∀ m, t.form.method? = some m →
    ∃ receiver,
      t.params.head? = some (.cls receiver) ∧
        T.isSubclass receiver m.declaring = true

variable {rt : Runtime}
variable {sites : List Signature}
variable {t : Target}

theorem Form.Fits.owns
    (hConsistent : rt.host.Consistent rt.classes)
    (hTransitive : rt.classes.Transitive)
    (hFits : t.form.Fits rt sites t.signature) :
    t.Owns rt.classes := by
  intro m hMethod
  have hAbove :
      ∀ {owner receiver : ClassName} {rest : List Ty}
        {name sig how caller m},
        how ≠ .isConstructor →
          rt.host.resolveMethod owner name sig how caller = .ok m →
            rt.classes.isSubclass receiver owner = true →
              t.params = .cls receiver :: rest →
                ∃ n,
                  t.params.head? = some (.cls n) ∧
                    rt.classes.isSubclass n m.declaring = true := by
    intro owner receiver rest name sig how caller m hHow hResolve
      hReceiver hParams
    refine ⟨receiver, ?_, ?_⟩
    · rw [hParams]
      rfl
    · exact
        hTransitive (.cls receiver) (.cls owner) (.cls m.declaring)
          hReceiver (hConsistent _ _ _ _ _ _ hHow hResolve)
  generalize hForm : t.form = form at hFits hMethod
  cases hFits with
  | @method meth _ _ _ _ _ how _ hHow hResolve hReceiver hParams _
      hCalls =>
      have hSame : m = meth := by
        cases hCalls with
        | direct c hSlot =>
            rcases hHow with rfl | rfl
            all_goals exact (Option.some.inj hMethod).symm
        | virtual n hSlot => exact (Option.some.inj hMethod).symm
        | interface n hSlot => exact (Option.some.inj hMethod).symm
      subst hSame
      have hOther : how ≠ .isConstructor := by
        rcases hHow with rfl | rfl
        · decide
        · decide
      exact hAbove hOther hResolve hReceiver hParams
  | special hResolve hSelects hReceiver hParams _ =>
      cases hMethod
      exact hAbove (by decide) hResolve hReceiver hParams
  | _ => cases hMethod

------------------------------------------------------------
-- Calls in Sessions
------------------------------------------------------------

/-
  The entries of nodes for instance methods are attended to,
  and a receiver that is a value of the first parameter is of
  the class that declares the method.
-/
def ReceiversAttended
    (rt : Runtime)
    (ms : List Moment) : Prop :=
  ∀ before t args after m,
    ms = before ++ .event (.entered t args) :: after →
      t.form.method? = some m →
        Attends rt t m args after ∧
          ∀ o p, args.head? = some (.ref o) →
            t.params.head? = some p →
              (Value.ref o).conforms rt.classes p = true →
                rt.classes.isAssignable o.type (.cls m.declaring) =
                  true

namespace Session

/-
  Whatever a session calls, no node for an instance method
  lets the host run but on an object.  It is of the class of
  the method if the node calls through an interface, or if
  the node was entered with a receiver of its own type.
-/
theorem call_attends_receivers
    {s : Session}
    {t : Target}
    {args : List Value}
    {x : Entry}
    (hFresh : s.IsFresh)
    (hCompile : s.context.runtime.compile = .checking)
    (hHost : s.context.runtime.host.MakesNoTargets)
    (hConsistent :
      s.context.runtime.host.Consistent s.context.runtime.classes)
    (hTransitive : s.context.runtime.classes.Transitive)
    (xs : List Step)
    (fuel : Nat)
    (hNamed : (s.after xs).context.Names t)
    (hInLine : x.InLine t args) :
    ReceiversAttended s.context.runtime
      (x.story s.context.runtime fuel t args
        { (s.after xs).state with trace := [] }) := by
  rcases listed_after hFresh hHost xs with ⟨c, hKnown, hNames⟩
  rw [runtime_after] at hKnown
  have hListed := hNames t hNamed
  have hLists :
      Vetting.Lists
        (fun u _ => u.Owns s.context.runtime.classes)
        s.context.runtime := by
    intro d u _ hFits _ hu _
    exact (hFits u hu).owns hConsistent hTransitive
  have hOwned :
      Moment.AllEntered
        (fun u _ => u.Owns s.context.runtime.classes)
        (x.moments s.context.runtime fuel t args
          { (s.after xs).state with trace := [] }) :=
    Entry.allEntered hHost hCompile hLists hKnown.fits
      (hKnown.sound.withTrace []) hListed hInLine
  have hRoot : t.Owns s.context.runtime.classes :=
    (hKnown.fits t hListed).owns hConsistent hTransitive
  intro before u as after m hStory hMethod
  refine ⟨x.attended _ before u as after m hStory hMethod, ?_⟩
  have hOwns : u.Owns s.context.runtime.classes := by
    apply hOwned.story hRoot
    rw [hStory]
    exact List.mem_append_right before List.mem_cons_self
  intro o p _ hParam hConforms
  rcases hOwns m hMethod with ⟨receiver, hHead, hSub⟩
  rw [hHead] at hParam
  cases hParam
  exact
    hTransitive o.type (.cls receiver) (.cls m.declaring) hConforms
      hSub

/- A private method of an interface, at a fixed address. -/
def area : Method :=
  ⟨⟨"a.Shape"⟩, "area", ⟨[], .int, ⟨by decide, by decide⟩⟩,
    .ofList [.isPrivate], .address ⟨0⟩⟩

/- A host that knows this method only. -/
def shapes : Host where
  resolveMethod := fun owner name sig _ _ =>
    if owner = area.declaring then .ok area
    else .error (.noSuchMethod owner name sig)
  resolveField := fun owner name _ _ =>
    .error (.noSuchField owner name)
  check := fun _ _ _ _ => .ok ()
  call := fun _ _ h => (.ok (.prim (.int 7)), h)
  virtualEntry := fun _ _ => none
  interfaceEntry := fun _ _ _ => none
  allocate := fun _ _ => none
  staticCell := fun _ _ => none

theorem shapes_makesNoTargets : shapes.MakesNoTargets where
  call := fun _ _ _ _ _ hAt => Orderly.holds_of_at? hAt
  allocate := nofun

theorem shapes_consistent (T : ClassTable) :
    shapes.Consistent T := by
  intro owner name sig how caller m _ hResolve
  change
    (if owner = area.declaring then Except.ok area else _) = _
      at hResolve
  split at hResolve
  · rename_i hOwner
    cases hResolve
    rw [hOwner]
    exact ClassTable.isAssignable_refl T (.cls area.declaring)
  · cases hResolve

/- A session with the interface and its host. -/
def shaped : Session where
  context :=
    { world := .initial ⟨[.ofInterface area.declaring]⟩
      runtime :=
        { classes := ⟨[.ofInterface area.declaring]⟩
          host := shapes
          compile := .checking
          memoizeAsType := true }
      names := ⟨[], [], [], []⟩ }
  state := .initial .empty none

theorem shaped_isFresh : shaped.IsFresh where
  names := rfl
  state := by
    refine ⟨.empty, none, rfl, ?_⟩
    intro i t hAt
    cases hAt

/- The method is cast to take an array, and gets one. -/
def casting : List Step :=
  [.lookup area.declaring (some "shapes"),
   .make (.findVirtual "shapes" area.declaring "area" ⟨[], .int⟩)
     (some "area"),
   .make (.explicitCast "area" ⟨[.array .int], .int⟩) (some "any"),
   .invoke "any" [.zeros .int 0] .exact none]

/- Null is refused in a call of the target that was cast. -/
theorem call_attends_receivers_null :
    ∃ t,
      (shaped.after casting).context.Names t ∧
        t.count = 1 ∧
        ReceiversAttended shaped.context.runtime
          ((Entry.way .exact).story shaped.context.runtime 9 t
            [.null]
            { (shaped.after casting).state with trace := [] }) := by
  have hLast :
      (shaped.after casting).context.names.targets.head?.map
          (fun p => (p.1, p.2.count)) =
        some ("any", 1) := by
    decide +kernel
  rcases Option.map_eq_some_iff.1 hLast with ⟨⟨n, t⟩, hHead, hEq⟩
  have hNamed : (shaped.after casting).context.Names t :=
    ⟨n, List.mem_of_head? hHead⟩
  have hRoots : shaped.context.runtime.classes.PlainRoots := by
    intro n _ m hm
    unfold ClassTable.parents at hm
    split at hm
    · rename_i c hFind
      have hMem := List.mem_of_find?_eq_some hFind
      cases List.mem_singleton.1 hMem
      cases hm
    · cases hm
  exact
    ⟨t, hNamed, congrArg Prod.snd hEq,
      call_attends_receivers shaped_isFresh rfl
        shapes_makesNoTargets (shapes_consistent _)
        hRoots.transitive casting 9 hNamed trivial⟩

/-
  Whether the last event is a call of the host by a node for
  an instance method, on an object of another class.
-/
def isStray
    (T : ClassTable) : List Event → Bool
| .called _ (.ref o :: _) _ :: .entered t _ :: _ =>
    t.form.method?.any
      (fun m => !T.isAssignable o.type (.cls m.declaring))
| _ => false

/- The array is passed to the method of the interface. -/
theorem call_attends_receivers_stray :
    ∃ code o rest h t args es m,
      (shaped.after casting).state.trace =
          .called code (.ref o :: rest) h :: .entered t args :: es ∧
        t.form.method? = some m ∧
        shaped.context.runtime.classes.isAssignable o.type
          (.cls m.declaring) = false := by
  have hStray :
      isStray shaped.context.runtime.classes
        (shaped.after casting).state.trace = true := by
    decide +kernel
  generalize (shaped.after casting).state.trace = es at hStray ⊢
  unfold isStray at hStray
  split at hStray
  · rename_i code o rest h t args es
    rcases (Option.any_eq_true _ _).1 hStray with ⟨m, hMethod, hClass⟩
    refine ⟨code, o, rest, h, t, args, es, m, rfl, hMethod, ?_⟩
    simpa using hClass
  · cases hStray

end Session

end Linkage
