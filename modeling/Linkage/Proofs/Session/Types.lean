import Linkage.Proofs.Session.Steps
import Linkage.Proofs.Typing.Entering
import Linkage.Proofs.World

/-
  Type safety of sessions.  A target that a session has made
  is invoked with arguments of its parameter types, and only
  these are checked; still every target that is entered in
  the run gets values of its own parameter types, and returns
  one of its own result type.  The host has to honor types,
  the arrays and cells in play have to be well typed, and no
  target in play casts without a check.

  Key definitions include:
    * `Run.KeepsTypes`

  Key theorems include:
    * `Session.invokeExact_keepsTypes`
-/

------------------------------------------------------------
-- Runs that Keep Types
------------------------------------------------------------

namespace Linkage

variable {rt : Runtime}
variable {L : Layout}
variable {S : Store}

/-
  The invocation of a target from a state.  It goes as the
  watched one: no target is entered with other values than
  those of its parameters, or left with another value than
  one of its result type.  What was entered was admitted, the
  result is a value of the result type, what is thrown can be
  thrown, and the heap is typed again.
-/
structure Run.KeepsTypes
    (rt : Runtime)
    (L : Layout)
    (S : Store)
    (t : Target)
    (args : List Value)
    (fuel : Nat)
    (s : State) : Prop where
  watched :
    t.invokeExact rt (Target.enterWatched rt fuel) args s =
      t.invokeExact rt (Target.enter rt fuel) args s
  inside :
    ∀ s',
      t.invokeExact rt (Target.enter rt fuel) args s ≠
        .error .outside s'
  entered :
    Admitted rt.classes
      (Run.final
        (t.invokeExact rt (Target.enter rt fuel) args s)).trace
  typed :
    ∃ U, S ≤ U ∧
      (Run.final
        (t.invokeExact rt (Target.enter rt fuel) args
          s)).heap.Typed rt.classes L U ∧
      (∀ v s',
        t.invokeExact rt (Target.enter rt fuel) args s =
          .ok v s' → v.Fits rt.classes U t.ret) ∧
      ∀ f s',
        t.invokeExact rt (Target.enter rt fuel) args s =
          .error (.fault f) s' → f.Fair rt.classes U

/- A safe watched run is the run that is not watched. -/
theorem Safe.keepsTypes
    {w : Stage}
    {t : Target}
    {args : List Value}
    {fuel : Nat}
    {s : State}
    (hSafe :
      Safe rt L w
        (t.invokeExact rt (Target.enterWatched rt fuel) args)
        (fun v a => a.Fits rt.classes v.store t.ret))
    (hStaged : Staged rt L w s) :
    Run.KeepsTypes rt L w.store t args fuel s := by
  have hLeaves := hSafe s hStaged
  have hFollows :
      Follows
        (t.invokeExact rt (Target.enterWatched rt fuel) args)
        (t.invokeExact rt (Target.enter rt fuel) args) :=
    Follows.invokeExact
      (fun u as => enterWatched_follows fuel u.stub u as)
  have hSame :
      t.invokeExact rt (Target.enterWatched rt fuel) args s =
        t.invokeExact rt (Target.enter rt fuel) args s := by
    rcases hFollows s with hSame | ⟨s', hOutside⟩
    · exact hSame
    · rw [hOutside] at hLeaves
      rcases hLeaves with ⟨_, _, _, hNever⟩
      exact absurd hNever id
  have hRun := hSame
  rw [hSame] at hLeaves
  cases hEq :
      t.invokeExact rt (Target.enter rt fuel) args s with
  | ok a s' =>
      rw [hEq] at hLeaves
      rcases hLeaves with ⟨v, hv, hStaged', hFits⟩
      refine ⟨hRun, ?_, ?_, v.store, hv.2, ?_, ?_, ?_⟩
      · rw [hEq]
        nofun
      · rw [hEq]
        exact hStaged'.around.2.2
      · rw [hEq]
        exact hStaged'.heap
      · rw [hEq]
        intro b s'' hb
        cases hb
        exact hFits
      · rw [hEq]
        nofun
  | error e s' =>
      rw [hEq] at hLeaves
      rcases hLeaves with ⟨v, hv, hStaged', hFair⟩
      refine ⟨hRun, ?_, ?_, v.store, hv.2, ?_, ?_, ?_⟩
      · rw [hEq]
        intro s'' hOutside
        cases hOutside
        exact hFair
      · rw [hEq]
        exact hStaged'.around.2.2
      · rw [hEq]
        exact hStaged'.heap
      · rw [hEq]
        nofun
      · rw [hEq]
        intro f s'' hf
        cases hf
        exact hFair

------------------------------------------------------------
-- Type Safety
------------------------------------------------------------

namespace Session

/-
  An invocation of a named target keeps types, in whatever
  way a session has come to the target.
-/
theorem invokeExact_keepsTypes
    {s : Session}
    {t : Target}
    {args : List Value}
    (hFresh : s.IsFresh)
    (hHost : s.context.runtime.host.MakesNoTargets)
    (hRoots : s.context.runtime.classes.PlainRoots)
    (hHonors :
      s.context.runtime.host.Honors s.context.runtime.classes L S)
    (xs : List Step)
    (fuel : Nat)
    (hNamed : (s.after xs).context.Names t)
    (hHeap :
      (s.after xs).state.heap.Typed s.context.runtime.classes L S)
    (hSites : SitesGood S (s.after xs).state.sites)
    (hGood : t.Good S)
    (hIn : ∀ a ∈ args, a.In S) :
    Run.KeepsTypes s.context.runtime L S t args fuel
      { (s.after xs).state with trace := [] } := by
  rcases listed_after hFresh hHost xs with ⟨c, hKnown, hNames⟩
  rw [runtime_after] at hKnown
  have hStaged :
      Staged s.context.runtime L ⟨c, S⟩
        { (s.after xs).state with trace := [] } := by
    refine
      ⟨hKnown.fits, hKnown.sound.withTrace [], hHeap, hSites, ?_⟩
    intro u as hMem
    cases hMem
  have hEnter :
      TypedEntry s.context.runtime L S
        (Target.enterWatched s.context.runtime fuel) :=
    typedEntry_enterWatched hRoots hHost hHonors fuel
  have hReady : t.Ready ⟨c, S⟩ := ⟨hNames t hNamed, hGood⟩
  exact
    (hEnter.invokeExact (le_refl S) hReady hIn).keepsTypes hStaged

end Session

------------------------------------------------------------
-- A World that Honors Types
------------------------------------------------------------

namespace World

/- A constructor that looks at nothing. -/
def init : Method :=
  { declaring := ⟨"Point"⟩
    name := constructorName
    signature :=
      ⟨[.int], .void, admissible_of_paramsError? (by decide)⟩
    flags := .ofList [.isPublic]
    slot := .address ⟨0⟩ }

/- The world with the class of this constructor. -/
def pointed : World :=
  { World.initial ⟨[.ofClass ⟨"Point"⟩]⟩ with
    methods := [init]
    bodies := [(constructorName, .const .void)] }

/- Whatever is resolved in this world is the constructor. -/
theorem resolveMethod_pointed
    {owner caller : ClassName}
    {name : String}
    {asked : Signature}
    {how : MethodKind}
    {m : Method}
    (hResolve :
      pointed.host.resolveMethod owner name asked how caller =
        .ok m) :
    m = init ∧ (how = .isConstructor → m.declaring = owner) := by
  change pointed.resolveMethod owner name asked how = .ok m
    at hResolve
  unfold resolveMethod at hResolve
  dsimp only at hResolve
  split at hResolve
  · rename_i m' hFound
    rcases List.exists_of_findSome?_eq_some hFound with
      ⟨n, hn, hDeclared⟩
    unfold declared? at hDeclared
    have hMem := List.mem_of_find?_eq_some hDeclared
    have hCond := List.find?_some hDeclared
    have hEq : m' = init := List.mem_singleton.1 hMem
    subst hEq
    simp only [Bool.and_eq_true, decide_eq_true_eq] at hCond
    cases hResolve
    refine ⟨rfl, ?_⟩
    intro hHow
    rw [if_pos hHow] at hn
    rw [← List.mem_singleton.1 hn]
    exact hCond.1.1
  · cases hResolve

/- The constructor returns, and changes nothing. -/
theorem answers_pointed
    (A : Store → List Value → Prop)
    (T : ClassTable) :
    pointed.host.Answers T L S ⟨0⟩ A .void := by
  intro U h args _ hTyped _
  exact
    ⟨U, le_refl U, hTyped, rfl, Value.in_of_plain rfl⟩

/- The code that it selects is at its address. -/
theorem eq_of_selects_init
    {receiver : Ty}
    {code : Code}
    (hSelects : pointed.host.Selects init receiver code) :
    code = ⟨0⟩ := by
  cases hSelects with
  | address hSlot =>
      cases hSlot
      rfl
  | virtualTable n hSlot _ => cases hSlot
  | interfaceTable n hSlot _ => cases hSlot

/- No class has fields. -/
theorem layout?_pointed
    {n : ClassName}
    {fields : List Ty}
    (hLayout : pointed.layout? n = some fields) :
    fields = [] := by
  unfold layout? at hLayout
  rcases Option.map_eq_some_iff.1 hLayout with ⟨chain, _, hEq⟩
  rw [← hEq, List.flatMap_eq_nil_iff]
  intro m _
  rfl

/- The layout in which nothing is declared. -/
def noFields : Layout :=
  ⟨fun _ _ => none, fun _ => none⟩

theorem pointed_honors (S : Store) :
    pointed.host.Honors pointed.classes noFields S where
  static := by
    intro owner name asked caller m code hResolve hSlot
    rcases resolveMethod_pointed hResolve with ⟨rfl, _⟩
    cases hSlot
    exact answers_pointed _ _
  constructor := by
    intro owner asked caller m code hResolve hSlot
    rcases resolveMethod_pointed hResolve with ⟨rfl, hOwner⟩
    cases hSlot
    exact ⟨hOwner rfl, answers_pointed _ _⟩
  method := by
    intro owner name asked how caller m receiver code _ hResolve _
      hSelects
    rcases resolveMethod_pointed hResolve with ⟨rfl, _⟩
    rw [eq_of_selects_init hSelects]
    exact answers_pointed _ _
  special := by
    intro owner name asked caller m code hResolve hSelects
    rcases resolveMethod_pointed hResolve with ⟨rfl, _⟩
    rw [eq_of_selects_init hSelects]
    exact answers_pointed _ _
  allocate := by
    intro U h n r h' _ hTyped hAllocate
    change pointed.allocate n h = some (r, h') at hAllocate
    unfold World.allocate at hAllocate
    rcases Option.map_eq_some_iff.1 hAllocate with
      ⟨fields, hLayout, hEq⟩
    rw [layout?_pointed hLayout] at hEq
    cases hEq
    rcases hTyped.alloc (s := .plain n) (.cells n [] nofun) with
      ⟨hLe, hAfter⟩
    refine ⟨_, hLe, hAfter, ?_, ?_⟩
    · exact ClassTable.isAssignable_refl _ (.cls n)
    · intro o ho
      cases ho
      exact if_pos rfl
  staticField := by
    intro owner name t caller f offset r hResolve
    change pointed.resolveField owner name t = .ok f at hResolve
    unfold resolveField at hResolve
    dsimp only at hResolve
    split at hResolve
    · rename_i f' hFound
      rcases List.exists_of_findSome?_eq_some hFound with
        ⟨n, _, hDeclared⟩
      cases hDeclared
    · cases hResolve
  field := by
    intro owner name t caller f offset n p _ _ _ _ hField
    cases hField

end World

------------------------------------------------------------
-- An Invocation with Conversions
------------------------------------------------------------

instance : DecidablePred Conversion.Checks
| .identity => .isTrue trivial
| .upcast => .isTrue trivial
| .widen _ _ => .isTrue trivial
| .narrow _ _ => .isTrue trivial
| .box _ _ => .isTrue trivial
| .unbox _ _ _ => .isTrue trivial
| .cast _ => .isTrue trivial
| .uncheckedCast _ => .isFalse id
| .zeroValue _ => .isTrue trivial
| .discard => .isTrue trivial

/-
  Up to a depth, a target has no unchecked casts and holds no
  values and no call sites.
-/
def Target.isPure : Nat → Target → Bool
| 0, _ => false
| n + 1, t =>
    t.form.conversions.all (fun k => decide k.Checks) &&
      t.form.values.isEmpty && t.form.sites.isEmpty &&
      t.wrapped.all (isPure n)

theorem Target.good_of_isPure
    {n : Nat}
    {t : Target}
    (hPure : t.isPure n = true) :
    t.Good S := by
  induction n generalizing t with
  | zero => cases hPure
  | succ n ih =>
      simp only [isPure, Bool.and_eq_true, List.all_eq_true,
        decide_eq_true_eq, List.isEmpty_iff] at hPure
      rcases hPure with ⟨⟨⟨hChecks, hValues⟩, hSites⟩, hWrapped⟩
      refine .node ⟨hChecks, ?_, ?_⟩ ?_
      · rw [hValues]
        nofun
      · rw [hSites]
        nofun
      · intro u hu
        exact ih (hWrapped u hu)

namespace Session

/- The session of the world with a constructor. -/
def pointed : Session :=
  .start .pointed World.pointed.staticHeap {} .checking

theorem pointed_isFresh : pointed.IsFresh where
  names := rfl
  state := by
    refine ⟨World.pointed.staticHeap, none, rfl, ?_⟩
    intro i t hAt
    cases hAt

/-
  A box, and the constructor as a target that unboxes its
  argument and gives any object.
-/
def converting : List Step :=
  [.letValue (.box (.prim (.int 5))) (some "five"),
   .lookup ⟨"Point"⟩ (some "points"),
   .make (.findConstructor "points" ⟨"Point"⟩ ⟨[.int], .void⟩)
     (some "new"),
   .make (.asType "new" ⟨[.cls Kind.int.box], .object⟩)
     (some "wide")]

/- The box is in play, and nothing else. -/
def oneBox : Store :=
  Store.add ⟨fun _ => none, fun _ => False⟩ 0 (.boxed (.int 5))

theorem typed_oneBox
    {T : ClassTable}
    {h : Heap}
    (hSize : 0 < h.size) :
    h.Typed T World.noFields oneBox := by
  have hShape :
      ∀ i s, oneBox.shape i = some s →
        i = 0 ∧ s = .boxed (.int 5) := by
    intro i s hEq
    unfold oneBox Store.add at hEq
    dsimp only at hEq
    split at hEq
    · rename_i hZero
      cases hEq
      exact ⟨hZero, rfl⟩
    · cases hEq
  constructor
  · intro i s hEq
    rw [(hShape i s hEq).1]
    exact hSize
  · intro r t hStatic
    cases hStatic
  · intro i p vs hEq
    cases (hShape _ _ hEq).2
  · intro i t hEq
    cases (hShape _ _ hEq).2
  · intro r n cell hEq
    cases (hShape _ _ hEq).2
  · intro r p cell hStatic
    cases hStatic

/- An instance is made from the box, in a run that keeps types. -/
theorem invokeExact_keepsTypes_converting :
    ∃ t,
      (pointed.after converting).context.Names t ∧
        t.Good oneBox ∧
        Run.KeepsTypes pointed.context.runtime World.noFields oneBox
          t [.ref ⟨0, .boxed (.int 5)⟩] 9
          { (pointed.after converting).state with trace := [] } := by
  have hLast :
      (pointed.after converting).context.names.targets.head?.map
          (fun p => (p.1, p.2.isPure 4)) =
        some ("wide", true) := by
    decide +kernel
  have hSize : 0 < (pointed.after converting).state.heap.size := by
    decide +kernel
  rcases Option.map_eq_some_iff.1 hLast with ⟨⟨n, t⟩, hHead, hEq⟩
  have hNamed : (pointed.after converting).context.Names t :=
    ⟨n, List.mem_of_head? hHead⟩
  have hGood : t.Good oneBox :=
    Target.good_of_isPure (congrArg Prod.snd hEq)
  refine ⟨t, hNamed, hGood, ?_⟩
  have hRoots : pointed.context.runtime.classes.PlainRoots := by
    intro n _ m hm
    unfold ClassTable.parents at hm
    split at hm
    · rename_i c hFind
      have hMem := List.mem_of_find?_eq_some hFind
      cases List.mem_singleton.1 hMem
      exact List.mem_singleton.1 hm
    · cases hm
  apply
    invokeExact_keepsTypes pointed_isFresh
      (World.host_makesNoTargets _) hRoots
      (World.pointed_honors oneBox) converting 9 hNamed
      (typed_oneBox hSize)
  · intro i x hSite
    cases hSite
  · exact hGood
  · intro a ha o ho
    subst ho
    cases List.mem_singleton.1 ha
    rfl

end Session

end Linkage
