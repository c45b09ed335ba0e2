import Linkage.Proofs.Invoke.Calls
import Linkage.Proofs.Link.Lookups
import Linkage.Session

/-
  Parts of steps keep catalogs: the state stays sound for a
  catalog that lists the targets of all names, and each of
  them fits its signature.  What is known of call sites is
  kept as well.

  Key definitions include:
    * `OfSites`
    * `Lists`

  Key theorems include:
    * `ValueExpr.eval_keeps`
    * `Lists.siteState`
    * `Lists.targetOp`
-/

------------------------------------------------------------
-- Objects that Expressions Make
------------------------------------------------------------

namespace Linkage

/- The names of a context know the target. -/
def Context.Names
    (x : Context)
    (t : Target) : Prop :=
  ∃ n, (n, t) ∈ x.names.targets

/-
  A fact about heaps that new objects do not disturb, where
  new handles are of named targets.
-/
def Context.KeepsAlloc
    (x : Context)
    (P : Heap → Prop) : Prop :=
  ∀ h s k, (∀ u, k = .target u → x.Names u) → P h →
    P (h.alloc s k).2

variable {x : Context}
variable {P : Heap → Prop}

theorem Names.mem_of_get
    {α : Type}
    {ns : Names α}
    {n : String}
    {a : α}
    (hGet : Names.get ns n = .ok a) :
    (n, a) ∈ ns := by
  unfold Names.get at hGet
  split at hGet
  · rename_i hLookup
    cases hGet
    rcases List.lookup_eq_some_iff.1 hLookup with ⟨xs, ys, hEq, _⟩
    rw [hEq]
    simp
  · cases hGet

theorem Names.mem_of_getSome
    {α : Type}
    {ns : Names α}
    {xs : List (Option String)}
    {as : List (Option α)}
    (hGet : Names.getSome ns xs = .ok as) :
    ∀ a, some a ∈ as → ∃ n, (n, a) ∈ ns := by
  induction xs generalizing as with
  | nil =>
      cases hGet
      intro a ha
      cases ha
  | cons x xs ih =>
      unfold Names.getSome at hGet
      dsimp only at hGet
      split at hGet
      · cases hGet
      · rename_i o hFirst
        split at hGet
        · cases hGet
        · rename_i rest hRest
          cases hGet
          intro a ha
          rcases List.mem_cons.1 ha with hEq | hTail
          · subst hEq
            cases x with
            | none => cases hFirst
            | some n =>
                dsimp only at hFirst
                cases hName : Names.get ns n with
                | error e =>
                    rw [hName] at hFirst
                    cases hFirst
                | ok b =>
                    rw [hName] at hFirst
                    cases hFirst
                    exact ⟨n, Names.mem_of_get hName⟩
          · exact ih hRest a hTail

namespace Context.KeepsAlloc

/- A new object that is no handle. -/
theorem plain
    {h : Heap}
    {k : Contents}
    (hKeeps : x.KeepsAlloc P)
    (s : Shape)
    (hPlain : ∀ u, k ≠ .target u)
    (hHeap : P h) :
    P (h.alloc s k).2 := by
  apply hKeeps h s k _ hHeap
  intro u hu
  exact absurd hu (hPlain u)

theorem allocate
    {n : ClassName}
    {h h' : Heap}
    {r : Except Fault Obj}
    (hKeeps : x.KeepsAlloc P)
    (hHeap : P h)
    (hAllocate : x.world.allocate n h = some (r, h')) :
    P h' := by
  unfold World.allocate at hAllocate
  rcases Option.map_eq_some_iff.1 hAllocate with ⟨fields, _, hEq⟩
  cases hEq
  exact hKeeps.plain (.plain n) nofun hHeap

end Context.KeepsAlloc

mutual

/- An expression only adds objects to the heap. -/
theorem ValueExpr.eval_keeps
    (hKeeps : x.KeepsAlloc P)
    (e : ValueExpr)
    (h : Heap)
    (hHeap : P h) :
    P (e.eval x.scope h).2 := by
  cases e with
  | void => exact hHeap
  | null => exact hHeap
  | prim p => exact hHeap
  | text s => exact hKeeps.plain (.text s) nofun hHeap
  | box e =>
      have hInner := ValueExpr.eval_keeps hKeeps e h hHeap
      unfold ValueExpr.eval
      split
      · rename_i hEval
        rw [hEval] at hInner
        exact hInner
      · rename_i p h' hEval
        rw [hEval] at hInner
        exact hKeeps.plain (.boxed p) nofun hInner
      · rename_i hEval
        rw [hEval] at hInner
        exact hInner
  | array p es =>
      have hInner := ValueExpr.evalAll_keeps hKeeps es h hHeap
      unfold ValueExpr.eval
      split
      · rename_i hEval
        rw [hEval] at hInner
        exact hInner
      · rename_i hEval
        rw [hEval] at hInner
        exact hKeeps.plain (.array p) nofun hInner
  | zeros p n => exact hKeeps.plain (.array p) nofun hHeap
  | throwable n m =>
      exact hKeeps.plain (.throwable n m) nofun hHeap
  | fresh n =>
      unfold ValueExpr.eval
      split
      · exact hHeap
      · rename_i hAllocate
        exact hKeeps.allocate hHeap hAllocate
      · rename_i hAllocate
        exact hKeeps.allocate hHeap hAllocate
  | handle n =>
      unfold ValueExpr.eval
      split
      · exact hHeap
      · rename_i t hGet
        apply hKeeps h .handle (.target t) _ hHeap
        intro u hu
        cases hu
        exact ⟨n, Names.mem_of_get hGet⟩
  | name n => exact hHeap

/- The same for several expressions. -/
theorem ValueExpr.evalAll_keeps
    (hKeeps : x.KeepsAlloc P)
    (es : List ValueExpr)
    (h : Heap)
    (hHeap : P h) :
    P (ValueExpr.evalAll x.scope es h).2 := by
  cases es with
  | nil => exact hHeap
  | cons e es =>
      have hFirst := ValueExpr.eval_keeps hKeeps e h hHeap
      unfold ValueExpr.evalAll
      split
      · rename_i hEval
        rw [hEval] at hFirst
        exact hFirst
      · rename_i v h' hEval
        rw [hEval] at hFirst
        have hRest := ValueExpr.evalAll_keeps hKeeps es h' hFirst
        split
        · rename_i hAll
          rw [hAll] at hRest
          exact hRest
        · rename_i hAll
          rw [hAll] at hRest
          exact hRest

end

------------------------------------------------------------
-- Parts of Steps
------------------------------------------------------------

/- A fact about call sites, and about nothing else. -/
abbrev OfSites (G : Array Site → Prop) : Surroundings :=
  fun _ xs _ => G xs

theorem ofSites_allowsBoxes
    {G : Array Site → Prop} :
    (OfSites G).AllowsBoxes :=
  fun _ _ _ _ hG => hG

/-
  A part of a step keeps the catalog and a fact about call
  sites, whether it fails or not.
-/
def Lists
    {α : Type}
    (G : Array Site → Prop)
    (rt : Runtime)
    (c : Catalog)
    (m : Script α)
    (Q : Catalog → α → Prop) : Prop :=
  Keeps (Known rt (OfSites G)) Q (fun _ _ => True) c m

/- All named targets are listed. -/
def Catalog.ListsNames
    (c : Catalog)
    (x : Context) : Prop :=
  ∀ t, x.Names t → t ∈ c.made

variable {α β : Type}
variable {G : Array Site → Prop}
variable {rt : Runtime}
variable {c d : Catalog}
variable {t : Target}
variable {Q Q' : Catalog → α → Prop}
variable {R : Catalog → β → Prop}

theorem Catalog.ListsNames.later
    (hNames : c.ListsNames x)
    (hLe : c ≤ d) :
    d.ListsNames x := by
  intro t ht
  exact mem_of_le hLe (hNames t ht)

namespace Lists

theorem pure
    {a : α}
    (hPost : Q c a) :
    Lists G rt c (Pure.pure a) Q :=
  Keeps.pure hPost

theorem throw (e : StepError) :
    Lists G rt c (MonadExcept.throw e) Q :=
  Keeps.throw trivial

theorem bind
    {m : Script β}
    {f : β → Script α}
    (hFirst : Lists G rt c m R)
    (hSecond : ∀ d, c ≤ d → ∀ b, R d b → Lists G rt d (f b) Q) :
    Lists G rt c (m >>= f) Q :=
  Keeps.bind hFirst hSecond

theorem imp
    {m : Script α}
    (hLists : Lists G rt c m Q)
    (hPost : ∀ d, c ≤ d → ∀ a, Q d a → Q' d a) :
    Lists G rt c m Q' :=
  hLists.imp_ok hPost

theorem ofExcept
    {r : Except StepError α}
    (hPost : ∀ a, r = .ok a → Q c a) :
    Lists G rt c (Script.ofExcept r) Q := by
  cases r with
  | ok a => exact pure (hPost a rfl)
  | error e => exact throw e

/- A part that only looks at names. -/
theorem asking
    (r : Except StepError α) :
    Lists G rt c (Script.ofExcept r) (fun _ _ => True) :=
  ofExcept (fun _ _ => trivial)

theorem ofLink
    {m : Link α}
    (hMakes : Makes rt (OfSites G) c m Q) :
    Lists G rt c (Script.ofLink m) Q := by
  intro s hKnown
  have hLeaves := hMakes s hKnown
  unfold Script.ofLink
  cases hRun : m s with
  | ok a s' =>
      rw [hRun] at hLeaves
      exact hLeaves
  | error e s' =>
      rw [hRun] at hLeaves
      exact hLeaves

theorem reading
    {f : State → Script α}
    (hRest :
      ∀ s, Known rt (OfSites G) c s → Lists G rt c (f s) Q) :
    Lists G rt c (MonadState.get >>= f) Q :=
  Keeps.get_bind hRest

/- Using the heap without making handles of other targets. -/
theorem onHeap
    {f : Heap → Except StepError α × Heap}
    (hHandles :
      ∀ h, (∀ i t, h.at? i = some (.target t) → t ∈ c.made) →
        ∀ i t, (f h).2.at? i = some (.target t) → t ∈ c.made) :
    Lists G rt c (Script.onHeap f) (fun _ _ => True) := by
  intro s hKnown
  have hSound :
      ({ s with heap := (f s.heap).2 } : State).Sound rt c :=
    hKnown.sound.withHeap (hHandles s.heap hKnown.sound.handles)
  have hKnown' :
      Known rt (OfSites G) c { s with heap := (f s.heap).2 } :=
    ⟨hKnown.fits, hSound, hKnown.around⟩
  unfold Script.onHeap
  split
  · rename_i a h hRun
    rw [hRun] at hKnown'
    exact ⟨c, le_refl c, hKnown', trivial⟩
  · rename_i e h hRun
    rw [hRun] at hKnown'
    exact ⟨c, le_refl c, hKnown', trivial⟩

------------------------------------------------------------
-- Names and Expressions
------------------------------------------------------------

theorem target
    {n : String}
    (hNames : c.ListsNames x) :
    Lists G rt c (x.target n) (fun d t => t ∈ d.made) := by
  apply ofExcept
  intro t hGet
  exact hNames t ⟨n, Names.mem_of_get hGet⟩

/- New handles are of named targets, so they are of listed ones. -/
theorem keepsAlloc
    (hNames : c.ListsNames x) :
    x.KeepsAlloc
      (fun h => ∀ i t, h.at? i = some (.target t) → t ∈ c.made) := by
  intro h s k hNew hHeap i t hAt
  rw [Heap.at?_alloc] at hAt
  split at hAt
  · exact hNames t (hNew t (Option.some.inj hAt))
  · exact hHeap i t hAt

theorem value
    {e : ValueExpr}
    (hNames : c.ListsNames x) :
    Lists G rt c (x.value e) (fun _ _ => True) := by
  apply onHeap
  intro h hHeap
  exact ValueExpr.eval_keeps (keepsAlloc hNames) e h hHeap

theorem values
    {es : List ValueExpr}
    (hNames : c.ListsNames x) :
    Lists G rt c (x.values es) (fun _ _ => True) := by
  apply onHeap
  intro h hHeap
  exact ValueExpr.evalAll_keeps (keepsAlloc hNames) es h hHeap

/- A named call site has its signature, and a listed target. -/
theorem siteState
    {n : String} :
    Lists G rt c (x.siteState n)
      (fun d p =>
        d.sites[p.1.index]? = some p.2.signature ∧
          p.2.target ∈ d.made) := by
  unfold Context.siteState
  refine bind (asking _) ?_
  intro d _ i _
  apply reading
  intro s hKnown
  split
  · rename_i y hy
    rcases hKnown.sound.site i y hy with ⟨hSig, hMem, _⟩
    exact pure ⟨hSig, hMem⟩
  · exact throw _

------------------------------------------------------------
-- Operations that Give Targets
------------------------------------------------------------

/- An operation that gives a target gives a listed one. -/
theorem targetOp
    (op : TargetOp)
    (hNames : c.ListsNames x) :
    Lists G x.runtime c (op.run x) (fun d t => t ∈ d.made) := by
  cases op with
  | findStatic l owner member sig =>
      refine bind (asking _) ?_
      intro d _ l _
      refine bind (asking _) ?_
      intro e _ sig _
      exact ofLink Makes.findStatic
  | findVirtual l owner member sig =>
      refine bind (asking _) ?_
      intro d _ l _
      refine bind (asking _) ?_
      intro e _ sig _
      exact ofLink Makes.findVirtual
  | findSpecial l owner member sig caller =>
      refine bind (asking _) ?_
      intro d _ l _
      refine bind (asking _) ?_
      intro e _ sig _
      exact ofLink Makes.findSpecial
  | findConstructor l owner sig =>
      refine bind (asking _) ?_
      intro d _ l _
      refine bind (asking _) ?_
      intro e _ sig _
      exact ofLink Makes.findConstructor
  | findField l owner member type isStatic setter =>
      refine bind (asking _) ?_
      intro d _ l _
      exact ofLink Makes.findField
  | bindMethod receiver l member sig =>
      refine bind (value hNames) ?_
      intro d _ v _
      refine bind (asking _) ?_
      intro e _ l _
      refine bind (asking _) ?_
      intro f _ sig _
      exact ofLink (Makes.bindMethod ofSites_allowsBoxes)
  | asType t sig =>
      refine bind (target hNames) ?_
      intro d _ t ht
      refine bind (asking _) ?_
      intro e he sig _
      refine (ofLink (Makes.asType (Catalog.mem_of_le he ht))).imp ?_
      intro f _ u hu
      exact hu.1
  | explicitCast t sig =>
      refine bind (target hNames) ?_
      intro d _ t ht
      refine bind (asking _) ?_
      intro e he sig _
      exact ofLink (Makes.explicitCast (Catalog.mem_of_le he ht))
  | bindTo t receiver =>
      refine bind (target hNames) ?_
      intro d hd t ht
      refine bind (value (hNames.later hd)) ?_
      intro e he v _
      exact
        ofLink
          (Makes.bindTo ofSites_allowsBoxes
            (Catalog.mem_of_le he ht))
  | asCollector t array count =>
      refine bind (target hNames) ?_
      intro d _ t ht
      refine (ofLink (Makes.asCollector ht)).imp ?_
      intro e _ u hu
      exact hu.1
  | asSpreader t array count =>
      refine bind (target hNames) ?_
      intro d _ t ht
      exact ofLink (Makes.asSpreader ht)
  | asVarargsCollector t array =>
      refine bind (target hNames) ?_
      intro d _ t ht
      exact ofLink (Makes.asVarargsCollector ht)
  | asFixedArity t =>
      refine bind (target hNames) ?_
      intro d _ t ht
      apply Keeps.relying
      intro s hKnown
      rcases
          Makes.asFixedArity_mem hKnown.fits hKnown.sound.valid ht
        with ⟨hMem, _⟩
      exact pure hMem
  | filterReturn t filter =>
      refine bind (target hNames) ?_
      intro d hd t ht
      refine bind (target (hNames.later hd)) ?_
      intro e he f hf
      exact ofLink (Makes.filterReturn (Catalog.mem_of_le he ht) hf)
  | filterArguments filters t pos =>
      refine bind (R := fun d fs => ∀ f, some f ∈ fs → f ∈ d.made)
        ?_ ?_
      · apply ofExcept
        intro fs hGet f hf
        exact hNames f (Names.mem_of_getSome hGet f hf)
      · intro d hd fs hFilters
        refine bind (target (hNames.later hd)) ?_
        intro e he t ht
        apply ofLink
        apply Makes.filterArguments ht
        intro f hf
        exact Catalog.mem_of_le he (hFilters f hf)
  | permuteArguments order t sig =>
      refine bind (target hNames) ?_
      intro d _ t ht
      refine bind (asking _) ?_
      intro e he sig _
      exact
        ofLink (Makes.permuteArguments (Catalog.mem_of_le he ht))
  | insertArguments t pos es =>
      refine bind (target hNames) ?_
      intro d hd t ht
      refine bind (values (hNames.later hd)) ?_
      intro e he vs _
      exact
        ofLink
          (Makes.insertArguments ofSites_allowsBoxes
            (Catalog.mem_of_le he ht))
  | dropArguments t pos types =>
      refine bind (target hNames) ?_
      intro d _ t ht
      exact ofLink (Makes.dropArguments ht)
  | foldArguments t combiner =>
      refine bind (target hNames) ?_
      intro d hd t ht
      refine bind (target (hNames.later hd)) ?_
      intro e he f hf
      exact
        ofLink (Makes.foldArguments (Catalog.mem_of_le he ht) hf)
  | guardWithTest test yes no =>
      refine bind (target hNames) ?_
      intro d hd test hTest
      refine bind (target (hNames.later hd)) ?_
      intro e he yes hYes
      refine bind (target (hNames.later (le_trans hd he))) ?_
      intro f hf no hNo
      exact
        ofLink
          (Makes.guardWithTest
            (Catalog.mem_of_le (le_trans he hf) hTest)
            (Catalog.mem_of_le hf hYes) hNo)
  | catchException t caught handler =>
      refine bind (target hNames) ?_
      intro d hd t ht
      refine bind (target (hNames.later hd)) ?_
      intro e he h hh
      exact
        ofLink (Makes.catchException (Catalog.mem_of_le he ht) hh)
  | constant type e =>
      refine bind (value hNames) ?_
      intro d _ v _
      exact ofLink (Makes.constant ofSites_allowsBoxes)
  | identity type => exact ofLink Makes.identity
  | zero type => exact ofLink Makes.zero
  | throwException type thrown =>
      exact ofLink Makes.throwException
  | arrayGetter type => exact ofLink Makes.arrayGetter
  | arraySetter type => exact ofLink Makes.arraySetter
  | arrayLength type => exact ofLink Makes.arrayLength
  | invoker sig exact =>
      refine bind (asking _) ?_
      intro d _ sig _
      exact ofLink Makes.invoker
  | wrapped t i =>
      refine bind (target hNames) ?_
      intro d _ t ht
      apply Keeps.relying
      intro s hKnown
      split
      · rename_i u hu
        have hMem := List.mem_of_getElem? hu
        exact pure (hKnown.sound.valid.closed t ht u hMem)
      · exact throw _
  | siteTarget n =>
      refine bind siteState ?_
      rintro d _ ⟨i, y⟩ hSite
      exact pure hSite.2
  | dynamicInvoker n =>
      refine bind siteState ?_
      rintro d _ ⟨i, y⟩ hSite
      exact ofLink (Makes.dynamicInvoker hSite.1 hSite.2)

end Lists

end Linkage
