import Linkage.Proofs.Caching.Entering
import Linkage.Session

/-
  Operations of sessions agree: what is bound to a name in the
  one run is a twin of what is bound to it in the other, and
  expressions of values come to one value.

  Key definitions include:
    * `Bindings.Twins`
    * `Context.beside`
    * `Both`

  Key theorems include:
    * `Names.Twins.lookup`
    * `ValueExpr.eval_twins`
    * `Agree.siteState`
    * `Agree.targetOp`
-/

------------------------------------------------------------
-- Names
------------------------------------------------------------

namespace Linkage

/- Targets bound to the same names, twin by twin. -/
def Names.Twins (w : Pairing) :
    Names Target → Names Target → Prop :=
  List.Forall₂ (fun p q => q.1 = p.1 ∧ Twin w p.2 q.2)

/-
  Names that differ in targets that are twins.  A handle can
  be made of any of them, so heaps need not be the same.
-/
structure Bindings.Twins
    (w : Pairing)
    (x y : Bindings) : Prop where
  loose : ¬w.same
  targets : Names.Twins w x.targets y.targets
  values_eq : y.values = x.values
  sites_eq : y.sites = x.sites
  lookups_eq : y.lookups = x.lookups

/- The context of the other run. -/
def Context.beside
    (c : Context)
    (b : Bool)
    (ns : Bindings) : Context :=
  { c with runtime := c.runtime.memoizing b, names := ns }

/- Two results that are related, or one error. -/
inductive Both
    {ε α : Type}
    (R : α → α → Prop) : Except ε α → Except ε α → Prop
| ok {a a' : α} :
    R a a' →
    Both R (.ok a) (.ok a')
| error (e : ε) :
    Both R (.error e) (.error e)

variable {α : Type}
variable {rt : Runtime}
variable {b : Bool}
variable {w v : Pairing}
variable {c : Context}
variable {ns : Bindings}
variable {h k : Heap}
variable {t u : Target}
variable {xs ys : Names Target}

namespace Names

theorem Twins.later
    (hNames : Twins w xs ys)
    (hLe : w ≤ v) :
    Twins v xs ys :=
  List.Forall₂.imp (fun _ _ hp => ⟨hp.1, hp.2.later hLe⟩) hNames

theorem Twins.lookup
    (hNames : Twins w xs ys)
    (n : String) :
    Option.Rel (Twin w) (xs.lookup n) (ys.lookup n) := by
  induction hNames with
  | nil => exact .none
  | @cons p q _ _ hpq _ ih =>
      rcases p with ⟨m, t⟩
      rcases q with ⟨m', u⟩
      rcases hpq with ⟨hName, hTwin⟩
      have hSame : m' = m := hName
      subst hSame
      rw [List.lookup_cons, List.lookup_cons]
      cases n == m' with
      | true => exact .some hTwin
      | false => exact ih

theorem Twins.get
    (hNames : Twins w xs ys)
    (n : String) :
    Both (Twin w) (Names.get xs n) (Names.get ys n) := by
  have hRel := hNames.lookup n
  unfold Names.get
  generalize xs.lookup n = o at hRel
  generalize ys.lookup n = o' at hRel
  cases hRel with
  | none => exact .error _
  | some hTwin => exact .ok hTwin

theorem Twins.getSome
    (hNames : Twins w xs ys)
    (ns : List (Option String)) :
    Both (List.Forall₂ (Option.Rel (Twin w)))
      (Names.getSome xs ns) (Names.getSome ys ns) := by
  induction ns with
  | nil => exact .ok .nil
  | cons o ns ih =>
      unfold Names.getSome
      generalize Names.getSome xs ns = r at ih
      generalize Names.getSome ys ns = r' at ih
      cases o with
      | none =>
          cases ih with
          | ok hRest => exact .ok (.cons .none hRest)
          | error e => exact .error e
      | some n =>
          have hGet := hNames.get n
          dsimp only
          generalize Names.get xs n = x at hGet
          generalize Names.get ys n = y at hGet
          cases hGet with
          | ok hTwin =>
              cases ih with
              | ok hRest => exact .ok (.cons (.some hTwin) hRest)
              | error e => exact .error e
          | error e => exact .error e

theorem Twins.erase
    (hNames : Twins w xs ys)
    (n : String) :
    Twins w (Names.erase xs n) (Names.erase ys n) := by
  unfold Names.erase
  induction hNames with
  | nil => exact .nil
  | @cons p q _ _ hpq _ ih =>
      rw [List.filter_cons, List.filter_cons, hpq.1]
      split
      · exact .cons hpq ih
      · exact ih

theorem Twins.bindIf
    (hNames : Twins w xs ys)
    (n : Option String)
    (hTwin : Twin w t u) :
    Twins w (Names.bindIf xs n t) (Names.bindIf ys n u) := by
  cases n with
  | none => exact hNames
  | some n => exact .cons ⟨rfl, hTwin⟩ (hNames.erase n)

end Names

theorem Bindings.Twins.later
    {x y : Bindings}
    (hNames : x.Twins w y)
    (hLe : w ≤ v) :
    x.Twins v y where
  loose := by
    rw [hLe.2.2]
    exact hNames.loose
  targets := hNames.targets.later hLe
  values_eq := hNames.values_eq
  sites_eq := hNames.sites_eq
  lookups_eq := hNames.lookups_eq

------------------------------------------------------------
-- Expressions
------------------------------------------------------------

/- A new object as a result. -/
theorem newObject_twins
    {p q : Obj × Heap}
    (hNew : q.1 = p.1 ∧ HeapTwins w p.2 q.2) :
    (newObject q).1 = (newObject p).1 ∧
      HeapTwins w (newObject p).2 (newObject q).2 :=
  ⟨congrArg (fun o => Except.ok (Value.ref o)) hNew.1, hNew.2⟩

/- An instance that a world allocates in both heaps. -/
theorem World.allocate_twins
    (x : World)
    (n : ClassName)
    (hHeaps : HeapTwins w h k) :
    Option.Rel (fun p q => q.1 = p.1 ∧ HeapTwins w p.2 q.2)
      (x.allocate n h) (x.allocate n k) := by
  unfold World.allocate
  cases x.layout? n with
  | none => exact .none
  | some fields =>
      have hNew :=
        hHeaps.alloc (.plain n) (.cells (fields.map Cell.new))
          nofun
      exact .some ⟨congrArg Except.ok hNew.1, hNew.2⟩

mutual

/-
  An expression comes to one value.  A new handle is of twins,
  which are bound to its name.
-/
theorem ValueExpr.eval_twins
    (hNames : c.names.Twins w ns)
    (e : ValueExpr)
    (h k : Heap)
    (hHeaps : HeapTwins w h k) :
    (e.eval (c.beside b ns).scope k).1 = (e.eval c.scope h).1 ∧
      HeapTwins w (e.eval c.scope h).2
        (e.eval (c.beside b ns).scope k).2 := by
  cases e with
  | void => exact ⟨rfl, hHeaps⟩
  | null => exact ⟨rfl, hHeaps⟩
  | prim p => exact ⟨rfl, hHeaps⟩
  | text s =>
      exact newObject_twins (hHeaps.alloc (.text s) .fixed nofun)
  | box e =>
      have hInner := ValueExpr.eval_twins hNames e h k hHeaps
      unfold ValueExpr.eval
      generalize e.eval c.scope h = p at hInner
      generalize e.eval (c.beside b ns).scope k = q at hInner
      rcases p with ⟨r, h'⟩
      rcases q with ⟨r', k'⟩
      rcases hInner with ⟨hEq, hHeaps'⟩
      have hSame : r' = r := hEq
      subst hSame
      cases r' with
      | error f => exact ⟨rfl, hHeaps'⟩
      | ok a =>
          cases a with
          | prim p =>
              exact
                newObject_twins
                  (hHeaps'.alloc (.boxed p) .fixed nofun)
          | _ => exact ⟨rfl, hHeaps'⟩
  | array p es =>
      have hInner := ValueExpr.evalAll_twins hNames es h k hHeaps
      unfold ValueExpr.eval
      generalize ValueExpr.evalAll c.scope es h = x at hInner
      generalize
        ValueExpr.evalAll (c.beside b ns).scope es k = y at hInner
      rcases x with ⟨r, h'⟩
      rcases y with ⟨r', k'⟩
      rcases hInner with ⟨hEq, hHeaps'⟩
      have hSame : r' = r := hEq
      subst hSame
      cases r' with
      | error f => exact ⟨rfl, hHeaps'⟩
      | ok vs =>
          exact
            newObject_twins
              (hHeaps'.alloc (.array p) (.elements vs) nofun)
  | zeros p n =>
      exact
        newObject_twins
          (hHeaps.alloc (.array p) (.elements _) nofun)
  | throwable n m =>
      exact
        newObject_twins
          (hHeaps.alloc (.throwable n m) .fixed nofun)
  | fresh n =>
      have hRel := c.world.allocate_twins n hHeaps
      unfold ValueExpr.eval Context.beside Context.scope
      dsimp only
      generalize c.world.allocate n h = x at hRel
      generalize c.world.allocate n k = y at hRel
      cases hRel with
      | none => exact ⟨rfl, hHeaps⟩
      | @some p q hpq =>
          rcases p with ⟨r, h'⟩
          rcases q with ⟨r', k'⟩
          rcases hpq with ⟨hEq, hHeaps'⟩
          have hSame : r' = r := hEq
          subst hSame
          cases r' with
          | error f => exact ⟨rfl, hHeaps'⟩
          | ok o => exact ⟨rfl, hHeaps'⟩
  | handle n =>
      have hGet := hNames.targets.get n
      unfold ValueExpr.eval Context.beside Context.scope
      dsimp only
      generalize Names.get c.names.targets n = r at hGet
      generalize Names.get ns.targets n = r' at hGet
      cases hGet with
      | error e => exact ⟨rfl, hHeaps⟩
      | ok hTwin =>
          exact
            newObject_twins (hHeaps.allocHandle hNames.loose hTwin)
  | name n =>
      unfold ValueExpr.eval Context.beside Context.scope
      dsimp only
      rw [hNames.values_eq]
      exact ⟨rfl, hHeaps⟩

/- The same for several expressions. -/
theorem ValueExpr.evalAll_twins
    (hNames : c.names.Twins w ns)
    (es : List ValueExpr)
    (h k : Heap)
    (hHeaps : HeapTwins w h k) :
    (ValueExpr.evalAll (c.beside b ns).scope es k).1 =
        (ValueExpr.evalAll c.scope es h).1 ∧
      HeapTwins w (ValueExpr.evalAll c.scope es h).2
        (ValueExpr.evalAll (c.beside b ns).scope es k).2 := by
  cases es with
  | nil => exact ⟨rfl, hHeaps⟩
  | cons e es =>
      have hFirst := ValueExpr.eval_twins hNames e h k hHeaps
      unfold ValueExpr.evalAll
      generalize e.eval c.scope h = x at hFirst
      generalize e.eval (c.beside b ns).scope k = y at hFirst
      rcases x with ⟨r, h'⟩
      rcases y with ⟨r', k'⟩
      rcases hFirst with ⟨hEq, hHeaps'⟩
      have hSame : r' = r := hEq
      subst hSame
      cases r' with
      | error f => exact ⟨rfl, hHeaps'⟩
      | ok a =>
          have hRest :=
            ValueExpr.evalAll_twins hNames es h' k' hHeaps'
          dsimp only
          generalize
            ValueExpr.evalAll c.scope es h' = x at hRest
          generalize
            ValueExpr.evalAll (c.beside b ns).scope es k' = y
              at hRest
          rcases x with ⟨z, h''⟩
          rcases y with ⟨z', k''⟩
          rcases hRest with ⟨hEq', hHeaps''⟩
          have hSame' : z' = z := hEq'
          subst hSame'
          cases z' with
          | error f => exact ⟨rfl, hHeaps''⟩
          | ok as => exact ⟨rfl, hHeaps''⟩

end

------------------------------------------------------------
-- Parts of Steps
------------------------------------------------------------

namespace Agree

variable {R : Pairing → α → α → Prop}

theorem ofExcept
    {r r' : Except StepError α}
    (hBoth : Both (R w) r r') :
    Agree rt b w (Script.ofExcept r) (Script.ofExcept r') R := by
  cases hBoth with
  | ok hPost => exact pure hPost
  | error e => exact throw e

/- A part that asks for the same in both runs. -/
theorem asking (r : Except StepError α) :
    Agree rt b w (Script.ofExcept r) (Script.ofExcept r)
      (fun _ a a' => a' = a) := by
  cases r with
  | ok a => exact pure rfl
  | error e => exact throw e

theorem target
    {n : String}
    (hNames : c.names.Twins w ns) :
    Agree rt b w (c.target n) ((c.beside b ns).target n) Twin :=
  ofExcept (hNames.targets.get n)

theorem lookup
    {n : String}
    (hNames : c.names.Twins w ns) :
    Agree rt b w (c.lookup n) ((c.beside b ns).lookup n)
      (fun _ a a' => a' = a) := by
  unfold Context.lookup Context.beside
  dsimp only
  rw [hNames.lookups_eq]
  exact asking _

theorem site
    {n : String}
    (hNames : c.names.Twins w ns) :
    Agree rt b w (c.site n) ((c.beside b ns).site n)
      (fun _ a a' => a' = a) := by
  unfold Context.site Context.beside
  dsimp only
  rw [hNames.sites_eq]
  exact asking _

theorem value
    {e : ValueExpr}
    (hNames : c.names.Twins w ns) :
    Agree rt b w (c.value e) ((c.beside b ns).value e)
      (fun _ a a' => a' = a) :=
  scriptOnHeap (ValueExpr.eval_twins hNames e)

theorem values
    {es : List ValueExpr}
    (hNames : c.names.Twins w ns) :
    Agree rt b w (c.values es) ((c.beside b ns).values es)
      (fun _ a a' => a' = a) :=
  scriptOnHeap (ValueExpr.evalAll_twins hNames es)

/- The call site of a name, as it is now. -/
theorem siteState
    {n : String}
    (hNames : c.names.Twins w ns) :
    Agree rt b w (c.siteState n) ((c.beside b ns).siteState n)
      (fun v p q => q.1 = p.1 ∧ SiteTwin v p.1 p.2 q.2) := by
  unfold Context.siteState
  refine bind_same (site hNames) ?_
  intro v _ i
  apply get_bind
  intro s s' hTwins
  have hSite := hTwins.siteTwin i
  generalize s.site? i = o at hSite
  generalize s'.site? i = o' at hSite
  cases hSite with
  | none => exact throw _
  | some hxy => exact pure ⟨rfl, hxy⟩

------------------------------------------------------------
-- Operations that Give Targets
------------------------------------------------------------

/- An operation on a named target. -/
theorem onTarget
    {n : String}
    {f g : Target → Script α}
    (hNames : c.names.Twins w ns)
    (hRest :
      ∀ v t u, w ≤ v → Twin v t u → Agree rt b v (f t) (g u) R) :
    Agree rt b w (c.target n >>= f)
      ((c.beside b ns).target n >>= g) R := by
  refine bind (target hNames) ?_
  intro v hv t u ht
  exact hRest v t u hv ht

/- A lookup of one signature on a named lookup. -/
theorem onLookup
    {n : String}
    {sig : SignatureExpr}
    {f g : Lookup → Signature → Link Target}
    (hNames : c.names.Twins w ns)
    (hRest :
      ∀ v l sig, Agree rt b v (f l sig) (g l sig) Twin) :
    Agree rt b w
      (do
        let l ← c.lookup n
        let sig ← sig.run
        Script.ofLink (f l sig))
      (do
        let l ← (c.beside b ns).lookup n
        let sig ← sig.run
        Script.ofLink (g l sig))
      Twin := by
  refine bind_same (lookup hNames) ?_
  intro v _ l
  refine bind_same (asking _) ?_
  intro z _ sig
  exact scriptOfLink (hRest z l sig)

theorem targetOp
    (hChecking : c.runtime.compile = .checking)
    (hNames : c.names.Twins w ns)
    (op : TargetOp) :
    Agree c.runtime b w (op.run c) (op.run (c.beside b ns))
      Twin := by
  cases op with
  | findStatic l owner member sig =>
      exact onLookup hNames (fun _ _ _ => findStatic hChecking)
  | findVirtual l owner member sig =>
      exact onLookup hNames (fun _ _ _ => findVirtual hChecking)
  | findSpecial l owner member sig caller =>
      exact onLookup hNames (fun _ _ _ => findSpecial hChecking)
  | findConstructor l owner sig =>
      exact
        onLookup hNames (fun _ _ _ => findConstructor hChecking)
  | findField l owner member type isStatic setter =>
      refine bind_same (lookup hNames) ?_
      intro v _ l
      exact scriptOfLink (findField hChecking)
  | bindMethod receiver l member sig =>
      refine bind_same (value hNames) ?_
      intro v hv a
      exact
        onLookup (hNames.later hv)
          (fun _ _ _ => bindMethod hChecking)
  | asType n sig =>
      apply onTarget hNames
      intro v t u _ ht
      refine bind_same (asking _) ?_
      intro z hz sig
      exact scriptOfLink (asType hChecking (ht.later hz))
  | explicitCast n sig =>
      apply onTarget hNames
      intro v t u _ ht
      refine bind_same (asking _) ?_
      intro z hz sig
      exact scriptOfLink (explicitCast hChecking (ht.later hz))
  | bindTo n receiver =>
      apply onTarget hNames
      intro v t u hv ht
      refine bind_same (value (hNames.later hv)) ?_
      intro z hz a
      exact scriptOfLink (bindTo hChecking (ht.later hz))
  | asCollector n array count =>
      apply onTarget hNames
      intro v t u _ ht
      exact scriptOfLink (asCollector hChecking ht)
  | asSpreader n array count =>
      apply onTarget hNames
      intro v t u _ ht
      exact scriptOfLink (asSpreader hChecking ht)
  | asVarargsCollector n array =>
      apply onTarget hNames
      intro v t u _ ht
      exact scriptOfLink (asVarargsCollector hChecking ht)
  | asFixedArity n =>
      apply onTarget hNames
      intro v t u _ ht
      apply relying
      intro s s' hTwins
      exact pure (asFixedArity hTwins ht)
  | filterReturn n m =>
      apply onTarget hNames
      intro v t u hv ht
      apply onTarget (hNames.later hv)
      intro z x y hz hx
      exact
        scriptOfLink (filterReturn hChecking (ht.later hz) hx)
  | filterArguments filters n pos =>
      refine
        bind
          (ofExcept
            (R := fun v => List.Forall₂ (Option.Rel (Twin v)))
            (hNames.targets.getSome filters)) ?_
      intro v hv fs gs hFilters
      apply onTarget (hNames.later hv)
      intro z t u hz ht
      have hLater : List.Forall₂ (Option.Rel (Twin z)) fs gs := by
        apply Form.Rel.filters_imp hFilters
        intro x y _ _ hxy
        exact hxy.later hz
      exact
        scriptOfLink (filterArguments hChecking ht hLater)
  | permuteArguments order n sig =>
      apply onTarget hNames
      intro v t u _ ht
      refine bind_same (asking _) ?_
      intro z hz sig
      exact
        scriptOfLink (permuteArguments hChecking (ht.later hz))
  | insertArguments n pos es =>
      apply onTarget hNames
      intro v t u hv ht
      refine bind_same (values (hNames.later hv)) ?_
      intro z hz as
      exact
        scriptOfLink (insertArguments hChecking (ht.later hz))
  | dropArguments n pos types =>
      apply onTarget hNames
      intro v t u _ ht
      exact scriptOfLink (dropArguments hChecking ht)
  | foldArguments n m =>
      apply onTarget hNames
      intro v t u hv ht
      apply onTarget (hNames.later hv)
      intro z x y hz hx
      exact
        scriptOfLink (foldArguments hChecking (ht.later hz) hx)
  | guardWithTest m n p =>
      apply onTarget hNames
      intro v c d hv hc
      apply onTarget (hNames.later hv)
      intro z t u hz ht
      apply onTarget (hNames.later (le_trans hv hz))
      intro z' x y hz' hx
      exact
        scriptOfLink
          (guardWithTest hChecking (hc.later (le_trans hz hz'))
            (ht.later hz') hx)
  | catchException n caught m =>
      apply onTarget hNames
      intro v t u hv ht
      apply onTarget (hNames.later hv)
      intro z x y hz hx
      exact
        scriptOfLink (catchException hChecking (ht.later hz) hx)
  | constant type e =>
      refine bind_same (value hNames) ?_
      intro v _ a
      exact scriptOfLink (constant hChecking)
  | identity type => exact scriptOfLink (identity hChecking)
  | zero type => exact scriptOfLink (zero hChecking)
  | throwException type thrown =>
      exact scriptOfLink (throwException hChecking)
  | arrayGetter type =>
      exact scriptOfLink (ofComponent hChecking rfl)
  | arraySetter type =>
      exact scriptOfLink (ofComponent hChecking rfl)
  | arrayLength type =>
      exact scriptOfLink (ofComponent hChecking rfl)
  | invoker sig exact =>
      refine bind_same (asking _) ?_
      intro v _ sig
      exact scriptOfLink (invoker hChecking)
  | wrapped n i =>
      apply onTarget hNames
      intro v t u _ ht
      apply relying
      intro s s' hTwins
      have hWrapped := getElem?_forall₂ (ht.wrapped hTwins) i
      generalize t.wrapped[i]? = o at hWrapped
      generalize u.wrapped[i]? = o' at hWrapped
      cases hWrapped with
      | none => exact throw _
      | some hxy => exact pure hxy
  | siteTarget n =>
      refine bind (siteState hNames) ?_
      rintro v _ ⟨i, x⟩ ⟨j, y⟩ ⟨_, hSite⟩
      exact pure hSite.target
  | dynamicInvoker n =>
      refine bind (siteState hNames) ?_
      rintro v _ ⟨i, x⟩ ⟨j, y⟩ ⟨hEq, hSite⟩
      have hSame : j = i := hEq
      subst hSame
      exact scriptOfLink (dynamicInvoker hChecking hSite)

end Agree

end Linkage
