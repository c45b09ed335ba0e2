import Linkage.Adapter
import Mathlib.Order.Defs.PartialOrder

/-
  Catalogs: what was made so far.  A catalog lists the nodes
  and the signatures of the call sites by their numbers; it
  only ever grows.  A state is sound for a catalog if all
  targets in it are listed, stubs were compiled for their
  keys, call sites keep their signatures, and a target
  remembers nothing but retypings of itself.

  Key definitions include:
    * `Catalog`
    * `Stub.Serves`
    * `Target.Converted`
    * `Target.Retyped`
    * `Catalog.Valid`
    * `State.Sound`

  Key theorems include:
    * `Target.Converted.signature_eq`
    * `State.Sound.buildKeyed`
    * `State.Sound.remember`
    * `State.Sound.initial`
-/

------------------------------------------------------------
-- Catalogs
------------------------------------------------------------

namespace Linkage

/-
  The nodes made so far, and the signatures of the call sites
  made so far, both by number.
-/
structure Catalog where
  made : List Target
  sites : List Signature

namespace Catalog

/- A later catalog lists more at the end. -/
instance : Preorder Catalog where
  le c d := c.made <+: d.made ∧ c.sites <+: d.sites
  le_refl c := ⟨List.prefix_refl _, List.prefix_refl _⟩
  le_trans _ _ _ hcd hde :=
    ⟨hcd.1.trans hde.1, hcd.2.trans hde.2⟩

/- The catalog in which nothing is listed. -/
def empty : Catalog := ⟨[], []⟩

def addNode
    (c : Catalog)
    (t : Target) : Catalog :=
  { c with made := c.made ++ [t] }

def addSite
    (c : Catalog)
    (s : Signature) : Catalog :=
  { c with sites := c.sites ++ [s] }

variable {c d : Catalog}
variable {t u : Target}

theorem le_addNode
    (c : Catalog)
    (t : Target) :
    c ≤ c.addNode t :=
  ⟨List.prefix_append _ _, List.prefix_refl _⟩

theorem le_addSite
    (c : Catalog)
    (s : Signature) :
    c ≤ c.addSite s :=
  ⟨List.prefix_refl _, List.prefix_append _ _⟩

theorem mem_of_le
    (hLe : c ≤ d)
    (ht : t ∈ c.made) :
    t ∈ d.made :=
  hLe.1.subset ht

/- What is listed under a number stays there. -/
theorem getElem?_of_prefix
    {α : Type}
    {xs ys : List α}
    {i : Nat}
    {x : α}
    (hPrefix : xs <+: ys)
    (hx : xs[i]? = some x) :
    ys[i]? = some x := by
  rcases hPrefix with ⟨zs, rfl⟩
  have hi : i < xs.length := (List.getElem?_eq_some_iff.1 hx).1
  rw [List.getElem?_append_left hi]
  exact hx

theorem mem_addNode :
    u ∈ (c.addNode t).made ↔ u ∈ c.made ∨ u = t := by
  simp [addNode]

end Catalog

------------------------------------------------------------
-- Stubs of Signatures
------------------------------------------------------------

/-
  A stub has a key of a signature and was compiled for this
  key.  No slot of the key is exact, or the first one, which
  is then a handle.
-/
structure Stub.Serves
    (rt : Runtime)
    (sig : Signature)
    (stub : Stub) : Prop where
  key :
    ∃ exact extra,
      stub.key = .ofSignature sig exact extra ∧
        (exact = .none ∨
          exact = ⟨0, 1⟩ ∧ sig.params.head? = some .methodHandle)
  compiled : ∃ n, rt.compile n stub.key = .ok stub.arity

/- Every resident stub was compiled for its key. -/
def Stub.Cache.Compiled
    (compile : Stub.Compiler)
    (c : Stub.Cache) : Prop :=
  ∀ e ∈ c.entries,
    ∃ n, compile n e.stub.key = .ok e.stub.arity

------------------------------------------------------------
-- Retypings
------------------------------------------------------------

namespace Target

/- A node of a signature and a form with the plain stub. -/
structure Is
    (v : Target)
    (sig : Signature)
    (form : Form Target) : Prop where
  signature_eq : v.signature = sig
  form_eq : v.form = form
  key_eq : v.stub.key = .plain sig

/- The conversion of a result, which may be left out. -/
inductive ResultConverted
    (t : Target)
    (ret : Ty)
    (c : Conversion) : Target → Prop
| same :
    t.ret = ret →
    ResultConverted t ret c t
| node {v : Target} :
    t.ret ≠ ret →
    v.Is (t.signature.withRet ret) (.convertReturn t c) →
    ResultConverted t ret c v

/- The conversions of arguments, which may be left out. -/
inductive ParamsConverted
    (t : Target)
    (sig : Signature)
    (cs : List Conversion) : Target → Prop
| same :
    t.signature = sig →
    ParamsConverted t sig cs t
| node {v : Target} :
    t.signature ≠ sig →
    v.Is sig (.convertArguments t cs) →
    ParamsConverted t sig cs v

/- A target after the conversions of a plan. -/
def Converted
    (t : Target)
    (sig : Signature)
    (p : Plan)
    (u : Target) : Prop :=
  ∃ v,
    t.ResultConverted sig.ret p.ret v ∧
      v.ParamsConverted sig p.params u

/- A target retyped implicitly. -/
def Retyped
    (T : ClassTable)
    (t u : Target) : Prop :=
  ∃ p,
    planSignature T u.signature t.signature .implicit = .ok p ∧
      t.Converted u.signature p u

theorem ParamsConverted.signature_eq
    {t u : Target}
    {sig : Signature}
    {cs : List Conversion}
    (h : t.ParamsConverted sig cs u) :
    u.signature = sig := by
  cases h with
  | same hSig => exact hSig
  | node _ hIs => exact hIs.signature_eq

theorem Converted.signature_eq
    {t u : Target}
    {sig : Signature}
    {p : Plan}
    (h : t.Converted sig p u) :
    u.signature = sig := by
  rcases h with ⟨v, _, hParams⟩
  exact hParams.signature_eq

end Target

------------------------------------------------------------
-- Soundness
------------------------------------------------------------

/-
  Nodes are listed under their own numbers, after the nodes
  that they delegate to, and have stubs of their signatures.
-/
structure Catalog.Valid
    (rt : Runtime)
    (c : Catalog) : Prop where
  numbered :
    ∀ (i : Nat) (t : Target), c.made[i]? = some t → t.id = i
  closed : ∀ t ∈ c.made, ∀ u ∈ t.wrapped, u ∈ c.made
  serves : ∀ t ∈ c.made, t.stub.Serves rt t.signature

/- A target that the form of a node delegates to. -/
theorem Catalog.Valid.delegate
    {rt : Runtime}
    {c : Catalog}
    {t u : Target}
    {f : Form Target}
    (hValid : c.Valid rt)
    (ht : t ∈ c.made)
    (hForm : t.form = f)
    (hu : u ∈ f.targets) :
    u ∈ c.made := by
  apply hValid.closed t ht
  unfold Target.wrapped
  rw [hForm]
  exact hu

/- All that a state holds is listed, as it should be. -/
structure State.Sound
    (rt : Runtime)
    (c : Catalog)
    (s : State) : Prop where
  valid : c.Valid rt
  nextId : s.nextId = c.made.length
  resident : s.cache.Compiled rt.compile
  siteCount : s.sites.size = c.sites.length
  site :
    ∀ (i : SiteId) (x : Site), s.site? i = some x →
      c.sites[i.index]? = some x.signature ∧
        x.target ∈ c.made ∧ x.target.signature = x.signature
  memo :
    ∀ (i : Nat) (u : Target), (i, u) ∈ s.memo →
      ∃ t, c.made[i]? = some t ∧ u ∈ c.made ∧
        t.Retyped rt.classes u
  handles :
    ∀ (i : Nat) (t : Target),
      s.heap.at? i = some (.target t) → t ∈ c.made

variable {rt : Runtime}
variable {c d : Catalog}
variable {s : State}
variable {t u : Target}

namespace Catalog.Valid

/- A listed node is found under its own number. -/
theorem getElem?_id
    (hValid : c.Valid rt)
    (ht : t ∈ c.made) :
    c.made[t.id]? = some t := by
  rcases List.mem_iff_getElem?.1 ht with ⟨i, hi⟩
  have hId := hValid.numbered i t hi
  rw [hId]
  exact hi

theorem addNode
    (hValid : c.Valid rt)
    (hId : t.id = c.made.length)
    (hWrapped : ∀ u ∈ t.wrapped, u ∈ c.made)
    (hServes : t.stub.Serves rt t.signature) :
    (c.addNode t).Valid rt where
  numbered := by
    intro i u hu
    unfold Catalog.addNode at hu
    rcases Nat.lt_trichotomy i c.made.length with hi | hi | hi
    · rw [List.getElem?_append_left hi] at hu
      exact hValid.numbered i u hu
    · subst hi
      simp only [List.getElem?_concat_length,
        Option.some.injEq] at hu
      rw [← hu]
      exact hId
    · rw [List.getElem?_eq_none] at hu
      · cases hu
      · simp only [List.length_append, List.length_cons,
          List.length_nil]
        omega
  closed := by
    intro u hu v hv
    rcases mem_addNode.1 hu with hOld | rfl
    · exact mem_addNode.2 (Or.inl (hValid.closed u hOld v hv))
    · exact mem_addNode.2 (Or.inl (hWrapped v hv))
  serves := by
    intro u hu
    rcases mem_addNode.1 hu with hOld | rfl
    · exact hValid.serves u hOld
    · exact hServes

end Catalog.Valid

------------------------------------------------------------
-- Stubs from the Cache
------------------------------------------------------------

namespace Stub.Cache

variable {compile : Stub.Compiler}
variable {k : Stub.Key}
variable {x : Stub.Cache}

/- Stamping an entry changes no stub. -/
theorem Compiled.touch
    (hCompiled : x.Compiled compile)
    (k : Stub.Key) :
    (x.touch k).Compiled compile := by
  intro e he
  rcases List.mem_map.1 he with ⟨f, hf, hEq⟩
  have hStub : e.stub = f.stub := by
    rw [← hEq]
    split
    · rfl
    · rfl
  rw [hStub]
  exact hCompiled f hf

/- Entries that are dropped leave the others as they are. -/
theorem Compiled.shrink
    {n : Nat}
    (hCompiled : x.Compiled compile) :
    (Cache.shrink k n x).Compiled compile := by
  induction n generalizing x with
  | zero => exact hCompiled
  | succ n ih =>
      unfold Cache.shrink
      split
      · exact hCompiled
      · split
        · exact hCompiled
        · split
          · exact hCompiled
          · rename_i e _
            apply ih
            intro f hf
            exact hCompiled f (List.mem_filter.1 hf).1

/-
  The cache answers with a stub of the key that was compiled
  for it, and keeps such stubs only.
-/
theorem Compiled.get
    (hCompiled : x.Compiled compile) :
    (x.get compile k).2.Compiled compile ∧
      ∀ stub, (x.get compile k).1 = .ok stub →
        stub.key = k ∧
          ∃ n, compile n stub.key = .ok stub.arity := by
  have hTouched := hCompiled.touch k
  unfold Cache.get
  dsimp only
  cases hFind : x.find? k with
  | some e =>
      refine ⟨hTouched, ?_⟩
      intro stub hStub
      cases hStub
      have hKey : e.stub.key = k := by
        simpa using List.find?_some hFind
      exact ⟨hKey, hCompiled e (List.mem_of_find?_eq_some hFind)⟩
  | none =>
      cases hAns : compile x.misses k with
      | error f =>
          refine ⟨hTouched, ?_⟩
          intro stub hStub
          cases hStub
      | ok n =>
          constructor
          · apply Compiled.shrink
            intro e he
            rcases List.mem_append.1 he with hOld | hNew
            · exact hTouched e hOld
            · rw [List.mem_singleton.1 hNew]
              exact ⟨x.misses, hAns⟩
          · intro stub hStub
            cases hStub
            exact ⟨rfl, x.misses, hAns⟩

end Stub.Cache

------------------------------------------------------------
-- New Nodes
------------------------------------------------------------

namespace State.Sound

/- Sound states agree in what is not part of soundness. -/
theorem congr
    {s' : State}
    (hSound : s.Sound rt c)
    (hCache : s'.cache = s.cache)
    (hSites : s'.sites = s.sites)
    (hMemo : s'.memo = s.memo)
    (hNext : s'.nextId = s.nextId)
    (hHeap : s'.heap = s.heap) :
    s'.Sound rt c where
  valid := hSound.valid
  nextId := hNext.trans hSound.nextId
  resident := by
    rw [hCache]
    exact hSound.resident
  siteCount := by
    rw [hSites]
    exact hSound.siteCount
  site := by
    intro i x hx
    unfold State.site? at hx
    rw [hSites] at hx
    exact hSound.site i x hx
  memo := by
    rw [hMemo]
    exact hSound.memo
  handles := by
    rw [hHeap]
    exact hSound.handles

/- The cache may change as long as its stubs are compiled. -/
theorem withCache
    {k : Stub.Cache}
    (hSound : s.Sound rt c)
    (hCompiled : k.Compiled rt.compile) :
    ({ s with cache := k } : State).Sound rt c :=
  { hSound with resident := hCompiled }

/-
  The heap may change as long as its handles are of listed
  targets.
-/
theorem withHeap
    {h : Heap}
    (hSound : s.Sound rt c)
    (hHandles :
      ∀ i t, h.at? i = some (.target t) → t ∈ c.made) :
    ({ s with heap := h } : State).Sound rt c :=
  { hSound with handles := hHandles }

theorem withHeld
    (hSound : s.Sound rt c)
    (rs : List Root) :
    ({ s with held := rs } : State).Sound rt c :=
  hSound.congr rfl rfl rfl rfl rfl

theorem withTrace
    (hSound : s.Sound rt c)
    (es : List Event) :
    ({ s with trace := es } : State).Sound rt c :=
  hSound.congr rfl rfl rfl rfl rfl

/- A node that is added is the next in the list. -/
theorem addNode
    {k : Stub.Cache}
    (hSound : s.Sound rt c)
    (hCompiled : k.Compiled rt.compile)
    (hId : t.id = s.nextId)
    (hWrapped : ∀ u ∈ t.wrapped, u ∈ c.made)
    (hServes : t.stub.Serves rt t.signature) :
    ({ s with cache := k, nextId := s.nextId + 1 } :
      State).Sound rt (c.addNode t) where
  valid :=
    hSound.valid.addNode (hId.trans hSound.nextId) hWrapped
      hServes
  nextId := by
    simp [Catalog.addNode, hSound.nextId]
  resident := hCompiled
  siteCount := hSound.siteCount
  site := by
    intro i x hx
    rcases hSound.site i x hx with ⟨hSig, hMem, hEq⟩
    exact ⟨hSig, Catalog.mem_addNode.2 (Or.inl hMem), hEq⟩
  memo := by
    intro i u hu
    rcases hSound.memo i u hu with ⟨v, hv, hMem, hRetyped⟩
    refine
      ⟨v, ?_, Catalog.mem_addNode.2 (Or.inl hMem), hRetyped⟩
    exact
      Catalog.getElem?_of_prefix (List.prefix_append _ _) hv
  handles := by
    intro i u hu
    exact Catalog.mem_addNode.2 (Or.inl (hSound.handles i u hu))

/-
  Making a node adds it to the catalog, or fails and leaves
  the catalog as it is.  Nothing but the cache and the count
  of nodes changes.
-/
theorem buildKeyed
    {sig : Signature}
    {form : Form Target}
    {exact : SlotRange}
    (hSound : s.Sound rt c)
    (extra : Option Stub.Extra)
    (hTargets : ∀ u ∈ form.targets, u ∈ c.made)
    (hExact :
      exact = .none ∨
        exact = ⟨0, 1⟩ ∧ sig.params.head? = some .methodHandle) :
    match Target.buildKeyed rt sig form exact extra s with
    | .ok t s' =>
        s'.Sound rt (c.addNode t) ∧ t.signature = sig ∧
          t.form = form ∧
          t.stub.key = .ofSignature sig exact extra ∧
          ∃ k n, s' = { s with cache := k, nextId := n }
    | .error _ s' =>
        s'.Sound rt c ∧ ∃ k, s' = { s with cache := k } := by
  unfold Target.buildKeyed
  dsimp only
  let key := Stub.Key.ofSignature sig exact extra
  rcases hSound.resident.get (k := key) with ⟨hCompiled, hStub⟩
  cases hGet : s.cache.get rt.compile key with
  | mk answer k =>
      rw [hGet] at hCompiled hStub
      cases answer with
      | error f => exact ⟨hSound.withCache hCompiled, k, rfl⟩
      | ok stub =>
          rcases hStub stub rfl with ⟨hKey, hArity⟩
          let t : Target := .node s.nextId sig stub form
          have hServes : t.stub.Serves rt t.signature :=
            ⟨⟨exact, extra, hKey, hExact⟩, hArity⟩
          refine ⟨?_, rfl, rfl, hKey, k, s.nextId + 1, rfl⟩
          exact hSound.addNode hCompiled rfl hTargets hServes

------------------------------------------------------------
-- Call Sites
------------------------------------------------------------

/- A call site that is added has the signature of its target. -/
theorem addSite
    {policy : Policy}
    (hSound : s.Sound rt c)
    (ht : t ∈ c.made) :
    ({ s with sites := s.sites.push ⟨policy, t.signature, t⟩ } :
      State).Sound rt (c.addSite t.signature) where
  valid := ⟨hSound.valid.1, hSound.valid.2, hSound.valid.3⟩
  nextId := hSound.nextId
  resident := hSound.resident
  siteCount := by
    simp [Catalog.addSite, hSound.siteCount]
  site := by
    intro i x hx
    unfold State.site? at hx
    dsimp only at hx
    rw [Array.getElem?_push] at hx
    split at hx
    · rename_i hi
      cases hx
      refine ⟨?_, ht, rfl⟩
      unfold Catalog.addSite
      rw [hi, hSound.siteCount]
      exact List.getElem?_concat_length
    · rcases hSound.site i x hx with ⟨hSig, hMem, hEq⟩
      refine ⟨?_, hMem, hEq⟩
      exact
        Catalog.getElem?_of_prefix (List.prefix_append _ _) hSig
  memo := hSound.memo
  handles := hSound.handles

/- The target of a call site is one of its signature. -/
theorem setSite
    {i : SiteId}
    {x : Site}
    (hSound : s.Sound rt c)
    (hSite : c.sites[i.index]? = some x.signature)
    (ht : t ∈ c.made)
    (hSig : t.signature = x.signature) :
    ({ s with
      sites := s.sites.setIfInBounds i.index { x with target := t }
    } : State).Sound rt c where
  valid := hSound.valid
  nextId := hSound.nextId
  resident := hSound.resident
  siteCount := by
    simp [hSound.siteCount]
  site := by
    intro j y hy
    unfold State.site? at hy
    dsimp only at hy
    rw [Array.getElem?_setIfInBounds] at hy
    split at hy
    · rename_i hij
      split at hy
      · cases hy
        rw [← hij]
        exact ⟨hSite, ht, hSig⟩
      · cases hy
    · exact hSound.site j y hy
  memo := hSound.memo
  handles := hSound.handles

------------------------------------------------------------
-- Memory of Retypings
------------------------------------------------------------

/- What a target remembers is a retyping of it. -/
theorem memoOf
    (hSound : s.Sound rt c)
    (ht : t ∈ c.made)
    (hMemo : s.memoOf t = some u) :
    u ∈ c.made ∧ t.Retyped rt.classes u := by
  have hMem : (t.id, u) ∈ s.memo := by
    rcases List.lookup_eq_some_iff.1 hMemo with ⟨xs, ys, hEq, _⟩
    rw [hEq]
    simp
  rcases hSound.memo t.id u hMem with ⟨v, hv, hu, hRetyped⟩
  have hSame : v = t := by
    rw [hSound.valid.getElem?_id ht] at hv
    exact (Option.some.inj hv).symm
  subst hSame
  exact ⟨hu, hRetyped⟩

/- A target may remember a retyping of it. -/
theorem remember
    (hSound : s.Sound rt c)
    (ht : t ∈ c.made)
    (hu : u ∈ c.made)
    (hRetyped : t.Retyped rt.classes u) :
    (s.remember t u).Sound rt c where
  valid := hSound.valid
  nextId := hSound.nextId
  resident := hSound.resident
  siteCount := hSound.siteCount
  site := hSound.site
  memo := by
    intro i v hv
    rcases List.mem_cons.1 hv with hEq | hOld
    · cases hEq
      exact ⟨t, hSound.valid.getElem?_id ht, hu, hRetyped⟩
    · exact hSound.memo i v (List.mem_filter.1 hOld).1
  handles := hSound.handles

/- Nothing is listed before anything was made. -/
theorem initial
    {h : Heap}
    {capacity : Option Nat}
    (hHeap : ∀ i t, h.at? i ≠ some (.target t)) :
    (State.initial h capacity).Sound rt .empty where
  valid :=
    { numbered := by
        intro i t ht
        simp [Catalog.empty] at ht
      closed := by
        intro t ht
        cases ht
      serves := by
        intro t ht
        cases ht }
  nextId := rfl
  resident := by
    intro e he
    cases he
  siteCount := rfl
  site := by
    intro i x hx
    simp [State.site?, State.initial] at hx
  memo := by
    intro i u hu
    cases hu
  handles := by
    intro i t ht
    exact absurd ht (hHeap i t)

end State.Sound

end Linkage
