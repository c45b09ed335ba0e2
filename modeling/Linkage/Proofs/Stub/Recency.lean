import Linkage.Proofs.Stub.Rank

/-
  The cache of stubs keeps the keys that were used last.  A
  service is a cache with the requests it has served; its
  entries are ranked as the keys of the successful requests
  are, read from the latest backwards and each at its first
  place.

  Key definitions include:
    * `Service`
    * `Service.after`
    * `Service.Sound`

  Key theorems include:
    * `Service.Sound.serve`
    * `Service.Sound.after`
    * `Service.keeps_most_recent`
-/

------------------------------------------------------------
-- Histories of Requests
------------------------------------------------------------

namespace Linkage

namespace Stub

/-
  A request that was served: its key, its answer, and whether
  the cache counted it as a hit.
-/
structure Served where
  key : Key
  answer : Except Failure Stub
  hit : Bool

/- The key of a request that was answered with a stub. -/
def Served.used? (r : Served) : Option Key :=
  match r.answer with
  | .ok _ => some r.key
  | .error _ => none

/- The stub that a request put into the cache. -/
def Served.inserted? (r : Served) : Option Stub :=
  match r.hit, r.answer with
  | false, .ok s => some s
  | _, _ => none

/- A request that was answered with a failure. -/
def Served.failed (r : Served) : Bool :=
  r.used?.isNone

/- A cache and the requests that it served, the last first. -/
structure Service where
  cache : Cache
  served : List Served

namespace Service

/- A service that has served nothing yet. -/
def start (s : StubSettings) : Service :=
  ⟨.new s.capacity, []⟩

/- Serve a request, and write down what came of it. -/
def serve
    (compile : Compiler)
    (x : Service)
    (k : Key) : Service :=
  let r := x.cache.get compile k
  ⟨r.2, ⟨k, r.1, decide (x.cache.hits < r.2.hits)⟩ :: x.served⟩

/- The service after requests for keys in a given order. -/
def after
    (s : StubSettings)
    (compile : Compiler)
    (ks : List Key) : Service :=
  ks.foldl (serve compile) (start s)

/- The keys of the successful requests, the last one first. -/
def used (x : Service) : List Key :=
  x.served.filterMap Served.used?

/- The stub that was put into the cache last for a key. -/
def lastInserted?
    (x : Service)
    (k : Key) : Option Stub :=
  x.served.findSome?
    (fun r => if r.key = k then r.inserted? else none)

/- The number of requests that were answered with a failure. -/
def failures (x : Service) : Nat :=
  x.served.countP Served.failed

/-
  The cache ranks its entries as the keys were used, holds
  the stub inserted last for each key, and counts each
  request once.
-/
structure Sound
    (s : StubSettings)
    (x : Service) : Prop where
  capacity : x.cache.capacity = s.capacity
  ranked :
    ∃ es, x.cache.Ranked es ∧ keysOf es = recent s x.used
  held :
    ∀ e ∈ x.cache.entries,
      x.lastInserted? e.stub.key = some e.stub
  older :
    ∀ r ∈ x.served, ∀ stub,
      r.inserted? = some stub → stub.id < x.cache.compiles
  counted : x.cache.hits + x.cache.misses = x.served.length
  missed : x.cache.misses = x.cache.compiles + x.failures

theorem Sound.start (s : StubSettings) : (start s).Sound s where
  capacity := rfl
  ranked := by
    refine ⟨[], Cache.Ranked.new _, ?_⟩
    rw [recent_eq_upTo]
    unfold upTo
    split <;> simp [used, Service.start]
  held := by simp [Service.start, Cache.new]
  older := by simp [Service.start]
  counted := rfl
  missed := rfl

------------------------------------------------------------
-- Serving One Request
------------------------------------------------------------

variable {s : StubSettings}
variable {compile : Compiler}
variable {x : Service}
variable {k : Key}

/- The stub inserted last, after one more request. -/
theorem lastInserted?_cons
    (c : Cache)
    (r : Served)
    (q : Key) :
    (⟨c, r :: x.served⟩ : Service).lastInserted? q =
      ((if r.key = q then r.inserted? else none).or
        (x.lastInserted? q)) := by
  unfold lastInserted?
  rw [List.findSome?_cons]
  cases (if r.key = q then r.inserted? else none) <;> rfl

/- A key among the recent ones is served by its entry. -/
theorem serve_of_find?
    {e : Entry}
    (hFind : x.cache.find? k = some e) :
    x.serve compile k =
      ⟨{ x.cache.touch k with hits := x.cache.hits + 1 },
        ⟨k, .ok e.stub, true⟩ :: x.served⟩ := by
  simp only [serve, Cache.get_of_find? hFind]
  simp

theorem serve_of_failure
    {f : Failure}
    (hFind : x.cache.find? k = none)
    (hFail : compile x.cache.misses k = .error f) :
    x.serve compile k =
      ⟨{ x.cache.touch k with misses := x.cache.misses + 1 },
        ⟨k, .error f, false⟩ :: x.served⟩ := by
  simp only [serve, Cache.get_of_failure hFind hFail]
  simp [Cache.touch]

theorem serve_of_compiled
    {n : Nat}
    (hFind : x.cache.find? k = none)
    (hOk : compile x.cache.misses k = .ok n) :
    x.serve compile k =
      ⟨Cache.shrink k
          (x.cache.stored
            ⟨x.cache.compiles, k, n⟩).entries.length
          (x.cache.stored ⟨x.cache.compiles, k, n⟩),
        ⟨k, .ok ⟨x.cache.compiles, k, n⟩, false⟩ ::
          x.served⟩ := by
  simp only [serve, Cache.get_of_compiled hFind hOk]
  have hHits :=
    (Cache.shrink_fixed k
      (x.cache.stored ⟨x.cache.compiles, k, n⟩).entries.length
      (x.cache.stored ⟨x.cache.compiles, k, n⟩)).2.1
  rw [hHits]
  simp [Cache.stored, Cache.insert, Cache.touch]

/- A hit moves the key to the front and changes no stub. -/
theorem Sound.hit
    {e : Entry}
    (hSound : x.Sound s)
    (hFind : x.cache.find? k = some e) :
    (x.serve compile k).Sound s := by
  rcases hSound with
    ⟨hCap, ⟨es, hRank, hKeys⟩, hHeld, hOlder, hCount, hMiss⟩
  have hKey : e.stub.key = k := by
    simpa using List.find?_some hFind
  subst hKey
  have he : e ∈ es :=
    hRank.perm.mem_iff.2 (List.mem_of_find?_eq_some hFind)
  have hMem : e.stub.key ∈ recent s x.used :=
    hKeys ▸ mem_keysOf he
  rcases List.append_of_mem he with ⟨as, bs, rfl⟩
  rw [serve_of_find? hFind]
  refine ⟨hCap, ⟨_, hRank.touch.later rfl (Nat.le_refl _) rfl rfl,
    ?_⟩, ?_, ?_, ?_, ?_⟩
  · have hUsed :
        used ⟨{ x.cache.touch e.stub.key with
            hits := x.cache.hits + 1 },
          ⟨e.stub.key, .ok e.stub, true⟩ :: x.served⟩ =
          e.stub.key :: x.used := rfl
    rw [hUsed, recent_cons_of_mem hMem, ← hKeys,
      keysOf_without hRank.nodup, keysOf_cons]
  · intro d hd
    rcases List.mem_map.1 hd with ⟨d', hd', rfl⟩
    rw [lastInserted?_cons]
    have hStub := hHeld d' hd'
    by_cases hEq : d'.stub.key = e.stub.key
    · simpa [hEq, Served.inserted?] using hStub
    · simpa [hEq, Served.inserted?] using hStub
  · intro r hr stub hStub
    rcases List.mem_cons.1 hr with rfl | hr
    · cases hStub
    · exact hOlder r hr stub hStub
  · simp only [Cache.touch, List.length_cons]
    omega
  · exact hMiss

/- A failed compilation changes neither entries nor ranks. -/
theorem Sound.failure
    {f : Failure}
    (hSound : x.Sound s)
    (hFind : x.cache.find? k = none)
    (hFail : compile x.cache.misses k = .error f) :
    (x.serve compile k).Sound s := by
  rcases hSound with
    ⟨hCap, ⟨es, hRank, hKeys⟩, hHeld, hOlder, hCount, hMiss⟩
  have hNot : k ∉ keysOf es := hRank.not_mem_of_find? hFind
  have hEntries := hRank.entries_touch hNot
  rw [serve_of_failure hFind hFail]
  refine ⟨hCap, ⟨es, hRank.later hEntries (Nat.le_succ _) rfl rfl,
    hKeys⟩, ?_, ?_, ?_, ?_⟩
  · intro e he
    have he' : e ∈ x.cache.entries := hEntries ▸ he
    rw [lastInserted?_cons, hHeld e he']
    split <;> rfl
  · intro r hr stub hStub
    rcases List.mem_cons.1 hr with rfl | hr
    · cases hStub
    · exact hOlder r hr stub hStub
  · simp only [Cache.touch, List.length_cons]
    omega
  · have hFailures :
        failures ⟨{ x.cache.touch k with
            misses := x.cache.misses + 1 },
          ⟨k, .error f, false⟩ :: x.served⟩ =
          x.failures + 1 :=
      List.countP_cons_of_pos rfl
    rw [hFailures]
    simp only [Cache.touch]
    omega

/- A new stub comes to the front and may drive out the last. -/
theorem Sound.compiled
    {n : Nat}
    (hSound : x.Sound s)
    (hFind : x.cache.find? k = none)
    (hOk : compile x.cache.misses k = .ok n) :
    (x.serve compile k).Sound s := by
  rcases hSound with
    ⟨hCap, ⟨es, hRank, hKeys⟩, hHeld, hOlder, hCount, hMiss⟩
  have hNot : k ∉ keysOf es := hRank.not_mem_of_find? hFind
  let stub : Stub := ⟨x.cache.compiles, k, n⟩
  let c := x.cache.stored stub
  let d := Cache.shrink k c.entries.length c
  have hPos : ∀ m, x.cache.capacity = some m → 0 < m := by
    intro m hm
    exact StubSettings.capacity_pos (hCap ▸ hm)
  have hShrunk :
      d.Ranked
        (upTo x.cache.capacity
          (⟨stub, x.cache.clock + 2⟩ :: es)) :=
    hRank.stored (s := stub) hNot hPos
  rcases Cache.shrink_fixed k c.entries.length c with
    ⟨hdCap, hdHits, hdMisses, hdCompiles⟩
  rw [serve_of_compiled hFind hOk]
  refine ⟨hdCap.trans hCap, ⟨_, hShrunk, ?_⟩, ?_, ?_, ?_, ?_⟩
  · have hNotRecent : k ∉ recent s x.used := hKeys ▸ hNot
    have hUsed :
        used ⟨d, ⟨k, .ok stub, false⟩ :: x.served⟩ =
          k :: x.used := rfl
    rw [hUsed, recent_cons_of_not_mem hNotRecent, keysOf_upTo,
      keysOf_cons, hKeys, hCap]
  · intro e he
    have hMem : e ∈ ⟨stub, x.cache.clock + 2⟩ :: es :=
      mem_of_mem_upTo (hShrunk.perm.mem_iff.2 he)
    rw [lastInserted?_cons]
    rcases List.mem_cons.1 hMem with rfl | hOld
    · simp [stub, Served.inserted?]
    · have hNe : k ≠ e.stub.key :=
        fun h => hNot (h ▸ mem_keysOf hOld)
      rw [hHeld e (hRank.perm.mem_iff.1 hOld)]
      simp [hNe]
  · intro r hr t ht
    have hMore : d.compiles = x.cache.compiles + 1 := hdCompiles
    rcases List.mem_cons.1 hr with rfl | hr
    · cases ht
      change x.cache.compiles < d.compiles
      omega
    · have hOld := hOlder r hr t ht
      change t.id < d.compiles
      omega
  · have hHits : d.hits = x.cache.hits := hdHits
    have hMisses : d.misses = x.cache.misses + 1 := hdMisses
    change d.hits + d.misses = x.served.length + 1
    omega
  · have hFailures :
        failures ⟨d, ⟨k, .ok stub, false⟩ :: x.served⟩ =
          x.failures :=
      List.countP_cons_of_neg
        (by simp [Served.failed, Served.used?])
    have hMore : d.compiles = x.cache.compiles + 1 := hdCompiles
    have hMisses : d.misses = x.cache.misses + 1 := hdMisses
    change
      d.misses =
        d.compiles +
          failures ⟨d, ⟨k, .ok stub, false⟩ :: x.served⟩
    rw [hFailures]
    omega

/- Each request keeps the service sound. -/
theorem Sound.serve
    (hSound : x.Sound s)
    (k : Key) :
    (x.serve compile k).Sound s := by
  cases hFind : x.cache.find? k with
  | some e => exact hSound.hit hFind
  | none =>
      cases hAns : compile x.cache.misses k with
      | error f => exact hSound.failure hFind hAns
      | ok n => exact hSound.compiled hFind hAns

/- A service is sound after any requests. -/
theorem Sound.after
    (s : StubSettings)
    (compile : Compiler)
    (ks : List Key) : (after s compile ks).Sound s := by
  unfold Service.after
  have hRun :
      ∀ (ks : List Key) (x : Service),
        x.Sound s → (ks.foldl (Service.serve compile) x).Sound s := by
    intro ks
    induction ks with
    | nil =>
        intro x hx
        exact hx
    | cons k ks ih =>
        intro x hx
        exact ih _ (hx.serve k)
  exact hRun ks _ (Sound.start s)

------------------------------------------------------------
-- Refinement
------------------------------------------------------------

theorem Sound.byRecency_eq
    (hSound : x.Sound s) :
    x.cache.byRecency = recent s x.used := by
  rcases hSound.ranked with ⟨es, hRank, hKeys⟩
  rw [hRank.byRecency_eq, hKeys]

theorem Sound.contains_iff
    (hSound : x.Sound s)
    (q : Key) :
    x.cache.contains q = true ↔ q ∈ recent s x.used := by
  rcases hSound.ranked with ⟨es, hRank, hKeys⟩
  rw [hRank.contains_iff, hKeys]

/- A recent key is served with the stub inserted for it last. -/
theorem Sound.serve_of_mem
    (hSound : x.Sound s)
    (compile : Compiler)
    (hk : k ∈ recent s x.used) :
    ∃ stub,
      x.lastInserted? k = some stub ∧
        x.serve compile k =
          ⟨{ x.cache.touch k with hits := x.cache.hits + 1 },
            ⟨k, .ok stub, true⟩ :: x.served⟩ := by
  rcases hSound.ranked with ⟨es, hRank, hKeys⟩
  rw [← hKeys] at hk
  rcases List.mem_map.1 hk with ⟨e, he, rfl⟩
  refine ⟨e.stub, hSound.held e (hRank.perm.mem_iff.1 he), ?_⟩
  exact serve_of_find? (hRank.find?_of_mem he)

/-
  Any other key is compiled.  A failure leaves the entries as
  they are.
-/
theorem Sound.serve_of_not_mem
    (hSound : x.Sound s)
    (compile : Compiler)
    (hk : k ∉ recent s x.used) :
    ∃ c,
      x.serve compile k =
          ⟨c,
            ⟨k,
              (compile x.cache.misses k).map
                (fun n => ⟨x.cache.compiles, k, n⟩),
              false⟩ :: x.served⟩ ∧
        ∀ f, compile x.cache.misses k = .error f →
          c.entries = x.cache.entries := by
  rcases hSound.ranked with ⟨es, hRank, hKeys⟩
  rw [← hKeys] at hk
  have hFind := hRank.find?_eq_none hk
  cases hAns : compile x.cache.misses k with
  | error f =>
      refine ⟨_, serve_of_failure hFind hAns, ?_⟩
      intro _ _
      exact hRank.entries_touch hk
  | ok n =>
      refine ⟨_, serve_of_compiled hFind hAns, ?_⟩
      intro _ h
      cases h

/- A failure is what it was before the results are changed. -/
theorem error_of_map
    {ε α β : Type}
    {g : α → β}
    {r : Except ε α}
    {e : ε}
    (hMap : r.map g = .error e) :
    r = .error e := by
  cases r with
  | error e' =>
      cases hMap
      rfl
  | ok a => cases hMap

/- Each request is written down. -/
theorem length_served_after
    (s : StubSettings)
    (compile : Compiler)
    (ks : List Key) :
    (after s compile ks).served.length = ks.length := by
  have hRun :
      ∀ (ks : List Key) (x : Service),
        (ks.foldl (serve compile) x).served.length =
          x.served.length + ks.length := by
    intro ks
    induction ks with
    | nil => simp
    | cons k ks ih =>
        intro x
        rw [List.foldl_cons, ih]
        simp only [serve, List.length_cons]
        omega
  have hAll := hRun ks (Service.start s)
  simpa [Service.after, Service.start] using hAll

/-
  After any requests, the cache holds exactly the keys that
  were used last, in this order.  The next request is a hit
  exactly if its key is among them; it is then answered with
  the stub that was inserted last for the key, and nothing is
  compiled.  Any other request is compiled anew, and leaves
  all entries as they are if that fails.  The counters add up.
-/
theorem keeps_most_recent
    (s : StubSettings)
    (compile : Compiler)
    (ks : List Key)
    (k : Key) :
    let x := after s compile ks
    let y := x.serve compile k
    let resident := recent s x.used
    x.cache.byRecency = resident ∧
      (∀ q, x.cache.contains q = true ↔ q ∈ resident) ∧
      (∃ answer hit,
        y.served = ⟨k, answer, hit⟩ :: x.served ∧
          (hit = true ↔ k ∈ resident) ∧
          (hit = true →
            ∃ stub,
              x.lastInserted? k = some stub ∧
                answer = .ok stub ∧
                y.cache.misses = x.cache.misses ∧
                y.cache.compiles = x.cache.compiles) ∧
          (hit = false →
            answer =
              (compile x.cache.misses k).map
                (fun n => ⟨x.cache.compiles, k, n⟩)) ∧
          (∀ f, answer = .error f →
            y.cache.entries = x.cache.entries ∧
              y.cache.byRecency = x.cache.byRecency)) ∧
      (∀ r ∈ x.served, ∀ stub,
        r.inserted? = some stub → stub.id < x.cache.compiles) ∧
      x.cache.hits + x.cache.misses = ks.length ∧
      x.cache.misses = x.cache.compiles + x.failures ∧
      x.cache.compiles =
        x.cache.stats.entries + x.cache.evictions := by
  intro x y resident
  have hSound : x.Sound s := Sound.after s compile ks
  have hLength : x.served.length = ks.length :=
    length_served_after s compile ks
  rcases hSound.ranked with ⟨es, hRank, hKeys⟩
  refine ⟨hSound.byRecency_eq, hSound.contains_iff, ?_,
    hSound.older, hLength ▸ hSound.counted, hSound.missed,
    hRank.counted⟩
  by_cases hk : k ∈ resident
  · rcases hSound.serve_of_mem compile hk with
      ⟨stub, hStub, hServe⟩
    have hy : y = _ := hServe
    refine ⟨.ok stub, true, ?_, ?_, ?_, ?_, ?_⟩
    · rw [hy]
    · constructor
      · intro _
        exact hk
      · intro _
        rfl
    · intro _
      refine ⟨stub, hStub, rfl, ?_, ?_⟩
      · rw [hy]
        rfl
      · rw [hy]
        rfl
    · intro h
      cases h
    · intro f h
      cases h
  · rcases hSound.serve_of_not_mem compile hk with
      ⟨c, hServe, hSame⟩
    have hy : y = _ := hServe
    let answer : Except Failure Stub :=
      (compile x.cache.misses k).map
        (fun n => ⟨x.cache.compiles, k, n⟩)
    refine ⟨answer, false, ?_, ?_, ?_, ?_, ?_⟩
    · rw [hy]
    · constructor
      · intro h
        cases h
      · intro h
        exact absurd h hk
    · intro h
      cases h
    · intro _
      rfl
    · intro f hf
      have hFail : compile x.cache.misses k = .error f :=
        error_of_map hf
      have hEntries : y.cache.entries = x.cache.entries := by
        rw [hy]
        exact hSame f hFail
      refine ⟨hEntries, ?_⟩
      rw [Cache.byRecency, Cache.byRecency, hEntries]

end Service

end Stub

end Linkage
