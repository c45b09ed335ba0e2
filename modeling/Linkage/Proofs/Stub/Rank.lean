import Linkage.Settings
import Linkage.Stub.Cache
import Mathlib.Data.List.Nodup

/-
  Ranks of the entries of the cache of stubs.  The entries,
  ranked by their stamps, are compared with keys in the order
  of their last use: a use brings an entry to the front, and
  a drop takes the last one.

  Key definitions include:
    * `recent`
    * `keysOf`
    * `Cache.Ranked`
    * `Cache.byRecency`

  Key theorems include:
    * `recent_cons_of_mem`
    * `recent_cons_of_not_mem`
    * `Cache.Ranked.touch`
    * `Cache.Ranked.insert`
    * `Cache.Ranked.shrink`
    * `Cache.Ranked.byRecency_eq`
    * `Cache.Ranked.stored`
-/

------------------------------------------------------------
-- Recent Keys
------------------------------------------------------------

namespace Linkage

namespace Stub

/- At most as many elements as a capacity allows. -/
def upTo
    {α : Type}
    (capacity : Option Nat)
    (as : List α) : List α :=
  match capacity with
  | none => as
  | some n => as.take n

theorem mem_of_mem_upTo
    {α : Type}
    {capacity : Option Nat}
    {a : α}
    {as : List α}
    (ha : a ∈ upTo capacity as) : a ∈ as := by
  cases capacity with
  | none => exact ha
  | some n => exact List.mem_of_mem_take ha

/-
  The distinct keys that a cache of given settings holds when
  keys were used in a given order, the last use first.
-/
def recent
    (s : StubSettings)
    (used : List Key) : List Key :=
  match s.eviction with
  | .never => used.eraseDups
  | .lru => used.eraseDups.take (max s.maxEntries 1)

theorem recent_eq_upTo
    (s : StubSettings)
    (used : List Key) :
    recent s used = upTo s.capacity used.eraseDups := by
  unfold recent upTo StubSettings.capacity
  cases s.eviction <;> rfl

/- Leaving out elements commutes with leaving out repeats. -/
theorem eraseDups_filter
    {α : Type}
    [BEq α] [LawfulBEq α]
    (p : α → Bool)
    (as : List α) :
    (as.filter p).eraseDups = as.eraseDups.filter p := by
  match as with
  | [] => rfl
  | a :: as =>
      have hShort :
          (as.filter (fun b => !b == a)).length <
            as.length + 1 :=
        Nat.lt_succ_of_le (List.length_filter_le _ as)
      have hRest :=
        eraseDups_filter p (as.filter (fun b => !b == a))
      by_cases ha : p a = true
      · rw [List.filter_cons_of_pos ha, List.eraseDups_cons,
          List.eraseDups_cons, List.filter_cons_of_pos ha,
          ← hRest, List.filter_filter, List.filter_filter]
        congr 3
        funext b
        exact Bool.and_comm _ _
      · rw [List.filter_cons_of_neg ha, List.eraseDups_cons,
          List.filter_cons_of_neg ha, ← hRest,
          List.filter_filter]
        congr 1
        apply List.filter_congr
        intro b _
        by_cases hb : b = a
        · subst hb
          simp [ha]
        · simp [hb]
termination_by as.length

theorem nodup_eraseDups
    {α : Type}
    [BEq α] [LawfulBEq α]
    (as : List α) : as.eraseDups.Nodup := by
  match as with
  | [] => simp
  | a :: as =>
      have hShort :
          (as.filter (fun b => !b == a)).length <
            as.length + 1 :=
        Nat.lt_succ_of_le (List.length_filter_le _ as)
      rw [List.eraseDups_cons, List.nodup_cons]
      refine ⟨?_, nodup_eraseDups _⟩
      simp
termination_by as.length

/- Leaving out what is not there changes nothing. -/
theorem filter_of_not_mem
    {α : Type}
    [BEq α] [LawfulBEq α]
    {a : α}
    {as : List α}
    (ha : a ∉ as) :
    as.filter (fun b => !b == a) = as := by
  apply List.filter_eq_self.2
  intro b hb
  have hNe : b ≠ a := fun h => ha (h ▸ hb)
  simpa using hNe

/-
  Cutting a list off and then leaving out one of the elements
  that are left over cuts off one element less.
-/
theorem filter_take_of_mem
    {a : Key}
    {as : List Key}
    {n : Nat}
    (hNodup : as.Nodup)
    (ha : a ∈ as.take (n + 1)) :
    (as.filter (fun b => !b == a)).take n =
      (as.take (n + 1)).filter (fun b => !b == a) := by
  induction as generalizing n with
  | nil => simp
  | cons b as ih =>
      rw [List.nodup_cons] at hNodup
      by_cases hb : b = a
      · subst hb
        have hKeep : as.filter (fun c => !c == b) = as :=
          filter_of_not_mem hNodup.1
        have hNot : b ∉ as.take n :=
          fun h => hNodup.1 (List.mem_of_mem_take h)
        have hKeep' :
            (as.take n).filter (fun c => !c == b) =
              as.take n :=
          filter_of_not_mem hNot
        simp [hKeep, hKeep']
      · cases n with
        | zero =>
            simp only [List.take_succ_cons, List.take_zero,
              List.mem_singleton] at ha
            exact absurd ha.symm hb
        | succ n =>
            have hMem : a ∈ as.take (n + 1) := by
              rw [List.take_succ_cons] at ha
              rcases List.mem_cons.1 ha with h | h
              · exact absurd h.symm hb
              · exact h
            have hPos : (!b == a) = true := by simpa using hb
            rw [List.filter_cons, if_pos hPos,
              List.take_succ_cons, List.take_succ_cons,
              List.filter_cons, if_pos hPos,
              ih hNodup.2 hMem]

theorem filter_take_of_not_mem
    {a : Key}
    {as : List Key}
    {n : Nat}
    (ha : a ∉ as.take n) :
    (as.filter (fun b => !b == a)).take n = as.take n := by
  induction as generalizing n with
  | nil => simp
  | cons b as ih =>
      cases n with
      | zero => simp
      | succ n =>
          rw [List.take_succ_cons, List.mem_cons, not_or] at ha
          have hPos : (!b == a) = true := by
            simpa using Ne.symm ha.1
          rw [List.filter_cons, if_pos hPos,
            List.take_succ_cons, List.take_succ_cons,
            ih ha.2]

/- A key that is used while it is held moves to the front. -/
theorem recent_cons_of_mem
    {s : StubSettings}
    {used : List Key}
    {k : Key}
    (hk : k ∈ recent s used) :
    recent s (k :: used) =
      k :: (recent s used).filter (fun q => !q == k) := by
  rw [recent_eq_upTo] at hk ⊢
  rw [recent_eq_upTo, List.eraseDups_cons, eraseDups_filter]
  cases hCap : s.capacity with
  | none => simp [upTo]
  | some n =>
      rcases
          Nat.exists_eq_succ_of_ne_zero
            (Nat.ne_of_gt (StubSettings.capacity_pos hCap))
        with ⟨m, rfl⟩
      rw [hCap] at hk
      simp only [upTo, List.take_succ_cons] at hk ⊢
      rw [filter_take_of_mem (nodup_eraseDups used) hk]

/-
  A key that is used while it is not held comes to the front
  and drives out the last one, if there is no room.
-/
theorem recent_cons_of_not_mem
    {s : StubSettings}
    {used : List Key}
    {k : Key}
    (hk : k ∉ recent s used) :
    recent s (k :: used) =
      upTo s.capacity (k :: recent s used) := by
  rw [recent_eq_upTo] at hk ⊢
  rw [recent_eq_upTo, List.eraseDups_cons, eraseDups_filter]
  cases hCap : s.capacity with
  | none =>
      rw [hCap] at hk
      simp only [upTo] at hk ⊢
      rw [filter_of_not_mem hk]
  | some n =>
      rcases
          Nat.exists_eq_succ_of_ne_zero
            (Nat.ne_of_gt (StubSettings.capacity_pos hCap))
        with ⟨m, rfl⟩
      rw [hCap] at hk
      simp only [upTo, List.take_succ_cons] at hk ⊢
      have hShort : k ∉ used.eraseDups.take m :=
        fun h =>
          hk (List.take_subset_take_left _ (Nat.le_succ m) h)
      rw [filter_take_of_not_mem hShort, List.take_take,
        Nat.min_eq_left (Nat.le_succ m)]

------------------------------------------------------------
-- Ranked Entries
------------------------------------------------------------

/- The keys of entries. -/
def keysOf (es : List Entry) : List Key :=
  es.map (fun e => e.stub.key)

@[simp] theorem keysOf_nil : keysOf [] = [] := rfl

@[simp] theorem keysOf_cons
    (e : Entry)
    (es : List Entry) :
    keysOf (e :: es) = e.stub.key :: keysOf es := rfl

@[simp] theorem keysOf_append
    (es fs : List Entry) :
    keysOf (es ++ fs) = keysOf es ++ keysOf fs := by
  simp [keysOf]

theorem mem_keysOf
    {e : Entry}
    {es : List Entry}
    (he : e ∈ es) : e.stub.key ∈ keysOf es :=
  List.mem_map_of_mem he

/- A capacity leaves the same entries as keys. -/
theorem keysOf_upTo
    (capacity : Option Nat)
    (es : List Entry) :
    keysOf (upTo capacity es) = upTo capacity (keysOf es) := by
  cases capacity with
  | none => rfl
  | some n => exact List.map_take

/- Entries without a key are not changed by its stamp. -/
theorem stamp_of_not_mem
    {k : Key}
    {es : List Entry}
    (time : Nat)
    (hk : k ∉ keysOf es) :
    Cache.stamp k time es = es := by
  unfold Cache.stamp
  conv => rhs; rw [← List.map_id es]
  apply List.map_congr_left
  intro e he
  have hNe : e.stub.key ≠ k := fun h => hk (h ▸ mem_keysOf he)
  simp [hNe]

/- Entries without a key are all kept when it is left out. -/
theorem filter_key_of_not_mem
    {k : Key}
    {es : List Entry}
    (hk : k ∉ keysOf es) :
    es.filter (fun e => e.stub.key ≠ k) = es := by
  apply List.filter_eq_self.2
  intro e he
  have hNe : e.stub.key ≠ k := fun h => hk (h ▸ mem_keysOf he)
  simpa using hNe

/- The keys without that of one entry. -/
theorem keysOf_without
    {as bs : List Entry}
    {e : Entry}
    (hNodup : (keysOf (as ++ e :: bs)).Nodup) :
    (keysOf (as ++ e :: bs)).filter
        (fun q => !q == e.stub.key) =
      keysOf (as ++ bs) := by
  rw [keysOf_append, keysOf_cons] at hNodup ⊢
  have hMiddle := List.perm_middle.nodup_iff.1 hNodup
  have hNot := (List.nodup_cons.1 hMiddle).1
  rw [List.filter_append, List.filter_cons, if_neg (by simp),
    ← List.filter_append, filter_of_not_mem hNot, keysOf_append]

namespace Cache

/-
  The entries of a cache, the last used one first.  No two of
  them have one key or one stamp, and each compiled stub is
  either held or was dropped.
-/
structure Ranked
    (c : Cache)
    (es : List Entry) : Prop where
  perm : es.Perm c.entries
  nodup : (keysOf es).Nodup
  sorted : es.Pairwise (fun a b => b.lastUsed < a.lastUsed)
  stamped : ∀ e ∈ es, e.lastUsed ≤ c.clock
  counted : c.compiles = c.entries.length + c.evictions

theorem Ranked.new (capacity : Option Nat) :
    (Cache.new capacity).Ranked [] where
  perm := List.Perm.refl _
  nodup := by simp
  sorted := List.Pairwise.nil
  stamped := by simp
  counted := rfl

/- An entry is found under its key. -/
theorem Ranked.find?_of_mem
    {c : Cache}
    {es : List Entry}
    {e : Entry}
    (hRank : c.Ranked es)
    (he : e ∈ es) :
    c.find? e.stub.key = some e := by
  cases hFind : c.find? e.stub.key with
  | none =>
      have := List.find?_eq_none.1 hFind e (hRank.perm.mem_iff.1 he)
      simp at this
  | some f =>
      have hKey : f.stub.key = e.stub.key := by
        simpa using List.find?_some hFind
      have hf : f ∈ es :=
        hRank.perm.mem_iff.2 (List.mem_of_find?_eq_some hFind)
      rw [List.inj_on_of_nodup_map hRank.nodup hf he hKey]

theorem Ranked.find?_eq_none
    {c : Cache}
    {es : List Entry}
    {k : Key}
    (hRank : c.Ranked es)
    (hk : k ∉ keysOf es) :
    c.find? k = none := by
  apply List.find?_eq_none.2
  intro e he hKey
  have hEq : e.stub.key = k := by simpa using hKey
  exact hk (hEq ▸ mem_keysOf (hRank.perm.mem_iff.2 he))

theorem Ranked.not_mem_of_find?
    {c : Cache}
    {es : List Entry}
    {k : Key}
    (hRank : c.Ranked es)
    (hFind : c.find? k = none) :
    k ∉ keysOf es := by
  intro hk
  rcases List.mem_map.1 hk with ⟨e, he, rfl⟩
  rw [hRank.find?_of_mem he] at hFind
  cases hFind

/- The keys that are found are those of the entries. -/
theorem Ranked.contains_iff
    {c : Cache}
    {es : List Entry}
    (hRank : c.Ranked es)
    (k : Key) :
    c.contains k = true ↔ k ∈ keysOf es := by
  constructor
  · intro h
    by_contra hk
    rw [contains, hRank.find?_eq_none hk] at h
    cases h
  · intro h
    rcases List.mem_map.1 h with ⟨e, he, rfl⟩
    rw [contains, hRank.find?_of_mem he]
    rfl

------------------------------------------------------------
-- Ranks After a Use
------------------------------------------------------------

/- An entry that is used comes to the front. -/
theorem Ranked.touch
    {c : Cache}
    {as bs : List Entry}
    {e : Entry}
    (hRank : c.Ranked (as ++ e :: bs)) :
    (c.touch e.stub.key).Ranked
      ({ e with lastUsed := c.clock + 1 } :: (as ++ bs)) := by
  rcases hRank with ⟨hPerm, hNodup, hSorted, hStamped, hCounted⟩
  have hMiddle :
      (keysOf (as ++ e :: bs)).Perm
        (e.stub.key :: keysOf (as ++ bs)) := by
    simp only [keysOf_append, keysOf_cons]
    exact List.perm_middle
  have hNodup' := hMiddle.nodup_iff.1 hNodup
  have hNot := (List.nodup_cons.1 hNodup').1
  rw [keysOf_append, List.mem_append, not_or] at hNot
  have hSub : (as ++ bs).Sublist (as ++ e :: bs) :=
    List.Sublist.append_left (List.sublist_cons_self e bs) as
  have hStamp :
      stamp e.stub.key (c.clock + 1) (as ++ e :: bs) =
        as ++ { e with lastUsed := c.clock + 1 } :: bs := by
    have hAs := stamp_of_not_mem (c.clock + 1) hNot.1
    have hBs := stamp_of_not_mem (c.clock + 1) hNot.2
    unfold stamp at hAs hBs ⊢
    simp [hAs, hBs]
  refine ⟨?_, hNodup', ?_, ?_, ?_⟩
  · refine List.perm_middle.symm.trans ?_
    rw [← hStamp]
    exact hPerm.map _
  · refine List.pairwise_cons.2 ⟨?_, hSorted.sublist hSub⟩
    intro f hf
    have hOld := hStamped f (hSub.subset hf)
    dsimp only
    omega
  · intro f hf
    rcases List.mem_cons.1 hf with rfl | hf
    · exact Nat.le_refl _
    · have hOld := hStamped f (hSub.subset hf)
      simp only [Cache.touch]
      omega
  · rw [Cache.touch]
    simpa [stamp] using hCounted

/- A key that is not held changes no entry when it is asked. -/
theorem Ranked.entries_touch
    {c : Cache}
    {es : List Entry}
    {k : Key}
    (hRank : c.Ranked es)
    (hk : k ∉ keysOf es) :
    (c.touch k).entries = c.entries := by
  apply stamp_of_not_mem
  intro h
  exact hk ((hRank.perm.map _).mem_iff.2 h)

/- The ranks depend on entries, clock and counters only. -/
theorem Ranked.later
    {c d : Cache}
    {es : List Entry}
    (hRank : c.Ranked es)
    (hEntries : d.entries = c.entries)
    (hClock : c.clock ≤ d.clock)
    (hCompiles : d.compiles = c.compiles)
    (hEvictions : d.evictions = c.evictions) :
    d.Ranked es where
  perm := hEntries ▸ hRank.perm
  nodup := hRank.nodup
  sorted := hRank.sorted
  stamped := fun e he =>
    Nat.le_trans (hRank.stamped e he) hClock
  counted := by
    rw [hEntries, hCompiles, hEvictions]
    exact hRank.counted

/- A stub that is stored comes to the front. -/
theorem Ranked.insert
    {c : Cache}
    {es : List Entry}
    {s : Stub}
    {time : Nat}
    (hRank : c.Ranked es)
    (hNew : s.key ∉ keysOf es)
    (hTime : c.clock < time) :
    ({ c with
        clock := time
        compiles := c.compiles + 1 }.insert s).Ranked
      (⟨s, time⟩ :: es) := by
  rcases hRank with ⟨hPerm, hNodup, hSorted, hStamped, hCounted⟩
  refine ⟨?_, ?_, ?_, ?_, ?_⟩
  · exact (List.perm_append_singleton _ _).symm.trans
      (hPerm.append_right _)
  · exact List.nodup_cons.2 ⟨hNew, hNodup⟩
  · refine List.pairwise_cons.2 ⟨?_, hSorted⟩
    intro e he
    have hOld := hStamped e he
    dsimp only
    omega
  · intro e he
    rcases List.mem_cons.1 he with rfl | he
    · exact Nat.le_refl _
    · have hOld := hStamped e he
      simp only [Cache.insert]
      omega
  · simp only [Cache.insert, List.length_append,
      List.length_cons, List.length_nil]
    omega

------------------------------------------------------------
-- Ranks After Drops
------------------------------------------------------------

/- The oldest entry is one of the entries, and none is older. -/
theorem oldest?_spec
    {es : List Entry}
    {e : Entry}
    (hOld : oldest? es = some e) :
    e ∈ es ∧ ∀ f ∈ es, e.lastUsed ≤ f.lastUsed := by
  induction es generalizing e with
  | nil => cases hOld
  | cons d es ih =>
      rw [oldest?] at hOld
      cases hRest : oldest? es with
      | none =>
          rw [hRest] at hOld
          cases hOld
          have hEmpty : es = [] := by
            cases es with
            | nil => rfl
            | cons f fs =>
                rw [oldest?] at hRest
                split at hRest
                · cases hRest
                · split at hRest <;> cases hRest
          subst hEmpty
          simp
      | some f =>
          rw [hRest] at hOld
          have hf := ih hRest
          dsimp only at hOld
          split at hOld
          · rename_i hLt
            cases hOld
            refine ⟨List.mem_cons_of_mem _ hf.1, ?_⟩
            intro g hg
            rcases List.mem_cons.1 hg with rfl | hg
            · exact Nat.le_of_lt hLt
            · exact hf.2 g hg
          · rename_i hLe
            cases hOld
            refine ⟨List.mem_cons_self, ?_⟩
            intro g hg
            rcases List.mem_cons.1 hg with rfl | hg
            · exact Nat.le_refl _
            · have hLeast := hf.2 g hg
              omega

theorem oldest?_isSome
    {es : List Entry}
    {e : Entry}
    (he : e ∈ es) : (oldest? es).isSome = true := by
  cases es with
  | nil => cases he
  | cons d es =>
      rw [oldest?]
      split
      · rfl
      · split <;> rfl

/- The victim is the last entry, unless that is the new one. -/
theorem Ranked.victim?_eq
    {c : Cache}
    {e f : Entry}
    {es : List Entry}
    (hRank : c.Ranked (e :: (es ++ [f]))) :
    c.victim? e.stub.key = some f := by
  have hNot := (List.nodup_cons.1 hRank.nodup).1
  have hOthers :
      (c.entries.filter
        (fun d => d.stub.key ≠ e.stub.key)).Perm
        (es ++ [f]) := by
    refine (hRank.perm.symm.filter _).trans ?_
    rw [List.filter_cons_of_neg (by simp),
      filter_key_of_not_mem hNot]
  have hf :
      f ∈ c.entries.filter
        (fun d => d.stub.key ≠ e.stub.key) :=
    hOthers.mem_iff.2 (by simp)
  rcases Option.isSome_iff_exists.1 (oldest?_isSome hf) with
    ⟨g, hg⟩
  rcases oldest?_spec hg with ⟨hMem, hLeast⟩
  have hSorted := (List.pairwise_cons.1 hRank.sorted).2
  rw [victim?, hg]
  rcases List.mem_append.1 (hOthers.mem_iff.1 hMem) with h | h
  · have hLt : f.lastUsed < g.lastUsed :=
      (List.pairwise_append.1 hSorted).2.2 g h f (by simp)
    have hLe := hLeast f hf
    omega
  · rw [List.mem_singleton.1 h]

/- Dropping the last entry leaves the others as they are. -/
theorem Ranked.drop
    {c : Cache}
    {f : Entry}
    {es : List Entry}
    (hRank : c.Ranked (es ++ [f])) :
    (c.drop f.stub.key).Ranked es := by
  rcases hRank with ⟨hPerm, hNodup, hSorted, hStamped, hCounted⟩
  rw [keysOf_append, List.nodup_append] at hNodup
  have hNot : f.stub.key ∉ keysOf es :=
    fun h => hNodup.2.2 _ h f.stub.key (by simp) rfl
  have hKept :
      es.Perm
        (c.entries.filter
          (fun d => d.stub.key ≠ f.stub.key)) := by
    have hFilter :=
      hPerm.filter (fun d => d.stub.key ≠ f.stub.key)
    rw [List.filter_append, filter_key_of_not_mem hNot,
      List.filter_cons_of_neg (by simp), List.filter_nil,
      List.append_nil] at hFilter
    exact hFilter
  refine ⟨hKept, hNodup.1, ?_, ?_, ?_⟩
  · exact (List.pairwise_append.1 hSorted).1
  · intro e he
    exact hStamped e (List.mem_append_left _ he)
  · have hOne := hPerm.length_eq
    have hLess := hKept.length_eq
    simp only [List.length_append, List.length_cons,
      List.length_nil] at hOne
    simp only [Cache.drop]
    omega

/-
  Dropping entries to make room for the first one leaves the
  entries of the highest ranks.
-/
theorem Ranked.shrink
    {e : Entry} :
    ∀ {n : Nat} {c : Cache} {es : List Entry},
      c.Ranked (e :: es) →
        es.length ≤ n →
          (∀ m, c.capacity = some m → 0 < m) →
            (Cache.shrink e.stub.key n c).Ranked
              (upTo c.capacity (e :: es))
| 0, c, es, hRank, hLen, hPos => by
    have hEmpty : es = [] :=
      List.eq_nil_of_length_eq_zero (Nat.le_zero.1 hLen)
    subst hEmpty
    cases hCap : c.capacity with
    | none => exact hRank
    | some m =>
        have hFits : [e].length ≤ m := hPos m hCap
        simp only [upTo, List.take_of_length_le hFits]
        exact hRank
| n + 1, c, es, hRank, hLen, hPos => by
    rw [Cache.shrink]
    cases hCap : c.capacity with
    | none => exact hRank
    | some m =>
        have hCount := hRank.perm.length_eq
        have hm := hPos m hCap
        dsimp only [upTo]
        split
        · rename_i hFits
          rw [← hCount] at hFits
          rw [List.take_of_length_le hFits]
          exact hRank
        · rename_i hFull
          rw [← hCount] at hFull
          rcases List.eq_nil_or_concat' es with rfl | ⟨fs, f, rfl⟩
          · simp only [List.length_cons, List.length_nil]
              at hFull
            omega
          · simp only [List.length_append, List.length_cons,
              List.length_nil] at hLen hFull
            rw [hRank.victim?_eq]
            have hEnd : c.Ranked ((e :: fs) ++ [f]) := hRank
            have hDrop :
                (c.drop f.stub.key).Ranked (e :: fs) :=
              hEnd.drop
            have hRest :=
              Ranked.shrink (n := n) hDrop (by omega) hPos
            have hCap' : (c.drop f.stub.key).capacity = some m :=
              hCap
            have hTake :
                (e :: (fs ++ [f])).take m = (e :: fs).take m := by
              rw [← List.cons_append,
                List.take_append_of_le_length]
              simp only [List.length_cons]
              omega
            rw [hCap'] at hRest
            rw [hTake]
            exact hRest

/- Dropping entries leaves all but entries and evictions. -/
theorem shrink_fixed
    (new : Key) :
    ∀ (n : Nat) (c : Cache),
      (shrink new n c).capacity = c.capacity ∧
        (shrink new n c).hits = c.hits ∧
        (shrink new n c).misses = c.misses ∧
        (shrink new n c).compiles = c.compiles
| 0, c => ⟨rfl, rfl, rfl, rfl⟩
| n + 1, c => by
    rw [shrink]
    split
    · exact ⟨rfl, rfl, rfl, rfl⟩
    · split
      · exact ⟨rfl, rfl, rfl, rfl⟩
      · split
        · exact ⟨rfl, rfl, rfl, rfl⟩
        · rename_i e _
          exact shrink_fixed new n (c.drop e.stub.key)

------------------------------------------------------------
-- Keys by Recency
------------------------------------------------------------

/- The keys of a cache, the last used one first. -/
def byRecency (c : Cache) : List Key :=
  keysOf
    (c.entries.mergeSort
      (fun a b => decide (b.lastUsed ≤ a.lastUsed)))

/- The ranks are what sorting by the stamps gives. -/
theorem Ranked.byRecency_eq
    {c : Cache}
    {es : List Entry}
    (hRank : c.Ranked es) :
    c.byRecency = keysOf es := by
  unfold byRecency
  congr 1
  have hPerm :=
    (List.mergeSort_perm c.entries
      (fun a b => decide (b.lastUsed ≤ a.lastUsed))).trans
      hRank.perm.symm
  have hSorted :
      (c.entries.mergeSort
        (fun a b => decide (b.lastUsed ≤ a.lastUsed))).Pairwise
        (fun a b => decide (b.lastUsed ≤ a.lastUsed) = true) := by
    apply List.pairwise_mergeSort
    · intro a b d hab hbd
      simp only [decide_eq_true_eq] at hab hbd ⊢
      omega
    · intro a b
      simp only [Bool.or_eq_true, decide_eq_true_eq]
      exact Nat.le_total _ _
  have hStrict :
      es.Pairwise
        (fun a b => decide (b.lastUsed ≤ a.lastUsed) = true) := by
    apply hRank.sorted.imp
    intro a b hab
    simpa using Nat.le_of_lt hab
  have hApart : (es.map Entry.lastUsed).Nodup :=
    List.pairwise_map.2
      (hRank.sorted.imp (fun h => Nat.ne_of_gt h))
  refine List.Perm.eq_of_pairwise ?_ hSorted hStrict hPerm
  intro a b ha hb hab hba
  simp only [decide_eq_true_eq] at hab hba
  exact
    List.inj_on_of_nodup_map hApart (hPerm.mem_iff.1 ha) hb
      (Nat.le_antisymm hba hab)

------------------------------------------------------------
-- Requests
------------------------------------------------------------

variable {c : Cache}
variable {k : Key}
variable {compile : Compiler}

/- A request for a key that is held. -/
theorem get_of_find?
    {e : Entry}
    (hFind : c.find? k = some e) :
    c.get compile k =
      (.ok e.stub, { c.touch k with hits := c.hits + 1 }) := by
  rw [get, hFind]

/- A request whose compilation fails. -/
theorem get_of_failure
    {f : Failure}
    (hFind : c.find? k = none)
    (hFail : compile c.misses k = .error f) :
    c.get compile k =
      (.error f, { c.touch k with misses := c.misses + 1 }) := by
  simp only [get, hFind, hFail]

/- The cache in which a new stub is stored without drops. -/
def stored
    (c : Cache)
    (s : Stub) : Cache :=
  { c.touch s.key with
    misses := c.misses + 1
    compiles := c.compiles + 1
    clock := c.clock + 2 }.insert s

/-
  A new stub comes to the front, and the entries of the lowest
  ranks are dropped.
-/
theorem Ranked.stored
    {es : List Entry}
    {s : Stub}
    (hRank : c.Ranked es)
    (hNew : s.key ∉ keysOf es)
    (hPos : ∀ m, c.capacity = some m → 0 < m) :
    (Cache.shrink s.key (c.stored s).entries.length
        (c.stored s)).Ranked
      (upTo c.capacity (⟨s, c.clock + 2⟩ :: es)) := by
  have hTouched :
      ({ c.touch s.key with
        misses := c.misses + 1 } : Cache).Ranked es :=
    hRank.later (hRank.entries_touch hNew) (Nat.le_succ _)
      rfl rfl
  have hStored :
      (c.stored s).Ranked (⟨s, c.clock + 2⟩ :: es) :=
    hTouched.insert hNew (Nat.lt_succ_self _)
  have hLen : es.length ≤ (c.stored s).entries.length := by
    rw [← hStored.perm.length_eq]
    exact Nat.le_succ _
  exact Ranked.shrink hStored hLen hPos

/- A request that compiles a stub. -/
theorem get_of_compiled
    {n : Nat}
    (hFind : c.find? k = none)
    (hOk : compile c.misses k = .ok n) :
    c.get compile k =
      (.ok ⟨c.compiles, k, n⟩,
        Cache.shrink k (c.stored ⟨c.compiles, k, n⟩).entries.length
          (c.stored ⟨c.compiles, k, n⟩)) := by
  simp only [get, hFind, hOk]
  rfl

end Cache

end Stub

end Linkage
