import Linkage.Proofs.Descriptor.RoundTrip
import Linkage.Proofs.Link.Catalog

/-
  The arity of shared stubs.  The canonical descriptor of a
  signature has one type for each parameter and can be read
  back, so a stub that was compiled for it takes as many
  arguments as the signature has parameters, whichever
  signature of the same key it was compiled for.

  Key definitions include:
    * `sharedTypes`
    * `Signature.sharedBut`

  Key theorems include:
    * `Signature.ofDescriptor_canonical`
    * `Stub.Compiler.checking_ofSignature`
    * `Stub.Serves.arity_eq`
-/

------------------------------------------------------------
-- Canonical Descriptors
------------------------------------------------------------

namespace Linkage

/- The types that a canonical descriptor spells. -/
def sharedTypes
    (exact : SlotRange)
    (i : Nat) : List Ty → List Ty
| [] => []
| t :: ts =>
    (if exact.has i then t else t.shared) ::
      sharedTypes exact (i + 1) ts

theorem canonicalSlots_eq
    (exact : SlotRange)
    (i : Nat)
    (ts : List Ty) :
    canonicalSlots exact i ts =
      (sharedTypes exact i ts).flatMap Ty.descriptor := by
  induction ts generalizing i with
  | nil => rfl
  | cons t ts ih =>
      unfold canonicalSlots sharedTypes canonicalSlot
      rw [List.flatMap_cons, ih]
      split
      · rfl
      · rfl

theorem length_sharedTypes
    (exact : SlotRange)
    (i : Nat)
    (ts : List Ty) :
    (sharedTypes exact i ts).length = ts.length := by
  induction ts generalizing i with
  | nil => rfl
  | cons t ts ih =>
      unfold sharedTypes
      rw [List.length_cons, List.length_cons, ih]

namespace Ty

theorem slots_shared (t : Ty) : t.shared.slots = t.slots := by
  cases t with
  | prim k => cases k <;> rfl
  | cls n => rfl
  | array c => rfl

theorem isVoid_shared (t : Ty) :
    t.shared.IsVoid = t.IsVoid := by
  cases t with
  | prim k => cases k <;> rfl
  | cls n => rfl
  | array c => rfl

theorem spellable_object : ClassName.object.Spellable :=
  ⟨by decide, by decide, by decide⟩

theorem spellable_methodHandle :
    ClassName.methodHandle.Spellable :=
  ⟨by decide, by decide, by decide⟩

theorem flat_shared (t : Ty) : t.shared.Flat := by
  cases t with
  | prim k => cases k <;> trivial
  | cls n => exact spellable_object
  | array c => exact spellable_object

end Ty

theorem slotCount_sharedTypes
    (exact : SlotRange)
    (i : Nat)
    (ts : List Ty) :
    slotCount (sharedTypes exact i ts) = slotCount ts := by
  unfold slotCount
  induction ts generalizing i with
  | nil => rfl
  | cons t ts ih =>
      unfold sharedTypes
      rw [List.map_cons, List.map_cons, List.sum_cons,
        List.sum_cons, ih]
      split
      · rfl
      · rw [Ty.slots_shared]

/-
  Each spelled type is the type of its slot, if the slot is
  exact, or the type that it shares.
-/
theorem mem_sharedTypes
    {exact : SlotRange}
    {i : Nat}
    {ts : List Ty}
    {u : Ty}
    (hu : u ∈ sharedTypes exact i ts) :
    (∃ t ∈ ts, u = t.shared) ∨
      ∃ j t,
        ts[j]? = some t ∧ exact.has (i + j) = true ∧ u = t := by
  induction ts generalizing i with
  | nil => cases hu
  | cons t ts ih =>
      unfold sharedTypes at hu
      rcases List.mem_cons.1 hu with hHead | hTail
      · split at hHead
        · rename_i hHas
          exact Or.inr ⟨0, t, rfl, hHas, hHead⟩
        · exact Or.inl ⟨t, List.mem_cons_self, hHead⟩
      · rcases ih hTail with ⟨s, hs, hEq⟩ | ⟨j, s, hs, hHas, hEq⟩
        · exact Or.inl ⟨s, List.mem_cons_of_mem t hs, hEq⟩
        · refine Or.inr ⟨j + 1, s, hs, ?_, hEq⟩
          have hIndex : i + (j + 1) = i + 1 + j := by omega
          rw [hIndex]
          exact hHas

/- The spelled types may be parameters of a signature. -/
theorem Admissible.sharedTypes
    {ts : List Ty}
    (exact : SlotRange)
    (h : Admissible ts) :
    Admissible (sharedTypes exact 0 ts) where
  noVoid := by
    intro u hu
    rcases mem_sharedTypes hu with
      ⟨t, ht, rfl⟩ | ⟨j, t, ht, _, rfl⟩
    · rw [Ty.isVoid_shared]
      exact h.noVoid t ht
    · exact h.noVoid u (List.mem_of_getElem? ht)
  slots_le := by
    rw [slotCount_sharedTypes]
    exact h.slots_le

/- A signature whose slots outside of a range are shared. -/
def Signature.sharedBut
    (s : Signature)
    (exact : SlotRange) : Signature :=
  ⟨Linkage.sharedTypes exact 0 s.params,
    if exact.has s.count then s.ret else s.ret.shared,
    s.admissible.sharedTypes exact⟩

/- It is what the canonical descriptor spells. -/
theorem Signature.descriptor_sharedBut
    (s : Signature)
    (exact : SlotRange) :
    (s.sharedBut exact).descriptor = s.canonical exact := by
  unfold Signature.descriptor Signature.canonical canonicalSlot
  rw [canonicalSlots_eq]
  unfold Signature.sharedBut
  split
  · rfl
  · rfl

/- It can be read back if the slots in the range can. -/
theorem Signature.spellable_sharedBut
    {s : Signature}
    {exact : SlotRange}
    (hParams :
      ∀ i t, s.params[i]? = some t → exact.has i = true →
        t.Spellable)
    (hRet : exact.has s.count = true → s.ret.Spellable) :
    (s.sharedBut exact).Spellable where
  params := by
    intro t ht
    rcases mem_sharedTypes ht with
      ⟨u, _, rfl⟩ | ⟨j, u, hj, hHas, rfl⟩
    · exact (Ty.flat_shared u).spellable
    · rw [Nat.zero_add] at hHas
      exact hParams j t hj hHas
  ret := by
    unfold Signature.sharedBut
    dsimp only
    split
    · rename_i hHas
      exact hRet hHas
    · exact (Ty.flat_shared s.ret).spellable

/- A canonical descriptor is read back as what it spells. -/
theorem Signature.ofDescriptor_canonical
    {s : Signature}
    {exact : SlotRange}
    (hSpell : (s.sharedBut exact).Spellable) :
    Signature.ofDescriptor (s.canonical exact) =
      .ok (s.sharedBut exact) := by
  rw [← s.descriptor_sharedBut exact]
  exact hSpell.ofDescriptor_descriptor

------------------------------------------------------------
-- Shared Stubs
------------------------------------------------------------

/-
  The checking compiler reads as many parameters from a key
  as the signature has that the key spells.
-/
theorem Stub.Compiler.checking_of_read
    {s read : Signature}
    {exact : SlotRange}
    (extra : Option Stub.Extra)
    (n : Nat)
    (hRead : Signature.ofDescriptor (s.canonical exact) = .ok read) :
    Stub.Compiler.checking n (.ofSignature s exact extra) =
      .ok read.count := by
  unfold Stub.Compiler.checking Stub.Key.ofSignature
  dsimp only
  rw [String.toList_ofList, hRead]

/-
  It succeeds on the keys of a signature that keep no slot,
  or a leading target.
-/
theorem Stub.Compiler.checking_ofSignature
    {sig : Signature}
    {exact : SlotRange}
    (extra : Option Stub.Extra)
    (n : Nat)
    (hExact :
      exact = .none ∨
        exact = ⟨0, 1⟩ ∧ sig.params.head? = some .methodHandle) :
    Stub.Compiler.checking n (.ofSignature sig exact extra) =
      .ok sig.count := by
  have hSpell : (sig.sharedBut exact).Spellable := by
    rcases hExact with rfl | ⟨rfl, hHead⟩
    · refine Signature.spellable_sharedBut ?_ ?_
      · intro i t _ hHas
        simp [SlotRange.has, SlotRange.none] at hHas
      · intro hHas
        simp [SlotRange.has, SlotRange.none] at hHas
    · rw [List.head?_eq_getElem?] at hHead
      have hSome : 0 < sig.params.length :=
        (List.getElem?_eq_some_iff.1 hHead).1
      refine Signature.spellable_sharedBut ?_ ?_
      · intro i t ht hHas
        have hFirst : i = 0 := by simpa [SlotRange.has] using hHas
        subst hFirst
        rw [hHead] at ht
        cases ht
        exact Ty.Flat.spellable Ty.spellable_methodHandle
      · intro hHas
        have hNone : sig.params.length < 1 := by
          simpa [SlotRange.has, Signature.count] using hHas
        omega
  rw [checking_of_read extra n
    (Signature.ofDescriptor_canonical hSpell)]
  exact congrArg Except.ok (length_sharedTypes exact 0 sig.params)

/-
  A stub from the checking compiler takes as many arguments
  as each signature that it serves has parameters.
-/
theorem Stub.Serves.arity_eq
    {rt : Runtime}
    {sig : Signature}
    {stub : Stub}
    (hChecking : rt.compile = .checking)
    (hServes : stub.Serves rt sig) :
    stub.arity = sig.count := by
  rcases hServes with ⟨⟨exact, extra, hKey, hExact⟩, n, hCompiled⟩
  have hCount :=
    Stub.Compiler.checking_ofSignature extra n hExact
  rw [hChecking, hKey, hCount] at hCompiled
  exact (Except.ok.inj hCompiled).symm

end Linkage
