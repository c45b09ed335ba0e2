import Linkage.Proofs.Stub.Arity
import Mathlib.Data.List.Forall2

/-
  What a key keeps of a signature.  Without exact slots two
  signatures have one key if they have the same shape, slot
  by slot, and only then.  With exact slots that can be
  written down, the canonical descriptor is read back as a
  signature of the same shape, so the checking compiler does
  not fail on the key.

  Key definitions include:
    * `Ty.SameShape`
    * `Ty.respell`
    * `Ty.Representable`
    * `Signature.Representable`

  Key theorems include:
    * `Ty.shared_eq_iff`
    * `Signature.canonical_respell`
    * `Signature.ofDescriptor_canonical_respell`
    * `Signature.canonical_sharedBut`
    * `Stub.Key.ofSignature_identifies_shapes`
-/

------------------------------------------------------------
-- Shapes
------------------------------------------------------------

namespace Linkage

/- The kinds whose values are held as an `int`. -/
def Kind.heldAsInt : List Kind :=
  [.boolean, .byte, .short, .char, .int]

/- Two types whose values one stub may pass on. -/
inductive Ty.SameShape : Ty → Ty → Prop
| references
    {t u : Ty}
    (ht : t.IsRef = true)
    (hu : u.IsRef = true) :
    SameShape t u
| heldAsInt
    {k l : Kind}
    (hk : k ∈ Kind.heldAsInt)
    (hl : l ∈ Kind.heldAsInt) :
    SameShape (.prim k) (.prim l)
| same (k : Kind) : SameShape (.prim k) (.prim k)

namespace Ty

variable {t u : Ty}

theorem shared_of_isRef
    (hRef : t.IsRef = true) :
    t.shared = .object := by
  cases t with
  | prim k => cases hRef
  | cls n => rfl
  | array c => rfl

theorem shared_heldAsInt
    {k : Kind}
    (hHeld : k ∈ Kind.heldAsInt) :
    (prim k).shared = .int := by
  cases k <;> simp_all [Kind.heldAsInt] <;> rfl

/- A primitive type shares its own type, unless it is held. -/
theorem shared_prim (k : Kind) :
    k ∈ Kind.heldAsInt ∨ (prim k).shared = .prim k := by
  cases k <;> simp [Kind.heldAsInt] <;> rfl

theorem SameShape.shared_eq
    (hShape : t.SameShape u) :
    t.shared = u.shared := by
  cases hShape with
  | references ht hu =>
      rw [shared_of_isRef ht, shared_of_isRef hu]
  | heldAsInt hk hl =>
      rw [shared_heldAsInt hk, shared_heldAsInt hl]
  | same k => rfl

/- The kind of the shared type of a primitive type. -/
theorem sameShape_of_shared_prim
    {k l : Kind}
    (hEq : (prim k).shared = (prim l).shared) :
    (prim k).SameShape (.prim l) := by
  rcases shared_prim k with hk | hk
  · rcases shared_prim l with hl | hl
    · exact .heldAsInt hk hl
    · rw [shared_heldAsInt hk, hl] at hEq
      cases hEq
      exact .heldAsInt hk (by decide)
  · rcases shared_prim l with hl | hl
    · rw [shared_heldAsInt hl, hk] at hEq
      cases hEq
      exact .heldAsInt (by decide) hl
    · rw [hk, hl] at hEq
      cases hEq
      exact .same k

/- No primitive type shares the type of the references. -/
theorem isRef_shared (t : Ty) : t.shared.IsRef = t.IsRef := by
  cases t with
  | prim k => cases k <;> rfl
  | cls n => rfl
  | array c => rfl

theorem shared_eq_iff :
    t.shared = u.shared ↔ t.SameShape u := by
  constructor
  · intro hEq
    have hRefs : t.IsRef = u.IsRef := by
      rw [← isRef_shared t, hEq, isRef_shared u]
    cases ht : t.IsRef with
    | true => exact .references ht (by rw [← hRefs, ht])
    | false =>
        rw [ht] at hRefs
        cases t with
        | cls n => cases ht
        | array c => cases ht
        | prim k =>
            cases u with
            | cls n => cases hRefs
            | array c => cases hRefs
            | prim l => exact sameShape_of_shared_prim hEq
  · exact SameShape.shared_eq

@[simp] theorem shared_shared (t : Ty) :
    t.shared.shared = t.shared := by
  cases t with
  | prim k => cases k <;> rfl
  | cls n => rfl
  | array c => rfl

end Ty

/- Lists share their types if they agree in shape throughout. -/
theorem forall₂_sameShape_iff
    {ps qs : List Ty} :
    List.Forall₂ Ty.SameShape ps qs ↔
      ps.map Ty.shared = qs.map Ty.shared := by
  rw [← List.forall₂_eq_eq_eq, List.forall₂_map_left_iff,
    List.forall₂_map_right_iff]
  simp only [Ty.shared_eq_iff]

------------------------------------------------------------
-- Ranges Without Slots
------------------------------------------------------------

namespace SlotRange

/- A range that ends where it starts, or before. -/
def Empty (r : SlotRange) : Prop :=
  r.stop ≤ r.start

theorem empty_none : SlotRange.none.Empty :=
  Nat.le_refl 0

theorem Empty.has_eq
    {r : SlotRange}
    (hEmpty : r.Empty)
    (i : Nat) :
    r.has i = false := by
  unfold Empty at hEmpty
  simp only [has, Bool.and_eq_false_iff, decide_eq_false_iff_not]
  omega

end SlotRange

section EmptyRange

variable {nothing : SlotRange}
variable (hEmpty : nothing.Empty)

include hEmpty

theorem sharedTypes_empty
    (i : Nat)
    (ts : List Ty) :
    sharedTypes nothing i ts = ts.map Ty.shared := by
  induction ts generalizing i with
  | nil => rfl
  | cons t ts ih =>
      unfold sharedTypes
      rw [if_neg (by simp [hEmpty.has_eq]), ih, List.map_cons]

theorem Signature.canonical_empty (s : Signature) :
    s.canonical nothing =
      '(' :: ((s.params.map Ty.shared).flatMap Ty.descriptor ++
        ')' :: s.ret.shared.descriptor) := by
  rw [← s.descriptor_sharedBut nothing]
  unfold descriptor sharedBut
  dsimp only
  rw [sharedTypes_empty hEmpty, if_neg (by simp [hEmpty.has_eq])]
  rfl

/- What nothing is kept of can be read back. -/
theorem Signature.spellable_sharedBut_empty (s : Signature) :
    (s.sharedBut nothing).Spellable := by
  refine spellable_sharedBut ?_ ?_
  · intro i t _ hHas
    rw [hEmpty.has_eq] at hHas
    cases hHas
  · intro hHas
    rw [hEmpty.has_eq] at hHas
    cases hHas

end EmptyRange

/- To share the types that are left shares them all. -/
theorem map_shared_sharedTypes
    (exact : SlotRange)
    (i : Nat)
    (ts : List Ty) :
    (sharedTypes exact i ts).map Ty.shared =
      ts.map Ty.shared := by
  induction ts generalizing i with
  | nil => rfl
  | cons t ts ih =>
      unfold sharedTypes
      rw [List.map_cons, List.map_cons, ih]
      split
      · rfl
      · rw [Ty.shared_shared]

namespace Signature

/- A range of slots is forgotten by an empty one. -/
theorem canonical_sharedBut
    {nothing : SlotRange}
    (hEmpty : nothing.Empty)
    (s : Signature)
    (exact : SlotRange) :
    (s.sharedBut exact).canonical nothing =
      s.canonical nothing := by
  rw [canonical_empty hEmpty, canonical_empty hEmpty]
  unfold sharedBut
  dsimp only
  rw [map_shared_sharedTypes]
  split
  · rfl
  · rw [Ty.shared_shared]

/- Signatures of one canonical descriptor share their types. -/
theorem canonical_eq_iff
    {s t : Signature} :
    s.canonical .none = t.canonical .none ↔
      List.Forall₂ Ty.SameShape s.params t.params ∧
        s.ret.SameShape t.ret := by
  rw [forall₂_sameShape_iff, ← Ty.shared_eq_iff]
  constructor
  · intro hText
    have hReads := fun r : Signature =>
      ofDescriptor_canonical
        (spellable_sharedBut_empty SlotRange.empty_none r)
    have hSame : s.sharedBut .none = t.sharedBut .none := by
      have hRead := hReads s
      rw [hText, hReads t] at hRead
      exact (Except.ok.inj hRead).symm
    have hParams := congrArg Signature.params hSame
    have hRet := congrArg Signature.ret hSame
    unfold sharedBut at hParams hRet
    dsimp only at hParams hRet
    rw [sharedTypes_empty SlotRange.empty_none,
      sharedTypes_empty SlotRange.empty_none] at hParams
    simp only [SlotRange.empty_none.has_eq, Bool.false_eq_true,
      if_false] at hRet
    exact ⟨hParams, hRet⟩
  · rintro ⟨hParams, hRet⟩
    rw [canonical_empty SlotRange.empty_none,
      canonical_empty SlotRange.empty_none, hParams, hRet]

end Signature

------------------------------------------------------------
-- Types That Can Be Written Down
------------------------------------------------------------

namespace Ty

/- A type as it is read back, with dots for slashes in names. -/
def respell : Ty → Ty
| prim k => prim k
| cls n => cls (.ofInternal n.internal)
| array c => array c.respell

/-
  A type that has a descriptor: its class name, if any, is
  not empty and has no semicolon, and an array is not too
  deep and has elements.
-/
structure Representable (t : Ty) : Prop where
  named :
    ∀ n, t.element = .cls n →
      n.text.toList ≠ [] ∧ ';' ∉ n.text.toList
  shallow : t.dimensions ≤ maxDimensions
  notVoid : 0 < t.dimensions → t.element.IsVoid = false

@[simp] theorem descriptor_respell (t : Ty) :
    t.respell.descriptor = t.descriptor := by
  induction t with
  | prim k => rfl
  | cls n =>
      unfold respell descriptor
      have hDotless : '.' ∉ n.internal :=
        ClassName.not_mem_swapChar (by decide)
      rw [ClassName.internal_ofInternal,
        ClassName.swapChar_absent hDotless]
  | array c ih =>
      unfold respell descriptor
      rw [ih]

@[simp] theorem shared_respell (t : Ty) :
    t.respell.shared = t.shared := by
  cases t with
  | prim k => rfl
  | cls n => rfl
  | array c => rfl

@[simp] theorem isVoid_respell (t : Ty) :
    t.respell.IsVoid = t.IsVoid := by
  cases t with
  | prim k => rfl
  | cls n => rfl
  | array c => rfl

@[simp] theorem slots_respell (t : Ty) :
    t.respell.slots = t.slots := by
  cases t with
  | prim k => rfl
  | cls n => rfl
  | array c => rfl

theorem element_respell (t : Ty) :
    t.respell.element = t.element.respell := by
  induction t with
  | prim k => rfl
  | cls n => rfl
  | array c ih => exact ih

theorem dimensions_respell (t : Ty) :
    t.respell.dimensions = t.dimensions := by
  induction t with
  | prim k => rfl
  | cls n => rfl
  | array c ih => exact congrArg (· + 1) ih

/- The element of a type that has a descriptor has a name. -/
theorem flat_respell_element
    {t : Ty}
    (hNamed :
      ∀ n, t.element = .cls n →
        n.text.toList ≠ [] ∧ ';' ∉ n.text.toList) :
    t.element.respell.Flat := by
  induction t with
  | prim k => trivial
  | cls n =>
      rcases hNamed n rfl with ⟨hNonempty, hClosed⟩
      apply ClassName.spellable_ofInternal
      · intro hEmpty
        exact hNonempty (List.map_eq_nil_iff.1 hEmpty)
      · intro hMem
        exact hClosed (ClassName.mem_swapChar (by decide) hMem)
  | array c ih => exact ih hNamed

/- Such a type is read back as it is spelled. -/
theorem Representable.spellable_respell
    {t : Ty}
    (hRep : t.Representable) :
    t.respell.Spellable where
  element := by
    rw [element_respell]
    exact flat_respell_element hRep.named
  shallow := by
    rw [dimensions_respell]
    exact hRep.shallow
  notVoid := by
    intro hPos
    rw [dimensions_respell] at hPos
    rw [element_respell, isVoid_respell]
    exact hRep.notVoid hPos

end Ty

theorem slotCount_map_respell (ps : List Ty) :
    slotCount (ps.map Ty.respell) = slotCount ps := by
  simp [slotCount, Function.comp_def]

theorem Admissible.respell
    {ps : List Ty}
    (h : Admissible ps) :
    Admissible (ps.map Ty.respell) where
  noVoid := by
    intro p hp
    rcases List.mem_map.1 hp with ⟨q, hq, rfl⟩
    rw [Ty.isVoid_respell]
    exact h.noVoid q hq
  slots_le := by
    rw [slotCount_map_respell]
    exact h.slots_le

namespace Signature

/- A signature with each of its types as it is read back. -/
def respell (s : Signature) : Signature :=
  ⟨s.params.map Ty.respell, s.ret.respell,
    s.admissible.respell⟩

/- The slots in a range have descriptors. -/
structure Representable
    (s : Signature)
    (exact : SlotRange) : Prop where
  params :
    ∀ i t, s.params[i]? = some t → exact.has i = true →
      t.Representable
  ret : exact.has s.count = true → s.ret.Representable

theorem count_respell (s : Signature) :
    s.respell.count = s.count :=
  List.length_map _

theorem canonicalSlot_respell
    (exact : SlotRange)
    (i : Nat)
    (t : Ty) :
    canonicalSlot exact i t.respell = canonicalSlot exact i t := by
  unfold canonicalSlot
  rw [Ty.descriptor_respell, Ty.shared_respell]

theorem canonicalSlots_respell
    (exact : SlotRange)
    (i : Nat)
    (ts : List Ty) :
    canonicalSlots exact i (ts.map Ty.respell) =
      canonicalSlots exact i ts := by
  induction ts generalizing i with
  | nil => rfl
  | cons t ts ih =>
      rw [List.map_cons, canonicalSlots, canonicalSlots,
        canonicalSlot_respell, ih]

/- Descriptors do not tell how a name is spelled. -/
theorem canonical_respell
    (s : Signature)
    (exact : SlotRange) :
    s.respell.canonical exact = s.canonical exact := by
  unfold canonical
  rw [count_respell]
  unfold respell
  dsimp only
  rw [canonicalSlots_respell, canonicalSlot_respell]

/-
  A canonical descriptor whose exact slots have descriptors is
  read back as what it spells.
-/
theorem ofDescriptor_canonical_respell
    {s : Signature}
    {exact : SlotRange}
    (hRep : s.Representable exact) :
    ofDescriptor (s.canonical exact) =
      .ok (s.respell.sharedBut exact) := by
  rw [← s.canonical_respell exact]
  apply ofDescriptor_canonical
  refine spellable_sharedBut ?_ ?_
  · intro i t ht hHas
    unfold respell at ht
    dsimp only at ht
    rw [List.getElem?_map, Option.map_eq_some_iff] at ht
    rcases ht with ⟨u, hu, rfl⟩
    exact (hRep.params i u hu hHas).spellable_respell
  · intro hHas
    rw [count_respell] at hHas
    exact (hRep.ret hHas).spellable_respell

end Signature

------------------------------------------------------------
-- Keys
------------------------------------------------------------

/-
  Keys without exact slots are equal if the signatures agree
  in shape, slot by slot and in their results, and only then.
  Whatever slots are kept exact, if these have descriptors,
  the key is read as a signature with the same count of
  parameters and of slots, and of the same shape; so the
  checking compiler does not fail on it.
-/
theorem Stub.Key.ofSignature_identifies_shapes :
    (∀ s t : Signature,
      ofSignature s .none none = ofSignature t .none none ↔
        List.Forall₂ Ty.SameShape s.params t.params ∧
          s.ret.SameShape t.ret) ∧
      ∀ (s : Signature) (exact : SlotRange),
        s.Representable exact →
          ∃ read : Signature,
            Signature.ofDescriptor (s.canonical exact) =
                .ok read ∧
              read.count = s.count ∧
              read.slots = s.slots ∧
              (∀ nothing : SlotRange, nothing.Empty →
                read.canonical nothing = s.canonical nothing) ∧
              ∀ n extra,
                Compiler.checking n (ofSignature s exact extra) =
                  .ok s.count := by
  constructor
  · intro s t
    rw [← Signature.canonical_eq_iff]
    unfold ofSignature
    simp only [Key.mk.injEq, String.ofList_inj, and_true]
  · intro s exact hRep
    have hRead := Signature.ofDescriptor_canonical_respell hRep
    have hCount : (s.respell.sharedBut exact).count = s.count := by
      rw [← s.count_respell]
      exact length_sharedTypes exact 0 s.respell.params
    refine ⟨_, hRead, hCount, ?_, ?_, ?_⟩
    · calc
        (s.respell.sharedBut exact).slots = s.respell.slots :=
          slotCount_sharedTypes exact 0 s.respell.params
        _ = s.slots := slotCount_map_respell s.params
    · intro nothing hEmpty
      rw [Signature.canonical_sharedBut hEmpty,
        Signature.canonical_respell]
    · intro n extra
      rw [Compiler.checking_of_read extra n hRead, hCount]

/- A kept array, and a range that reaches past a kept result. -/
theorem Stub.Key.ofSignature_identifies_shapes_array :
    ∃ s : Signature,
      s.params = [.boolean, .array .int] ∧
        s.ret = .string ∧
        s.Representable ⟨1, 9⟩ ∧
        ∃ read : Signature,
          Signature.ofDescriptor (s.canonical ⟨1, 9⟩) =
              .ok read ∧
            read.count = 2 ∧
            read.slots = 2 ∧
            read.canonical .none = s.canonical .none ∧
            Compiler.checking 0
                (ofSignature s ⟨1, 9⟩ (some (.label "x"))) =
              .ok 2 := by
  let s : Signature :=
    ⟨[.boolean, .array .int], .string, ⟨by decide, by decide⟩⟩
  have hArray : (Ty.array .int).Representable := by
    refine ⟨?_, by decide, fun _ => rfl⟩
    intro n hName
    cases hName
  have hString : Ty.string.Representable := by
    refine ⟨?_, by decide, fun _ => rfl⟩
    intro n hName
    cases hName
    decide
  have hRep : s.Representable ⟨1, 9⟩ := by
    refine ⟨?_, fun _ => hString⟩
    intro i t ht hHas
    rcases i with _ | _ | i
    · cases hHas
    · cases ht
      exact hArray
    · cases ht
  rcases ofSignature_identifies_shapes.2 s ⟨1, 9⟩ hRep with
    ⟨read, hRead, hCount, hSlots, hCanonical, hChecking⟩
  exact
    ⟨s, rfl, rfl, hRep, read, hRead, hCount, hSlots,
      hCanonical .none SlotRange.empty_none, hChecking 0 _⟩

end Linkage
