import Linkage.Proofs.Conversion.Passable
import Linkage.Proofs.Conversion.Plan
import Linkage.Proofs.Heap

/-
  Conversions there and back.  A primitive type converts to
  another type and back only through its own box, which may
  pass for a `Number` or an `Object`; and nothing comes back
  as nothing.  So each value comes back as it was, and all
  that is left of it is a box.

  Key definitions include:
    * `Conversion.Revives`

  Key theorems include:
    * `ClassTable.KeepsWellKnown.box_reaches`
    * `classify_back`
-/

------------------------------------------------------------
-- Supertypes of Boxes
------------------------------------------------------------

namespace Linkage

namespace ClassTable

variable {T : ClassTable}
variable {n : ClassName}
variable {j k : Kind}

/- A box class and what it is known to be below. -/
def boxLine (k : Kind) : List ClassName :=
  [k.box, .object, .serializable, .comparable] ++
    if k.isNumeric && k != .char then [.number] else []

theorem boxLine_closed (k : Kind) :
    ∀ m ∈ boxLine k,
      wellKnown.contains m = true ∧
        ∀ n ∈ wellKnown.parents m, n ∈ boxLine k := by
  cases k with
  | _ => decide +kernel

/- No class gives a box more supertypes than are known. -/
theorem KeepsWellKnown.box_reaches
    (hKeeps : T.KeepsWellKnown)
    (hReaches : T.Reaches k.box n) :
    n ∈ boxLine k := by
  induction hReaches with
  | refl => exact List.mem_cons_self
  | tail _ hEdge ih =>
      rcases boxLine_closed k _ ih with ⟨hKnown, hParents⟩
      unfold Edge at hEdge
      rw [hKeeps.parents_eq hKnown] at hEdge
      exact hParents _ hEdge

theorem KeepsWellKnown.mem_boxLine
    (hKeeps : T.KeepsWellKnown)
    (hSub : T.isSubclass k.box n = true) :
    n ∈ boxLine k := by
  rcases isSubclass_eq_true_iff.1 hSub with rfl | hReaches
  · exact List.mem_cons_of_mem _ List.mem_cons_self
  · exact hKeeps.box_reaches hReaches

/- No box class is below another one. -/
theorem KeepsWellKnown.box_isSubclass_box
    (hKeeps : T.KeepsWellKnown)
    (hSub : T.isSubclass k.box j.box = true) :
    k = j := by
  have hMem := hKeeps.mem_boxLine hSub
  revert hMem
  cases k with
  | _ =>
      cases j with
      | _ => decide +kernel

/- Only the boxes of numbers are numbers. -/
theorem KeepsWellKnown.numeric_of_box
    (hKeeps : T.KeepsWellKnown)
    (hSub : T.isSubclass k.box .number = true) :
    k.isNumeric = true ∧ k ≠ .char := by
  have hMem := hKeeps.mem_boxLine hSub
  revert hMem
  cases k with
  | _ => decide +kernel

end ClassTable

------------------------------------------------------------
-- Single Conversions
------------------------------------------------------------

variable {T : ClassTable}
variable {a b : Ty}
variable {j k : Kind}
variable {c d : Conversion}
variable {v : Value}

/-
  The second conversion gives back the value that the first
  was given, and a number of boxes are left in the heap.
-/
def Conversion.Revives
    (T : ClassTable)
    (c d : Conversion)
    (v : Value)
    (n : Nat) : Prop :=
  ∀ h, ∃ w,
    c.apply T v h = (.ok w, h.plus n) ∧
      ∀ k, d.apply T w k = (.ok v, k)

theorem Conversion.Revives.same (v : Value) :
    Conversion.identity.Revives T .identity v 0 := by
  intro h
  refine ⟨v, ?_, fun _ => rfl⟩
  rw [Heap.plus_zero]
  rfl

/- Only nothing is a value of `void`. -/
theorem Value.eq_void
    (hConforms : v.conforms T .void = true) :
    v = .void := by
  cases v with
  | void => rfl
  | null => cases hConforms
  | prim p =>
      have hKind : Ty.prim .void = .prim p.kind :=
        of_decide_eq_true hConforms
      cases p with
      | _ => cases hKind
  | ref o =>
      have hAssign : T.isAssignable o.type .void = true := hConforms
      unfold Obj.type at hAssign
      cases hShape : o.shape with
      | _ =>
          rw [hShape] at hAssign
          cases hAssign

/- Nothing becomes a zero, and nothing again. -/
theorem Conversion.Revives.zero (a : Ty) :
    (Conversion.zeroValue a).Revives T .discard .void 0 := by
  intro h
  refine ⟨.zero a, ?_, fun _ => rfl⟩
  rw [Heap.plus_zero]
  rfl

/- A primitive value comes out of its box as it was. -/
theorem Conversion.Revives.box
    {source : UnboxSource}
    {p : Prim}
    (hAdmits : source.admits p.kind = true) :
    (Conversion.box p.kind none).Revives T
      (.unbox source p.kind .implicit) (.prim p) 1 := by
  intro h
  refine ⟨.ref (h.allocBox p).1, ?_, ?_⟩
  · unfold apply boxValue
    simp [Heap.allocBox_plus]
  · intro k
    have hReaches : p.kind.reaches p.kind = true := by
      simp [Kind.reaches]
    have hCast : (Value.prim p).cast? p.kind = some (.prim p) := by
      simp [Value.cast?, Prim.cast]
    change
      (unboxValue source p.kind .implicit (.ref (h.allocBox p).1),
        k) = _
    unfold unboxValue
    simp [Obj.boxed?, Heap.allocBox, Heap.alloc, hAdmits, hReaches,
      hCast]

/- Widening does not lead back. -/
theorem Kind.not_widensTo_both :
    ¬(j.widensTo k = true ∧ k.widensTo j = true) := by
  rintro ⟨hForth, hBack⟩
  have hSelf := Kind.widensTo_trans j k j hForth hBack
  rw [Kind.widensTo_irrefl] at hSelf
  cases hSelf

/-
  A primitive type goes into a reference type as its own box;
  and what takes it out of there admits this box.
-/
theorem admits_of_boxed
    (hKeeps : T.KeepsWellKnown)
    (hBox : T.isAssignable (.cls k.box) b = true)
    (hBack : classifyUnbox b k .implicit = some d) :
    ∃ source,
      d = .unbox source k .implicit ∧ source.admits k = true := by
  unfold classifyUnbox at hBack
  split at hBack
  · cases hBack
    exact ⟨.dynamic, rfl, rfl⟩
  · split at hBack
    · rename_i hNumber
      rw [hNumber] at hBox
      rcases hKeeps.numeric_of_box hBox with ⟨hNumeric, hChar⟩
      split at hBack
      · cases hBack
        refine ⟨.number, rfl, ?_⟩
        simp [UnboxSource.admits, hNumeric, hChar]
      · cases hBack
    · split at hBack
      · cases hBack
      · cases hBack
      · rename_i i _ hBoxed
        split at hBack
        · cases hBack
          refine ⟨.box i, rfl, ?_⟩
          cases b with
          | cls n =>
              rw [← Kind.box_of_boxedKind? hBoxed] at hBox
              rw [hKeeps.box_isSubclass_box hBox]
              simp [UnboxSource.admits]
          | prim _ => cases hBoxed
          | array _ => cases hBoxed
        · cases hBack

/-
  If a primitive type converts to another and back, then each
  of its values comes back as it was.  At most one box is left.
  Where there is nothing to convert, so does any value.
-/
theorem classify_back
    (hKeeps : T.KeepsWellKnown)
    (hOut : classify T a b .implicit = some c)
    (hBack : classify T b a .implicit = some d)
    (hPrim : a ≠ b → a.IsPrim = true)
    (hVoid : b = .void → a = .void)
    (hConforms : a ≠ b → v.conforms T a = true) :
    ∃ n, n ≤ 1 ∧ c.Revives T d v n := by
  by_cases hSame : a = b
  · subst hSame
    rw [classify_self] at hOut hBack
    cases hOut
    cases hBack
    exact ⟨0, Nat.zero_le 1, .same v⟩
  · have hNotRef : ¬a.IsRef = true := by
      intro hRef
      have hIs := hPrim hSame
      cases a with
      | prim k => cases hRef
      | cls n => cases hIs
      | array e => cases hIs
    cases chosen_of_classify hOut with
    | identity => exact absurd rfl hSame
    | zeroValue =>
        rw [Value.eq_void (hConforms hSame)]
        refine ⟨0, Nat.zero_le 1, ?_⟩
        cases chosen_of_classify hBack with
        | identity => exact absurd rfl hSame
        | zeroValue => exact absurd rfl hSame
        | discard => exact .zero b
        | widen _ _ hNot => exact absurd rfl hNot
        | box _ _ hRef => cases hRef
        | unbox _ _ _ hNot => exact absurd rfl hNot
        | upcast _ _ hRef => cases hRef
    | discard => exact absurd (hVoid rfl) hSame
    | @widen i j _ hi hj hWidens =>
        cases chosen_of_classify hBack with
        | identity => exact absurd rfl hSame
        | zeroValue => exact absurd rfl hj
        | discard => exact absurd rfl hi
        | widen _ _ _ hBackward =>
            exact absurd ⟨hWidens, hBackward⟩ Kind.not_widensTo_both
        | box _ _ hRef => cases hRef
        | unbox _ _ hRef => cases hRef
        | upcast _ hRef => cases hRef
    | @box k _ _ hk hRef hBox =>
        rcases Value.conforms_prim (hConforms hSame) hk with ⟨p, rfl, rfl⟩
        have hUnbox : classifyUnbox b p.kind .implicit = some d := by
          rw [← hBack]
          cases b with
          | prim _ => cases hRef
          | cls n => simp [classify]
          | array e => simp [classify]
        rcases admits_of_boxed hKeeps hBox hUnbox with
          ⟨source, rfl, hAdmits⟩
        exact ⟨1, Nat.le_refl 1, .box hAdmits⟩
    | unbox _ _ hRef => exact absurd hRef hNotRef
    | upcast _ hRef => exact absurd hRef hNotRef

end Linkage
