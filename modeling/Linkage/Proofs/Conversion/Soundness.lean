import Linkage.Proofs.Conversion
import Mathlib.Tactic.SplitIfs

/-
  Soundness of conversions.  The choice of a conversion looks
  at types, its work at values, and the two agree: what was
  chosen for two types turns each value of the first into a
  value of the second, unless it is a checked conversion that
  does not admit the value.

  Key definitions include:
    * `Conversion.Admits`
    * `Conversion.Sound`

  Key theorems include:
    * `Conversion.Chosen.succeeds_iff`
    * `Conversion.sound_of_classify`
-/

------------------------------------------------------------
-- Admitted Values
------------------------------------------------------------

namespace Linkage

variable {T : ClassTable}
variable {v : Value}
variable {s t : Ty}
variable {k : Kind}
variable {c : Conversion}
variable {how : Strength}

/-
  The values that a conversion lets through.  A cast admits
  the values of its type.  Unboxing admits a box that its
  source allows, if the kind in the box has itself a
  conversion to the wanted kind.
-/
def Conversion.Admits
    (T : ClassTable)
    (v : Value) : Conversion → Prop
| .cast t => v.conforms T t = true
| .box k (some t) => T.isAssignable (.cls k.box) t = true
| .unbox source k how =>
    ∃ o p,
      v = .ref o ∧ o.boxed? = some p ∧
        source.admits p.kind = true ∧
        (classify T (.prim p.kind) (.prim k) how).isSome = true
| _ => True

/- A kind converts by being the same, widening or by force. -/
theorem isSome_classify_prim
    (T : ClassTable)
    (how : Strength)
    {a b : Kind}
    (ha : a ≠ .void)
    (hb : b ≠ .void) :
    (classify T (.prim a) (.prim b) how).isSome = true ↔
      how = .explicit ∨ a.reaches b = true := by
  by_cases hEq : a = b
  · simp [classify, Kind.reaches, hEq]
  · have hClass :
        classify T (.prim a) (.prim b) how =
          classifyPrim a b how := by
      unfold classify
      rw [if_neg (by simpa using hEq)]
      split <;> simp_all
    rw [hClass, classifyPrim]
    split_ifs <;> simp_all [Kind.reaches]

theorem checkCast_succeeds_iff
    (hRef : t.IsRef = true)
    (hValue : v = .null ∨ ∃ o, v = .ref o) :
    (∃ w, checkCast T v t = .ok w) ↔ v.conforms T t = true := by
  rcases hValue with rfl | ⟨o, rfl⟩
  · exact ⟨fun _ => hRef, fun _ => ⟨.null, rfl⟩⟩
  · simp only [checkCast, Value.conforms]
    split_ifs with hAssign
    · exact ⟨fun _ => hAssign, fun _ => ⟨.ref o, rfl⟩⟩
    · constructor
      · rintro ⟨w, hCast⟩
        cases hCast
      · intro hConforms
        exact absurd hConforms hAssign

theorem unboxValue_succeeds_iff
    (T : ClassTable)
    (v : Value)
    (source : UnboxSource)
    (how : Strength)
    (hVoid : k ≠ .void) :
    (∃ w, unboxValue source k how v = .ok w) ↔
      (Conversion.unbox source k how).Admits T v := by
  constructor
  · rintro ⟨w, hUnbox⟩
    unfold unboxValue at hUnbox
    split at hUnbox
    · rename_i o
      dsimp only at hUnbox
      split at hUnbox
      · cases hUnbox
      · rename_i p hBoxed
        split_ifs at hUnbox with hCond
        simp only [Bool.and_eq_true, Bool.or_eq_true,
          decide_eq_true_eq] at hCond
        have hKind :=
          (isSome_classify_prim T how p.kind_ne_void hVoid).2
            hCond.2
        exact ⟨o, p, rfl, hBoxed, hCond.1, hKind⟩
    · cases hUnbox
    · cases hUnbox
  · rintro ⟨o, p, rfl, hBoxed, hSource, hKind⟩
    rw [isSome_classify_prim T how p.kind_ne_void hVoid] at hKind
    rcases Option.isSome_iff_exists.1 (p.cast_isSome hVoid) with
      ⟨q, hCast⟩
    refine ⟨.prim q, ?_⟩
    simp [unboxValue, hBoxed, hSource, hKind, Value.cast?, hCast]

------------------------------------------------------------
-- Reading Off an Outcome
------------------------------------------------------------

namespace Conversion.Outcome

variable {answer : Except Fault Value}

/- An unchecked conversion never fails. -/
theorem succeeds
    (hOutcome : c.Outcome T t v answer)
    (hChecked : c.isChecked = false) :
    ∃ w, answer = .ok w := by
  cases hOutcome with
  | passed => exact ⟨_, rfl⟩
  | made => exact ⟨_, rfl⟩
  | refused source target hOther => simp [hChecked] at hOther
  | missing what hOther => simp [hChecked] at hOther

/- A conversion that looks at no value gives it back. -/
theorem unchanged
    (hOutcome : c.Outcome T t v answer)
    (hBlind : ¬c.Checks) :
    answer = .ok v := by
  have hUnchecked : c.isChecked = false := by
    cases c with
    | uncheckedCast t => rfl
    | _ => exact absurd trivial hBlind
  cases hOutcome with
  | passed => rfl
  | made hChecks => exact absurd hChecks hBlind
  | refused source target hOther => simp [hUnchecked] at hOther
  | missing what hOther => simp [hUnchecked] at hOther

/- A failure is one of the two that checks give. -/
theorem failure
    {f : Fault}
    (hOutcome : c.Outcome T t v (.error f)) :
    c.isChecked = true ∧
      ((∃ source target, f = .castError source target) ∨
        ∃ what, f = .nullReference what) := by
  cases hOutcome with
  | refused source target hChecked =>
      exact ⟨hChecked, Or.inl ⟨source, target, rfl⟩⟩
  | missing what hChecked =>
      exact ⟨hChecked, Or.inr ⟨what, rfl⟩⟩

/- Null is missed where it is unboxed, and nowhere else. -/
theorem nullReference_iff
    (hOutcome : c.Outcome T t v answer) :
    (∃ what, answer = .error (.nullReference what)) ↔
      c.Unboxes ∧ v = .null := by
  cases hOutcome with
  | passed hBlind =>
      refine ⟨nofun, ?_⟩
      rintro ⟨hUnboxes, _⟩
      cases c with
      | uncheckedCast t => exact hUnboxes.elim
      | _ => exact absurd trivial hBlind
  | made _ _ hSome =>
      exact ⟨nofun, fun h => absurd h.2 (hSome h.1)⟩
  | refused source target _ hSome =>
      exact ⟨nofun, fun h => absurd h.2 (hSome h.1)⟩
  | missing what _ hUnboxes hNull =>
      exact
        ⟨fun _ => ⟨hUnboxes, hNull⟩, fun _ => ⟨what, rfl⟩⟩

end Conversion.Outcome

/- A chosen conversion succeeds on the values it admits. -/
theorem Conversion.Chosen.succeeds_iff
    (hChosen : c.Chosen T s t how)
    (hValue : v.conforms T s = true)
    (hUp : T.isAssignable s t = true → v.conforms T t = true)
    (h : Heap) :
    (∃ w, (c.apply T v h).1 = .ok w) ↔ c.Admits T v := by
  have hOutcome := hChosen.outcome hValue hUp h
  have hUnchecked :
      c.isChecked = false →
        ((∃ w, (c.apply T v h).1 = .ok w) ↔ True) := by
    intro hChecked
    exact iff_true_intro (hOutcome.succeeds hChecked)
  cases hChosen with
  | boxCast hVoid hRef hAssign =>
      rcases Value.conforms_prim hValue hVoid with ⟨p, rfl, rfl⟩
      simp only [apply, boxValue_prim]
      exact checkCast_succeeds_iff hRef (Or.inr ⟨_, rfl⟩)
  | unbox source how hRef hVoid =>
      exact unboxValue_succeeds_iff T v source how hVoid
  | cast hSource hTarget =>
      exact
        checkCast_succeeds_iff hTarget
          (Value.eq_null_or_ref hValue hSource)
  | _ => exact hUnchecked rfl

------------------------------------------------------------
-- Soundness
------------------------------------------------------------

/-
  What is promised of a conversion of a value to a type.  An
  unchecked cast is the only one that may give a value of
  another type, and it gives the very value back.
-/
structure Conversion.Sound
    (T : ClassTable)
    (c : Conversion)
    (t : Ty)
    (v : Value)
    (h : Heap) : Prop where
  conforms :
    ∀ w, (c.apply T v h).1 = .ok w → c.Checks →
      w.conforms T t = true
  unchanged : ¬c.Checks → (c.apply T v h).1 = .ok v
  succeeds : (∃ w, (c.apply T v h).1 = .ok w) ↔ c.Admits T v
  unchecked :
    c.isChecked = false → ∃ w, (c.apply T v h).1 = .ok w
  failure :
    ∀ f, (c.apply T v h).1 = .error f →
      c.isChecked = true ∧
        ((∃ source target, f = .castError source target) ∨
          ∃ what, f = .nullReference what)
  noMismatch :
    ∀ expected found,
      (c.apply T v h).1 ≠ .error (.typeMismatch expected found)
  nullReference :
    (∃ what, (c.apply T v h).1 = .error (.nullReference what)) ↔
      c.Unboxes ∧ v = .null

/-
  A conversion that was chosen for two types, at whichever
  strength, is sound on each value of the first type.
-/
theorem Conversion.sound_of_classify
    (hTrans : T.Transitive)
    (hClass : classify T s t how = some c)
    (hValue : v.conforms T s = true)
    (h : Heap) :
    c.Sound T t v h := by
  have hUp : T.isAssignable s t = true → v.conforms T t = true :=
    fun hAssign => Value.conforms_trans hTrans hAssign hValue
  have hChosen := chosen_of_classify hClass
  have hOutcome := hChosen.outcome hValue hUp h
  refine
    { conforms := ?_, unchanged := hOutcome.unchanged,
      succeeds := hChosen.succeeds_iff hValue hUp h,
      unchecked := hOutcome.succeeds, failure := ?_,
      noMismatch := ?_, nullReference := hOutcome.nullReference_iff }
  · intro w hOk hChecks
    rw [hOk] at hOutcome
    cases hOutcome with
    | passed hBlind => exact absurd hChecks hBlind
    | made _ hConforms => exact hConforms
  · intro f hFail
    rw [hFail] at hOutcome
    exact hOutcome.failure
  · intro expected found hFail
    rw [hFail] at hOutcome
    cases hOutcome

/-
  A boxed `long` is taken as any number and narrowed to a
  `byte`, which keeps its low digits.
-/
theorem Conversion.sound_of_classify_number :
    ClassTable.wellKnown.Transitive ∧
      classify .wellKnown (.cls .number) (.prim .byte) .explicit =
        some (.unbox .number .byte .explicit) ∧
      (Value.ref ⟨0, .boxed (.long 511)⟩).conforms .wellKnown
        (.cls .number) = true ∧
      (Conversion.unbox .number .byte .explicit).Sound .wellKnown
        (.prim .byte) (.ref ⟨0, .boxed (.long 511)⟩) .empty ∧
      ((Conversion.unbox .number .byte .explicit).apply .wellKnown
        (.ref ⟨0, .boxed (.long 511)⟩) .empty).1 =
          .ok (.prim (.byte (-1))) := by
  have hTrans := ClassTable.plainRoots_wellKnown.transitive
  have hClass :
      classify .wellKnown (.cls .number) (.prim .byte) .explicit =
        some (.unbox .number .byte .explicit) := by
    decide +kernel
  have hValue :
      (Value.ref ⟨0, .boxed (.long 511)⟩).conforms .wellKnown
        (.cls .number) = true := by
    have hEdge :
        ClassName.number ∈
          ClassTable.wellKnown.parents Kind.long.box := by
      decide +kernel
    exact
      ClassTable.isSubclass_eq_true_iff.2 (Or.inr (.single hEdge))
  exact
    ⟨hTrans, hClass, hValue,
      Conversion.sound_of_classify hTrans hClass hValue .empty,
      rfl⟩

end Linkage
