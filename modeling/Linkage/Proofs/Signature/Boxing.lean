import Linkage.Proofs.Signature

/-
  Boxing and unboxing whole signatures.  Unboxing sees no
  difference between a primitive type and its box class, so
  what boxing does is undone by it, and it fails where it
  would have failed before.  Boxing sees none either, and so
  undoes what unboxing does.

  Key theorems include:
    * `Ty.unboxed_boxed`
    * `Ty.boxed_unboxed`
    * `Signature.unwrap_wrap`
    * `Signature.unwrap_of_not_hasBoxes`
    * `Signature.unwrap_eq_voidParameter_iff`
    * `Signature.unwrap_eq_tooManyParameters_iff`
    * `Signature.unboxing_undoes_boxing`
-/

------------------------------------------------------------
-- Types
------------------------------------------------------------

namespace Linkage

namespace Ty

variable {t : Ty}

/- A type without a kind to unbox stays as it is. -/
theorem unboxed_of_boxedKind?
    (hPlain : t.boxedKind? = none) :
    t.unboxed = t := by
  cases t with
  | prim k => rfl
  | cls n =>
      change n.boxedKind? = none at hPlain
      simp only [unboxed, hPlain]
  | array c => rfl

theorem unboxed_of_boxedKind?_some
    {k : Kind}
    (hBox : t.boxedKind? = some k) :
    t.unboxed = prim k := by
  cases t with
  | prim k => cases hBox
  | cls n =>
      change n.boxedKind? = some k at hBox
      simp only [unboxed, hBox]
  | array c => cases hBox

/- A kind and its box class are unboxed alike. -/
theorem unboxed_boxed (t : Ty) : t.boxed.unboxed = t.unboxed := by
  cases t with
  | prim k => exact unboxed_boxed_prim k
  | cls n => rfl
  | array c => rfl

/- A kind and its box class are boxed alike. -/
theorem boxed_unboxed (t : Ty) : t.unboxed.boxed = t.boxed := by
  cases hBox : t.boxedKind? with
  | none => rw [unboxed_of_boxedKind? hBox]
  | some k =>
      rw [unboxed_of_boxedKind?_some hBox]
      cases t with
      | prim j => cases hBox
      | cls n => exact congrArg cls (Kind.box_of_boxedKind? hBox)
      | array c => cases hBox

/- What was unboxed is no box class; arrays keep theirs. -/
theorem boxedKind?_unboxed (t : Ty) :
    t.unboxed.boxedKind? = none := by
  cases hBox : t.boxedKind? with
  | none =>
      rw [unboxed_of_boxedKind? hBox]
      exact hBox
  | some k =>
      rw [unboxed_of_boxedKind?_some hBox]
      rfl

/- Only the box class of `void` is unboxed to it. -/
theorem isVoid_unboxed
    (hValue : t.IsVoid = false) :
    t.unboxed.IsVoid = decide (t.boxedKind? = some .void) := by
  cases hBox : t.boxedKind? with
  | none =>
      rw [unboxed_of_boxedKind? hBox, hValue]
      rfl
  | some k =>
      rw [unboxed_of_boxedKind?_some hBox]
      cases k <;> rfl

end Ty

------------------------------------------------------------
-- Signatures
------------------------------------------------------------

namespace Signature

variable {s u : Signature}

theorem unwrap_wrap (s : Signature) : s.wrap.unwrap = s.unwrap := by
  unfold unwrap wrap
  dsimp only
  rw [List.map_map, Ty.unboxed_boxed]
  congr 1
  exact List.map_congr_left (fun p _ => Ty.unboxed_boxed p)

theorem hasBoxes_eq_false_iff :
    s.hasBoxes = false ↔
      s.ret.boxedKind? = none ∧
        ∀ p ∈ s.params, p.boxedKind? = none := by
  simp [hasBoxes]

theorem unwrap_of_not_hasBoxes
    (hNone : s.hasBoxes = false) :
    s.unwrap = .ok s := by
  rcases hasBoxes_eq_false_iff.1 hNone with ⟨hRet, hParams⟩
  have hSame : s.params.map Ty.unboxed = s.params := by
    rw [List.map_congr_left
      (fun p hp => Ty.unboxed_of_boxedKind? (hParams p hp))]
    exact List.map_id' s.params
  unfold unwrap
  rw [hSame, Ty.unboxed_of_boxedKind? hRet]
  exact build_of_admissible s.ret s.admissible

/- What is unboxed is unboxed in each place. -/
theorem of_unwrap
    (hUnwrap : s.unwrap = .ok u) :
    u.params = s.params.map Ty.unboxed ∧ u.ret = s.ret.unboxed :=
  params_of_build hUnwrap

theorem wrap_of_unwrap
    (hUnwrap : s.unwrap = .ok u) :
    u.wrap = s.wrap := by
  rcases of_unwrap hUnwrap with ⟨hParams, hRet⟩
  apply eq_of_parts
  · change u.params.map Ty.boxed = s.params.map Ty.boxed
    rw [hParams, List.map_map]
    exact List.map_congr_left (fun p _ => Ty.boxed_unboxed p)
  · change u.ret.boxed = s.ret.boxed
    rw [hRet, Ty.boxed_unboxed]

theorem hasBoxes_of_unwrap
    (hUnwrap : s.unwrap = .ok u) :
    u.hasBoxes = false := by
  rcases of_unwrap hUnwrap with ⟨hParams, hRet⟩
  rw [hasBoxes_eq_false_iff, hRet, hParams, List.forall_mem_map]
  exact
    ⟨Ty.boxedKind?_unboxed s.ret,
      fun p _ => Ty.boxedKind?_unboxed p⟩

------------------------------------------------------------
-- Failures of Unboxing
------------------------------------------------------------

/- The first parameter that would become `void`. -/
def firstBoxedVoid? (s : Signature) : Option Nat :=
  s.params.findIdx? (fun p => p.boxedKind? = some .void)

theorem findIdx?_congr
    {f g : Ty → Bool}
    {ps : List Ty}
    (hAlike : ∀ p ∈ ps, f p = g p) :
    ps.findIdx? f = ps.findIdx? g := by
  induction ps with
  | nil => rfl
  | cons p ps ih =>
      rw [List.forall_mem_cons] at hAlike
      rw [List.findIdx?_cons, List.findIdx?_cons, hAlike.1,
        ih hAlike.2]

theorem firstVoid?_unboxed (s : Signature) :
    firstVoid? (s.params.map Ty.unboxed) = s.firstBoxedVoid? := by
  unfold firstVoid? firstBoxedVoid?
  rw [List.findIdx?_map]
  exact
    findIdx?_congr
      (fun p hp => Ty.isVoid_unboxed (s.admissible.noVoid p hp))

theorem paramsError?_unboxed (s : Signature) :
    paramsError? (s.params.map Ty.unboxed) =
      match s.firstBoxedVoid? with
      | some i => some (.voidParameter i)
      | none =>
          if slotCount (s.params.map Ty.unboxed) ≤ maxSlots
          then none
          else
            some
              (.tooManyParameters
                (slotCount (s.params.map Ty.unboxed))) := by
  rw [← firstVoid?_unboxed]
  rfl

theorem unwrap_eq_voidParameter_iff
    {i : Nat} :
    s.unwrap = .error (.voidParameter i) ↔
      s.firstBoxedVoid? = some i := by
  unfold unwrap
  rw [build_eq_error_iff, paramsError?_unboxed]
  cases s.firstBoxedVoid? with
  | some j => simp
  | none => simp

theorem unwrap_eq_tooManyParameters_iff
    {n : Nat} :
    s.unwrap = .error (.tooManyParameters n) ↔
      s.firstBoxedVoid? = none ∧ maxSlots < n ∧
        slotCount (s.params.map Ty.unboxed) = n := by
  unfold unwrap
  rw [build_eq_error_iff, paramsError?_unboxed]
  cases s.firstBoxedVoid? with
  | some j => simp
  | none => grind

/- Nothing else keeps a signature from being unboxed. -/
theorem unwrap_cases (s : Signature) :
    (∃ u, s.unwrap = .ok u) ∨
      (∃ i, s.unwrap = .error (.voidParameter i)) ∨
        ∃ n, s.unwrap = .error (.tooManyParameters n) := by
  cases hUnwrap : s.unwrap with
  | ok u => exact .inl ⟨u, rfl⟩
  | error e =>
      have hError := build_eq_error_iff.1 hUnwrap
      rw [paramsError?_unboxed] at hError
      split at hError
      · cases hError
        exact .inr (.inl ⟨_, rfl⟩)
      · split at hError
        · cases hError
        · cases hError
          exact .inr (.inr ⟨_, rfl⟩)

/-
  Boxing a whole signature is undone by unboxing it, as far
  as unboxing goes: what it gives, or why it fails, is what it
  gives for the signature itself.  It fails for the first
  parameter that boxes `void`, or else for the slots that are
  needed, and a signature without box classes comes back.
  What is unboxed is boxed to the same again, and has nothing
  left to unbox.
-/
theorem unboxing_undoes_boxing (s : Signature) :
    s.wrap.unwrap = s.unwrap ∧
      (s.hasBoxes = false → s.wrap.unwrap = .ok s) ∧
      ((∃ u, s.wrap.unwrap = .ok u) ∨
        (∃ i, s.wrap.unwrap = .error (.voidParameter i)) ∨
          ∃ n, s.wrap.unwrap = .error (.tooManyParameters n)) ∧
      (∀ i,
        s.wrap.unwrap = .error (.voidParameter i) ↔
          s.firstBoxedVoid? = some i) ∧
      (∀ n,
        s.wrap.unwrap = .error (.tooManyParameters n) ↔
          s.firstBoxedVoid? = none ∧ maxSlots < n ∧
            slotCount (s.params.map Ty.unboxed) = n) ∧
      ∀ u,
        s.unwrap = .ok u →
          u.params = s.params.map Ty.unboxed ∧
            u.ret = s.ret.unboxed ∧ u.wrap = s.wrap ∧
            u.hasBoxes = false ∧ u.unwrap = .ok u := by
  rw [unwrap_wrap]
  refine
    ⟨rfl, unwrap_of_not_hasBoxes, unwrap_cases s,
      fun _ => unwrap_eq_voidParameter_iff,
      fun _ => unwrap_eq_tooManyParameters_iff, ?_⟩
  intro u hUnwrap
  have hNone := hasBoxes_of_unwrap hUnwrap
  rcases of_unwrap hUnwrap with ⟨hParams, hRet⟩
  exact
    ⟨hParams, hRet, wrap_of_unwrap hUnwrap, hNone,
      unwrap_of_not_hasBoxes hNone⟩

/- A kind, its box class, and an array that stays boxed. -/
def mixed : Signature :=
  ⟨[.int, .cls Kind.int.box, .array (.cls Kind.int.box)],
    .cls Kind.void.box, by decide, by decide⟩

def unmixed : Signature :=
  ⟨[.int, .int, .array (.cls Kind.int.box)], .void,
    by decide, by decide⟩

theorem unboxing_undoes_boxing_mixed :
    unmixed.hasBoxes = false ∧ mixed.unwrap = .ok unmixed ∧
      unmixed.wrap.unwrap = .ok unmixed ∧
      mixed.wrap.unwrap = .ok unmixed ∧
      unmixed.wrap = mixed.wrap ∧
      unmixed.unwrap = .ok unmixed := by
  have hNone : unmixed.hasBoxes = false := by decide
  have hUnwrap : mixed.unwrap = .ok unmixed := by
    unfold unwrap
    exact build_of_admissible _ unmixed.admissible
  rcases unboxing_undoes_boxing mixed with
    ⟨hSame, -, -, -, -, hUnboxed⟩
  rcases hUnboxed unmixed hUnwrap with ⟨-, -, hWrap, -, hAgain⟩
  exact
    ⟨hNone, hUnwrap, (unboxing_undoes_boxing unmixed).2.1 hNone,
      hSame.trans hUnwrap, hWrap, hAgain⟩

end Signature

end Linkage
