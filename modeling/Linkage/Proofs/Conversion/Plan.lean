import Linkage.Conversion
import Mathlib.Data.List.Forall2

/-
  Plans and the lack of them.  There is a plan from one
  signature to another if they have one number of parameters,
  each parameter converts to its partner, and the result
  converts back.  Without a plan there is one error, which is
  the first of: the numbers differ, the least parameter that
  does not convert, the result does not convert.

  Key definitions include:
    * `Ty.ConvertsTo`
    * `Signature.Convertible`
    * `Signature.Clash`
    * `Plan.Converts`
    * `Plan.same`

  Key theorems include:
    * `planParams_eq_ok_iff`
    * `planParams_eq_error_iff`
    * `planSignature_eq_ok_iff`
    * `exists_plan_iff`
    * `planSignature_eq_error_iff`
    * `planSignature_self`
-/

------------------------------------------------------------
-- Convertible Signatures
------------------------------------------------------------

namespace Linkage

/- There is a conversion from one type to another. -/
def Ty.ConvertsTo
    (T : ClassTable)
    (how : Strength)
    (a b : Ty) : Prop :=
  ∃ c, classify T a b how = some c

/- Types convert to their partners in another list. -/
def ParamsConvert
    (T : ClassTable)
    (how : Strength)
    (as bs : List Ty) : Prop :=
  ∀ (i : Nat) (a b : Ty), as[i]? = some a → bs[i]? = some b →
    a.ConvertsTo T how b

namespace Signature

/-
  A call of one signature can be made one of another: the
  parameters convert on the way in, the result on the way
  out.
-/
structure Convertible
    (T : ClassTable)
    (how : Strength)
    (caller callee : Signature) : Prop where
  count_eq : caller.count = callee.count
  params : ParamsConvert T how caller.params callee.params
  ret : callee.ret.ConvertsTo T how caller.ret

/- Why it can not, the first reason of all. -/
inductive Clash
    (T : ClassTable)
    (how : Strength)
    (caller callee : Signature) : SignatureError → Prop where
| arity
    (hCount : caller.count ≠ callee.count) :
    Clash T how caller callee (.arity callee.count caller.count)
| param
    (i : Nat) (a b : Ty)
    (hCount : caller.count = callee.count)
    (hCaller : caller.params[i]? = some a)
    (hCallee : callee.params[i]? = some b)
    (hNone : ¬a.ConvertsTo T how b)
    (hFirst :
      ParamsConvert T how (caller.params.take i) callee.params) :
    Clash T how caller callee (.mismatch (some i) a b)
| ret
    (hCount : caller.count = callee.count)
    (hParams : ParamsConvert T how caller.params callee.params)
    (hNone : ¬callee.ret.ConvertsTo T how caller.ret) :
    Clash T how caller callee (.mismatch none callee.ret caller.ret)

end Signature

/-
  A plan has the conversion of each parameter to its partner,
  in order, and of the result back.
-/
structure Plan.Converts
    (T : ClassTable)
    (how : Strength)
    (caller callee : Signature)
    (p : Plan) : Prop where
  count_eq : caller.count = callee.count
  params :
    List.Forall₂
      (fun (t : Ty × Ty) c => classify T t.1 t.2 how = some c)
      (caller.params.zip callee.params) p.params
  ret : classify T callee.ret caller.ret how = some p.ret

variable {T : ClassTable}
variable {how : Strength}
variable {a b : Ty}
variable {as bs : List Ty}
variable {cs : List Conversion}
variable {caller callee : Signature}
variable {p : Plan}
variable {e : SignatureError}
variable {i : Nat}

theorem Ty.not_convertsTo :
    ¬a.ConvertsTo T how b ↔ classify T a b how = none := by
  unfold Ty.ConvertsTo
  cases classify T a b how with
  | none => simp
  | some c => simp

theorem ParamsConvert.cons_iff :
    ParamsConvert T how (a :: as) (b :: bs) ↔
      a.ConvertsTo T how b ∧ ParamsConvert T how as bs := by
  constructor
  · intro hAll
    exact ⟨hAll 0 a b rfl rfl, fun i => hAll (i + 1)⟩
  · rintro ⟨hFirst, hRest⟩ i p q hp hq
    cases i with
    | zero =>
        cases hp
        cases hq
        exact hFirst
    | succ i => exact hRest i p q hp hq

/- A list without types converts to any other. -/
theorem ParamsConvert.nil :
    ParamsConvert T how [] bs := by
  intro i p q hp
  cases hp

------------------------------------------------------------
-- Plans of Parameters
------------------------------------------------------------

/- The conversions of a plan are those of the pairs of types. -/
theorem planParams_eq_ok_iff :
    planParams T how i as bs = .ok cs ↔
      List.Forall₂
        (fun (p : Ty × Ty) c => classify T p.1 p.2 how = some c)
        (as.zip bs) cs := by
  induction as generalizing i bs cs with
  | nil => simp [planParams, eq_comm]
  | cons a as ih =>
      cases bs with
      | nil => simp [planParams, eq_comm]
      | cons b bs =>
          unfold planParams
          rw [List.zip_cons_cons, List.forall₂_cons_left_iff]
          constructor
          · intro hOk
            split at hOk
            · cases hOk
            · rename_i c hFirst
              split at hOk
              · cases hOk
              · rename_i ds hRest
                cases hOk
                exact ⟨c, ds, hFirst, ih.1 hRest, rfl⟩
          · rintro ⟨c, ds, hFirst, hRest, rfl⟩
            rw [hFirst]
            dsimp only
            rw [ih.2 hRest]

/- There is a plan of parameters if all of them convert. -/
theorem exists_planParams_iff :
    (∃ cs, planParams T how i as bs = .ok cs) ↔
      ParamsConvert T how as bs := by
  induction as generalizing i bs with
  | nil => exact ⟨fun _ => .nil, fun _ => ⟨[], rfl⟩⟩
  | cons a as ih =>
      cases bs with
      | nil =>
          refine ⟨?_, fun _ => ⟨[], rfl⟩⟩
          intro _ i p q _ hq
          cases hq
      | cons b bs =>
          have hRest :
              (∃ cs, planParams T how (i + 1) as bs = .ok cs) ↔
                ParamsConvert T how as bs :=
            ih
          rw [ParamsConvert.cons_iff, ← hRest]
          unfold Ty.ConvertsTo
          rw [planParams]
          constructor
          · rintro ⟨cs, hOk⟩
            split at hOk
            · cases hOk
            · rename_i c hFirst
              split at hOk
              · cases hOk
              · rename_i ds hRest
                exact ⟨⟨c, hFirst⟩, ds, hRest⟩
          · rintro ⟨⟨c, hFirst⟩, ds, hRest⟩
            rw [hFirst, hRest]
            exact ⟨c :: ds, rfl⟩

/- The error is told of the least pair that does not convert. -/
theorem planParams_eq_error_iff :
    planParams T how i as bs = .error e ↔
      ∃ k a b,
        as[k]? = some a ∧ bs[k]? = some b ∧
          ¬a.ConvertsTo T how b ∧
          ParamsConvert T how (as.take k) bs ∧
          e = .mismatch (some (i + k)) a b := by
  induction as generalizing i bs with
  | nil => simp [planParams]
  | cons a as ih =>
      cases bs with
      | nil => simp [planParams]
      | cons b bs =>
          unfold planParams
          cases hFirst : classify T a b how with
          | none =>
              have hNone := Ty.not_convertsTo.2 hFirst
              constructor
              · intro hError
                cases hError
                exact ⟨0, a, b, rfl, rfl, hNone, .nil, rfl⟩
              · rintro ⟨k, p, q, hp, hq, _, hBefore, rfl⟩
                cases k with
                | zero =>
                    cases hp
                    cases hq
                    rfl
                | succ k =>
                    rw [List.take_succ_cons,
                      ParamsConvert.cons_iff] at hBefore
                    exact absurd hBefore.1 hNone
          | some c =>
              have hSome : a.ConvertsTo T how b := ⟨c, hFirst⟩
              have hShift :
                  (∃ k p q,
                    (a :: as)[k]? = some p ∧
                      (b :: bs)[k]? = some q ∧
                      ¬p.ConvertsTo T how q ∧
                      ParamsConvert T how ((a :: as).take k)
                        (b :: bs) ∧
                      e = .mismatch (some (i + k)) p q) ↔
                    planParams T how (i + 1) as bs = .error e := by
                rw [ih]
                constructor
                · rintro ⟨k, p, q, hp, hq, hNone, hBefore, hEq⟩
                  cases k with
                  | zero =>
                      cases hp
                      cases hq
                      exact absurd hSome hNone
                  | succ k =>
                      rw [List.take_succ_cons,
                        ParamsConvert.cons_iff] at hBefore
                      have hIndex : i + 1 + k = i + (k + 1) := by
                        omega
                      rw [← hIndex] at hEq
                      exact
                        ⟨k, p, q, hp, hq, hNone, hBefore.2, hEq⟩
                · rintro ⟨k, p, q, hp, hq, hNone, hBefore, hEq⟩
                  have hIndex : i + 1 + k = i + (k + 1) := by
                    omega
                  rw [hIndex] at hEq
                  refine ⟨k + 1, p, q, hp, hq, hNone, ?_, hEq⟩
                  rw [List.take_succ_cons, ParamsConvert.cons_iff]
                  exact ⟨hSome, hBefore⟩
              rw [hShift]
              cases planParams T how (i + 1) as bs with
              | error f => rfl
              | ok ds => simp

------------------------------------------------------------
-- Plans of Signatures
------------------------------------------------------------

theorem planSignature_eq_ok_iff :
    planSignature T caller callee how = .ok p ↔
      p.Converts T how caller callee := by
  unfold planSignature
  constructor
  · intro hOk
    split at hOk
    · cases hOk
    · rename_i hCount
      split at hOk
      · cases hOk
      · rename_i cs hParams
        split at hOk
        · cases hOk
        · rename_i c hRet
          cases hOk
          exact
            ⟨not_not.1 hCount, planParams_eq_ok_iff.1 hParams, hRet⟩
  · rintro ⟨hCount, hParams, hRet⟩
    rw [if_neg (not_not.2 hCount),
      planParams_eq_ok_iff.2 hParams, hRet]

theorem exists_plan_iff :
    (∃ p, planSignature T caller callee how = .ok p) ↔
      caller.Convertible T how callee := by
  constructor
  · rintro ⟨p, hp⟩
    rcases planSignature_eq_ok_iff.1 hp with ⟨hCount, hAll, hRet⟩
    have hPlan := (planParams_eq_ok_iff (i := 0)).2 hAll
    exact
      ⟨hCount, exists_planParams_iff.1 ⟨_, hPlan⟩, _, hRet⟩
  · rintro ⟨hCount, hAll, c, hRet⟩
    rcases (exists_planParams_iff (i := 0)).2 hAll with ⟨cs, hcs⟩
    exact
      ⟨⟨cs, c⟩,
        planSignature_eq_ok_iff.2
          ⟨hCount, planParams_eq_ok_iff.1 hcs, hRet⟩⟩

theorem planSignature_eq_error_iff :
    planSignature T caller callee how = .error e ↔
      caller.Clash T how callee e := by
  unfold planSignature
  by_cases hCount : caller.count = callee.count
  · rw [if_neg (not_not.2 hCount)]
    cases hPlan :
        planParams T how 0 caller.params callee.params with
    | error f =>
        rcases planParams_eq_error_iff.1 hPlan with
          ⟨k, p, q, hp, hq, hNone, hBefore, rfl⟩
        rw [Nat.zero_add] at hPlan
        constructor
        · intro hError
          cases hError
          rw [Nat.zero_add]
          exact .param k p q hCount hp hq hNone hBefore
        · intro hClash
          cases hClash with
          | arity hNe => exact absurd hCount hNe
          | param j p' q' _ hp' hq' hNone' hBefore' =>
              have hPlan' :=
                (planParams_eq_error_iff (i := 0)).2
                  ⟨j, p', q', hp', hq', hNone', hBefore', rfl⟩
              rw [hPlan', Nat.zero_add] at hPlan
              cases hPlan
              rw [Nat.zero_add]
          | ret _ hAll _ =>
              rcases (exists_planParams_iff (i := 0)).2 hAll with
                ⟨cs, hcs⟩
              rw [hcs] at hPlan
              cases hPlan
    | ok cs =>
        have hAll := exists_planParams_iff.1 ⟨cs, hPlan⟩
        dsimp only
        cases hRet : classify T callee.ret caller.ret how with
        | none =>
            constructor
            · intro hError
              cases hError
              exact .ret hCount hAll (Ty.not_convertsTo.2 hRet)
            · intro hClash
              cases hClash with
              | arity hNe => exact absurd hCount hNe
              | param j p q _ hp hq hNone _ =>
                  exact absurd (hAll j p q hp hq) hNone
              | ret _ _ _ => rfl
        | some c =>
            constructor
            · intro hError
              cases hError
            · intro hClash
              cases hClash with
              | arity hNe => exact absurd hCount hNe
              | param j p q _ hp hq hNone _ =>
                  exact absurd (hAll j p q hp hq) hNone
              | ret _ _ hNone => exact absurd ⟨c, hRet⟩ hNone
  · rw [if_pos hCount]
    constructor
    · intro hError
      cases hError
      exact .arity hCount
    · intro hClash
      cases hClash with
      | arity _ => rfl
      | param _ _ _ hEq => exact absurd hEq hCount
      | ret hEq => exact absurd hEq hCount

------------------------------------------------------------
-- Plans that Keep a Signature
------------------------------------------------------------

/- The plan that leaves a number of arguments and the result. -/
def Plan.same (n : Nat) : Plan :=
  ⟨List.replicate n .identity, .identity⟩

theorem classify_self
    (T : ClassTable)
    (a : Ty)
    (how : Strength) :
    classify T a a how = some .identity :=
  if_pos rfl

theorem planParams_self
    (T : ClassTable)
    (how : Strength)
    (i : Nat)
    (as : List Ty) :
    planParams T how i as as =
      .ok (List.replicate as.length .identity) := by
  induction as generalizing i with
  | nil => rfl
  | cons a as ih =>
      unfold planParams
      rw [classify_self, ih]
      rfl

theorem planSignature_self
    (T : ClassTable)
    (s : Signature)
    (how : Strength) :
    planSignature T s s how = .ok (.same s.count) := by
  unfold planSignature
  rw [if_neg (not_not.2 rfl), planParams_self]
  dsimp only
  rw [classify_self]
  rfl

end Linkage
