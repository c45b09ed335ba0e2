import Linkage.Conversion.Apply
import Linkage.Proofs.ClassTable

/-
  What conversions do.  A conversion that was chosen for two
  types makes values of the second type out of values of the
  first, an unchecked cast apart, or refuses them.  It leaves
  the heap as it is or puts one box into it.

  Key definitions include:
    * `Conversion.Checks`
    * `Boxed`
    * `Conversion.Chosen`
    * `Conversion.Outcome`
    * `Conversion.Fails`

  Key theorems include:
    * `chosen_of_classify`
    * `Conversion.Chosen.outcome`
    * `Conversion.apply_conforms`
    * `Conversion.apply_boxed`
    * `Conversion.apply_heap`
    * `convertConstant_eq`
    * `Conversion.apply_fails`
-/

------------------------------------------------------------
-- Values of Types
------------------------------------------------------------

namespace Linkage

variable {T : ClassTable}
variable {v w : Value}
variable {s t : Ty}
variable {k : Kind}

theorem Ty.isRef_of_not_prim
    (hPrim : ∀ k, t = .prim k → False) :
    t.IsRef = true := by
  cases t with
  | prim k => exact absurd rfl (hPrim k)
  | cls n => rfl
  | array c => rfl

theorem Value.conforms_zero
    (T : ClassTable)
    (t : Ty) :
    (Value.zero t).conforms T t = true := by
  cases t with
  | prim k => cases k <;> rfl
  | cls n => rfl
  | array c => rfl

/- The types of primitive values are their kinds. -/
theorem Value.conforms_prim
    (hValue : v.conforms T (.prim k) = true)
    (hVoid : k ≠ .void) :
    ∃ p : Prim, v = .prim p ∧ p.kind = k := by
  cases v with
  | void =>
      have hEq : Ty.prim k = .void := of_decide_eq_true hValue
      cases hEq
      exact absurd rfl hVoid
  | null => cases hValue
  | prim p =>
      have hEq : Ty.prim k = .prim p.kind :=
        of_decide_eq_true hValue
      cases hEq
      exact ⟨p, rfl, rfl⟩
  | ref o =>
      have hAssign : T.isAssignable o.type (.prim k) = true :=
        hValue
      unfold Obj.type at hAssign
      cases hShape : o.shape with
      | _ =>
          rw [hShape] at hAssign
          simp [Shape.type, ClassTable.isAssignable, Ty.string,
            Ty.methodHandle] at hAssign

/- A value of a reference type is null or an object. -/
theorem Value.conforms_ref
    (hValue : v.conforms T t = true)
    (hRef : t.IsRef = true) :
    v = .null ∨
      ∃ o, v = .ref o ∧ T.isAssignable o.type t = true := by
  cases v with
  | void =>
      have hEq : t = .void := of_decide_eq_true hValue
      rw [hEq] at hRef
      cases hRef
  | null => exact Or.inl rfl
  | prim p =>
      have hEq : t = .prim p.kind := of_decide_eq_true hValue
      rw [hEq] at hRef
      cases hRef
  | ref o => exact Or.inr ⟨o, rfl, hValue⟩

/- A value is of every type to which its own is assigned. -/
theorem Value.conforms_of_type?
    (hType : v.type? = some s)
    (hAssign : T.isAssignable s t = true) :
    v.conforms T t = true := by
  cases v with
  | void =>
      cases hType
      cases t with
      | prim k =>
          cases of_decide_eq_true hAssign
          rfl
      | cls n => cases hAssign
      | array c => cases hAssign
  | null => cases hType
  | prim p =>
      cases hType
      cases t with
      | prim k =>
          cases of_decide_eq_true hAssign
          exact decide_eq_true rfl
      | cls n => cases hAssign
      | array c => cases hAssign
  | ref o =>
      cases hType
      exact hAssign

/- A value of a type is one of every type above. -/
theorem Value.conforms_trans
    (hTrans : T.Transitive)
    (hAssign : T.isAssignable s t = true)
    (hValue : v.conforms T s = true) :
    v.conforms T t = true := by
  cases v with
  | void =>
      have hEq : s = .void := of_decide_eq_true hValue
      subst hEq
      exact conforms_of_type? rfl hAssign
  | null => exact ClassTable.isRef_of_isAssignable hAssign hValue
  | prim p =>
      have hEq : s = .prim p.kind := of_decide_eq_true hValue
      subst hEq
      exact conforms_of_type? rfl hAssign
  | ref o => exact hTrans _ _ _ hValue hAssign

theorem Value.eq_null_or_ref
    (hValue : v.conforms T t = true)
    (hRef : t.IsRef = true) :
    v = .null ∨ ∃ o, v = .ref o := by
  rcases conforms_ref hValue hRef with hNull | ⟨o, ho, _⟩
  · exact Or.inl hNull
  · exact Or.inr ⟨o, ho⟩

/- The low digits of an integral value have their kind. -/
theorem Prim.kind_ofIntegral
    {n : Int64}
    {q : Prim}
    (h : Prim.ofIntegral n k = some q) :
    q.kind = k := by
  cases k <;> simp only [ofIntegral, Option.some.injEq,
    reduceCtorEq] at h <;> rw [← h] <;> rfl

theorem Prim.kind_ofWide
    {bits : UInt64}
    {q : Prim}
    (h : Prim.ofWide bits k = some q) :
    q.kind = k := by
  cases k <;> simp only [ofWide, Option.some.injEq,
    reduceCtorEq] at h <;> rw [← h] <;> rfl

theorem Prim.kind_cast
    {p q : Prim}
    (h : p.cast k = some q) :
    q.kind = k := by
  unfold Prim.cast at h
  split at h
  · rename_i hKind
    rw [← Option.some.inj h]
    exact hKind
  · split at h
    · exact kind_ofWide h
    · exact kind_ofIntegral h
    · cases h

/- A primitive value has a cast to every kind but `void`. -/
theorem Prim.cast_isSome
    (p : Prim)
    (hVoid : k ≠ .void) :
    (p.cast k).isSome := by
  unfold Prim.cast
  split
  · rfl
  · cases k with
    | void => exact absurd rfl hVoid
    | _ => cases p <;> rfl

/- A cast to a kind gives a value of this kind. -/
theorem Value.cast?_conforms
    {p : Prim}
    (T : ClassTable)
    (hVoid : k ≠ .void)
    (hCast : (Value.prim p).cast? k = some w) :
    w.conforms T (.prim k) = true := by
  unfold Value.cast? at hCast
  dsimp only at hCast
  cases hPrim : p.cast k with
  | none =>
      have hSome := p.cast_isSome hVoid
      rw [hPrim] at hSome
      cases hSome
  | some q =>
      rw [hPrim] at hCast
      rw [← Option.some.inj hCast, ← Prim.kind_cast hPrim]
      exact decide_eq_true rfl

/- No cast gives an object. -/
theorem Value.cast?_plain
    (hCast : v.cast? k = some w) :
    w.object? = none := by
  unfold Value.cast? at hCast
  split at hCast
  · split at hCast
    · rw [← Option.some.inj hCast]
      rfl
    · rw [← Option.some.inj hCast]
      rfl
  · split at hCast
    · rw [← Option.some.inj hCast]
      rfl
    · cases hCast

------------------------------------------------------------
-- Single Conversions
------------------------------------------------------------

/- The conversion looks at the values that it passes. -/
def Conversion.Checks : Conversion → Prop
| .uncheckedCast _ => False
| _ => True

/- The conversion takes its result out of a box. -/
def Conversion.Unboxes : Conversion → Prop
| .unbox _ _ _ => True
| _ => False

/-
  A heap and a result: the heap is as before and the result
  no new object, or the result is a new box.
-/
inductive Boxed
    (h : Heap)
    (v w : Value) : Heap → Prop
| same : w = v → Boxed h v w h
| plain : w.object? = none → Boxed h v w h
| box (p : Prim) :
    w = .ref (h.allocBox p).1 →
    Boxed h v w (h.allocBox p).2

variable {c : Conversion}
variable {how : Strength}
variable {h h' : Heap}

theorem checkCast_eq
    (hCheck : checkCast T v t = .ok w) :
    w = v := by
  unfold checkCast at hCheck
  split at hCheck
  · cases hCheck
    rfl
  · split at hCheck
    · cases hCheck
      rfl
    · cases hCheck
  · cases hCheck

/- What is unboxed is the value in some box, as of the kind. -/
theorem unboxValue_eq
    {source : UnboxSource}
    (hUnbox : unboxValue source k how v = .ok w) :
    ∃ p, (Value.prim p).cast? k = some w := by
  unfold unboxValue at hUnbox
  split at hUnbox
  · dsimp only at hUnbox
    split at hUnbox
    · cases hUnbox
    · rename_i p _
      split at hUnbox
      · split at hUnbox
        · rename_i hCast
          cases hUnbox
          exact ⟨p, hCast⟩
        · cases hUnbox
      · cases hUnbox
  · cases hUnbox
  · cases hUnbox

theorem unboxValue_plain
    {source : UnboxSource}
    (hUnbox : unboxValue source k how v = .ok w) :
    w.object? = none := by
  rcases unboxValue_eq hUnbox with ⟨p, hCast⟩
  exact Value.cast?_plain hCast

theorem castValue_eq
    {a b : Kind}
    (hCast : castValue a b v = .ok w) :
    v.cast? b = some w := by
  unfold castValue at hCast
  split at hCast
  · rename_i hPrim
    cases hCast
    exact hPrim
  · cases hCast

theorem castValue_plain
    {a b : Kind}
    (hCast : castValue a b v = .ok w) :
    w.object? = none :=
  Value.cast?_plain (castValue_eq hCast)

/- A box is put at the end of the heap. -/
theorem boxValue_eq
    {o : Obj}
    (hBox : boxValue k v h = (.ok o, h')) :
    ∃ p : Prim,
      p.kind = k ∧ o = (h.allocBox p).1 ∧
        h' = (h.allocBox p).2 := by
  unfold boxValue at hBox
  split at hBox
  · rename_i p
    split at hBox
    · rename_i hKind
      cases hBox
      exact ⟨p, hKind, rfl, rfl⟩
    · cases hBox
  · cases hBox

/- What a conversion may do to the heap. -/
theorem Conversion.apply_boxed
    (hApply : c.apply T v h = (.ok w, h')) :
    Boxed h v w h' := by
  cases c with
  | identity =>
      cases hApply
      exact .same rfl
  | upcast =>
      cases hApply
      exact .same rfl
  | uncheckedCast t =>
      cases hApply
      exact .same rfl
  | zeroValue t =>
      cases hApply
      apply Boxed.plain
      cases t with
      | prim k => cases k <;> rfl
      | cls n => rfl
      | array c => rfl
  | discard =>
      cases hApply
      exact .plain rfl
  | widen a b =>
      simp only [apply, Prod.mk.injEq] at hApply
      rcases hApply with ⟨hCast, rfl⟩
      exact .plain (castValue_plain hCast)
  | narrow a b =>
      simp only [apply, Prod.mk.injEq] at hApply
      rcases hApply with ⟨hCast, rfl⟩
      exact .plain (castValue_plain hCast)
  | unbox s k how =>
      simp only [apply, Prod.mk.injEq] at hApply
      rcases hApply with ⟨hUnbox, rfl⟩
      exact .plain (unboxValue_plain hUnbox)
  | cast t =>
      simp only [apply, Prod.mk.injEq] at hApply
      rcases hApply with ⟨hCheck, rfl⟩
      exact .same (checkCast_eq hCheck)
  | box k t =>
      unfold apply at hApply
      dsimp only at hApply
      split at hApply
      · cases hApply
      · rename_i o h'' hBox
        rcases boxValue_eq hBox with ⟨p, _, rfl, rfl⟩
        cases t with
        | none =>
            cases hApply
            exact .box p rfl
        | some t =>
            simp only [Prod.mk.injEq] at hApply
            rcases hApply with ⟨hCheck, rfl⟩
            exact .box p (checkCast_eq hCheck)

------------------------------------------------------------
-- Chosen Conversions
------------------------------------------------------------

/-
  The conversions between two types, with what the choice of
  each one tells of the types and of the strength.
-/
inductive Conversion.Chosen
    (T : ClassTable) :
    Ty → Ty → Strength → Conversion → Prop
| identity (t : Ty) (how : Strength) :
    Chosen T t t how .identity
| zeroValue (t : Ty) (how : Strength) :
    Chosen T .void t how (.zeroValue t)
| discard (s : Ty) (how : Strength) :
    Chosen T s .void how .discard
| widen {a b : Kind} (how : Strength) :
    a ≠ .void → b ≠ .void → a.widensTo b = true →
    Chosen T (.prim a) (.prim b) how (.widen a b)
| narrow {a b : Kind} :
    a ≠ .void → b ≠ .void → a.widensTo b = false →
    Chosen T (.prim a) (.prim b) .explicit (.narrow a b)
| box {k : Kind} {t : Ty} (how : Strength) :
    k ≠ .void → t.IsRef = true →
    T.isAssignable (.cls k.box) t = true →
    Chosen T (.prim k) t how (.box k none)
| boxCast {k : Kind} {t : Ty} :
    k ≠ .void → t.IsRef = true →
    T.isAssignable (.cls k.box) t = false →
    Chosen T (.prim k) t .explicit (.box k (some t))
| unbox {s : Ty} {k : Kind}
    (source : UnboxSource) (how : Strength) :
    s.IsRef = true → k ≠ .void →
    Chosen T s (.prim k) how (.unbox source k how)
| upcast {s t : Ty} (how : Strength) :
    s.IsRef = true → t.IsRef = true →
    T.isAssignable s t = true →
    Chosen T s t how .upcast
| cast {s t : Ty} :
    s.IsRef = true → t.IsRef = true →
    T.isAssignable s t = false →
    Chosen T s t .explicit (.cast t)
| uncheckedCast {s : Ty} {n : ClassName} :
    s.IsRef = true → T.isInterface n = true →
    T.isAssignable s (.cls n) = false →
    Chosen T s (.cls n) .explicit (.uncheckedCast (.cls n))

variable {source target : Kind}

theorem chosen_of_classifyPrim
    (hClass : classifyPrim source target how = some c)
    (hSource : source ≠ .void)
    (hTarget : target ≠ .void) :
    c.Chosen T (.prim source) (.prim target) how := by
  unfold classifyPrim at hClass
  by_cases hWidens : source.widensTo target = true
  · rw [if_pos hWidens] at hClass
    cases hClass
    exact .widen how hSource hTarget hWidens
  · rw [if_neg hWidens] at hClass
    cases how with
    | implicit => cases hClass
    | explicit =>
        cases hClass
        exact .narrow hSource hTarget (by simpa using hWidens)

theorem chosen_of_classifyBox
    (hClass : classifyBox T source t how = some c)
    (hSource : source ≠ .void)
    (hRef : t.IsRef = true) :
    c.Chosen T (.prim source) t how := by
  unfold classifyBox at hClass
  by_cases hAssign : T.isAssignable (.cls source.box) t = true
  · rw [if_pos hAssign] at hClass
    cases hClass
    exact .box how hSource hRef hAssign
  · rw [if_neg hAssign] at hClass
    cases how with
    | implicit => cases hClass
    | explicit =>
        cases hClass
        exact .boxCast hSource hRef (by simpa using hAssign)

/- Unboxing is chosen for its target and strength as asked. -/
theorem classifyUnbox_eq
    (hClass : classifyUnbox s target how = some c) :
    ∃ source, c = .unbox source target how := by
  unfold classifyUnbox at hClass
  split at hClass
  · exact ⟨_, (Option.some.inj hClass).symm⟩
  · split at hClass
    · split at hClass
      · exact ⟨_, (Option.some.inj hClass).symm⟩
      · cases hClass
    · split at hClass
      · cases hClass
      · cases hClass
      · split at hClass
        · exact ⟨_, (Option.some.inj hClass).symm⟩
        · cases hClass

theorem chosen_of_classifyUnbox
    (hClass : classifyUnbox s target how = some c)
    (hRef : s.IsRef = true)
    (hTarget : target ≠ .void) :
    c.Chosen T s (.prim target) how := by
  rcases classifyUnbox_eq hClass with ⟨source, rfl⟩
  exact .unbox source how hRef hTarget

theorem chosen_of_classifyCast
    (hClass : classifyCast T s t how = some c)
    (hSource : s.IsRef = true)
    (hTarget : t.IsRef = true) :
    c.Chosen T s t how := by
  unfold classifyCast at hClass
  by_cases hAssign : T.isAssignable s t = true
  · rw [if_pos hAssign] at hClass
    cases hClass
    exact .upcast how hSource hTarget hAssign
  · rw [if_neg hAssign] at hClass
    have hNot : T.isAssignable s t = false := by
      simpa using hAssign
    cases how with
    | implicit => cases hClass
    | explicit =>
        rw [if_neg nofun] at hClass
        split at hClass
        · rename_i n
          by_cases hInterface : T.isInterface n = true
          · rw [if_pos hInterface] at hClass
            cases hClass
            exact .uncheckedCast hSource hInterface hNot
          · rw [if_neg hInterface] at hClass
            cases hClass
            exact .cast hSource hTarget hNot
        · cases hClass
          exact .cast hSource hTarget hNot

/- Whatever is chosen for two types is listed. -/
theorem chosen_of_classify
    (hClass : classify T s t how = some c) :
    c.Chosen T s t how := by
  unfold classify at hClass
  split at hClass
  · rename_i hEq
    subst hEq
    cases hClass
    exact .identity _ _
  · split at hClass
    · cases hClass
      exact .zeroValue _ _
    · cases hClass
      exact .discard _ _
    · rename_i a b ha hb _
      exact chosen_of_classifyPrim hClass ha hb
    · rename_i a ha _ _ hPrim
      exact
        chosen_of_classifyBox hClass ha
          (Ty.isRef_of_not_prim hPrim)
    · rename_i b hb _ hPrim _
      exact
        chosen_of_classifyUnbox hClass
          (Ty.isRef_of_not_prim hPrim) hb
    · rename_i _ hSource _ hTarget _
      exact
        chosen_of_classifyCast hClass
          (Ty.isRef_of_not_prim hSource)
          (Ty.isRef_of_not_prim hTarget)

/- Implicit conversions look at what they pass. -/
theorem Conversion.checks_of_implicit
    (hClass : classify T s t .implicit = some c) :
    c.Checks := by
  cases chosen_of_classify hClass <;> trivial

------------------------------------------------------------
-- Outcomes
------------------------------------------------------------

/-
  How a conversion of a value to a type may end: the value is
  passed on unseen, a value of the type is made, the value is
  refused, or there is none to unbox.
-/
inductive Conversion.Outcome
    (T : ClassTable)
    (c : Conversion)
    (t : Ty)
    (v : Value) : Except Fault Value → Prop
| passed : ¬c.Checks → Outcome T c t v (.ok v)
| made {w : Value} :
    c.Checks → w.conforms T t = true →
    (c.Unboxes → v ≠ .null) →
    Outcome T c t v (.ok w)
| refused (source : String) (target : Ty) :
    c.isChecked = true → (c.Unboxes → v ≠ .null) →
    Outcome T c t v (.error (.castError source target))
| missing (what : String) :
    c.isChecked = true → c.Unboxes → v = .null →
    Outcome T c t v (.error (.nullReference what))

/- A checked cast looks at the object that it is given. -/
theorem checkCast_outcome
    {u : Value}
    (hRef : t.IsRef = true)
    (hValue : u = .null ∨ ∃ o, u = .ref o)
    (hChecks : c.Checks)
    (hChecked : c.isChecked = true)
    (hUnboxes : ¬c.Unboxes) :
    c.Outcome T t v (checkCast T u t) := by
  have hSome : c.Unboxes → v ≠ .null :=
    fun h => absurd h hUnboxes
  rcases hValue with rfl | ⟨o, rfl⟩
  · exact .made hChecks hRef hSome
  · by_cases hAssign : T.isAssignable o.type t = true
    · simp only [checkCast, if_pos hAssign]
      exact .made hChecks hAssign hSome
    · simp only [checkCast, if_neg hAssign]
      exact .refused _ _ hChecked hSome

/- Only null is no box, and no object to refuse either. -/
theorem unboxValue_outcome
    (source : UnboxSource)
    (hVoid : k ≠ .void)
    (hValue : v = .null ∨ ∃ o, v = .ref o) :
    (Conversion.unbox source k how).Outcome T (.prim k) v
      (unboxValue source k how v) := by
  rcases hValue with rfl | ⟨o, rfl⟩
  · exact .missing _ rfl trivial rfl
  · have hSome :
        (Conversion.unbox source k how).Unboxes →
          Value.ref o ≠ .null :=
      fun _ => nofun
    unfold unboxValue
    dsimp only
    split
    · exact .refused _ _ rfl hSome
    · split
      · split
        · rename_i hCast
          exact
            .made trivial (Value.cast?_conforms T hVoid hCast)
              hSome
        · exact .refused _ _ rfl hSome
      · exact .refused _ _ rfl hSome

/- A primitive value casts to every kind but `void`. -/
theorem castValue_outcome
    {a b : Kind}
    (hValue : v.conforms T (.prim a) = true)
    (ha : a ≠ .void)
    (hb : b ≠ .void)
    (hChecks : c.Checks)
    (hUnboxes : ¬c.Unboxes) :
    c.Outcome T (.prim b) v (castValue a b v) := by
  rcases Value.conforms_prim hValue ha with ⟨p, rfl, _⟩
  rcases Option.isSome_iff_exists.1 (p.cast_isSome hb) with
    ⟨q, hCast⟩
  have hValueCast : (Value.prim p).cast? b = some (.prim q) := by
    simp only [Value.cast?, hCast]
  simp only [castValue, hValueCast]
  exact
    .made hChecks (Value.cast?_conforms T hb hValueCast)
      (fun h => absurd h hUnboxes)

/- A value of a kind is put into a box of the kind. -/
theorem boxValue_prim
    (p : Prim)
    (h : Heap) :
    boxValue p.kind (.prim p) h =
      (.ok (h.allocBox p).1, (h.allocBox p).2) := by
  simp [boxValue]

/-
  How the conversion chosen for two types ends on a value of
  the first.  An upcast relies on what is known of the value.
-/
theorem Conversion.Chosen.outcome
    (hChosen : c.Chosen T s t how)
    (hValue : v.conforms T s = true)
    (hUp : T.isAssignable s t = true → v.conforms T t = true)
    (h : Heap) :
    c.Outcome T t v (c.apply T v h).1 := by
  cases hChosen with
  | identity => exact .made trivial hValue (fun h => h.elim)
  | zeroValue =>
      exact
        .made trivial (Value.conforms_zero T t) (fun h => h.elim)
  | discard => exact .made trivial rfl (fun h => h.elim)
  | widen how ha hb =>
      exact castValue_outcome hValue ha hb trivial id
  | narrow ha hb =>
      exact castValue_outcome hValue ha hb trivial id
  | box how hVoid hRef hAssign =>
      rcases Value.conforms_prim hValue hVoid with ⟨p, rfl, rfl⟩
      simp only [apply, boxValue_prim]
      exact .made trivial hAssign (fun h => h.elim)
  | boxCast hVoid hRef =>
      rcases Value.conforms_prim hValue hVoid with ⟨p, rfl, rfl⟩
      simp only [apply, boxValue_prim]
      exact
        checkCast_outcome hRef (Or.inr ⟨_, rfl⟩) trivial rfl id
  | unbox source how hRef hVoid =>
      exact
        unboxValue_outcome source hVoid
          (Value.eq_null_or_ref hValue hRef)
  | upcast how hSource hTarget hAssign =>
      exact .made trivial (hUp hAssign) (fun h => h.elim)
  | cast hSource hTarget =>
      exact
        checkCast_outcome hTarget
          (Value.eq_null_or_ref hValue hSource) trivial rfl id
  | uncheckedCast => exact .passed id

/-
  The conversion chosen for two types makes values of the
  second out of values of the first.
-/
theorem Conversion.apply_conforms
    (hClass : classify T s t how = some c)
    (hChecks : c.Checks)
    (hValue : v.conforms T s = true)
    (hUp : T.isAssignable s t = true → v.conforms T t = true)
    (hApply : c.apply T v h = (.ok w, h')) :
    w.conforms T t = true := by
  have hOutcome :=
    (chosen_of_classify hClass).outcome hValue hUp h
  rw [hApply] at hOutcome
  cases hOutcome with
  | passed hNot => exact absurd hChecks hNot
  | made _ hConforms => exact hConforms

------------------------------------------------------------
-- Constants
------------------------------------------------------------

/- The conversion of a value from its own type to another. -/
theorem apply_of_type?
    (hType : v.type? = some s)
    (hClass : classify T s t .implicit = some c)
    (hApply : c.apply T v h = (.ok w, h')) :
    w.conforms T t = true ∧ Boxed h v w h' := by
  refine ⟨?_, Conversion.apply_boxed hApply⟩
  have hOwn : v.conforms T s = true :=
    Value.conforms_of_type? hType (T.isAssignable_refl s)
  exact
    Conversion.apply_conforms hClass
      (Conversion.checks_of_implicit hClass) hOwn
      (Value.conforms_of_type? hType) hApply

/-
  A constant that is converted has the wanted type, and at
  most a box was made for it.
-/
theorem convertConstant_eq
    (hConvert : convertConstant T v t h = (some w, h')) :
    w.conforms T t = true ∧ Boxed h v w h' := by
  unfold convertConstant at hConvert
  split at hConvert
  · cases hConvert
  · cases v with
    | void => cases hConvert
    | null =>
        dsimp only at hConvert
        split at hConvert
        · rename_i hRef
          cases hConvert
          exact ⟨hRef, .same rfl⟩
        · cases hConvert
    | prim p | ref o =>
        dsimp only at hConvert
        split at hConvert
        · cases hConvert
        · rename_i s hType
          split at hConvert
          · cases hConvert
          · rename_i c hClass
            split at hConvert
            · rename_i hApply
              cases hConvert
              exact apply_of_type? hType hClass hApply
            · cases hConvert

theorem boxValue_heap
    (k : Kind)
    (v : Value)
    (h : Heap) :
    (boxValue k v h).2 = h ∨
      ∃ p, (boxValue k v h).2 = (h.allocBox p).2 := by
  unfold boxValue
  split
  · rename_i p
    split
    · exact Or.inr ⟨p, rfl⟩
    · exact Or.inl rfl
  · exact Or.inl rfl

/- The heap after a conversion has at most one box more. -/
theorem Conversion.apply_heap
    (T : ClassTable)
    (c : Conversion)
    (v : Value)
    (h : Heap) :
    (c.apply T v h).2 = h ∨
      ∃ p, (c.apply T v h).2 = (h.allocBox p).2 := by
  cases c with
  | box k t =>
      have hBox :
          (apply T (.box k t) v h).2 = (boxValue k v h).2 := by
        unfold apply
        dsimp only
        cases boxValue k v h with
        | mk answer h' =>
            cases answer with
            | error e => rfl
            | ok o =>
                cases t with
                | none => rfl
                | some t => rfl
      rw [hBox]
      exact boxValue_heap k v h
  | _ => exact Or.inl rfl

theorem convertConstant_heap
    (T : ClassTable)
    (v : Value)
    (t : Ty)
    (h : Heap) :
    (convertConstant T v t h).2 = h ∨
      ∃ p, (convertConstant T v t h).2 = (h.allocBox p).2 := by
  unfold convertConstant
  split
  · exact Or.inl rfl
  · cases hv : v with
    | void => exact Or.inl rfl
    | null => exact Or.inl rfl
    | prim p | ref o =>
        dsimp only
        rw [← hv]
        split
        · exact Or.inl rfl
        · split
          · exact Or.inl rfl
          · rename_i c _
            have hHeap := Conversion.apply_heap T c v h
            split
            · rename_i hApply
              rw [hApply] at hHeap
              exact hHeap
            · rename_i hApply
              rw [hApply] at hHeap
              exact hHeap

------------------------------------------------------------
-- Failures
------------------------------------------------------------

/- What can be wrong with a value that is converted. -/
inductive Conversion.Fails : Fault → Prop
| kind (k : Kind) (found : String) :
    Fails (.typeMismatch k.name found)
| unboxed (found : String) :
    Fails (.typeMismatch "a boxed value" found)
| plain {v : Value} (wanted : String) :
    v.object? = none →
    Fails (.typeMismatch wanted v.typeText)
| null (what : String) : Fails (.nullReference what)
| cast (source : String) (t : Ty) : Fails (.castError source t)

variable {f : Fault}

theorem checkCast_fails
    (hCheck : checkCast T v t = .error f) :
    Conversion.Fails f := by
  unfold checkCast at hCheck
  split at hCheck
  · cases hCheck
  · split at hCheck
    · cases hCheck
    · cases hCheck
      exact .cast _ _
  · rename_i hNull hRef
    cases hCheck
    apply Conversion.Fails.plain
    cases v with
    | ref o => exact absurd rfl (hRef o)
    | _ => rfl

theorem castValue_fails
    {a b : Kind}
    (hCast : castValue a b v = .error f) :
    Conversion.Fails f := by
  unfold castValue at hCast
  split at hCast
  · cases hCast
  · cases hCast
    exact .kind a _

theorem unboxValue_fails
    {source : UnboxSource}
    (hUnbox : unboxValue source k how v = .error f) :
    Conversion.Fails f := by
  unfold unboxValue at hUnbox
  split at hUnbox
  · dsimp only at hUnbox
    split at hUnbox
    · cases hUnbox
      exact .cast _ _
    · split at hUnbox
      · split at hUnbox
        · cases hUnbox
        · cases hUnbox
          exact .cast _ _
      · cases hUnbox
        exact .cast _ _
  · cases hUnbox
    exact .null _
  · cases hUnbox
    exact .unboxed _

theorem boxValue_fails
    (hBox : boxValue k v h = (.error f, h')) :
    Conversion.Fails f := by
  unfold boxValue at hBox
  split at hBox
  · split at hBox
    · cases hBox
    · cases hBox
      exact .kind k _
  · cases hBox
    exact .kind k _

/- How a conversion fails. -/
theorem Conversion.apply_fails
    (hApply : (c.apply T v h).1 = .error f) :
    Fails f := by
  cases c with
  | identity => cases hApply
  | upcast => cases hApply
  | uncheckedCast t => cases hApply
  | zeroValue t => cases hApply
  | discard => cases hApply
  | widen a b => exact castValue_fails hApply
  | narrow a b => exact castValue_fails hApply
  | cast t => exact checkCast_fails hApply
  | unbox s k how => exact unboxValue_fails hApply
  | box k t =>
      unfold apply at hApply
      dsimp only at hApply
      split at hApply
      · rename_i hBox
        cases hApply
        exact boxValue_fails hBox
      · split at hApply
        · cases hApply
        · dsimp only at hApply
          exact checkCast_fails hApply

end Linkage
