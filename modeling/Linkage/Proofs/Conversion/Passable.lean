import Linkage.Proofs.Conversion.Soundness
import Mathlib.Data.List.Forall2

/-
  Types with a value that converts.  An implicit conversion
  between two types lets some value of the first through,
  with one exception: a number converts to a `char` by its
  type, but no box of a number holds a `char`, and no other
  kind widens to it.

  Key definitions include:
    * `ClassTable.KeepsWellKnown`
    * `Heap.Supplies`
    * `Ty.Clogs`
    * `Conversion.Passes`
    * `Heap.Feeds`

  Key theorems include:
    * `unboxValue_number_char`
    * `passes_of_classify`
    * `feeds_of_plan`
-/

------------------------------------------------------------
-- Well-Known Classes
------------------------------------------------------------

namespace Linkage

namespace ClassTable

variable {T : ClassTable}
variable {n : ClassName}
variable {k : Kind}

/- The well-known classes are in a table, as they are known. -/
def KeepsWellKnown (T : ClassTable) : Prop :=
  ∀ n c, wellKnown.find? n = some c → T.find? n = some c

theorem KeepsWellKnown.parents_eq
    (hKeeps : T.KeepsWellKnown)
    (hKnown : wellKnown.contains n = true) :
    T.parents n = wellKnown.parents n := by
  rcases Option.isSome_iff_exists.1 hKnown with ⟨c, hFind⟩
  unfold parents
  rw [hFind, hKeeps n c hFind]

theorem KeepsWellKnown.plainRoots
    (hKeeps : T.KeepsWellKnown) :
    T.PlainRoots := by
  intro n hn m hm
  have hKnown : wellKnown.contains n = true := by
    simp only [isArraySupertype, decide_eq_true_eq] at hn
    rcases hn with rfl | rfl | rfl
    · decide +kernel
    · decide +kernel
    · decide +kernel
  rw [hKeeps.parents_eq hKnown] at hm
  exact plainRoots_wellKnown n hn m hm

/- The boxes of numbers are numbers; that of `char` is none. -/
theorem KeepsWellKnown.box_isNumber
    (hKeeps : T.KeepsWellKnown)
    (hNumeric : k.isNumeric = true)
    (hChar : k ≠ .char) :
    T.isSubclass k.box .number = true := by
  have hEdge :
      wellKnown.contains k.box = true ∧
        ClassName.number ∈ wellKnown.parents k.box := by
    cases k with
    | boolean => cases hNumeric
    | void => cases hNumeric
    | char => exact absurd rfl hChar
    | _ =>
        constructor
        · decide +kernel
        · decide +kernel
  rw [← hKeeps.parents_eq hEdge.1] at hEdge
  exact isSubclass_eq_true_iff.2 (Or.inr (.single hEdge.2))

end ClassTable

------------------------------------------------------------
-- Values at Hand
------------------------------------------------------------

/-
  Values that can be had from a heap: those that are no
  objects, and new boxes, which are put into it one by one.
-/
inductive Heap.Supplies :
    Heap → List Value → Heap → Prop where
| nil (h : Heap) :
    Supplies h [] h
| plain {h h' : Heap} {v : Value} {vs : List Value}
    (hPlain : v.object? = none)
    (hRest : Supplies h vs h') :
    Supplies h (v :: vs) h'
| box {h h' : Heap} {vs : List Value}
    (p : Prim)
    (hRest : Supplies (h.allocBox p).2 vs h') :
    Supplies h (.ref (h.allocBox p).1 :: vs) h'

/-
  A slot that no value gets through: a number is taken for a
  `char`.
-/
def Ty.Clogs (a b : Ty) : Prop :=
  a = .cls .number ∧ b = .prim .char

instance (a b : Ty) : Decidable (a.Clogs b) :=
  inferInstanceAs (Decidable (_ ∧ _))

variable {T : ClassTable}
variable {a b : Ty}
variable {k : Kind}
variable {c : Conversion}

/- Such a slot is planned, though. -/
theorem Ty.Clogs.classify_eq
    (T : ClassTable)
    (hClogs : a.Clogs b) :
    classify T a b .implicit =
      some (.unbox .number .char .implicit) := by
  rcases hClogs with ⟨rfl, rfl⟩
  rfl

/- No box of a number holds a value that widens to a `char`. -/
theorem unboxValue_number_char
    (v w : Value) :
    unboxValue .number .char .implicit v ≠ .ok w := by
  have hVoid : Kind.char ≠ .void := by decide
  intro hOk
  have hAdmits :=
    (unboxValue_succeeds_iff .empty v .number .implicit hVoid).1
      ⟨w, hOk⟩
  rcases hAdmits with ⟨o, p, _, _, hSource, hKind⟩
  rw [isSome_classify_prim _ _ p.kind_ne_void hVoid] at hKind
  rcases hKind with hHow | hReaches
  · cases hHow
  · have hNone :
        ∀ k : Kind, k.reaches .char = true →
          UnboxSource.number.admits k = false := by
      intro k
      cases k <;> decide
    rw [hNone _ hReaches] at hSource
    cases hSource

theorem Prim.exists_of_kind
    (hVoid : k ≠ .void) :
    ∃ p : Prim, p.kind = k := by
  cases k with
  | void => exact absurd rfl hVoid
  | boolean => exact ⟨.boolean false, rfl⟩
  | byte => exact ⟨.byte 0, rfl⟩
  | short => exact ⟨.short 0, rfl⟩
  | char => exact ⟨.char 0, rfl⟩
  | int => exact ⟨.int 0, rfl⟩
  | long => exact ⟨.long 0, rfl⟩
  | float => exact ⟨.float 0, rfl⟩
  | double => exact ⟨.double 0, rfl⟩

------------------------------------------------------------
-- Values that Pass
------------------------------------------------------------

/-
  A value of the first type that the conversion admits.  It
  is no object, or it is any box of some value.
-/
inductive Conversion.Passes
    (T : ClassTable)
    (a : Ty)
    (c : Conversion) : Prop where
| plain
    (v : Value)
    (hPlain : v.object? = none)
    (hConforms : v.conforms T a = true)
    (hAdmits : c.Admits T v)
| box
    (p : Prim)
    (hAll :
      ∀ o : Obj, o.shape = .boxed p →
        (Value.ref o).conforms T a = true ∧
          c.Admits T (.ref o))

/- A box of a kind passes where the kind reaches the target. -/
theorem Conversion.Passes.of_kind
    {source : UnboxSource}
    {j : Kind}
    (hj : j ≠ .void)
    (hk : k ≠ .void)
    (hBox : T.isAssignable (.cls j.box) a = true)
    (hSource : source.admits j = true)
    (hReaches : j.reaches k = true) :
    Passes T a (.unbox source k .implicit) := by
  rcases Prim.exists_of_kind hj with ⟨p, rfl⟩
  refine .box p ?_
  intro o hShape
  have hType : o.type = .cls p.kind.box := by
    unfold Obj.type
    rw [hShape]
    rfl
  have hBoxed : o.boxed? = some p := by
    unfold Obj.boxed?
    rw [hShape]
  have hKind :=
    (isSome_classify_prim T .implicit hj hk).2 (Or.inr hReaches)
  refine ⟨?_, o, p, rfl, hBoxed, hSource, hKind⟩
  change T.isAssignable o.type a = true
  rw [hType]
  exact hBox

/-
  For `Object` and `Number` a box of the very kind passes, for
  a box class a box of its own kind.
-/
theorem passes_of_classifyUnbox
    (hKeeps : T.KeepsWellKnown)
    (hClass : classifyUnbox a k .implicit = some c)
    (hVoid : k ≠ .void)
    (hFree : ¬a.Clogs (.prim k)) :
    c.Passes T a := by
  have hSelf (j : Kind) : j.reaches j = true := by
    simp [Kind.reaches]
  unfold classifyUnbox at hClass
  split at hClass
  · rename_i hObject
    cases hClass
    rw [hObject]
    exact
      .of_kind hVoid hVoid (T.isSubclass_object k.box) rfl
        (hSelf k)
  · split at hClass
    · rename_i hNumber
      split at hClass
      · rename_i hNumeric
        cases hClass
        have hNumeric' : k.isNumeric = true := by
          simpa using hNumeric
        have hChar : k ≠ .char := by
          rintro rfl
          exact hFree ⟨hNumber, rfl⟩
        have hSource : UnboxSource.number.admits k = true := by
          simp [UnboxSource.admits, hNumeric', hChar]
        rw [hNumber]
        exact
          .of_kind hVoid hVoid
            (hKeeps.box_isNumber hNumeric' hChar) hSource (hSelf k)
      · cases hClass
    · split at hClass
      · cases hClass
      · cases hClass
      · rename_i j hj hBoxed
        split at hClass
        · rename_i hReaches
          cases hClass
          have hReaches' : j.reaches k = true := by
            simpa using hReaches
          have hSource : (UnboxSource.box j).admits j = true := by
            simp [UnboxSource.admits]
          have hBox : T.isAssignable (.cls j.box) a = true := by
            cases a with
            | prim i => cases hBoxed
            | array e => cases hBoxed
            | cls n =>
                rw [Kind.box_of_boxedKind? hBoxed]
                exact T.isAssignable_refl (.cls n)
          exact .of_kind hj hVoid hBox hSource hReaches'
        · cases hClass

/-
  Every conversion apart from unboxing lets the zero of its
  source through.
-/
theorem passes_of_classify
    (hKeeps : T.KeepsWellKnown)
    (hClass : classify T a b .implicit = some c)
    (hFree : ¬a.Clogs b) :
    c.Passes T a := by
  have hZero : c.Admits T (.zero a) → c.Passes T a := by
    intro hAdmits
    refine .plain (.zero a) ?_ (Value.conforms_zero T a) hAdmits
    cases a with
    | prim k => cases k <;> rfl
    | cls n => rfl
    | array e => rfl
  cases chosen_of_classify hClass with
  | unbox source _ hRef hVoid =>
      refine passes_of_classifyUnbox hKeeps ?_ hVoid hFree
      rw [← hClass]
      cases a with
      | prim k => cases hRef
      | cls n => simp [classify]
      | array e => simp [classify]
  | _ => exact hZero trivial

/-
  A heap supplies values of given types that given
  conversions admit.
-/
def Heap.Feeds
    (T : ClassTable)
    (as : List Ty)
    (cs : List Conversion)
    (h : Heap) : Prop :=
  ∃ vs h', h.Supplies vs h' ∧
    List.Forall₂ (fun v a => Value.conforms T v a = true) vs as ∧
    List.Forall₂ (fun c v => Conversion.Admits T v c) cs vs

/- A value that passes is at hand, or it is a new box. -/
theorem Conversion.Passes.feeds
    {as : List Ty}
    {cs : List Conversion}
    (hPasses : c.Passes T a)
    (hRest : ∀ h, Heap.Feeds T as cs h)
    (h : Heap) :
    h.Feeds T (a :: as) (c :: cs) := by
  cases hPasses with
  | plain v hPlain hConforms hAdmits =>
      rcases hRest h with ⟨vs, h', hSupplies, hValues, hAll⟩
      exact
        ⟨v :: vs, h', .plain hPlain hSupplies,
          .cons hConforms hValues, .cons hAdmits hAll⟩
  | box p hBox =>
      rcases hRest (h.allocBox p).2 with
        ⟨vs, h', hSupplies, hValues, hAll⟩
      rcases hBox (h.allocBox p).1 rfl with ⟨hConforms, hAdmits⟩
      exact
        ⟨_, h', .box p hSupplies, .cons hConforms hValues,
          .cons hAdmits hAll⟩

/-
  Parameters that convert have arguments that pass all the
  conversions, if no slot is clogged.  The arguments are
  supplied by any heap.
-/
theorem feeds_of_plan
    {as bs : List Ty}
    {cs : List Conversion}
    (hKeeps : T.KeepsWellKnown)
    (hPlan :
      List.Forall₂
        (fun (p : Ty × Ty) c =>
          classify T p.1 p.2 .implicit = some c)
        (as.zip bs) cs)
    (hCount : as.length = bs.length)
    (hFree : ∀ p ∈ as.zip bs, ¬p.1.Clogs p.2)
    (h : Heap) :
    h.Feeds T as cs := by
  induction as generalizing bs cs h with
  | nil =>
      rw [List.zip_nil_left] at hPlan
      cases hPlan
      exact ⟨[], h, .nil h, .nil, .nil⟩
  | cons a as ih =>
      cases bs with
      | nil => cases hCount
      | cons b bs =>
          rw [List.zip_cons_cons] at hPlan hFree
          cases hPlan with
          | cons hFirst hRest =>
              have hPasses :=
                passes_of_classify hKeeps hFirst
                  (hFree (a, b) List.mem_cons_self)
              refine hPasses.feeds ?_ h
              refine ih hRest (Nat.succ.inj hCount) ?_
              intro p hp
              exact hFree p (List.mem_cons_of_mem _ hp)

end Linkage
