import Linkage.Proofs.ClassTable
import Linkage.Proofs.Conversion
import Linkage.Proofs.Heap
import Linkage.Proofs.Link.Makes

/-
  Typed heaps.  A store says which objects and call sites are
  in play, and of which shape the objects are; what is not in
  play may be ill-typed.  In a heap that is typed for a store
  the elements of arrays and the cells of fields are values
  of their declared types, and everything that they hold is
  in play again.

  Key definitions include:
    * `Store`
    * `Layout`
    * `Value.Fits`
    * `Target.Good`
    * `Heap.Typed`

  Key theorems include:
    * `Target.Good.retyped`
    * `Heap.Typed.alloc`
    * `Heap.Typed.setElement`
    * `Heap.Typed.storeCell`
-/

------------------------------------------------------------
-- Stores
------------------------------------------------------------

namespace Linkage

/-
  The objects in play, by number and with their shapes, and
  the call sites in play.
-/
structure Store where
  shape : Nat → Option Shape
  sites : Nat → Prop

/-
  A later store has more objects in play, and the same call
  sites: these are made before a run, and never in it.
-/
instance : Preorder Store where
  le S U :=
    (∀ i s, S.shape i = some s → U.shape i = some s) ∧
      U.sites = S.sites
  le_refl S := ⟨fun _ _ h => h, rfl⟩
  le_trans _ _ _ hSU hUV :=
    ⟨fun i s h => hUV.1 i s (hSU.1 i s h), hUV.2.trans hSU.2⟩

/- One more object. -/
def Store.add
    (S : Store)
    (i : Nat)
    (s : Shape) : Store :=
  { S with shape := fun j => if j = i then some s else S.shape j }

/-
  The declared types of cells: those of instances, by class
  and offset, and those of static fields, by place.
-/
structure Layout where
  field : ClassName → Nat → Option Ty
  static : CellRef → Option Ty

variable {T : ClassTable}
variable {L : Layout}
variable {S U : Store}
variable {h : Heap}
variable {v w : Value}
variable {p q : Ty}

theorem Store.le_add
    {i : Nat}
    (s : Shape)
    (hNew : S.shape i = none) :
    S ≤ S.add i s := by
  refine ⟨?_, rfl⟩
  intro j s' hShape
  unfold Store.add
  dsimp only
  split
  · rename_i hEq
    rw [hEq, hNew] at hShape
    cases hShape
  · exact hShape

------------------------------------------------------------
-- Values in Play
------------------------------------------------------------

/- The object of a value is in play, if it has one. -/
def Value.In
    (S : Store)
    (v : Value) : Prop :=
  ∀ o, v = .ref o → S.shape o.id = some o.shape

/- A value of a type whose object is in play. -/
structure Value.Fits
    (T : ClassTable)
    (S : Store)
    (v : Value)
    (t : Ty) : Prop where
  conforms : v.conforms T t = true
  inPlay : v.In S

/- Values of the types of a list, one by one. -/
abbrev ArgsFit
    (T : ClassTable)
    (S : Store) : List Value → List Ty → Prop :=
  List.Forall₂ (Value.Fits T S)

theorem Value.in_of_plain
    (hPlain : v.object? = none) :
    v.In S := by
  intro o hEq
  rw [hEq] at hPlain
  cases hPlain

theorem Value.In.later
    (hIn : v.In S)
    (hLe : S ≤ U) :
    v.In U := by
  intro o hEq
  exact hLe.1 o.id o.shape (hIn o hEq)

theorem Value.Fits.later
    (hFits : v.Fits T S p)
    (hLe : S ≤ U) :
    v.Fits T U p :=
  ⟨hFits.conforms, hFits.inPlay.later hLe⟩

theorem ArgsFit.later
    {vs : List Value}
    {ts : List Ty}
    (hFit : ArgsFit T S vs ts)
    (hLe : S ≤ U) :
    ArgsFit T U vs ts :=
  hFit.imp (fun _ _ hFits => hFits.later hLe)

theorem Value.Fits.up
    (hFits : v.Fits T S p)
    (hRoots : T.PlainRoots)
    (hAssign : T.isAssignable p q = true) :
    v.Fits T S q :=
  ⟨Value.conforms_trans hRoots.transitive hAssign hFits.conforms,
    hFits.inPlay⟩

------------------------------------------------------------
-- Targets in Play
------------------------------------------------------------

/- The conversions of a form. -/
def Form.conversions
    {α : Type} : Form α → List Conversion
| .convertArguments _ cs => cs
| .convertReturn _ c => [c]
| _ => []

/-
  A form without unchecked casts, whose values and call sites
  are in play.
-/
structure Form.Good
    (S : Store)
    (form : Form Target) : Prop where
  checks : ∀ k ∈ form.conversions, k.Checks
  values : ∀ v ∈ form.values, v.In S
  sites : ∀ i ∈ form.sites, S.sites i.index

/- The forms of a target and of all it delegates to are good. -/
inductive Target.Good (S : Store) : Target → Prop
| node {t : Target} :
    t.form.Good S →
    (∀ u, u ∈ t.wrapped → Target.Good S u) →
    Target.Good S t

variable {t u : Target}

theorem Target.Good.form
    (hGood : t.Good S) :
    t.form.Good S := by
  cases hGood with
  | node hForm _ => exact hForm

theorem Target.Good.wrapped
    (hGood : t.Good S)
    (hu : u ∈ t.wrapped) :
    u.Good S := by
  cases hGood with
  | node _ hWrapped => exact hWrapped u hu

theorem Target.Good.later
    (hGood : t.Good S)
    (hLe : S ≤ U) :
    t.Good U := by
  induction hGood with
  | node hForm _ ih =>
      refine .node ⟨hForm.checks, ?_, ?_⟩ ih
      · intro v hv
        exact (hForm.values v hv).later hLe
      · intro i hi
        rw [hLe.2]
        exact hForm.sites i hi

/- A node of one delegate that holds nothing but conversions. -/
theorem Target.Good.converting
    {cs : List Conversion}
    (hGood : t.Good S)
    (hChecks : ∀ k ∈ cs, k.Checks)
    (hConversions : u.form.conversions = cs)
    (hValues : u.form.values = [])
    (hSites : u.form.sites = [])
    (hTargets : u.form.targets = [t]) :
    u.Good S := by
  refine .node ⟨?_, ?_, ?_⟩ ?_
  · rw [hConversions]
    exact hChecks
  · rw [hValues]
    intro v hv
    cases hv
  · rw [hSites]
    intro i hi
    cases hi
  · intro x hx
    unfold Target.wrapped at hx
    rw [hTargets] at hx
    rw [List.mem_singleton.1 hx]
    exact hGood

/- The conversions of an implicit plan check their values. -/
theorem checks_of_planParams
    {as bs : List Ty}
    {i : Nat}
    {cs : List Conversion}
    (hPlan : planParams T .implicit i as bs = .ok cs) :
    ∀ k ∈ cs, k.Checks := by
  induction as generalizing i bs cs with
  | nil =>
      cases hPlan
      intro k hk
      cases hk
  | cons a as ih =>
      cases bs with
      | nil =>
          cases hPlan
          intro k hk
          cases hk
      | cons b bs =>
          unfold planParams at hPlan
          split at hPlan
          · cases hPlan
          · rename_i c hClass
            split at hPlan
            · cases hPlan
            · rename_i hRest
              cases hPlan
              intro k hk
              rcases List.mem_cons.1 hk with rfl | hTail
              · exact Conversion.checks_of_implicit hClass
              · exact ih hRest k hTail

/- A retyping of a good target is good. -/
theorem Target.Good.retyped
    (hGood : t.Good S)
    (hRetyped : t.Retyped T u) :
    u.Good S := by
  rcases hRetyped with ⟨plan, hPlan, x, hResult, hParams⟩
  rcases Makes.of_planSignature hPlan with
    ⟨_, hPlanParams, hClass⟩
  have hx : x.Good S := by
    cases hResult with
    | same _ => exact hGood
    | node _ hIs =>
        have hChecks : ∀ k ∈ [plan.ret], k.Checks := by
          intro k hk
          rw [List.mem_singleton.1 hk]
          exact Conversion.checks_of_implicit hClass
        apply hGood.converting hChecks
        · rw [hIs.form_eq]
          rfl
        · rw [hIs.form_eq]
          rfl
        · rw [hIs.form_eq]
          rfl
        · rw [hIs.form_eq]
          rfl
  cases hParams with
  | same _ => exact hx
  | node _ hIs =>
      apply hx.converting (checks_of_planParams hPlanParams)
      · rw [hIs.form_eq]
        rfl
      · rw [hIs.form_eq]
        rfl
      · rw [hIs.form_eq]
        rfl
      · rw [hIs.form_eq]
        rfl

------------------------------------------------------------
-- Typed Heaps
------------------------------------------------------------

/- A cell for values of a type holds one of them. -/
def Cell.Holds
    (T : ClassTable)
    (S : Store) : Ty → Cell → Prop
| .prim k, .bits l _ => k = l
| .prim _, .ref _ => False
| _, .bits _ _ => False
| t, .ref v => v.Fits T S t

/-
  A heap is typed for a store.  The objects in play exist and
  are apart from the static fields; arrays hold elements of
  their component type, and cells hold values of their
  declared types.
-/
structure Heap.Typed
    (T : ClassTable)
    (L : Layout)
    (S : Store)
    (h : Heap) : Prop where
  present : ∀ i s, S.shape i = some s → i < h.size
  apart :
    ∀ r t, L.static r = some t →
      r.object < h.size ∧ S.shape r.object = none
  elements :
    ∀ i p vs, S.shape i = some (.array p) →
      h.at? i = some (.elements vs) → ∀ v ∈ vs, v.Fits T S p
  handles :
    ∀ i t, S.shape i = some .handle →
      h.at? i = some (.target t) → t.Good S
  fields :
    ∀ (r : CellRef) n cell, S.shape r.object = some (.plain n) →
      h.cell? r = some cell →
        ∃ p, L.field n r.index = some p ∧ cell.Holds T S p
  statics :
    ∀ r p cell, L.static r = some p →
      h.cell? r = some cell → cell.Holds T S p

theorem Cell.Holds.later
    {cell : Cell}
    (hHolds : cell.Holds T S p)
    (hLe : S ≤ U) :
    cell.Holds T U p := by
  cases p with
  | prim k =>
      cases cell with
      | bits l b => exact hHolds
      | ref v => exact hHolds
  | cls n =>
      cases cell with
      | bits l b => exact hHolds
      | ref v => exact Value.Fits.later hHolds hLe
  | array q =>
      cases cell with
      | bits l b => exact hHolds
      | ref v => exact Value.Fits.later hHolds hLe

/- A value of a kind is read from every bit pattern. -/
theorem Value.fits_ofBits
    (k : Kind)
    (b : UInt64) :
    (Value.ofBits k b).Fits T S (.prim k) := by
  cases k <;> exact ⟨rfl, Value.in_of_plain rfl⟩

theorem Cell.Holds.load
    {cell : Cell}
    (hHolds : cell.Holds T S p) :
    cell.load.Fits T S p := by
  cases p with
  | prim k =>
      cases cell with
      | bits l b =>
          have hKind : k = l := hHolds
          rw [hKind]
          exact Value.fits_ofBits l b
      | ref v => cases hHolds
  | cls n =>
      cases cell with
      | bits l b => cases hHolds
      | ref v => exact hHolds
  | array q =>
      cases cell with
      | bits l b => cases hHolds
      | ref v => exact hHolds

theorem Cell.Holds.store
    {cell : Cell}
    (hHolds : cell.Holds T S p)
    (hFits : v.Fits T S p) :
    (cell.store v).Holds T S p := by
  cases p with
  | prim k =>
      cases cell with
      | bits l b => exact hHolds
      | ref w => exact hHolds
  | cls n =>
      cases cell with
      | bits l b => exact hHolds
      | ref w => exact hFits
  | array q =>
      cases cell with
      | bits l b => exact hHolds
      | ref w => exact hFits

------------------------------------------------------------
-- New Objects
------------------------------------------------------------

/- The contents of a new object suit its shape. -/
inductive Contents.Suits
    (T : ClassTable)
    (L : Layout)
    (S : Store) : Shape → Contents → Prop
| fixed (s : Shape) :
    Suits T L S s .fixed
| elements (p : Ty) (vs : List Value) :
    (∀ v ∈ vs, v.Fits T S p) →
    Suits T L S (.array p) (.elements vs)
| cells (n : ClassName) (cs : List Cell) :
    (∀ (j : Nat) (cell : Cell), cs[j]? = some cell →
      ∃ p, L.field n j = some p ∧ cell.Holds T S p) →
    Suits T L S (.plain n) (.cells cs)

namespace Heap

/- A cell after an allocation is the new object's, or old. -/
theorem cell?_alloc
    {r : CellRef}
    {s : Shape}
    {k : Contents}
    {cell : Cell}
    (hCell : (h.alloc s k).2.cell? r = some cell) :
    (r.object = h.size ∧
        ∃ cs, k = .cells cs ∧ cs[r.index]? = some cell) ∨
      r.object ≠ h.size ∧ h.cell? r = some cell := by
  unfold cell? cells at hCell ⊢
  rw [at?_alloc] at hCell
  by_cases hNew : r.object = h.size
  · rw [if_pos hNew] at hCell
    refine Or.inl ⟨hNew, ?_⟩
    cases k with
    | cells cs => exact ⟨cs, rfl, hCell⟩
    | fixed => cases hCell
    | elements vs => cases hCell
    | target t => cases hCell
  · rw [if_neg hNew] at hCell
    exact Or.inr ⟨hNew, hCell⟩

/- A new object comes into play. -/
theorem Typed.alloc
    {s : Shape}
    {k : Contents}
    (hTyped : h.Typed T L S)
    (hSuits : k.Suits T L S s) :
    S ≤ S.add h.size s ∧
      (h.alloc s k).2.Typed T L (S.add h.size s) := by
  have hNone : S.shape h.size = none := by
    cases hShape : S.shape h.size with
    | none => rfl
    | some s' =>
        exact absurd (hTyped.present _ _ hShape) (Nat.lt_irrefl _)
  have hLe := Store.le_add s hNone
  have hSize : (h.alloc s k).2.size = h.size + 1 :=
    Array.size_push _
  have hNewShape : (S.add h.size s).shape h.size = some s :=
    if_pos rfl
  have hOldShape :
      ∀ i, i ≠ h.size → (S.add h.size s).shape i = S.shape i := by
    intro i hNe
    exact if_neg hNe
  refine ⟨hLe, ?_⟩
  constructor
  · intro i s' hShape
    rw [hSize]
    by_cases hNew : i = h.size
    · omega
    · rw [hOldShape i hNew] at hShape
      have hLt := hTyped.present i s' hShape
      omega
  · intro r t hStatic
    rcases hTyped.apart r t hStatic with ⟨hLt, hApart⟩
    rw [hSize, hOldShape _ (Nat.ne_of_lt hLt)]
    exact ⟨Nat.lt_succ_of_lt hLt, hApart⟩
  · intro i p vs hShape hAt v hv
    rw [at?_alloc] at hAt
    by_cases hNew : i = h.size
    · subst hNew
      rw [hNewShape] at hShape
      rw [if_pos rfl] at hAt
      cases hShape
      cases hAt
      cases hSuits with
      | elements _ _ hElements =>
          exact (hElements v hv).later hLe
    · rw [hOldShape i hNew] at hShape
      rw [if_neg hNew] at hAt
      exact (hTyped.elements i p vs hShape hAt v hv).later hLe
  · intro i t hShape hAt
    rw [at?_alloc] at hAt
    by_cases hNew : i = h.size
    · subst hNew
      rw [hNewShape] at hShape
      rw [if_pos rfl] at hAt
      cases hShape
      cases hAt
      cases hSuits
    · rw [hOldShape i hNew] at hShape
      rw [if_neg hNew] at hAt
      exact (hTyped.handles i t hShape hAt).later hLe
  · intro r n cell hShape hCell
    rcases cell?_alloc hCell with ⟨hNew, cs, rfl, hGet⟩ | ⟨hOld, hGet⟩
    · rw [hNew, hNewShape] at hShape
      cases hShape
      cases hSuits with
      | cells _ _ hCells =>
          rcases hCells _ _ hGet with ⟨p, hField, hHolds⟩
          exact ⟨p, hField, hHolds.later hLe⟩
    · rw [hOldShape _ hOld] at hShape
      rcases hTyped.fields r n cell hShape hGet with
        ⟨p, hField, hHolds⟩
      exact ⟨p, hField, hHolds.later hLe⟩
  · intro r p cell hStatic hCell
    have hLt := (hTyped.apart r p hStatic).1
    rcases cell?_alloc hCell with ⟨hNew, _⟩ | ⟨_, hGet⟩
    · rw [hNew] at hLt
      exact absurd hLt (Nat.lt_irrefl _)
    · exact (hTyped.statics r p cell hStatic hGet).later hLe

------------------------------------------------------------
-- Changes of Objects
------------------------------------------------------------

/- Elements are no cells. -/
theorem cell?_set_elements
    {i : Nat}
    {vs : List Value}
    {r : CellRef}
    {cell : Cell}
    (hCell : (h.set i (.elements vs)).cell? r = some cell) :
    h.cell? r = some cell := by
  unfold cell? cells at hCell ⊢
  rw [at?_set] at hCell
  by_cases hSame : i = r.object ∧ r.object < h.size
  · rw [if_pos hSame] at hCell
    cases hCell
  · rw [if_neg hSame] at hCell
    exact hCell

/- A value of the component type is stored into an array. -/
theorem Typed.setElement
    {o : Obj}
    {i : Nat}
    (hTyped : h.Typed T L S)
    (ho : S.shape o.id = some o.shape)
    (hFits : ∀ p, o.shape = .array p → v.Fits T S p) :
    (h.setElement o i v).Typed T L S := by
  unfold Heap.setElement
  split
  · rename_i vs hElements
    have hOld :
        ∀ p, o.shape = .array p → ∀ w ∈ vs, w.Fits T S p := by
      intro p hShape w hw
      unfold elements? at hElements
      rw [hShape] at hElements ho
      dsimp only at hElements
      split at hElements
      · rename_i hAt
        cases hElements
        exact hTyped.elements o.id p vs ho hAt w hw
      · cases hElements
        cases hw
    constructor
    · intro j s hShape
      rw [size_set]
      exact hTyped.present j s hShape
    · intro r t hStatic
      rw [size_set]
      exact hTyped.apart r t hStatic
    · intro j p ws hShape hAt w hw
      rw [at?_set] at hAt
      by_cases hSame : o.id = j ∧ j < h.size
      · rw [if_pos hSame] at hAt
        rw [← hSame.1, ho] at hShape
        have hArray : o.shape = .array p := Option.some.inj hShape
        cases hAt
        rcases List.mem_or_eq_of_mem_set hw with hMem | rfl
        · exact hOld p hArray w hMem
        · exact hFits p hArray
      · rw [if_neg hSame] at hAt
        exact hTyped.elements j p ws hShape hAt w hw
    · intro j t hShape hAt
      rw [at?_set] at hAt
      by_cases hSame : o.id = j ∧ j < h.size
      · rw [if_pos hSame] at hAt
        cases hAt
      · rw [if_neg hSame] at hAt
        exact hTyped.handles j t hShape hAt
    · intro r n cell hShape hCell
      exact
        hTyped.fields r n cell hShape (cell?_set_elements hCell)
    · intro r p cell hStatic hCell
      exact
        hTyped.statics r p cell hStatic (cell?_set_elements hCell)
  · exact hTyped

/- A cell after a store is an old one, perhaps stored into. -/
theorem cell?_storeCell
    {r r' : CellRef}
    {cell : Cell}
    (hCell : (h.storeCell r v).cell? r' = some cell) :
    ∃ old,
      h.cell? r' = some old ∧
        (cell = old ∨ r' = r ∧ cell = old.store v) := by
  unfold storeCell cell? at hCell
  unfold cell?
  by_cases hSame : r.object = r'.object ∧ r'.object < h.size
  · have hAt :
        (h.set r.object
          (.cells
            ((h.cells r.object).modify r.index
              (fun c => c.store v)))).cells r'.object =
          (h.cells r'.object).modify r.index
            (fun c => c.store v) := by
      rw [hSame.1]
      unfold cells
      rw [at?_set, if_pos ⟨rfl, hSame.2⟩]
    rw [hAt, List.getElem?_modify] at hCell
    rcases Option.map_eq_some_iff.1 hCell with ⟨old, hOld, hEq⟩
    refine ⟨old, hOld, ?_⟩
    split at hEq
    · rename_i hIndex
      refine Or.inr ⟨?_, hEq.symm⟩
      cases r
      cases r'
      simp only [CellRef.mk.injEq]
      exact ⟨hSame.1.symm, hIndex.symm⟩
    · exact Or.inl hEq.symm
  · refine ⟨cell, ?_, Or.inl rfl⟩
    unfold cells at hCell ⊢
    rw [at?_set, if_neg hSame] at hCell
    exact hCell

/- Contents after a store that are no cells were there before. -/
theorem at?_storeCell_of_ne
    {r : CellRef}
    {i : Nat}
    {k : Contents}
    (hAt : (h.storeCell r v).at? i = some k)
    (hNe : ∀ cs, k ≠ .cells cs) :
    h.at? i = some k := by
  unfold storeCell at hAt
  rw [at?_set] at hAt
  split at hAt
  · exact absurd (Option.some.inj hAt).symm (hNe _)
  · exact hAt

/-
  A value is stored into a cell.  It is one of the declared
  type, whether the cell is one of an instance in play or of
  a static field.
-/
theorem Typed.storeCell
    {r : CellRef}
    (hTyped : h.Typed T L S)
    (hField :
      ∀ n p, S.shape r.object = some (.plain n) →
        L.field n r.index = some p → v.Fits T S p)
    (hStatic : ∀ p, L.static r = some p → v.Fits T S p) :
    (h.storeCell r v).Typed T L S := by
  constructor
  · intro i s hShape
    unfold Heap.storeCell
    rw [size_set]
    exact hTyped.present i s hShape
  · intro r' t hStatic'
    unfold Heap.storeCell
    rw [size_set]
    exact hTyped.apart r' t hStatic'
  · intro i p vs hShape hAt
    have hOld := at?_storeCell_of_ne hAt nofun
    exact hTyped.elements i p vs hShape hOld
  · intro i t hShape hAt
    have hOld := at?_storeCell_of_ne hAt nofun
    exact hTyped.handles i t hShape hOld
  · intro r' n cell hShape hCell
    rcases cell?_storeCell hCell with ⟨old, hOld, hOr⟩
    rcases hTyped.fields r' n old hShape hOld with
      ⟨p, hDeclared, hHolds⟩
    refine ⟨p, hDeclared, ?_⟩
    rcases hOr with rfl | ⟨rfl, rfl⟩
    · exact hHolds
    · exact hHolds.store (hField n p hShape hDeclared)
  · intro r' p cell hDeclared hCell
    rcases cell?_storeCell hCell with ⟨old, hOld, hOr⟩
    have hHolds := hTyped.statics r' p old hDeclared hOld
    rcases hOr with rfl | ⟨rfl, rfl⟩
    · exact hHolds
    · exact hHolds.store (hStatic p hDeclared)

end Heap

end Linkage
