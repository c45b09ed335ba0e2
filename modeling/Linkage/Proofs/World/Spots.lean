import Linkage.Proofs.Cells
import Linkage.Proofs.World.Layout

/-
  What fields are kept where.  A spot is a field of one
  object, or a static field.  In a world whose fields are laid
  out no two spots have one cell, so that storing to a spot
  leaves all others as they were.

  Key definitions include:
    * `Spot`
    * `Spot.place`
    * `Spot.value?`
    * `World.HasSpot`
    * `World.Stores`
    * `World.withInstance`

  Key theorems include:
    * `World.HasSpot.of_place_eq`
    * `World.Stores.storeCell`
    * `World.stores_staticHeap`
    * `World.LaidOut.cell?_withInstance`
    * `World.Stores.withInstance`
    * `World.Stores.allocate`
-/

------------------------------------------------------------
-- Spots
------------------------------------------------------------

namespace Linkage

/- A field of an object, or a static one of its class. -/
structure Spot where
  object : Option Obj
  field : Field
deriving DecidableEq

namespace Spot

/- The arguments that tell which object is meant. -/
def args (x : Spot) : List Value :=
  match x.object with
  | some o => [.ref o]
  | none => []

/- The place of the cell in which a spot is kept. -/
def place
    (w : World)
    (x : Spot) : Option CellRef :=
  match x.field.slot with
  | .fieldOffset k =>
      match x.object with
      | some o => Heap.fieldRef o k
      | none => w.staticCell x.field.declaring k
  | _ => none

/- What is kept there. -/
def value?
    (w : World)
    (h : Heap)
    (x : Spot) : Option Value :=
  ((x.place w).bind h.cell?).map Cell.load

end Spot

namespace World

variable {w : World}
variable {n : ClassName}
variable {ns : List ClassName}
variable {os : List Obj}
variable {o : Obj}
variable {f : Field}
variable {h : Heap}
variable {x y : Spot}
variable {r : CellRef}

/-
  The spots of a world and some objects.  An object has the
  fields of its class and of all superclasses.
-/
inductive HasSpot
    (w : World)
    (os : List Obj) : Spot → Prop
| static
    {f : Field}
    (hField : f ∈ w.fields)
    (hStatic : f.flags.has .isStatic = true) :
    HasSpot w os ⟨none, f⟩
| inside
    {o : Obj}
    {n : ClassName}
    {f : Field}
    (hField : f ∈ w.fields)
    (hInstance : f.flags.has .isStatic = false)
    (hObject : o ∈ os)
    (hShape : o.shape = .plain n)
    (hDescends : w.classes.Descends n f.declaring) :
    HasSpot w os ⟨some o, f⟩

/- One more object has spots of its own. -/
theorem HasSpot.cons_cases
    (hx : w.HasSpot (o :: os) x) :
    w.HasSpot os x ∨ ∃ f, x = ⟨some o, f⟩ := by
  cases hx with
  | static hField hStatic => exact Or.inl (.static hField hStatic)
  | @inside p n f hField hInstance hObject hShape hDescends =>
      rcases List.mem_cons.1 hObject with rfl | hOld
      · exact Or.inr ⟨f, rfl⟩
      · exact
          Or.inl
            (.inside hField hInstance hOld hShape hDescends)

------------------------------------------------------------
-- Places
------------------------------------------------------------

/- A class that has an entry has one place for it. -/
theorem exists_entry
    {es : List (ClassName × List Ty)}
    {k : Nat}
    {t : Ty}
    (hAt : (entryOf n es)[k]? = some t) :
    ∃ i,
      es.findIdx? (fun e => e.1 == n) = some i ∧
        es[i]? = some (n, entryOf n es) := by
  induction es with
  | nil => cases hAt
  | cons e es ih =>
      rcases e with ⟨m, ts⟩
      rw [entryOf_cons] at hAt ⊢
      rw [List.findIdx?_cons]
      by_cases hSame : n = m
      · subst hSame
        rw [if_pos rfl]
        exact ⟨0, by simp, rfl⟩
      · rw [if_neg hSame] at hAt ⊢
        rcases ih hAt with ⟨i, hFind, hEntry⟩
        refine ⟨i + 1, ?_, hEntry⟩
        simp [Ne.symm hSame, hFind]

namespace LaidOut

variable (hLaid : w.LaidOut)
include hLaid

/- A static field is in the entry of its class. -/
theorem static_place
    (hField : f ∈ w.fields)
    (hStatic : f.flags.has .isStatic = true) :
    ∃ i k,
      Spot.place w ⟨none, f⟩ = some ⟨i, k⟩ ∧
        w.statics[i]? =
          some
            (f.declaring,
              (w.fieldsOf true f.declaring).map Field.type) ∧
        (w.fieldsOf true f.declaring)[k]? = some f := by
  have hMem := mem_fieldsOf.2 ⟨hField, rfl, hStatic⟩
  rcases List.mem_iff_getElem?.1 hMem with ⟨k, hAt⟩
  have hType :
      (entryOf f.declaring w.statics)[k]? = some f.type := by
    rw [hLaid.statics, List.getElem?_map, hAt]
    rfl
  have hLength : k < (entryOf f.declaring w.statics).length :=
    (List.getElem?_eq_some_iff.1 hType).1
  rcases exists_entry hType with ⟨i, hFind, hEntry⟩
  refine ⟨i, k, ?_, ?_, hAt⟩
  · unfold Spot.place
    rw [hLaid.staticOrder _ k f hAt]
    dsimp only
    unfold staticCell
    rw [hFind]
    dsimp only
    rw [if_pos hLength]
  · rw [hEntry, hLaid.statics]

/- A field of an instance is at its place along the chain. -/
theorem inside_place
    (hField : f ∈ w.fields)
    (hInstance : f.flags.has .isStatic = false)
    (hShape : o.shape = .plain n)
    (hChain : w.classes.Chain n ns)
    (hDescends : w.classes.Descends n f.declaring) :
    ∃ k,
      Spot.place w ⟨some o, f⟩ = some ⟨o.id, k⟩ ∧
        (w.fieldsAlong ns)[k]? = some f := by
  have hIn := hChain.mem_iff.2 hDescends
  have hMem := mem_fieldsAlong.2 ⟨hField, hIn, hInstance⟩
  rcases List.mem_iff_getElem?.1 hMem with ⟨k, hAt⟩
  refine ⟨k, ?_, hAt⟩
  unfold Spot.place
  rw [hLaid.order n ns hChain k f hAt]
  dsimp only
  unfold Heap.fieldRef
  rw [hShape]

end LaidOut

------------------------------------------------------------
-- Heaps with the Fields of a World
------------------------------------------------------------

/-
  The objects come after the static fields and have numbers
  of their own, and each spot has a cell for its type.
-/
structure Stores
    (w : World)
    (os : List Obj)
    (h : Heap) : Prop where
  room : w.statics.length ≤ h.size
  inside : ∀ o ∈ os, w.statics.length ≤ o.id ∧ o.id < h.size
  distinct : ∀ o ∈ os, ∀ p ∈ os, o.id = p.id → o = p
  cells :
    ∀ x,
      w.HasSpot os x →
        ∃ r c,
          x.place w = some r ∧ h.cell? r = some c ∧
            c.IsFor x.field.type

section Spots

variable (hLaid : w.LaidOut)
variable (hAcyclic : w.classes.Acyclic)
variable (hStores : w.Stores os h)
include hLaid

/- The cells of static fields are not those of objects. -/
theorem static_place_ne
    {g : Field}
    (hField : f ∈ w.fields)
    (hStatic : f.flags.has .isStatic = true)
    (hPlace : Spot.place w ⟨none, f⟩ = some r)
    (hOutside : w.statics.length ≤ o.id) :
    Spot.place w ⟨some o, g⟩ ≠ some r := by
  rcases hLaid.static_place hField hStatic with
    ⟨i, k, hAt, hEntry, -⟩
  rw [hAt] at hPlace
  cases hPlace
  have hIn : i < w.statics.length :=
    (List.getElem?_eq_some_iff.1 hEntry).1
  intro hSame
  unfold Spot.place at hSame
  dsimp only at hSame
  split at hSame
  · unfold Heap.fieldRef at hSame
    split at hSame
    · cases hSame
      omega
    · cases hSame
  · cases hSame

include hAcyclic hStores

/- A spot is the only one that has its cell. -/
theorem HasSpot.of_place_eq
    (hx : w.HasSpot os x)
    (hy : w.HasSpot os y)
    (hPlace : x.place w = some r)
    (hSame : y.place w = some r) :
    x = y := by
  cases hx with
  | @static f hField hStatic =>
      cases hy with
      | @static g hField' hStatic' =>
          rcases hLaid.static_place hField hStatic with
            ⟨i, k, hAt, hEntry, hOffset⟩
          rcases hLaid.static_place hField' hStatic' with
            ⟨i', k', hAt', hEntry', hOffset'⟩
          rw [hAt] at hPlace
          rw [hAt', ← hPlace] at hSame
          cases hSame
          rw [hEntry] at hEntry'
          have hClass : f.declaring = g.declaring :=
            congrArg Prod.fst (Option.some.inj hEntry')
          rw [hClass, hOffset'] at hOffset
          cases hOffset
          rfl
      | inside hField' hInstance hObject hShape hDescends =>
          exact
            absurd hSame
              (static_place_ne hLaid hField hStatic hPlace
                (hStores.inside _ hObject).1)
  | @inside o n f hField hInstance hObject hShape hDescends =>
      cases hy with
      | static hField' hStatic' =>
          exact
            absurd hPlace
              (static_place_ne hLaid hField' hStatic' hSame
                (hStores.inside _ hObject).1)
      | @inside p m g hField' hInstance' hObject' hShape'
          hDescends' =>
          rcases hAcyclic.exists_chain n with ⟨ns, hChain⟩
          rcases hAcyclic.exists_chain m with ⟨ms, hChain'⟩
          rcases
            hLaid.inside_place hField hInstance hShape hChain
              hDescends
            with ⟨k, hAt, hOffset⟩
          rcases
            hLaid.inside_place hField' hInstance' hShape' hChain'
              hDescends'
            with ⟨k', hAt', hOffset'⟩
          rw [hAt] at hPlace
          rw [hAt', ← hPlace] at hSame
          have hId : p.id = o.id ∧ k' = k := by
            simpa using hSame
          cases hStores.distinct p hObject' o hObject hId.1
          cases hId.2
          rw [hShape] at hShape'
          cases hShape'
          cases hChain.unique hChain'
          rw [hOffset] at hOffset'
          cases hOffset'
          rfl

/-
  A value that is stored in a spot is there afterwards, and
  all other spots are as they were.
-/
theorem Stores.storeCell
    {v : Value}
    (hx : w.HasSpot os x)
    (hPlace : x.place w = some r)
    (hFits : v.conforms w.classes x.field.type = true)
    (hVoid : x.field.type.IsVoid = false) :
    w.Stores os (h.storeCell r v) ∧
      x.value? w (h.storeCell r v) = some v ∧
      ∀ y,
        w.HasSpot os y → y ≠ x →
          y.value? w (h.storeCell r v) = y.value? w h := by
  refine ⟨⟨?_, ?_, hStores.distinct, ?_⟩, ?_, ?_⟩
  · rw [Heap.size_storeCell]
    exact hStores.room
  · rw [Heap.size_storeCell]
    exact hStores.inside
  · intro y hy
    rcases hStores.cells y hy with ⟨q, c, hAt, hCell, hFor⟩
    by_cases hSame : q = r
    · refine ⟨q, c.store v, hAt, ?_, hFor.store v⟩
      rw [Heap.cell?_storeCell_eq, if_pos hSame, hCell]
      rfl
    · refine ⟨q, c, hAt, ?_, hFor⟩
      rw [Heap.cell?_storeCell_eq, if_neg hSame, hCell]
  · rcases hStores.cells x hx with ⟨q, c, hAt, hCell, hFor⟩
    rw [hPlace] at hAt
    cases hAt
    unfold Spot.value?
    rw [hPlace, Option.bind_some, Heap.cell?_storeCell_eq,
      if_pos rfl, hCell]
    exact congrArg some (hFor.load_store hFits hVoid)
  · intro y hy hNe
    rcases hStores.cells y hy with ⟨q, c, hAt, hCell, -⟩
    have hOther : q ≠ r := by
      rintro rfl
      exact
        hNe
          (HasSpot.of_place_eq hLaid hAcyclic hStores hy hx hAt
            hPlace)
    unfold Spot.value?
    rw [hAt, Option.bind_some, Option.bind_some,
      Heap.cell?_storeCell_eq, if_neg hOther]

end Spots

/- A new cell has the zero of its type. -/
theorem value?_of_new
    (hPlace : x.place w = some r)
    (hCell : h.cell? r = some (.new x.field.type)) :
    x.value? w h = some (.zero x.field.type) := by
  unfold Spot.value?
  rw [hPlace, Option.bind_some, hCell]
  exact congrArg some (Cell.load_new _)

theorem cell?_staticHeap
    {i k : Nat}
    {ts : List Ty}
    (hEntry : w.statics[i]? = some (n, ts)) :
    w.staticHeap.cell? ⟨i, k⟩ = ts[k]?.map Cell.new := by
  have hAt :
      w.staticHeap.at? i = some (.cells (ts.map Cell.new)) := by
    unfold staticHeap Heap.at?
    rw [List.getElem?_toArray, List.getElem?_map, hEntry]
    rfl
  unfold Heap.cell? Heap.cells
  rw [hAt]
  exact List.getElem?_map ..

/- The static fields have the zeros of their types at first. -/
theorem stores_staticHeap
    (hLaid : w.LaidOut) :
    w.Stores [] w.staticHeap ∧
      ∀ x,
        w.HasSpot [] x →
          x.value? w w.staticHeap = some (.zero x.field.type) := by
  have hNew :
      ∀ x,
        w.HasSpot [] x →
          ∃ r,
            x.place w = some r ∧
              w.staticHeap.cell? r = some (.new x.field.type) := by
    intro x hx
    cases hx with
    | static hField hStatic =>
        rcases hLaid.static_place hField hStatic with
          ⟨i, k, hAt, hEntry, hOffset⟩
        refine ⟨_, hAt, ?_⟩
        rw [cell?_staticHeap hEntry, List.getElem?_map, hOffset]
        rfl
    | inside _ _ hObject _ _ => cases hObject
  constructor
  · refine ⟨?_, List.forall_mem_nil _, List.forall_mem_nil _, ?_⟩
    · simp [staticHeap, Heap.size]
    · intro x hx
      rcases hNew x hx with ⟨r, hPlace, hCell⟩
      exact ⟨r, _, hPlace, hCell, Cell.isFor_new _⟩
  · intro x hx
    rcases hNew x hx with ⟨r, hPlace, hCell⟩
    exact value?_of_new hPlace hCell

------------------------------------------------------------
-- New Instances
------------------------------------------------------------

/- The heap after an instance is made of a class with a chain. -/
def withInstance
    (w : World)
    (n : ClassName)
    (ns : List ClassName)
    (h : Heap) : Heap :=
  (h.allocInstance n ((w.fieldsAlong ns).map Field.type)).2

theorem size_withInstance :
    (w.withInstance n ns h).size = h.size + 1 :=
  Heap.size_alloc ..

/- The fields of a new instance have new cells. -/
theorem LaidOut.cell?_withInstance
    (hLaid : w.LaidOut)
    (hChain : w.classes.Chain n ns)
    (hSpot :
      w.HasSpot (⟨h.size, .plain n⟩ :: os)
        ⟨some ⟨h.size, .plain n⟩, f⟩) :
    ∃ r,
      Spot.place w ⟨some ⟨h.size, .plain n⟩, f⟩ = some r ∧
        (w.withInstance n ns h).cell? r =
          some (.new f.type) := by
  cases hSpot with
  | inside hField hInstance _ hShape hDescends =>
      cases hShape
      rcases
        hLaid.inside_place (o := ⟨h.size, .plain n⟩) hField
          hInstance rfl hChain hDescends
        with ⟨k, hAt, hOffset⟩
      refine ⟨_, hAt, ?_⟩
      refine (Heap.cell?_alloc_cells ..).trans ?_
      rw [if_pos rfl, List.getElem?_map, List.getElem?_map,
        hOffset]
      rfl

namespace Stores

variable (hStores : w.Stores os h)
include hStores

/- All other spots have the cells that they had. -/
theorem cell?_withInstance
    (hx : w.HasSpot os x) :
    ∃ r c,
      x.place w = some r ∧ h.cell? r = some c ∧
        (w.withInstance n ns h).cell? r = some c ∧
        c.IsFor x.field.type := by
  rcases hStores.cells x hx with ⟨r, c, hAt, hCell, hFor⟩
  refine ⟨r, c, hAt, hCell, ?_, hFor⟩
  refine (Heap.cell?_alloc_cells ..).trans ?_
  have hBelow := Heap.lt_size_of_cell? hCell
  rw [if_neg (Nat.ne_of_lt hBelow), hCell]

/- A new number is not that of an object. -/
theorem distinct_cons
    (hNew : o.id = h.size) :
    ∀ p ∈ o :: os, ∀ q ∈ o :: os, p.id = q.id → p = q := by
  have hApart (p : Obj) (hp : p ∈ os) : p.id ≠ o.id := by
    rw [hNew]
    exact Nat.ne_of_lt (hStores.inside p hp).2
  intro p hp q hq hId
  rcases List.mem_cons.1 hp with rfl | hp'
  · rcases List.mem_cons.1 hq with rfl | hq'
    · rfl
    · exact absurd hId.symm (hApart q hq')
  · rcases List.mem_cons.1 hq with rfl | hq'
    · exact absurd hId (hApart p hp')
    · exact hStores.distinct p hp' q hq' hId

theorem withInstance
    (hLaid : w.LaidOut)
    (hChain : w.classes.Chain n ns) :
    w.Stores (⟨h.size, .plain n⟩ :: os)
      (w.withInstance n ns h) := by
  refine ⟨?room, ?inside, hStores.distinct_cons rfl, ?cells⟩
  case room =>
    rw [size_withInstance]
    exact Nat.le_succ_of_le hStores.room
  case inside =>
    rw [size_withInstance, List.forall_mem_cons]
    refine ⟨⟨hStores.room, Nat.lt_succ_self _⟩, ?_⟩
    intro p hp
    have hIn := hStores.inside p hp
    exact ⟨hIn.1, Nat.lt_succ_of_lt hIn.2⟩
  case cells =>
    intro x hx
    rcases hx.cons_cases with hOld | ⟨f, rfl⟩
    · rcases hStores.cell?_withInstance hOld with
        ⟨r, c, hAt, -, hCell, hFor⟩
      exact ⟨r, c, hAt, hCell, hFor⟩
    · rcases hLaid.cell?_withInstance hChain hx with
        ⟨r, hAt, hCell⟩
      exact ⟨r, _, hAt, hCell, Cell.isFor_new _⟩

/-
  An instance can be made of each class.  It has the zeros of
  the types of its fields, and other spots are as they were.
-/
theorem allocate
    (hLaid : w.LaidOut)
    (hAcyclic : w.classes.Acyclic)
    (n : ClassName) :
    ∃ o h',
      w.allocate n h = some (.ok o, h') ∧
        o.shape = .plain n ∧ o ∉ os ∧ w.Stores (o :: os) h' ∧
        (∀ f,
          w.HasSpot (o :: os) ⟨some o, f⟩ →
            Spot.value? w h' ⟨some o, f⟩ = some (.zero f.type)) ∧
        ∀ x, w.HasSpot os x → x.value? w h' = x.value? w h := by
  rcases hAcyclic.exists_superclasses n with ⟨ns, hWalk⟩
  have hChain := ClassTable.chain_of_superclasses? hWalk
  refine
    ⟨⟨h.size, .plain n⟩, w.withInstance n ns h, ?_, rfl, ?_,
      hStores.withInstance hLaid hChain, ?_, ?_⟩
  · unfold World.allocate
    rw [hLaid.layout?_eq, hWalk]
    rfl
  · intro hIn
    exact absurd (hStores.inside _ hIn).2 (Nat.lt_irrefl _)
  · intro f hf
    rcases hLaid.cell?_withInstance hChain hf with
      ⟨r, hAt, hCell⟩
    exact value?_of_new hAt hCell
  · intro x hx
    rcases hStores.cell?_withInstance hx with
      ⟨r, c, hAt, hCell, hCell', -⟩
    unfold Spot.value?
    rw [hAt, Option.bind_some, Option.bind_some, hCell, hCell']

end Stores

end World

end Linkage
