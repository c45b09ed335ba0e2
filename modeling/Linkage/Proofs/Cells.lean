import Linkage.Proofs.Conversion
import Linkage.Proofs.Heap

/-
  Cells and what is stored in them.  A cell that is made for
  a type starts with the zero of the type, and gives back any
  value of the type that is stored in it, bit by bit if it is
  of a primitive kind.  Storing concerns one place.

  Key definitions include:
    * `Cell.IsFor`

  Key theorems include:
    * `Prim.ofBits_toBits`
    * `Cell.load_new`
    * `Cell.IsFor.load_store`
    * `Heap.cell?_storeCell_eq`
    * `Heap.cell?_alloc_cells`
-/

------------------------------------------------------------
-- Bit Patterns
------------------------------------------------------------

namespace Linkage

variable {T : ClassTable}
variable {t : Ty}
variable {v : Value}
variable {c : Cell}

/- No bit of a value is lost in its pattern. -/
theorem Prim.ofBits_toBits (p : Prim) :
    ofBits p.toBits p.kind = some p := by
  cases p with
  | boolean b => cases b <;> decide
  | byte n => simp [toBits, ofBits, kind]
  | short n => simp [toBits, ofBits, kind]
  | char n => simp [toBits, ofBits, kind]
  | int n => simp [toBits, ofBits, kind]
  | long n => simp [toBits, ofBits, kind]
  | float b => simp [toBits, ofBits, kind]
  | double b => rfl

theorem Value.ofBits_toBits
    {k : Kind}
    (hFits : v.conforms T (.prim k) = true)
    (hVoid : k ≠ .void) :
    ofBits k v.toBits = v := by
  rcases Value.conforms_prim hFits hVoid with ⟨p, rfl, rfl⟩
  unfold ofBits toBits
  rw [Prim.ofBits_toBits]

------------------------------------------------------------
-- Cells
------------------------------------------------------------

namespace Cell

/- A cell in which the fields of a type are kept. -/
inductive IsFor : Cell → Ty → Prop
| bits (k : Kind) (word : UInt64) :
    IsFor (.bits k word) (.prim k)
| cls (n : ClassName) (v : Value) :
    IsFor (.ref v) (.cls n)
| array (a : Ty) (v : Value) :
    IsFor (.ref v) (.array a)

theorem isFor_new (t : Ty) : (new t).IsFor t := by
  cases t with
  | prim k => exact .bits k _
  | cls n => exact .cls n _
  | array a => exact .array a _

/- A new cell has the zero of its type. -/
theorem load_new (t : Ty) : (new t).load = .zero t := by
  cases t with
  | prim k => cases k <;> decide
  | cls n => rfl
  | array a => rfl

/- Storing leaves what a cell is for. -/
theorem IsFor.store
    (hFor : c.IsFor t)
    (v : Value) :
    (c.store v).IsFor t := by
  cases hFor with
  | bits k word => exact .bits k _
  | cls n w => exact .cls n v
  | array a w => exact .array a v

/- A value of the type of a cell comes back from it. -/
theorem IsFor.load_store
    (hFor : c.IsFor t)
    (hFits : v.conforms T t = true)
    (hVoid : t.IsVoid = false) :
    (c.store v).load = v := by
  cases hFor with
  | bits k word =>
      refine Value.ofBits_toBits hFits ?_
      rintro rfl
      cases hVoid
  | cls n w => rfl
  | array a w => rfl

end Cell

------------------------------------------------------------
-- Places
------------------------------------------------------------

namespace Heap

variable {h : Heap}
variable {r q : CellRef}

theorem cells_set
    (h : Heap)
    (i j : Nat)
    (cs : List Cell) :
    (h.set i (.cells cs)).cells j =
      if i = j ∧ j < h.size then cs else h.cells j := by
  unfold cells
  rw [at?_set]
  by_cases hSet : i = j ∧ j < h.size
  · rw [if_pos hSet, if_pos hSet]
  · rw [if_neg hSet, if_neg hSet]

theorem cells_of_size_le
    {i : Nat}
    (hOut : h.size ≤ i) :
    h.cells i = [] := by
  have hNone : h.at? i = none := Array.getElem?_eq_none hOut
  unfold cells
  rw [hNone]

theorem cells_storeCell
    (h : Heap)
    (r : CellRef)
    (v : Value)
    (i : Nat) :
    (h.storeCell r v).cells i =
      if i = r.object then
        (h.cells i).modify r.index (·.store v)
      else h.cells i := by
  unfold storeCell
  rw [cells_set]
  by_cases hObject : i = r.object
  · subst hObject
    rw [if_pos rfl]
    by_cases hIn : r.object < h.size
    · rw [if_pos ⟨rfl, hIn⟩]
    · rw [if_neg (fun hBoth => hIn hBoth.2),
        cells_of_size_le (Nat.le_of_not_lt hIn)]
      simp
  · rw [if_neg hObject,
      if_neg (fun hBoth => hObject hBoth.1.symm)]

/- A place is stored to, and no other. -/
theorem cell?_storeCell_eq
    (h : Heap)
    (r : CellRef)
    (v : Value)
    (q : CellRef) :
    (h.storeCell r v).cell? q =
      if q = r then (h.cell? q).map (·.store v)
      else h.cell? q := by
  unfold cell?
  rw [cells_storeCell]
  by_cases hObject : q.object = r.object
  · rw [if_pos hObject, List.getElem?_modify]
    by_cases hIndex : q.index = r.index
    · have hPlace : q = r := by
        cases q
        cases r
        cases hObject
        cases hIndex
        rfl
      rw [if_pos hPlace, hIndex]
      simp
    · rw [if_neg (fun hPlace => hIndex (congrArg _ hPlace))]
      simp [Ne.symm hIndex]
  · rw [if_neg hObject,
      if_neg (fun hPlace => hObject (congrArg _ hPlace))]

theorem lt_size_of_cell?
    (hCell : h.cell? r = some c) :
    r.object < h.size := by
  refine Nat.lt_of_not_le (fun hOut => ?_)
  unfold cell? at hCell
  rw [cells_of_size_le hOut] at hCell
  cases hCell

/- The cells of a new object are under its number. -/
theorem cell?_alloc_cells
    (h : Heap)
    (s : Shape)
    (cs : List Cell)
    (r : CellRef) :
    (h.alloc s (.cells cs)).2.cell? r =
      if r.object = h.size then cs[r.index]?
      else h.cell? r := by
  unfold cell? cells
  rw [at?_alloc]
  by_cases hNew : r.object = h.size
  · rw [if_pos hNew, if_pos hNew]
  · rw [if_neg hNew, if_neg hNew]

end Heap

end Linkage
