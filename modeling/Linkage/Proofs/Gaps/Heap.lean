import Linkage.Proofs.Heap

/-
  Gaps among the numbers of objects.  Where a heap has some
  more boxes that nothing holds on to, the objects after them
  have later numbers, and all else is as it would be without
  them.  A gap moves what is after its start; so it gives for
  each value, target and heap the one with later numbers, and
  the operations on the heap do the same to both.

  Key definitions include:
    * `Gap`
    * `Gap.value`
    * `Gap.target`
    * `Gap.heap`

  Key theorems include:
    * `Gap.alloc_heap`
    * `Gap.set_heap`
    * `Gap.storeCell_heap`
    * `Gap.setElement_heap`
-/

------------------------------------------------------------
-- Gaps
------------------------------------------------------------

namespace Linkage

/- Two heaps with the same contents are one. -/
theorem Heap.ext_at?
    {h k : Heap}
    (hAt : ∀ i, h.at? i = k.at? i) :
    h = k := by
  rcases h with ⟨xs⟩
  rcases k with ⟨ys⟩
  exact congrArg Heap.mk (Array.ext_getElem? hAt)

/- Where the numbers of some boxes start, and how many. -/
structure Gap where
  start : Nat
  width : Nat

namespace Gap

variable (g : Gap)

def number (i : Nat) : Nat :=
  if i < g.start then i else i + g.width

def obj (o : Obj) : Obj :=
  ⟨g.number o.id, o.shape⟩

def value : Value → Value
| .ref o => .ref (g.obj o)
| v => v

def place (r : CellRef) : CellRef :=
  ⟨g.number r.object, r.index⟩

def cell : Cell → Cell
| .bits k w => .bits k w
| .ref v => .ref (g.value v)

mutual

/- A target holds the values that were moved. -/
def target : Target → Target
| .node i sig stub f => .node i sig stub (form f)

def form : Form Target → Form Target
| .direct m how entry => .direct m how entry
| .virtual m slot => .virtual m slot
| .interface m slot => .interface m slot
| .fieldGet f offset => .fieldGet f offset
| .fieldSet f offset => .fieldSet f offset
| .bound t v => .bound (target t) (g.value v)
| .convertArguments t cs => .convertArguments (target t) cs
| .convertReturn t c => .convertReturn (target t) c
| .filterReturn t f => .filterReturn (target t) (target f)
| .filterArguments t pos fs =>
    .filterArguments (target t) pos (filters fs)
| .collect t component n => .collect (target t) component n
| .spread t n => .spread (target t) n
| .permute t order => .permute (target t) order
| .insert t pos vs => .insert (target t) pos (vs.map g.value)
| .drop t pos n => .drop (target t) pos n
| .fold t c => .fold (target t) (target c)
| .guard c t e => .guard (target c) (target t) (target e)
| .rescue t n h => .rescue (target t) n (target h)
| .varargs t array => .varargs (target t) array
| .site i => .site i
| .constant v => .constant (g.value v)
| .identity => .identity
| .throw => .throw
| .arrayGet => .arrayGet
| .arraySet => .arraySet
| .arrayLength => .arrayLength
| .invoker exact sig => .invoker exact sig
| .unlinked => .unlinked

def filters : List (Option Target) → List (Option Target)
| [] => []
| f :: fs => filter f :: filters fs

def filter : Option Target → Option Target
| none => none
| some t => some (target t)

end

def contents : Contents → Contents
| .fixed => .fixed
| .cells cs => .cells (cs.map g.cell)
| .elements vs => .elements (vs.map g.value)
| .target t => .target (g.target t)

/- The heap with the boxes of the gap in it. -/
def heap (h : Heap) : Heap :=
  let cs := h.contents.toList.map g.contents
  ⟨(cs.take g.start ++ List.replicate g.width Contents.fixed ++
    cs.drop g.start).toArray⟩

------------------------------------------------------------
-- Values and Targets
------------------------------------------------------------

variable {g : Gap}
variable {v : Value}
variable {t : Target}

@[simp] theorem value_ref (o : Obj) :
    g.value (.ref o) = .ref (g.obj o) :=
  rfl

@[simp] theorem value_prim (p : Prim) :
    g.value (.prim p) = .prim p :=
  rfl

@[simp] theorem obj_shape (o : Obj) :
    (g.obj o).shape = o.shape :=
  rfl

@[simp] theorem obj_type (o : Obj) :
    (g.obj o).type = o.type :=
  rfl

@[simp] theorem boxed?_obj (o : Obj) :
    (g.obj o).boxed? = o.boxed? :=
  rfl

/- What no object is stays as it is. -/
theorem value_of_plain
    (hPlain : v.object? = none) :
    g.value v = v := by
  cases v with
  | ref o => cases hPlain
  | _ => rfl

@[simp] theorem typeText_value (v : Value) :
    (g.value v).typeText = v.typeText := by
  cases v with
  | _ => rfl

@[simp] theorem conforms_value
    (T : ClassTable)
    (v : Value)
    (a : Ty) :
    (g.value v).conforms T a = v.conforms T a := by
  cases v with
  | _ => rfl

@[simp] theorem cast?_value
    (v : Value)
    (k : Kind) :
    (g.value v).cast? k = v.cast? k := by
  cases v with
  | _ => rfl

@[simp] theorem toBits_value (v : Value) :
    (g.value v).toBits = v.toBits := by
  cases v with
  | _ => rfl

/- The zero of a type is no object. -/
@[simp] theorem value_zero (a : Ty) :
    g.value (.zero a) = .zero a := by
  apply value_of_plain
  cases a with
  | prim k =>
      cases k with
      | _ => rfl
  | _ => rfl

theorem value_ofBits
    (k : Kind)
    (w : UInt64) :
    g.value (.ofBits k w) = .ofBits k w := by
  unfold Value.ofBits
  split
  · rfl
  · rfl

@[simp] theorem signature_target (t : Target) :
    (g.target t).signature = t.signature := by
  cases t with
  | node i sig stub f => rfl

@[simp] theorem stub_target (t : Target) :
    (g.target t).stub = t.stub := by
  cases t with
  | node i sig stub f => rfl

theorem form_target (t : Target) :
    (g.target t).form = g.form t.form := by
  cases t with
  | node i sig stub f => rfl

@[simp] theorem ret_target (t : Target) :
    (g.target t).ret = t.ret :=
  congrArg Signature.ret (signature_target t)

@[simp] theorem count_target (t : Target) :
    (g.target t).count = t.count :=
  congrArg Signature.count (signature_target t)

theorem filters_eq_map (fs : List (Option Target)) :
    g.filters fs = fs.map (Option.map g.target) := by
  induction fs with
  | nil => rfl
  | cons f fs ih =>
      cases f with
      | _ => exact congrArg (List.cons _) ih

------------------------------------------------------------
-- Cells
------------------------------------------------------------

theorem load_cell (c : Cell) :
    (g.cell c).load = g.value c.load := by
  cases c with
  | bits k w => exact (value_ofBits k w).symm
  | ref v => rfl

theorem store_cell
    (c : Cell)
    (v : Value) :
    (g.cell c).store (g.value v) = g.cell (c.store v) := by
  cases c with
  | bits k w => exact congrArg (Cell.bits k) (toBits_value v)
  | ref u => rfl

/- The cells of a new instance hold no objects. -/
theorem cell_new (a : Ty) :
    g.cell (.new a) = .new a := by
  cases a with
  | _ => rfl

theorem fieldRef_obj
    (o : Obj)
    (offset : Nat) :
    Heap.fieldRef (g.obj o) offset =
      (Heap.fieldRef o offset).map g.place := by
  unfold Heap.fieldRef
  rw [obj_shape]
  cases o.shape with
  | _ => rfl

------------------------------------------------------------
-- Contents of the Heap
------------------------------------------------------------

variable {h k : Heap}

theorem number_lt
    {i : Nat}
    (hBefore : i < g.start) :
    g.number i = i :=
  if_pos hBefore

theorem number_ge
    {i : Nat}
    (hAfter : g.start ≤ i) :
    g.number i = i + g.width :=
  if_neg (Nat.not_lt.2 hAfter)

theorem number_inj
    {i j : Nat} :
    g.number i = g.number j ↔ i = j := by
  unfold number
  split
  · split
    · omega
    · omega
  · split
    · omega
    · omega

/- Each number is one of the gap, or one that was moved. -/
theorem within_or_number (j : Nat) :
    (g.start ≤ j ∧ j < g.start + g.width) ∨
      ∃ i, j = g.number i := by
  by_cases hBefore : j < g.start
  · exact Or.inr ⟨j, (number_lt hBefore).symm⟩
  · by_cases hWithin : j < g.start + g.width
    · exact Or.inl ⟨Nat.not_lt.1 hBefore, hWithin⟩
    · have hAfter : g.start ≤ j - g.width := by omega
      refine Or.inr ⟨j - g.width, ?_⟩
      rw [number_ge hAfter]
      omega

variable (hStart : g.start ≤ h.size)

include hStart

theorem size_heap :
    (g.heap h).size = h.size + g.width := by
  unfold heap Heap.size at *
  simp only [List.size_toArray, List.length_append, List.length_take,
    List.length_drop, List.length_map, List.length_replicate,
    Array.length_toList]
  omega

/- What is under a number of the heap with the gap. -/
theorem at?_heap (i : Nat) :
    (g.heap h).at? i =
      if i < g.start then (h.at? i).map g.contents
      else if i < g.start + g.width then some .fixed
      else (h.at? (i - g.width)).map g.contents := by
  have hTake :
      ((h.contents.toList.map g.contents).take g.start).length =
        g.start := by
    rw [List.length_take, List.length_map, Array.length_toList]
    exact Nat.min_eq_left hStart
  have hAt :
      ∀ j, (h.contents.toList.map g.contents)[j]? =
        (h.at? j).map g.contents := by
    intro j
    rw [List.getElem?_map, Array.getElem?_toList]
    rfl
  unfold heap Heap.at?
  rw [List.getElem?_toArray, List.append_assoc]
  by_cases hBefore : i < g.start
  · rw [if_pos hBefore, List.getElem?_append_left (by omega),
      List.getElem?_take_of_lt hBefore, hAt]
    rfl
  · rw [if_neg hBefore, List.getElem?_append_right (by omega), hTake]
    by_cases hWithin : i < g.start + g.width
    · rw [if_pos hWithin, List.getElem?_append_left (by simp; omega),
        List.getElem?_replicate, if_pos (by omega)]
    · rw [if_neg hWithin,
        List.getElem?_append_right (by simp; omega),
        List.getElem?_drop, List.length_replicate, hAt]
      congr 2
      omega

theorem at?_number (i : Nat) :
    (g.heap h).at? (g.number i) = (h.at? i).map g.contents := by
  rw [at?_heap hStart]
  by_cases hBefore : i < g.start
  · rw [number_lt hBefore, if_pos hBefore]
  · have hAfter := Nat.not_lt.1 hBefore
    rw [number_ge hAfter, if_neg (by omega), if_neg (by omega),
      Nat.add_sub_cancel]

------------------------------------------------------------
-- Operations on the Heap
------------------------------------------------------------

theorem at?_within
    {j : Nat}
    (hFrom : g.start ≤ j)
    (hTo : j < g.start + g.width) :
    (g.heap h).at? j = some .fixed := by
  rw [at?_heap hStart, if_neg (Nat.not_lt.2 hFrom), if_pos hTo]

theorem number_lt_size (i : Nat) :
    g.number i < (g.heap h).size ↔ i < h.size := by
  rw [size_heap hStart]
  unfold number
  split
  · omega
  · omega

/- A new object has the next number in both. -/
theorem alloc_heap
    (s : Shape)
    (c : Contents) :
    (g.heap h).alloc s (g.contents c) =
      (g.obj (h.alloc s c).1, g.heap (h.alloc s c).2) := by
  have hSize : (g.heap h).size = g.number h.size := by
    rw [size_heap hStart, number_ge hStart]
  have hLater : g.start ≤ (h.alloc s c).2.size := by
    rw [Heap.size_alloc]
    exact Nat.le_succ_of_le hStart
  apply Prod.ext
  · exact congrArg (Obj.mk · s) hSize
  · apply Heap.ext_at?
    intro j
    rw [Heap.at?_alloc, hSize]
    rcases within_or_number (g := g) j with ⟨hFrom, hTo⟩ | ⟨i, rfl⟩
    · rw [at?_within hLater hFrom hTo, at?_within hStart hFrom hTo,
        number_ge hStart, if_neg (by omega)]
    · rw [at?_number hLater, at?_number hStart, Heap.at?_alloc]
      by_cases hNew : i = h.size
      · rw [if_pos (congrArg g.number hNew), if_pos hNew]
        rfl
      · rw [if_neg (mt number_inj.1 hNew), if_neg hNew]

/- What is replaced in the one is replaced in the other. -/
theorem set_heap
    (i : Nat)
    (c : Contents) :
    (g.heap h).set (g.number i) (g.contents c) =
      g.heap (h.set i c) := by
  have hLater : g.start ≤ (h.set i c).size := by
    rw [Heap.size_set]
    exact hStart
  apply Heap.ext_at?
  intro j
  rw [Heap.at?_set]
  rcases within_or_number (g := g) j with ⟨hFrom, hTo⟩ | ⟨j, rfl⟩
  · rw [at?_within hLater hFrom hTo, at?_within hStart hFrom hTo]
    split
    · rename_i hNone
      rcases hNone with ⟨rfl, _⟩
      unfold number at hFrom hTo
      split at hFrom
      · omega
      · split at hTo
        · omega
        · omega
    · rfl
  · rw [at?_number hLater, at?_number hStart, Heap.at?_set]
    simp only [number_inj, number_lt_size hStart]
    split
    · rfl
    · rfl

------------------------------------------------------------
-- Cells and Elements
------------------------------------------------------------

theorem cells_heap (i : Nat) :
    (g.heap h).cells (g.number i) = (h.cells i).map g.cell := by
  unfold Heap.cells
  rw [at?_number hStart]
  cases h.at? i with
  | none => rfl
  | some c =>
      cases c with
      | _ => rfl

theorem cell?_heap (r : CellRef) :
    (g.heap h).cell? (g.place r) = (h.cell? r).map g.cell := by
  unfold Heap.cell? place
  rw [cells_heap hStart, List.getElem?_map]

theorem storeCell_heap
    (r : CellRef)
    (v : Value) :
    (g.heap h).storeCell (g.place r) (g.value v) =
      g.heap (h.storeCell r v) := by
  have hCells :
      ((h.cells r.object).map g.cell).modify r.index
          (·.store (g.value v)) =
        ((h.cells r.object).modify r.index (·.store v)).map
          g.cell := by
    apply List.ext_getElem?
    intro i
    rw [List.getElem?_modify, List.getElem?_map, List.getElem?_map,
      List.getElem?_modify]
    cases (h.cells r.object)[i]? with
    | none => rfl
    | some c =>
        by_cases hHere : r.index = i
        · simp [hHere, store_cell]
        · simp [hHere]
  unfold Heap.storeCell place
  dsimp only
  rw [cells_heap hStart, hCells]
  exact set_heap hStart r.object (.cells _)

theorem elements?_heap (o : Obj) :
    (g.heap h).elements? (g.obj o) =
      (h.elements? o).map (List.map g.value) := by
  unfold Heap.elements?
  rw [obj_shape]
  cases o.shape with
  | array c =>
      have hAt :
          (g.heap h).at? (g.obj o).id =
            (h.at? o.id).map g.contents :=
        at?_number hStart o.id
      rw [hAt]
      cases h.at? o.id with
      | none => rfl
      | some c =>
          cases c with
          | _ => rfl
  | _ => rfl

theorem setElement_heap
    (o : Obj)
    (i : Nat)
    (v : Value) :
    (g.heap h).setElement (g.obj o) i (g.value v) =
      g.heap (h.setElement o i v) := by
  unfold Heap.setElement
  rw [elements?_heap hStart]
  cases h.elements? o with
  | none => rfl
  | some vs =>
      change
        (g.heap h).set (g.number o.id)
          (.elements ((vs.map g.value).set i (g.value v))) = _
      rw [← List.map_set]
      exact set_heap hStart o.id (.elements (vs.set i v))

theorem handle?_heap (o : Obj) :
    (g.heap h).handle? (g.obj o) = (h.handle? o).map g.target := by
  unfold Heap.handle?
  rw [obj_shape]
  cases o.shape with
  | handle =>
      have hAt :
          (g.heap h).at? (g.obj o).id =
            (h.at? o.id).map g.contents :=
        at?_number hStart o.id
      rw [hAt]
      cases h.at? o.id with
      | none => rfl
      | some c =>
          cases c with
          | _ => rfl
  | _ => rfl

theorem field?_heap
    (o : Obj)
    (offset : Nat) :
    (g.heap h).field? (g.obj o) offset =
      (h.field? o offset).map g.cell := by
  unfold Heap.field?
  rw [fieldRef_obj]
  cases Heap.fieldRef o offset with
  | none => rfl
  | some r => exact cell?_heap hStart r

end Gap

end Linkage
