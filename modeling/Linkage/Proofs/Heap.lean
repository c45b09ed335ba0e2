import Linkage.Heap

/-
  What operations on the heap do to the contents of objects.

  Key definitions include:
    * `Heap.plus`
    * `Heap.GainsArray`

  Key theorems include:
    * `Heap.at?_alloc`
    * `Heap.at?_set`
    * `Heap.at?_storeCell_target`
    * `Heap.at?_setElement_target`
    * `Heap.at?_plus`
    * `Heap.gainsArray_allocArray`
    * `Heap.exists_elements`
-/

------------------------------------------------------------
-- Contents after an Operation
------------------------------------------------------------

namespace Linkage

namespace Heap

variable {h : Heap}
variable {i : Nat}
variable {c d : Contents}

/- A new object gets the next number. -/
theorem at?_alloc
    (h : Heap)
    (s : Shape)
    (c : Contents)
    (i : Nat) :
    (h.alloc s c).2.at? i =
      if i = h.size then some c else h.at? i := by
  unfold alloc at? size
  rw [Array.getElem?_push]

theorem size_alloc
    (h : Heap)
    (s : Shape)
    (c : Contents) :
    (h.alloc s c).2.size = h.size + 1 :=
  Array.size_push c

theorem size_set
    (h : Heap)
    (i : Nat)
    (c : Contents) :
    (h.set i c).size = h.size :=
  Array.size_setIfInBounds

theorem size_storeCell
    (h : Heap)
    (r : CellRef)
    (v : Value) :
    (h.storeCell r v).size = h.size :=
  h.size_set _ _

theorem size_setElement
    (h : Heap)
    (o : Obj)
    (i : Nat)
    (v : Value) :
    (h.setElement o i v).size = h.size := by
  unfold setElement
  split
  · exact h.size_set _ _
  · rfl

/- Replacing contents concerns one object, if it exists. -/
theorem at?_set
    (h : Heap)
    (i j : Nat)
    (c : Contents) :
    (h.set i c).at? j =
      if i = j ∧ j < h.size then some c else h.at? j := by
  unfold set at? size
  simp only [Array.getElem?_setIfInBounds]
  by_cases hij : i = j
  · subst hij
    by_cases hi : i < h.contents.size
    · simp [hi]
    · simp [hi]
  · simp [hij]

/- What a handle gives is what is kept under its number. -/
theorem at?_of_handle?
    {o : Obj}
    {t : Target}
    (hHandle : h.handle? o = some t) :
    h.at? o.id = some (.target t) := by
  unfold handle? at hHandle
  split at hHandle
  · split at hHandle
    · rename_i hAt
      cases hHandle
      exact hAt
    · cases hHandle
  · cases hHandle

/- Stored cells are not the contents of a handle. -/
theorem at?_storeCell_target
    {r : CellRef}
    {v : Value}
    {t : Target}
    (hAt : (h.storeCell r v).at? i = some (.target t)) :
    h.at? i = some (.target t) := by
  unfold storeCell at hAt
  rw [at?_set] at hAt
  split at hAt
  · cases hAt
  · exact hAt

/- Stored elements are not the contents of a handle. -/
theorem at?_setElement_target
    {o : Obj}
    {n : Nat}
    {v : Value}
    {t : Target}
    (hAt : (h.setElement o n v).at? i = some (.target t)) :
    h.at? i = some (.target t) := by
  unfold setElement at hAt
  split at hAt
  · rw [at?_set] at hAt
    split at hAt
    · cases hAt
    · exact hAt
  · exact hAt

/- Only a new handle adds a handle to the heap. -/
theorem at?_alloc_target
    {s : Shape}
    {t : Target}
    (hContents : ∀ u, c ≠ .target u)
    (hAt : (h.alloc s c).2.at? i = some (.target t)) :
    h.at? i = some (.target t) := by
  rw [at?_alloc] at hAt
  split at hAt
  · exact absurd (Option.some.inj hAt) (hContents t)
  · exact hAt

theorem at?_allocBox_target
    {p : Prim}
    {t : Target}
    (hAt : (h.allocBox p).2.at? i = some (.target t)) :
    h.at? i = some (.target t) := by
  apply at?_alloc_target _ hAt
  intro u hEq
  cases hEq

theorem at?_allocArray_target
    {component : Ty}
    {vs : List Value}
    {t : Target}
    (hAt :
      (h.allocArray component vs).2.at? i = some (.target t)) :
    h.at? i = some (.target t) := by
  apply at?_alloc_target _ hAt
  intro u hEq
  cases hEq

theorem at?_allocThrowable_target
    {n : ClassName}
    {message : Option String}
    {t : Target}
    (hAt :
      (h.allocThrowable n message).2.at? i = some (.target t)) :
    h.at? i = some (.target t) := by
  apply at?_alloc_target _ hAt
  intro u hEq
  cases hEq

theorem at?_allocText_target
    {s : String}
    {t : Target}
    (hAt : (h.allocText s).2.at? i = some (.target t)) :
    h.at? i = some (.target t) := by
  apply at?_alloc_target _ hAt
  intro u hEq
  cases hEq

theorem at?_allocInstance_target
    {n : ClassName}
    {fields : List Ty}
    {t : Target}
    (hAt :
      (h.allocInstance n fields).2.at? i = some (.target t)) :
    h.at? i = some (.target t) := by
  apply at?_alloc_target _ hAt
  intro u hEq
  cases hEq

end Heap

------------------------------------------------------------
-- Boxes at the End
------------------------------------------------------------

namespace Heap

/- A heap with some more boxes, which nothing holds. -/
def plus
    (h : Heap)
    (k : Nat) : Heap :=
  ⟨h.contents ++ Array.replicate k .fixed⟩

variable {h : Heap}
variable {j k : Nat}

theorem plus_zero (h : Heap) :
    h.plus 0 = h :=
  congrArg Heap.mk (by simp)

theorem plus_plus (h : Heap) :
    (h.plus j).plus k = h.plus (j + k) := by
  unfold plus
  rw [Array.append_assoc, Array.replicate_append_replicate]

theorem allocBox_plus
    (h : Heap)
    (p : Prim) :
    (h.allocBox p).2 = h.plus 1 :=
  rfl

/- The boxes are under the last numbers. -/
theorem at?_plus (i : Nat) :
    (h.plus k).at? i =
      if i < h.size then h.at? i
      else if i < h.size + k then some .fixed
      else none := by
  unfold plus at? size
  rw [Array.getElem?_append, Array.getElem?_replicate]
  split
  · rfl
  · congr 1
    apply propext
    omega

end Heap

------------------------------------------------------------
-- Arrays
------------------------------------------------------------

/-
  A heap gains an array: an object that was not there before,
  with its elements in their order.  All others are as before.
-/
structure Heap.GainsArray
    (h : Heap)
    (component : Ty)
    (vs : List Value)
    (o : Obj)
    (h' : Heap) : Prop where
  type_eq : o.type = .array component
  fresh : h.at? o.id = none
  elements_eq : h'.elements? o = some vs
  others : ∀ i, i ≠ o.id → h'.at? i = h.at? i

theorem Heap.gainsArray_allocArray
    (h : Heap)
    (component : Ty)
    (vs : List Value) :
    h.GainsArray component vs (h.allocArray component vs).1
      (h.allocArray component vs).2 where
  type_eq := rfl
  fresh := Array.getElem?_eq_none (Nat.le_refl _)
  elements_eq := by
    have hShape :
        (h.allocArray component vs).1.shape = .array component :=
      rfl
    have hAt :
        (h.allocArray component vs).2.at?
            (h.allocArray component vs).1.id =
          some (.elements vs) := by
      unfold allocArray
      rw [at?_alloc]
      exact if_pos rfl
    unfold elements?
    rw [hShape]
    dsimp only
    rw [hAt]
  others := by
    intro i hOther
    unfold allocArray
    rw [at?_alloc]
    exact if_neg hOther

/- An object of an array type is an array. -/
theorem Obj.shape_of_type
    {o : Obj}
    {q : Ty}
    (hType : o.type = .array q) :
    o.shape = .array q := by
  unfold Obj.type at hType
  cases hShape : o.shape with
  | array c =>
      rw [hShape] at hType
      cases hType
      rfl
  | plain n =>
      rw [hShape] at hType
      cases hType
  | boxed p =>
      rw [hShape] at hType
      cases hType
  | text s =>
      rw [hShape] at hType
      cases hType
  | throwable n m =>
      rw [hShape] at hType
      cases hType
  | handle =>
      rw [hShape] at hType
      cases hType

/- An object of an array type has elements. -/
theorem Heap.exists_elements
    {o : Obj}
    {q : Ty}
    (h : Heap)
    (hType : o.type = .array q) :
    ∃ vs, h.elements? o = some vs := by
  unfold Heap.elements?
  rw [Obj.shape_of_type hType]
  dsimp only
  split
  · exact ⟨_, rfl⟩
  · exact ⟨_, rfl⟩

end Linkage
