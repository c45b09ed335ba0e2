import Linkage.Proofs.Gaps.Runs
import Linkage.World

/-
  Worlds are uniform hosts.  A body works on its arguments,
  on the heap and on values that it keeps; only the last are
  the same in each call, so what it does commutes with gaps
  after all objects that it keeps.

  Key definitions include:
    * `Value.Below`
    * `World.Below`

  Key theorems include:
    * `Body.run_shifts`
    * `World.host_uniform`
-/

------------------------------------------------------------
-- Values that are Kept
------------------------------------------------------------

namespace Linkage

/- The value is no object with that number or a later one. -/
def Value.Below
    (n : Nat)
    (v : Value) : Prop :=
  ∀ o, v = .ref o → o.id < n

/-
  What a world keeps has earlier numbers: its static fields,
  and the values and faults in bodies.
-/
structure World.Below
    (w : World)
    (n : Nat) : Prop where
  statics : w.statics.length ≤ n
  constants : ∀ p ∈ w.bodies, ∀ v ∈ p.2.constants, v.Below n
  faults : ∀ p ∈ w.bodies, ∀ o, p.2 = .fail (.thrown o) → o.id < n

variable {g : Gap}
variable {n : Nat}

namespace Gap

theorem obj_of_lt
    {o : Obj}
    (hBefore : o.id < g.start) :
    g.obj o = o := by
  unfold obj
  rw [number_lt hBefore]

theorem value_of_below
    {v : Value}
    (hBelow : v.Below n)
    (hFrom : n ≤ g.start) :
    g.value v = v := by
  cases v with
  | ref o =>
      have hBefore := Nat.lt_of_lt_of_le (hBelow o rfl) hFrom
      exact congrArg Value.ref (obj_of_lt hBefore)
  | _ => rfl

end Gap

------------------------------------------------------------
-- Bodies
------------------------------------------------------------

namespace Body

variable {b : Body}

theorem int?_values
    (args : List Value)
    (i : Nat) :
    int? (args.map g.value) i = int? args i := by
  unfold int?
  rw [List.getElem?_map]
  cases args[i]? with
  | none => rfl
  | some v =>
      cases v with
      | _ => rfl

theorem object?_values
    (args : List Value)
    (i : Nat) :
    object? (args.map g.value) i =
      (object? args i).map g.obj := by
  unfold object?
  rw [List.getElem?_map]
  cases args[i]? with
  | none => rfl
  | some v =>
      cases v with
      | _ => rfl

theorem binary_values
    (args : List Value)
    (f : Int32 → Int32 → Int32) :
    b.binary (args.map g.value) f =
      g.outcome g.value (b.binary args f) := by
  unfold binary
  rw [int?_values, int?_values]
  cases int? args 0 with
  | none => rfl
  | some x =>
      cases int? args 1 with
      | _ => rfl

theorem unary_values
    (args : List Value)
    (f : Int32 → Prim) :
    b.unary (args.map g.value) f =
      g.outcome g.value (b.unary args f) := by
  unfold unary
  rw [int?_values]
  cases int? args 0 with
  | _ => rfl

/- A new object that keeps nothing. -/
theorem alloc_shifts
    (f : Obj → Except Fault Value)
    (s : Shape)
    (hResult : ∀ o, f (g.obj o) = g.outcome g.value (f o)) :
    g.Shifts g.value
      (fun h => (f (h.alloc s .fixed).1, (h.alloc s .fixed).2))
      (fun h => (f (h.alloc s .fixed).1, (h.alloc s .fixed).2)) := by
  intro h hStart
  have hAlloc :
      (g.heap h).alloc s .fixed = _ :=
    Gap.alloc_heap hStart s .fixed
  dsimp only
  rw [hAlloc, Heap.size_alloc]
  refine ⟨?_, Nat.le_succ_of_le hStart⟩
  exact congrArg (·, _) (hResult _)

theorem throwNew_shifts
    (c : ClassName)
    (message : Option String) :
    g.Shifts g.value (throwNew c message)
      (throwNew c message) :=
  alloc_shifts (fun o => .error (.thrown o))
    (.throwable c message) (fun _ => rfl)

theorem storeFields_shifts
    (o : Obj)
    (args : List Value)
    (pairs : List (Nat × Nat)) :
    g.Shifts g.value (b.storeFields o args pairs)
      (b.storeFields (g.obj o) (args.map g.value) pairs) := by
  induction pairs with
  | nil => exact .same rfl
  | cons p rest ih =>
      rcases p with ⟨offset, i⟩
      intro h hStart
      unfold storeFields
      rw [Gap.fieldRef_obj, Gap.field?_heap hStart,
        List.getElem?_map]
      cases Heap.fieldRef o offset with
      | none => exact ⟨rfl, hStart⟩
      | some r =>
          cases h.field? o offset with
          | none => exact ⟨rfl, hStart⟩
          | some c =>
              cases args[i]? with
              | none => exact ⟨rfl, hStart⟩
              | some v =>
                  dsimp only [Option.map_some]
                  rw [Gap.storeCell_heap hStart]
                  apply ih
                  rw [Heap.size_storeCell]
                  exact hStart

/- What a body does, if it keeps only what comes before. -/
theorem run_shifts
    (hFrom : n ≤ g.start)
    (hConstants : ∀ v ∈ b.constants, v.Below n)
    (hFaults : ∀ o, b = .fail (.thrown o) → o.id < n)
    (args : List Value) :
    g.Shifts g.value (b.run args) (b.run (args.map g.value)) := by
  cases b with
  | const v =>
      have hBelow := hConstants v (List.mem_singleton_self v)
      apply Gap.Shifts.same
      exact congrArg Except.ok (Gap.value_of_below hBelow hFrom).symm
  | arg i =>
      unfold run
      dsimp only
      rw [List.getElem?_map]
      cases args[i]? with
      | none => exact .same rfl
      | some v => exact .same rfl
  | add => exact .same (binary_values args _)
  | sub => exact .same (binary_values args _)
  | neg => exact .same (unary_values args _)
  | div =>
      unfold run
      dsimp only
      rw [int?_values, int?_values, binary_values]
      split
      · split
        · exact throwNew_shifts _ _
        · exact .same rfl
      · exact .same rfl
  | isPositive => exact .same (unary_values args _)
  | throw c m => exact throwNew_shifts c m
  | rethrow =>
      unfold run
      dsimp only
      rw [object?_values]
      cases object? args 0 with
      | none => exact .same rfl
      | some o => exact .same rfl
  | message =>
      unfold run
      dsimp only
      rw [object?_values]
      cases object? args 0 with
      | none => exact .same rfl
      | some o =>
          have hMessage : (g.obj o).message? = o.message? := rfl
          dsimp only [Option.map_some]
          rw [hMessage]
          cases o.message? with
          | none => exact .same rfl
          | some m =>
            exact
              alloc_shifts (fun o => .ok (.ref o)) (.text m)
                (fun _ => rfl)
  | fail f =>
      apply Gap.Shifts.same
      cases f with
      | thrown o =>
          have hBefore := Nat.lt_of_lt_of_le (hFaults o rfl) hFrom
          change Except.error _ = .error (Fault.thrown (g.obj o))
          rw [Gap.obj_of_lt hBefore]
      | _ => rfl
  | setFields pairs =>
      unfold run
      dsimp only
      rw [object?_values]
      cases object? args 0 with
      | none => exact .same rfl
      | some o => exact storeFields_shifts o args pairs
  | getField offset =>
      unfold run
      dsimp only
      rw [object?_values]
      cases object? args 0 with
      | none => exact .same rfl
      | some o =>
          intro h hStart
          dsimp only [Option.map_some, Option.bind]
          rw [Gap.field?_heap hStart]
          cases h.field? o offset with
          | none => exact ⟨rfl, hStart⟩
          | some c =>
              refine ⟨?_, hStart⟩
              exact congrArg (fun v => (Except.ok v, _)) (Gap.load_cell c)
  | arrayLength =>
      unfold run
      dsimp only
      rw [object?_values]
      cases object? args 0 with
      | none => exact .same rfl
      | some o =>
          intro h hStart
          dsimp only [Option.map_some, Option.bind]
          rw [Gap.elements?_heap hStart]
          cases h.elements? o with
          | none => exact ⟨rfl, hStart⟩
          | some vs =>
              dsimp only [Option.map_some]
              rw [List.length_map]
              exact ⟨rfl, hStart⟩
  | setElement i j =>
      unfold run
      dsimp only
      rw [object?_values, List.getElem?_map]
      cases object? args 0 with
      | none => exact .same rfl
      | some o =>
          cases args[j]? with
          | none => exact .same rfl
          | some v =>
              intro h hStart
              dsimp only [Option.map_some]
              rw [Gap.elements?_heap hStart]
              cases h.elements? o with
              | none => exact ⟨rfl, hStart⟩
              | some vs =>
                  dsimp only [Option.map_some]
                  rw [Gap.setElement_heap hStart]
                  refine ⟨rfl, ?_⟩
                  rw [Heap.size_setElement]
                  exact hStart

end Body

------------------------------------------------------------
-- Worlds
------------------------------------------------------------

theorem World.host_uniform
    {w : World}
    (hBelow : w.Below n) :
    w.host.Uniform n where
  call := by
    intro g hFrom code args
    change
      g.Shifts g.value (w.runBody code args)
        (w.runBody code (args.map g.value))
    unfold World.runBody
    cases hBody : w.bodies[code.index]? with
    | none => exact .same rfl
    | some p =>
        have hMem := List.mem_of_getElem? hBody
        exact
          Body.run_shifts hFrom (hBelow.constants p hMem)
            (hBelow.faults p hMem) args
  allocate := by
    intro g hFrom c h hStart
    change
      w.allocate c _ = (w.allocate c h).map _ ∧
        ∀ p, w.allocate c h = some p → _
    unfold World.allocate
    cases w.layout? c with
    | none => exact ⟨rfl, nofun⟩
    | some fields =>
        have hCells :
            (fields.map Cell.new).map g.cell =
              fields.map Cell.new := by
          rw [List.map_map]
          exact List.map_congr_left (fun a _ => Gap.cell_new a)
        have hAlloc :
            (g.heap h).alloc (.plain c)
                (.cells ((fields.map Cell.new).map g.cell)) = _ :=
          Gap.alloc_heap hStart (.plain c)
            (.cells (fields.map Cell.new))
        rw [hCells] at hAlloc
        unfold Heap.allocInstance
        constructor
        · rw [Option.map_some, Option.map_some, hAlloc]
          rfl
        · intro p hp
          cases hp
          have hSize :=
            h.size_alloc (.plain c) (.cells (fields.map Cell.new))
          change g.start ≤ (h.alloc (.plain c) (.cells _)).2.size
          rw [hSize]
          exact Nat.le_succ_of_le hStart
  staticCell := by
    intro c i r hCell
    change w.staticCell c i = some r at hCell
    unfold World.staticCell at hCell
    split at hCell
    · cases hCell
    · rename_i j hFind
      split at hCell
      · cases hCell
        have hBefore := (List.findIdx?_eq_some_iff_getElem.1 hFind).1
        exact Nat.lt_of_lt_of_le hBefore hBelow.statics
      · cases hCell

end Linkage
