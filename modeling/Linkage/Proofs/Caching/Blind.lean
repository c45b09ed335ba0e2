import Linkage.Proofs.Caching.Alike
import Linkage.World

/-
  Operations on the heap that are blind to targets: from
  heaps that are alike they come to one result and to heaps
  that are alike again.  Conversions are blind, and so are
  the bodies of every world.

  Key definitions include:
    * `Blind`
    * `Host.IsBlind`

  Key theorems include:
    * `Conversion.apply_blind`
    * `convertConstant_blind`
    * `Body.run_blind`
    * `World.host_isBlind`
-/

------------------------------------------------------------
-- Blind Operations
------------------------------------------------------------

namespace Linkage

/- An operation that does not look at the targets of handles. -/
def Blind
    {α : Type}
    (f : Heap → α × Heap) : Prop :=
  ∀ h k, h.Alike k → (f k).1 = (f h).1 ∧ (f h).2.Alike (f k).2

/-
  A host is blind: neither what its code does nor what it
  allocates depends on the targets of handles.
-/
structure Host.IsBlind (H : Host) : Prop where
  call : ∀ code args, Blind (H.call code args)
  allocate :
    ∀ n h k, h.Alike k →
      Option.Rel (fun x y => y.1 = x.1 ∧ x.2.Alike y.2)
        (H.allocate n h) (H.allocate n k)

variable {α : Type}
variable {T : ClassTable}
variable {h k : Heap}

/- The heap stays as it is. -/
theorem Blind.same (a : α) :
    Blind (fun h => (a, h)) := by
  intro h k hAlike
  exact ⟨rfl, hAlike⟩

theorem allocBox_blind (p : Prim) :
    Blind (fun h => h.allocBox p) := by
  intro h k hAlike
  exact hAlike.alloc .fixed

------------------------------------------------------------
-- Conversions
------------------------------------------------------------

theorem boxValue_blind
    (b : Kind)
    (v : Value) :
    Blind (boxValue b v) := by
  intro h k hAlike
  unfold boxValue
  split
  · split
    · rcases allocBox_blind _ h k hAlike with ⟨hEq, hAfter⟩
      exact ⟨congrArg Except.ok hEq, hAfter⟩
    · exact ⟨rfl, hAlike⟩
  · exact ⟨rfl, hAlike⟩

theorem Conversion.apply_blind
    (c : Conversion)
    (v : Value) :
    Blind (c.apply T v) := by
  intro h k hAlike
  cases c with
  | box b t =>
      rcases boxValue_blind b v h k hAlike with ⟨hEq, hAfter⟩
      unfold apply
      dsimp only
      generalize boxValue b v h = x at hEq hAfter
      generalize boxValue b v k = y at hEq hAfter
      rcases x with ⟨r, h'⟩
      rcases y with ⟨r', k'⟩
      have hSame : r' = r := hEq
      subst hSame
      cases r' with
      | error e => exact ⟨rfl, hAfter⟩
      | ok o =>
          cases t with
          | none => exact ⟨rfl, hAfter⟩
          | some t => exact ⟨rfl, hAfter⟩
  | _ => exact ⟨rfl, hAlike⟩

theorem applyAll_blind
    (cs : List Conversion)
    (vs : List Value) :
    Blind (applyAll T cs vs) := by
  induction cs generalizing vs with
  | nil => exact Blind.same _
  | cons c cs ih =>
      cases vs with
      | nil => exact Blind.same _
      | cons v vs =>
          intro h k hAlike
          rcases Conversion.apply_blind (T := T) c v h k hAlike
            with ⟨hEq, hAfter⟩
          unfold applyAll
          generalize c.apply T v h = x at hEq hAfter
          generalize c.apply T v k = y at hEq hAfter
          rcases x with ⟨r, h'⟩
          rcases y with ⟨r', k'⟩
          have hSame : r' = r := hEq
          subst hSame
          cases r' with
          | error e => exact ⟨rfl, hAfter⟩
          | ok w =>
              rcases ih vs h' k' hAfter with ⟨hEq', hAfter'⟩
              dsimp only
              generalize applyAll T cs vs h' = x at hEq' hAfter'
              generalize applyAll T cs vs k' = y at hEq' hAfter'
              rcases x with ⟨s, h''⟩
              rcases y with ⟨s', k''⟩
              have hSame' : s' = s := hEq'
              subst hSame'
              cases s' with
              | error e => exact ⟨rfl, hAfter'⟩
              | ok ws => exact ⟨rfl, hAfter'⟩

theorem convertConstant_blind
    (v : Value)
    (t : Ty) :
    Blind (convertConstant T v t) := by
  intro h k hAlike
  unfold convertConstant
  split
  · exact ⟨rfl, hAlike⟩
  · cases hv : v with
    | void => exact ⟨rfl, hAlike⟩
    | null => exact ⟨rfl, hAlike⟩
    | prim p | ref o =>
        dsimp only
        rw [← hv]
        split
        · exact ⟨rfl, hAlike⟩
        · split
          · exact ⟨rfl, hAlike⟩
          · rename_i c _
            rcases Conversion.apply_blind (T := T) c v h k hAlike
              with ⟨hEq, hAfter⟩
            generalize c.apply T v h = x at hEq hAfter
            generalize c.apply T v k = y at hEq hAfter
            rcases x with ⟨r, h'⟩
            rcases y with ⟨r', k'⟩
            have hSame : r' = r := hEq
            subst hSame
            cases r' with
            | error e => exact ⟨rfl, hAfter⟩
            | ok w => exact ⟨rfl, hAfter⟩

------------------------------------------------------------
-- Bodies
------------------------------------------------------------

theorem Heap.Alike.field?_eq
    (hAlike : h.Alike k)
    (o : Obj)
    (offset : Nat) :
    k.field? o offset = h.field? o offset := by
  unfold Heap.field?
  cases Heap.fieldRef o offset with
  | none => rfl
  | some r => exact hAlike.cell?_eq r

namespace Body

variable {b : Body}

theorem storeFields_blind
    (o : Obj)
    (args : List Value)
    (pairs : List (Nat × Nat)) :
    Blind (b.storeFields o args pairs) := by
  induction pairs with
  | nil => exact Blind.same _
  | cons p rest ih =>
      rcases p with ⟨offset, i⟩
      intro h k hAlike
      unfold storeFields
      rw [hAlike.field?_eq]
      split
      · exact ih _ _ (hAlike.storeCell _ _)
      · exact ⟨rfl, hAlike⟩

theorem throwNew_blind
    (n : ClassName)
    (message : Option String) :
    Blind (throwNew n message) := by
  intro h k hAlike
  have hNew :=
    hAlike.alloc (s := .throwable n message) .fixed
  rcases hNew with ⟨hEq, hAfter⟩
  exact
    ⟨congrArg (fun o => Except.error (Fault.thrown o)) hEq,
      hAfter⟩

theorem run_blind
    (b : Body)
    (args : List Value) :
    Blind (b.run args) := by
  intro h k hAlike
  cases b with
  | const v => exact ⟨rfl, hAlike⟩
  | arg i =>
      unfold run
      dsimp only
      split
      · exact ⟨rfl, hAlike⟩
      · exact ⟨rfl, hAlike⟩
  | add => exact ⟨rfl, hAlike⟩
  | sub => exact ⟨rfl, hAlike⟩
  | neg => exact ⟨rfl, hAlike⟩
  | div =>
      unfold run
      dsimp only
      split
      · split
        · exact throwNew_blind _ _ h k hAlike
        · exact ⟨rfl, hAlike⟩
      · exact ⟨rfl, hAlike⟩
  | isPositive => exact ⟨rfl, hAlike⟩
  | throw n m => exact throwNew_blind n m h k hAlike
  | rethrow =>
      unfold run
      dsimp only
      split
      · exact ⟨rfl, hAlike⟩
      · exact ⟨rfl, hAlike⟩
  | message =>
      unfold run
      dsimp only
      split
      · exact ⟨rfl, hAlike⟩
      · split
        · rename_i m _
          have hNew := hAlike.alloc (s := .text m) .fixed
          rcases hNew with ⟨hEq, hAfter⟩
          exact
            ⟨congrArg (fun o => Except.ok (Value.ref o)) hEq,
              hAfter⟩
        · exact ⟨rfl, hAlike⟩
  | fail f => exact ⟨rfl, hAlike⟩
  | setFields pairs =>
      unfold run
      dsimp only
      split
      · exact storeFields_blind _ args pairs h k hAlike
      · exact ⟨rfl, hAlike⟩
  | getField offset =>
      unfold run
      dsimp only
      cases object? args 0 with
      | none => exact ⟨rfl, hAlike⟩
      | some o =>
          dsimp only [Option.bind]
          rw [hAlike.field?_eq]
          split
          · exact ⟨rfl, hAlike⟩
          · exact ⟨rfl, hAlike⟩
  | arrayLength =>
      unfold run
      dsimp only
      cases object? args 0 with
      | none => exact ⟨rfl, hAlike⟩
      | some o =>
          dsimp only [Option.bind]
          rw [hAlike.elements?_eq]
          split
          · exact ⟨rfl, hAlike⟩
          · exact ⟨rfl, hAlike⟩
  | setElement i j =>
      unfold run
      dsimp only
      split
      · rw [hAlike.elements?_eq]
        split
        · exact ⟨rfl, hAlike.setElement _ _ _⟩
        · exact ⟨rfl, hAlike⟩
      · exact ⟨rfl, hAlike⟩

end Body

------------------------------------------------------------
-- Worlds
------------------------------------------------------------

theorem World.allocate_blind
    (w : World)
    (n : ClassName)
    (hAlike : h.Alike k) :
    Option.Rel (fun x y => y.1 = x.1 ∧ x.2.Alike y.2)
      (w.allocate n h) (w.allocate n k) := by
  unfold World.allocate
  cases w.layout? n with
  | none => exact .none
  | some fields =>
      have hNew :=
        hAlike.alloc (s := .plain n)
          (.cells (fields.map Cell.new))
      rcases hNew with ⟨hEq, hAfter⟩
      exact .some ⟨congrArg Except.ok hEq, hAfter⟩

theorem World.host_isBlind (w : World) : w.host.IsBlind where
  call := by
    intro code args h k hAlike
    change
      (w.runBody code args k).1 = (w.runBody code args h).1 ∧
        (w.runBody code args h).2.Alike (w.runBody code args k).2
    unfold World.runBody
    split
    · exact Body.run_blind _ args h k hAlike
    · exact ⟨rfl, hAlike⟩
  allocate := by
    intro n h k hAlike
    exact w.allocate_blind n hAlike

end Linkage
