import Linkage.Proofs.Gaps.Runs
import Linkage.Proofs.Invoke.Moments

/-
  Entering commutes with gaps, if the host does what it does
  whatever numbers objects have and no retyping is remembered.
  Each behaviour commutes if entering its delegates does, and
  so, by induction on the depth, entering any target.

  Key theorems include:
    * `Gap.Moves.behave`
    * `Gap.Moves.enterStub`
    * `Gap.Moves.enter`
-/

------------------------------------------------------------
-- Members of the Host
------------------------------------------------------------

namespace Linkage

namespace Gap

namespace Moves

variable {g : Gap}
variable {rt : Runtime}
variable {n : Nat}
variable {sig : Signature}
theorem receiverOf
    (m : Method)
    (args : List Value) :
    g.Moves g.halt g.obj (receiverOf m args)
      (receiverOf m (args.map g.value)) := by
  cases args with
  | nil => exact plainFault nofun
  | cons v rest =>
      cases v with
      | ref o => exact pure rfl
      | _ => exact plainFault nofun

theorem fieldReceiver
    (x : Field)
    (args : List Value) :
    g.Moves g.halt g.obj (fieldReceiver x args)
      (fieldReceiver x (args.map g.value)) := by
  cases args with
  | nil => exact plainFault nofun
  | cons v rest =>
      cases v with
      | ref o => exact pure rfl
      | _ => exact plainFault nofun

theorem splitLast_values (args : List Value) :
    splitLast (args.map g.value) =
      (g.value (splitLast args).1,
        (splitLast args).2.map g.value) := by
  unfold splitLast
  rw [List.getLast?_map, List.map_dropLast]
  cases args.getLast? with
  | _ => rfl

section Host

variable (hHost : rt.host.Uniform n)
variable (hFrom : n ≤ g.start)

include hHost hFrom

theorem runDirect
    (m : Method)
    (how : MethodKind)
    (entry : Code)
    (args : List Value) :
    g.Moves g.halt g.value (runDirect rt m how entry args)
      (runDirect rt m how entry (args.map g.value)) := by
  have hInstance :
      g.Moves g.halt g.value
        (do
          let _ ← Linkage.receiverOf m args
          Run.call rt entry args)
        (do
          let _ ← Linkage.receiverOf m (args.map g.value)
          Run.call rt entry (args.map g.value)) :=
    bind (receiverOf m args) (fun _ => call hHost hFrom entry args)
  cases how with
  | isStatic => exact call hHost hFrom entry args
  | isConstructor =>
      unfold Linkage.runDirect
      refine bind (allocate hHost hFrom m.declaring) ?_
      intro o
      refine bind (call hHost hFrom entry (.ref o :: args)) ?_
      exact fun _ => pure rfl
  | isVirtual => exact hInstance
  | isInterface => exact hInstance
  | isSpecial => exact hInstance

theorem runVirtual
    (m : Method)
    (slot : Nat)
    (args : List Value) :
    g.Moves g.halt g.value (runVirtual rt m slot args)
      (runVirtual rt m slot (args.map g.value)) := by
  unfold Linkage.runVirtual
  refine bind (receiverOf m args) ?_
  intro o
  rw [obj_type]
  cases rt.host.virtualEntry o.type slot with
  | some code => exact call hHost hFrom code args
  | none => exact plainFault nofun

theorem runInterface
    (m : Method)
    (slot : Nat)
    (args : List Value) :
    g.Moves g.halt g.value (runInterface rt m slot args)
      (runInterface rt m slot (args.map g.value)) := by
  unfold Linkage.runInterface
  refine bind (receiverOf m args) ?_
  intro o
  rw [obj_type]
  refine ite (fun _ => ?_) (fun _ => plainFault nofun)
  cases rt.host.interfaceEntry o.type m.declaring slot with
  | some code => exact call hHost hFrom code args
  | none => exact plainFault nofun

------------------------------------------------------------
-- Fields
------------------------------------------------------------

/- Static cells come before all objects of a run. -/
theorem fieldPlace
    (x : Field)
    (offset : Nat)
    (args : List Value) :
    g.Moves g.halt (Option.map g.place)
      (fieldPlace rt x offset args)
      (fieldPlace rt x offset (args.map g.value)) := by
  unfold Linkage.fieldPlace
  refine ite (fun _ => pure ?_) (fun _ => ?_)
  · cases hCell : rt.host.staticCell x.declaring offset with
    | none => rfl
    | some r =>
        have hBefore := hHost.staticCell _ _ r hCell
        unfold place
        rw [Option.map_some,
          number_lt (Nat.lt_of_lt_of_le hBefore hFrom)]
  · refine bind (fieldReceiver x args) ?_
    exact fun o => pure (fieldRef_obj o offset)

theorem runFieldGet
    (x : Field)
    (offset : Nat)
    (args : List Value) :
    g.Moves g.halt g.value (runFieldGet rt x offset args)
      (runFieldGet rt x offset (args.map g.value)) := by
  unfold Linkage.runFieldGet
  refine bind (fieldPlace hHost hFrom x offset args) ?_
  intro p
  apply get_bind
  intro s hStart
  cases p with
  | none => exact plainFault nofun
  | some r =>
      have hCell :
          (g.state s).heap.cell? (g.place r) =
            (s.heap.cell? r).map g.cell :=
        cell?_heap hStart r
      dsimp only [Option.map_some, Option.bind_some]
      rw [hCell]
      cases s.heap.cell? r with
      | none => exact plainFault nofun
      | some c => exact pure (load_cell c)

theorem runFieldSet
    (x : Field)
    (offset : Nat)
    (args : List Value) :
    g.Moves g.halt g.value (runFieldSet rt x offset args)
      (runFieldSet rt x offset (args.map g.value)) := by
  unfold Linkage.runFieldSet
  rw [splitLast_values]
  dsimp only
  refine bind (fieldPlace hHost hFrom x offset _) ?_
  intro p
  cases p with
  | none => exact plainFault nofun
  | some r =>
      apply get_bind
      intro s hStart
      have hCell :
          (g.state s).heap.cell? (g.place r) =
            (s.heap.cell? r).map g.cell :=
        cell?_heap hStart r
      rw [hCell]
      cases s.heap.cell? r with
      | none => exact plainFault nofun
      | some c =>
          refine
            bind (changeHeap (·.storeCell r _) (·.storeCell _ _) ?_)
              (fun _ => pure rfl)
          intro h hStart
          refine ⟨storeCell_heap hStart r _, ?_⟩
          rw [Heap.size_storeCell]
          exact hStart

end Host

------------------------------------------------------------
-- Arrays
------------------------------------------------------------

theorem arrayOf (args : List Value) :
    g.Moves g.halt (fun p => (g.obj p.1, p.2.map g.value))
      (arrayOf args) (arrayOf (args.map g.value)) := by
  cases args with
  | nil => exact plainFault nofun
  | cons v rest =>
      cases v with
      | ref o =>
          apply get_bind
          intro s hStart
          have hElements :
              (g.state s).heap.elements? (g.obj o) =
                (s.heap.elements? o).map (List.map g.value) :=
            elements?_heap hStart o
          rw [hElements]
          cases s.heap.elements? o with
          | none => exact plainFault nofun
          | some vs => exact pure rfl
      | _ => exact plainFault nofun

theorem elementOf (args : List Value) :
    g.Moves g.halt (fun p => (g.obj p.1, p.2.1.map g.value, p.2.2))
      (elementOf args) (elementOf (args.map g.value)) := by
  unfold Linkage.elementOf
  refine bind (arrayOf args) ?_
  rintro ⟨o, vs⟩
  dsimp only
  rw [← List.map_tail, List.length_map]
  cases args.tail with
  | nil => exact plainFault nofun
  | cons v rest =>
      cases v with
      | prim p =>
          cases p with
          | int i =>
              refine ite (fun _ => pure rfl) (fun _ => ?_)
              exact plainFault nofun
          | _ => exact plainFault nofun
      | _ => exact plainFault nofun

theorem runArrayGet (args : List Value) :
    g.Moves g.halt g.value (runArrayGet args)
      (runArrayGet (args.map g.value)) := by
  unfold Linkage.runArrayGet
  refine bind (elementOf args) ?_
  rintro ⟨o, vs, i⟩
  dsimp only
  rw [List.getElem?_map, List.length_map]
  cases vs[i]? with
  | none => exact plainFault nofun
  | some v => exact pure rfl

theorem runArraySet (args : List Value) :
    g.Moves g.halt g.value (runArraySet rt args)
      (runArraySet rt (args.map g.value)) := by
  unfold Linkage.runArraySet
  rw [splitLast_values]
  dsimp only
  refine bind (elementOf _) ?_
  rintro ⟨o, vs, i⟩
  dsimp only
  rw [conforms_value, typeText_value]
  refine ite (fun _ => ?_) (fun _ => plainFault nofun)
  refine
    bind (changeHeap (·.setElement o i _) (·.setElement _ _ _) ?_)
      (fun _ => pure rfl)
  intro h hStart
  refine ⟨setElement_heap hStart o i _, ?_⟩
  rw [Heap.size_setElement]
  exact hStart

theorem runArrayLength (args : List Value) :
    g.Moves g.halt g.value (runArrayLength args)
      (runArrayLength (args.map g.value)) := by
  unfold Linkage.runArrayLength
  refine bind (arrayOf args) ?_
  rintro ⟨o, vs⟩
  dsimp only
  rw [List.length_map]
  exact pure rfl

theorem runThrow (args : List Value) :
    g.Moves g.halt g.value (runThrow args)
      (runThrow (args.map g.value)) := by
  cases args with
  | nil => exact plainFault nofun
  | cons v rest =>
      cases v with
      | ref o => exact fault rfl
      | _ => exact plainFault nofun

------------------------------------------------------------
-- Edits of Arguments
------------------------------------------------------------

theorem leadingArgs
    (count : Nat)
    (args : List Value) :
    g.Moves g.halt (List.map g.value) (leadingArgs sig count args)
      (leadingArgs sig count (args.map g.value)) := by
  unfold Linkage.leadingArgs
  rw [List.length_map]
  refine ite (fun _ => pure ?_) (fun _ => plainFault nofun)
  exact List.map_take.symm

theorem newArray
    (component : Ty)
    (vs : List Value) :
    g.Moves g.halt g.obj (Run.newArray component vs)
      (Run.newArray component (vs.map g.value)) :=
  onHeap (Shifts.alloc (.array component) (.elements vs))

theorem collectArgs
    (component : Ty)
    (count : Nat)
    (args : List Value) :
    g.Moves g.halt (List.map g.value)
      (collectArgs sig component count args)
      (collectArgs sig component count (args.map g.value)) := by
  unfold Linkage.collectArgs
  rw [List.length_map]
  refine ite (fun _ => plainFault nofun) (fun _ => ?_)
  dsimp only
  rw [← List.map_drop, ← List.map_take]
  refine bind (newArray component _) ?_
  intro o
  apply pure
  rw [List.map_append]
  rfl

theorem spreadArgs
    (count : Nat)
    (args : List Value) :
    g.Moves g.halt (List.map g.value) (spreadArgs sig count args)
      (spreadArgs sig count (args.map g.value)) := by
  unfold Linkage.spreadArgs
  rw [List.getLast?_map, ← List.map_dropLast]
  cases args.getLast? with
  | none => exact plainFault nofun
  | some v =>
      cases v with
      | null =>
          refine ite (fun _ => pure rfl) (fun _ => ?_)
          exact plainFault nofun
      | ref o =>
          apply get_bind
          intro s hStart
          have hElements :
              (g.state s).heap.elements? (g.obj o) = _ :=
            elements?_heap hStart o
          rw [hElements]
          cases s.heap.elements? o with
          | none => exact plainFault nofun
          | some vs =>
              dsimp only [Option.map_some]
              rw [List.length_map]
              refine ite (fun _ => pure ?_) (fun _ => ?_)
              · exact List.map_append.symm
              · exact plainFault nofun
      | _ => exact plainFault nofun

theorem permuteArgs
    (args : List Value)
    (order : List Nat) :
    g.Moves g.halt (List.map g.value) (permuteArgs sig args order)
      (permuteArgs sig (args.map g.value) order) := by
  induction order with
  | nil => exact pure rfl
  | cons i is ih =>
      unfold Linkage.permuteArgs
      rw [List.getElem?_map]
      cases args[i]? with
      | none => exact plainFault nofun
      | some v => exact bind ih (fun _ => pure rfl)

theorem insertArgs
    (pos : Nat)
    (vs args : List Value) :
    g.Moves g.halt (List.map g.value) (insertArgs pos vs args)
      (insertArgs pos (vs.map g.value) (args.map g.value)) := by
  unfold Linkage.insertArgs
  rw [List.length_map]
  refine ite (fun _ => pure ?_) (fun _ => throw rfl)
  rw [List.map_append, List.map_append, List.map_take,
    List.map_drop]

theorem dropArgs
    (pos count : Nat)
    (args : List Value) :
    g.Moves g.halt (List.map g.value) (dropArgs pos count args)
      (dropArgs pos count (args.map g.value)) := by
  unfold Linkage.dropArgs
  rw [List.length_map]
  refine ite (fun _ => pure ?_) (fun _ => throw rfl)
  rw [List.map_append, List.map_take, List.map_drop]

------------------------------------------------------------
-- Delegates
------------------------------------------------------------

/- The object that stands for a fault. -/
theorem throwable (x : Fault) :
    g.Moves g.halt g.obj (Run.throwable x)
      (Run.throwable (g.fault x)) := by
  cases x with
  | thrown o => exact pure rfl
  | _ => exact onHeap (Shifts.alloc (.throwable _ _) .fixed)

theorem catching
    {T : ClassTable}
    {caught : ClassName}
    {m m' : Run Value}
    {k k' : Fault → Run Value}
    (hFirst : g.Moves g.halt g.value m m')
    (hRest : ∀ x, g.Moves g.halt g.value (k x) (k' (g.fault x))) :
    g.Moves g.halt g.value (Run.catching T caught m k)
      (Run.catching T caught m' k') := by
  intro s hStart
  rcases hFirst s hStart with ⟨hEq, hLater⟩
  unfold Run.catching
  rw [hEq]
  generalize m s = r at hLater
  cases r with
  | ok v s' => exact ⟨rfl, hLater⟩
  | error x s' =>
      cases x with
      | fault x =>
          change
            (if (g.fault x).isInstance T caught
              then k' (g.fault x) (g.state s')
              else .error (.fault (g.fault x)) (g.state s')) =
                g.result g.halt g.value
                  (if x.isInstance T caught then k x s'
                    else .error (.fault x) s') ∧
              g.start ≤
                (Run.final
                  (if x.isInstance T caught then k x s'
                    else .error (.fault x) s')).heap.size
          rw [isInstance_fault]
          by_cases hCaught : x.isInstance T caught = true
          · rw [if_pos hCaught, if_pos hCaught]
            exact hRest x s' hLater
          · rw [if_neg hCaught, if_neg hCaught]
            exact ⟨rfl, hLater⟩
      | _ => exact ⟨rfl, hLater⟩

section Enter

variable {enter enter' : Enter}

variable
  (hEnter :
    ∀ t args,
      g.Moves g.halt g.value (enter t args)
        (enter' (g.target t) (args.map g.value)))

include hEnter

theorem runFilters
    (i : Nat)
    (fs : List (Option Target))
    (args : List Value) :
    g.Moves g.halt (List.map g.value)
      (runFilters enter sig i fs args)
      (runFilters enter' sig i (g.filters fs)
        (args.map g.value)) := by
  induction fs generalizing i args with
  | nil => exact pure rfl
  | cons f fs ih =>
      cases f with
      | none => exact ih (i + 1) args
      | some f =>
          unfold filters filter Linkage.runFilters
          rw [List.getElem?_map]
          cases args[i]? with
          | none => exact plainFault nofun
          | some v =>
              have hRoots :
                  rootsOf ((args.map g.value).set i .null) =
                    (rootsOf (args.set i .null)).map g.root := by
                rw [← rootsOf_values, List.map_set]
                rfl
              refine bind (holding hRoots (hEnter f [v])) ?_
              intro w
              rw [← List.map_set]
              exact ih (i + 1) (args.set i w)

theorem runFold
    (t c : Target)
    (args : List Value) :
    g.Moves g.halt g.value (runFold enter sig t c args)
      (runFold enter' sig (g.target t) (g.target c)
        (args.map g.value)) := by
  unfold Linkage.runFold
  rw [count_target, ret_target]
  refine bind (leadingArgs c.count args) ?_
  intro first
  refine bind (holding (rootsOf_values args) (hEnter c first)) ?_
  intro v
  exact
    ite (fun _ => hEnter t args) (fun _ => hEnter t (v :: args))

theorem runGuard
    (c yes no : Target)
    (args : List Value) :
    g.Moves g.halt g.value (runGuard enter c yes no sig args)
      (runGuard enter' (g.target c) (g.target yes) (g.target no) sig
        (args.map g.value)) := by
  unfold Linkage.runGuard
  rw [count_target]
  refine bind (leadingArgs c.count args) ?_
  intro first
  refine bind (holding (rootsOf_values args) (hEnter c first)) ?_
  intro v
  cases v with
  | prim p =>
      cases p with
      | boolean b =>
          cases b with
          | true => exact hEnter yes args
          | false => exact hEnter no args
      | _ => exact plainFault nofun
  | _ => exact plainFault nofun

theorem runRescue
    (t : Target)
    (caught : ClassName)
    (handler : Target)
    (args : List Value) :
    g.Moves g.halt g.value
      (runRescue rt enter sig t caught handler args)
      (runRescue rt enter' sig (g.target t) caught
        (g.target handler) (args.map g.value)) := by
  rw [Course.runRescue_eq, Course.runRescue_eq, count_target]
  refine bind (leadingArgs (handler.count - 1) args) ?_
  intro first
  refine
    catching (holding (rootsOf_values first) (hEnter t args)) ?_
  intro x
  refine holding (roots_fault x) (bind (throwable x) ?_)
  exact fun o => hEnter handler (.ref o :: first)

theorem runSite
    (i : SiteId)
    (args : List Value) :
    g.Moves g.halt g.value (runSite enter i args)
      (runSite enter' i (args.map g.value)) := by
  apply get_bind
  intro s hStart
  have hSite : (g.state s).site? i = (s.site? i).map g.site := by
    unfold State.site? state
    exact Array.getElem?_map
  rw [hSite]
  cases s.site? i with
  | none => exact throw rfl
  | some x => exact holding rfl (hEnter x.target args)

theorem runInvoker
    (hForget : rt.memoizeAsType = false)
    (whole : Signature)
    (exact : Bool)
    (sig : Signature)
    (args : List Value) :
    g.Moves g.halt g.value
      (runInvoker rt enter whole exact sig args)
      (runInvoker rt enter' whole exact sig
        (args.map g.value)) := by
  cases args with
  | nil => exact plainFault nofun
  | cons v rest =>
      cases v with
      | ref o =>
          apply get_bind
          intro s hStart
          have hHandle :
              (g.state s).heap.handle? (g.obj o) = _ :=
            handle?_heap hStart o
          rw [hHandle]
          cases s.heap.handle? o with
          | none => exact plainFault nofun
          | some t =>
              refine holding rfl ?_
              cases exact with
              | true => exact invokeExactTyped hEnter t sig rest
              | false => exact invokeTyped hEnter hForget t sig rest
      | _ => exact plainFault nofun

/- Each behaviour commutes if entering the delegates does. -/
theorem behave
    (hHost : rt.host.Uniform n)
    (hFrom : n ≤ g.start)
    (hForget : rt.memoizeAsType = false)
    (t : Target)
    (args : List Value) :
    g.Moves g.halt g.value (t.behave rt enter args)
      ((g.target t).behave rt enter' (args.map g.value)) := by
  unfold Target.behave
  rw [signature_target, form_target]
  cases t.form with
  | direct m how entry => exact runDirect hHost hFrom m how entry args
  | virtual m slot => exact runVirtual hHost hFrom m slot args
  | interface m slot => exact runInterface hHost hFrom m slot args
  | fieldGet x offset => exact runFieldGet hHost hFrom x offset args
  | fieldSet x offset => exact runFieldSet hHost hFrom x offset args
  | bound u v => exact hEnter u (v :: args)
  | convertArguments u cs =>
      unfold form
      dsimp only
      rw [Run.onHeap_applyAll, Run.onHeap_applyAll]
      exact bind (convertEach cs args) (hEnter u)
  | convertReturn u c =>
      refine bind (hEnter u args) ?_
      exact fun v => onHeap (Shifts.apply c v)
  | filterReturn u f =>
      unfold form
      dsimp only
      rw [ret_target]
      refine bind (hEnter u args) ?_
      intro v
      have hArgs :
          (if u.ret.IsVoid then [] else [g.value v]) =
            (if u.ret.IsVoid then [] else [v]).map g.value := by
        split
        · rfl
        · rfl
      rw [hArgs]
      exact hEnter f _
  | filterArguments u pos fs =>
      exact bind (runFilters hEnter pos fs args) (hEnter u)
  | collect u component count =>
      exact bind (collectArgs component count args) (hEnter u)
  | spread u count => exact bind (spreadArgs count args) (hEnter u)
  | permute u order =>
      refine bind (permuteArgs args order) ?_
      exact fun vs => holding (rootsOf_values args) (hEnter u vs)
  | insert u pos vs =>
      exact bind (insertArgs pos vs args) (hEnter u)
  | drop u pos count =>
      exact bind (dropArgs pos count args) (hEnter u)
  | fold u c => exact runFold hEnter u c args
  | guard c yes no => exact runGuard hEnter c yes no args
  | rescue u caught h => exact runRescue hEnter u caught h args
  | varargs u array => exact hEnter u args
  | site i => exact runSite hEnter i args
  | constant v => exact pure rfl
  | identity =>
      cases args with
      | nil => exact plainFault nofun
      | cons v rest => exact pure rfl
  | throw => exact runThrow args
  | arrayGet => exact runArrayGet args
  | arraySet => exact runArraySet args
  | arrayLength => exact runArrayLength args
  | invoker exact sig =>
      exact runInvoker hEnter hForget t.signature exact sig args
  | unlinked => exact plainFault nofun

end Enter

------------------------------------------------------------
-- Stubs
------------------------------------------------------------

section Stubs

variable (hHost : rt.host.Uniform n)
variable (hFrom : n ≤ g.start)
variable (hForget : rt.memoizeAsType = false)

include hHost hFrom hForget

/- Entering a target commutes at every depth. -/
theorem enterStub
    (fuel : Nat)
    (stub : Stub)
    (t : Target)
    (args : List Value) :
    g.Moves g.halt g.value (enterStub rt fuel stub t args)
      (enterStub rt fuel stub (g.target t)
        (args.map g.value)) := by
  induction fuel generalizing stub t args with
  | zero => exact throw rfl
  | succ fuel ih =>
      have hEnter :
          ∀ u as,
            g.Moves g.halt g.value
              (Linkage.enterStub rt fuel u.stub u as)
              (Linkage.enterStub rt fuel (g.target u).stub
                (g.target u) (as.map g.value)) := by
        intro u as
        rw [stub_target]
        exact ih u.stub u as
      unfold Linkage.enterStub
      refine bind (log rfl) ?_
      intro _
      unfold wrongCount
      rw [List.length_map]
      refine ite (fun _ => ?_) (fun _ => ?_)
      · exact behave hEnter hHost hFrom hForget t args
      · apply plainFault
        intro o hThrown
        cases hThrown

theorem enter
    (fuel : Nat)
    (t : Target)
    (args : List Value) :
    g.Moves g.halt g.value (Target.enter rt fuel t args)
      (Target.enter rt fuel (g.target t) (args.map g.value)) := by
  unfold Target.enter
  rw [stub_target]
  exact enterStub hHost hFrom hForget fuel t.stub t args

end Stubs

end Moves

end Gap

end Linkage
