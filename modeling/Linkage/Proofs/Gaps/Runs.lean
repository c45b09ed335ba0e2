import Linkage.Proofs.Gaps.Heap
import Linkage.Proofs.Invoke.Converted

/-
  Operations that commute with a gap.  From the state with the
  gap such an operation comes to what it comes to without it,
  moved by the gap; so it can not tell whether there are some
  more boxes.  Conversions commute, and so does making
  targets, as long as no retyping is remembered.

  Key definitions include:
    * `Gap.state`
    * `Gap.Shifts`
    * `Gap.Moves`
    * `Host.Uniform`

  Key theorems include:
    * `Gap.Moves.bind`
    * `Gap.Moves.onHeap`
    * `Gap.Moves.holding`
    * `Gap.Shifts.apply`
    * `Gap.Moves.asType`
    * `Gap.Moves.invokeTyped`
-/

------------------------------------------------------------
-- States
------------------------------------------------------------

namespace Linkage

namespace Gap

variable (g : Gap)

def root : Root → Root
| .target t => .target (g.target t)
| .object i => .object (g.number i)
| .site i => .site i

def event : Event → Event
| .entered t args => .entered (g.target t) (args.map g.value)
| .allocated n => .allocated n
| .called code args h =>
    .called code (args.map g.value) (g.heap h)

def site (x : Site) : Site :=
  { x with target := g.target x.target }

/- What is remembered and cached has no part in it. -/
def state (s : State) : State :=
  { s with
    heap := g.heap s.heap
    sites := s.sites.map g.site
    held := s.held.map g.root
    trace := s.trace.map g.event }

def fault : Fault → Fault
| .thrown o => .thrown (g.obj o)
| f => f

def halt : Halt → Halt
| .fault f => .fault (g.fault f)
| e => e

variable {α β ε : Type}

def outcome (f : α → α) : Except Fault α → Except Fault α
| .ok a => .ok (f a)
| .error e => .error (g.fault e)

def result
    (e : ε → ε)
    (f : α → α) :
    EStateM.Result ε State α → EStateM.Result ε State α
| .ok a s => .ok (f a) (g.state s)
| .error x s => .error (e x) (g.state s)

/- An operation on the heap that commutes with the gap. -/
def Shifts
    (f : α → α)
    (m n : Heap → Except Fault α × Heap) : Prop :=
  ∀ h, g.start ≤ h.size →
    n (g.heap h) = (g.outcome f (m h).1, g.heap (m h).2) ∧
      g.start ≤ (m h).2.size

/-
  The second operation comes from each state with the gap to
  what the first comes to without it, moved by the gap.
-/
def Moves
    (e : ε → ε)
    (f : α → α)
    (m n : EStateM ε State α) : Prop :=
  ∀ s, g.start ≤ s.heap.size →
    n (g.state s) = g.result e f (m s) ∧
      g.start ≤ (Run.final (m s)).heap.size

end Gap

/-
  What the host does is the same whatever numbers objects
  have, from a number on: it treats objects with later numbers
  as it treats them with their own, and takes none away.
-/
structure Host.Uniform
    (H : Host)
    (n : Nat) : Prop where
  call :
    ∀ g : Gap, n ≤ g.start → ∀ code args,
      g.Shifts g.value (H.call code args)
        (H.call code (args.map g.value))
  allocate :
    ∀ g : Gap, n ≤ g.start → ∀ c h, g.start ≤ h.size →
      H.allocate c (g.heap h) =
          (H.allocate c h).map
            (fun p => (g.outcome g.obj p.1, g.heap p.2)) ∧
        ∀ p, H.allocate c h = some p → g.start ≤ p.2.size
  staticCell :
    ∀ c i r, H.staticCell c i = some r → r.object < n

namespace Gap

variable {g : Gap}
variable {α β ε : Type}
variable {e : ε → ε}
variable {f : α → α}

------------------------------------------------------------
-- Faults and Roots
------------------------------------------------------------

theorem roots_value (v : Value) :
    (g.value v).roots = v.roots.map g.root := by
  cases v with
  | _ => rfl

theorem rootsOf_values (args : List Value) :
    rootsOf (args.map g.value) = (rootsOf args).map g.root := by
  unfold rootsOf
  rw [List.flatMap_map, List.map_flatMap]
  exact List.flatMap_congr (fun v _ => roots_value v)

theorem roots_fault (x : Fault) :
    (g.fault x).roots = x.roots.map g.root := by
  cases x with
  | _ => rfl

theorem isInstance_fault
    (T : ClassTable)
    (x : Fault)
    (n : ClassName) :
    (g.fault x).isInstance T n = x.isInstance T n := by
  cases x with
  | _ => rfl

theorem arguments_values
    (sig : Signature)
    (args : List Value) :
    Fault.arguments sig (args.map g.value) =
      Fault.arguments sig args := by
  unfold Fault.arguments Fault.argumentsText
  rw [List.map_map]
  congr 4
  exact List.map_congr_left (fun v _ => typeText_value v)

theorem admits_values
    (T : ClassTable)
    (sig : Signature)
    (args : List Value) :
    Target.admits T sig (args.map g.value) =
      Target.admits T sig args := by
  unfold Target.admits
  rw [List.length_map, List.zip_map_left, List.all_map]
  congr 2
  funext p
  exact conforms_value T p.1 p.2

------------------------------------------------------------
-- Sequences of Operations
------------------------------------------------------------

namespace Moves

variable {m n : EStateM ε State α}

theorem pure
    {a a' : α}
    (hMoved : a' = f a) :
    g.Moves e f (Pure.pure a : EStateM ε State α)
      (Pure.pure a') := by
  intro s hStart
  rw [hMoved]
  exact ⟨rfl, hStart⟩

theorem throw
    {x x' : ε}
    (hMoved : x' = e x) :
    g.Moves e f (MonadExcept.throw x : EStateM ε State α)
      (MonadExcept.throw x') := by
  intro s hStart
  rw [hMoved]
  exact ⟨rfl, hStart⟩

theorem bind
    {x : β → β}
    {m n : EStateM ε State β}
    {k l : β → EStateM ε State α}
    (hFirst : g.Moves e x m n)
    (hRest : ∀ b, g.Moves e f (k b) (l (x b))) :
    g.Moves e f (m >>= k) (n >>= l) := by
  intro s hStart
  rcases hFirst s hStart with ⟨hEq, hLater⟩
  change
    EStateM.bind n l (g.state s) = g.result e f (EStateM.bind m k s) ∧
      g.start ≤ (Run.final (EStateM.bind m k s)).heap.size
  unfold EStateM.bind
  rw [hEq]
  generalize m s = r at hLater
  cases r with
  | ok b s' => exact hRest b s' hLater
  | error x s' => exact ⟨rfl, hLater⟩

theorem get_bind
    {k l : State → EStateM ε State α}
    (hRest :
      ∀ s, g.start ≤ s.heap.size →
        g.Moves e f (k s) (l (g.state s))) :
    g.Moves e f (MonadState.get >>= k) (MonadState.get >>= l) := by
  intro s hStart
  exact hRest s hStart s hStart

theorem ite
    {P : Prop}
    [Decidable P]
    {m' n' : EStateM ε State α}
    (hThen : P → g.Moves e f m n)
    (hElse : ¬P → g.Moves e f m' n') :
    g.Moves e f (if P then m else m') (if P then n else n') := by
  by_cases hP : P
  · rw [if_pos hP, if_pos hP]
    exact hThen hP
  · rw [if_neg hP, if_neg hP]
    exact hElse hP

/- A change of the state. -/
theorem change
    {x y : State → State}
    (hChange :
      ∀ s, g.start ≤ s.heap.size →
        y (g.state s) = g.state (x s) ∧
          g.start ≤ (x s).heap.size) :
    g.Moves e id (modify x : EStateM ε State PUnit)
      (modify y) := by
  intro s hStart
  rcases hChange s hStart with ⟨hEq, hLater⟩
  refine ⟨?_, hLater⟩
  change EStateM.Result.ok () (y (g.state s)) = .ok () _
  rw [hEq]

------------------------------------------------------------
-- Runs
------------------------------------------------------------

theorem fault
    {x x' : Fault}
    (hMoved : x' = g.fault x) :
    g.Moves g.halt f (Run.fault x) (Run.fault x') :=
  throw (congrArg Halt.fault hMoved)

/- A fault that throws nothing is the same with the gap. -/
theorem plainFault
    {x : Fault}
    (hPlain : ∀ o, x ≠ .thrown o) :
    g.Moves g.halt f (Run.fault x) (Run.fault x) := by
  apply fault
  cases x with
  | thrown o => exact absurd rfl (hPlain o)
  | _ => rfl

theorem onHeap
    {x y : Heap → Except Fault α × Heap}
    (hShifts : g.Shifts f x y) :
    g.Moves g.halt f (Run.onHeap x) (Run.onHeap y) := by
  intro s hStart
  rcases hShifts s.heap hStart with ⟨hEq, hLater⟩
  have hOperation :
      y (g.state s).heap =
        (g.outcome f (x s.heap).1, g.heap (x s.heap).2) :=
    hEq
  unfold Run.onHeap
  rw [hOperation]
  generalize x s.heap = r at hLater
  rcases r with ⟨r, h⟩
  cases r with
  | ok a => exact ⟨rfl, hLater⟩
  | error x => exact ⟨rfl, hLater⟩

theorem holding
    {m n : Run α}
    {rs rs' : List Root}
    (hRoots : rs' = rs.map g.root)
    (hMoves : g.Moves g.halt f m n) :
    g.Moves g.halt f (Run.holding rs m) (Run.holding rs' n) := by
  intro s hStart
  have hState :
      { g.state s with held := rs' ++ (g.state s).held } =
        g.state { s with held := rs ++ s.held } := by
    rw [hRoots]
    unfold state
    rw [List.map_append]
  rcases hMoves { s with held := rs ++ s.held } hStart with
    ⟨hEq, hLater⟩
  unfold Run.holding
  rw [hState, hEq]
  generalize m { s with held := rs ++ s.held } = r at hLater
  cases r with
  | ok a s' => exact ⟨rfl, hLater⟩
  | error x s' => exact ⟨rfl, hLater⟩

/- Making something within a run fails with one fault. -/
theorem ofLink
    {m n : Link α}
    {x : Fault}
    (hPlain : g.fault x = x)
    (hMoves : g.Moves id f m n) :
    g.Moves g.halt f (Run.ofLink m x) (Run.ofLink n x) := by
  intro s hStart
  rcases hMoves s hStart with ⟨hEq, hLater⟩
  unfold Run.ofLink
  rw [hEq]
  generalize m s = r at hLater
  cases r with
  | ok a s' => exact ⟨rfl, hLater⟩
  | error y s' =>
      refine ⟨?_, hLater⟩
      change
        EStateM.Result.error (Halt.fault x) _ =
          .error (.fault (g.fault x)) _
      rw [hPlain]

/- A change of the heap alone. -/
theorem changeHeap
    (x y : Heap → Heap)
    (hHeap :
      ∀ h, g.start ≤ h.size →
        y (g.heap h) = g.heap (x h) ∧ g.start ≤ (x h).size) :
    g.Moves e id
      (modify (fun s => { s with heap := x s.heap }) :
        EStateM ε State PUnit)
      (modify (fun s => { s with heap := y s.heap })) := by
  apply change
  intro s hStart
  rcases hHeap s.heap hStart with ⟨hEq, hLater⟩
  refine ⟨?_, hLater⟩
  change { g.state s with heap := y (g.heap s.heap) } = _
  rw [hEq]
  rfl

theorem log
    {x y : Event}
    (hEvent : y = g.event x) :
    g.Moves e id
      (modify (fun s => s.log x) : EStateM ε State PUnit)
      (modify (fun s => s.log y)) := by
  apply change
  intro s hStart
  rw [hEvent]
  exact ⟨rfl, hStart⟩

section Host

variable {rt : Runtime}
variable {n : Nat}
variable (hHost : rt.host.Uniform n)
variable (hFrom : n ≤ g.start)

include hHost hFrom

theorem call
    (code : Code)
    (args : List Value) :
    g.Moves g.halt g.value (Run.call rt code args)
      (Run.call rt code (args.map g.value)) := by
  unfold Run.call
  refine bind (x := id) (change ?_) ?_
  · intro s hStart
    exact ⟨rfl, hStart⟩
  · intro _
    exact onHeap (hHost.call g hFrom code args)

theorem allocate
    (c : ClassName) :
    g.Moves g.halt g.obj (Run.allocate rt c)
      (Run.allocate rt c) := by
  intro s hStart
  rcases hHost.allocate g hFrom c s.heap hStart with ⟨hEq, hLater⟩
  have hAllocate :
      rt.host.allocate c (g.state s).heap =
        (rt.host.allocate c s.heap).map
          (fun p => (g.outcome g.obj p.1, g.heap p.2)) :=
    hEq
  unfold Run.allocate
  dsimp only
  rw [hAllocate]
  generalize rt.host.allocate c s.heap = r at hLater
  cases r with
  | none => exact ⟨rfl, hStart⟩
  | some p =>
      have hSize := hLater p rfl
      rcases p with ⟨r, h⟩
      cases r with
      | ok o => exact ⟨rfl, hSize⟩
      | error x => exact ⟨rfl, hSize⟩

end Host

end Moves

------------------------------------------------------------
-- Conversions
------------------------------------------------------------

namespace Shifts

variable {T : ClassTable}

/- The heap stays as it is. -/
theorem same
    {x x' : Except Fault α}
    (hMoved : x' = g.outcome f x) :
    g.Shifts f (fun h => (x, h)) (fun h => (x', h)) := by
  intro h hStart
  rw [hMoved]
  exact ⟨rfl, hStart⟩

/- A new object, whose contents the gap moves. -/
theorem alloc
    (s : Shape)
    (c : Contents) :
    g.Shifts g.obj
      (fun h => (.ok (h.alloc s c).1, (h.alloc s c).2))
      (fun h =>
        (.ok (h.alloc s (g.contents c)).1,
          (h.alloc s (g.contents c)).2)) := by
  intro h hStart
  dsimp only
  rw [alloc_heap hStart, Heap.size_alloc]
  refine ⟨rfl, ?_⟩
  exact Nat.le_succ_of_le hStart

theorem boxValue
    (k : Kind)
    (v : Value) :
    g.Shifts g.obj (boxValue k v) (boxValue k (g.value v)) := by
  cases v with
  | prim p =>
      unfold Linkage.boxValue
      by_cases hKind : p.kind = k
      · simp only [value_prim, if_pos hKind]
        exact alloc (.boxed p) .fixed
      · simp only [value_prim, if_neg hKind]
        exact same rfl
  | _ => exact same rfl

theorem checkCast
    (v : Value)
    (a : Ty) :
    Linkage.checkCast T (g.value v) a =
      g.outcome g.value (Linkage.checkCast T v a) := by
  cases v with
  | ref o =>
      change
        (if T.isAssignable o.type a then Except.ok (.ref (g.obj o))
          else .error (.castError o.type.text a)) =
          g.outcome g.value
            (if T.isAssignable o.type a then .ok (.ref o)
              else .error (.castError o.type.text a))
      split
      · rfl
      · rfl
  | _ => rfl

/- A value that was cast is no object. -/
theorem value_of_cast?
    {v w : Value}
    {k : Kind}
    (hCast : v.cast? k = some w) :
    g.value w = w :=
  value_of_plain (Value.cast?_plain hCast)

theorem castValue
    (a b : Kind)
    (v : Value) :
    Linkage.castValue a b (g.value v) =
      g.outcome g.value (Linkage.castValue a b v) := by
  unfold Linkage.castValue
  rw [cast?_value, typeText_value]
  cases hCast : v.cast? b with
  | none => rfl
  | some w => exact congrArg Except.ok (value_of_cast? hCast).symm

theorem unboxValue
    (source : UnboxSource)
    (k : Kind)
    (how : Strength)
    (v : Value) :
    Linkage.unboxValue source k how (g.value v) =
      g.outcome g.value (Linkage.unboxValue source k how v) := by
  cases v with
  | ref o =>
      unfold Linkage.unboxValue
      dsimp only [value_ref]
      rw [boxed?_obj, obj_type]
      cases o.boxed? with
      | none => rfl
      | some p =>
          dsimp only
          split
          · cases hCast : (Value.prim p).cast? k with
            | none => rfl
            | some w =>
                exact congrArg Except.ok (value_of_cast? hCast).symm
          · rfl
  | _ => rfl

theorem apply
    (c : Conversion)
    (v : Value) :
    g.Shifts g.value (c.apply T v) (c.apply T (g.value v)) := by
  cases c with
  | box k t =>
      intro h hStart
      rcases boxValue k v h hStart with ⟨hEq, hLater⟩
      unfold Conversion.apply
      dsimp only
      rw [hEq]
      generalize Linkage.boxValue k v h = r at hLater
      rcases r with ⟨r, h'⟩
      cases r with
      | error x => exact ⟨rfl, hLater⟩
      | ok o =>
          cases t with
          | none => exact ⟨rfl, hLater⟩
          | some a =>
              refine ⟨?_, hLater⟩
              exact congrArg (·, g.heap h') (checkCast (.ref o) a)
  | widen a b => exact same (castValue a b v)
  | narrow a b => exact same (castValue a b v)
  | unbox source k how => exact same (unboxValue source k how v)
  | cast a => exact same (checkCast v a)
  | zeroValue a =>
      exact same (congrArg Except.ok (value_zero a).symm)
  | _ => exact same rfl

end Shifts

/- Arguments that are converted one by one. -/
theorem Moves.convertEach
    {T : ClassTable}
    (cs : List Conversion)
    (args : List Value) :
    g.Moves g.halt (List.map g.value) (Run.convertEach T cs args)
      (Run.convertEach T cs (args.map g.value)) := by
  induction cs generalizing args with
  | nil => exact pure rfl
  | cons c cs ih =>
      cases args with
      | nil => exact pure rfl
      | cons v vs =>
          rw [List.map_cons, Run.convertEach_cons,
            Run.convertEach_cons]
          refine bind (onHeap (Shifts.apply c v)) ?_
          intro w
          exact bind (ih vs) (fun _ => pure rfl)

------------------------------------------------------------
-- Retyping and Gathering
------------------------------------------------------------

namespace Moves

variable {rt : Runtime}
variable {sig : Signature}

theorem inspects
    {m : Link α}
    {P : α → Prop}
    (hInspects : m.Inspects P)
    (hSame : ∀ a, f a = a) :
    g.Moves id f m m := by
  rcases hInspects with ⟨x, hx, _⟩
  intro s hStart
  rw [hx, hx]
  cases x with
  | ok a =>
      refine ⟨?_, hStart⟩
      exact congrArg (EStateM.Result.ok · _) (hSame a).symm
  | error y => exact ⟨rfl, hStart⟩

/- A node of a form that was moved is moved. -/
theorem build
    (sig : Signature)
    (form : Form Target) :
    g.Moves id g.target (Target.build rt sig form)
      (Target.build rt sig (g.form form)) := by
  intro s hStart
  unfold Target.build Target.buildKeyed
  dsimp only
  have hCache : (g.state s).cache = s.cache := rfl
  rw [hCache]
  generalize
    s.cache.get rt.compile (.ofSignature sig .none none) = r
  rcases r with ⟨r, c⟩
  cases r with
  | error x => exact ⟨rfl, hStart⟩
  | ok stub => exact ⟨rfl, hStart⟩

theorem convert
    (t : Target)
    (sig : Signature)
    (p : Plan) :
    g.Moves id g.target (t.convert rt sig p)
      ((g.target t).convert rt sig p) := by
  unfold Target.convert
  refine bind (x := g.target) ?_ ?_
  · unfold Target.convertResult
    rw [ret_target, signature_target]
    refine ite (fun _ => pure rfl) (fun _ => ?_)
    exact build _ (.convertReturn t p.ret)
  · intro u
    unfold Target.convertParams
    rw [signature_target]
    refine ite (fun _ => pure rfl) (fun _ => ?_)
    exact build _ (.convertArguments u p.params)

/- No retyping is remembered, so each one is made. -/
theorem asType
    (hForget : rt.memoizeAsType = false)
    (t : Target)
    (sig : Signature) :
    g.Moves id g.target (t.asType rt sig)
      ((g.target t).asType rt sig) := by
  have hNone :
      ∀ (u : Target) s, u.remembered? rt sig s = none := by
    intro u s
    unfold Target.remembered?
    rw [hForget]
    rfl
  unfold Target.asType
  rw [signature_target]
  refine ite (fun _ => pure rfl) (fun _ => ?_)
  apply get_bind
  intro s hStart
  rw [hNone, hNone]
  unfold Target.retype
  rw [signature_target, hForget]
  refine bind (x := id) (inspects (.ofSignature _) ?_) ?_
  · exact fun _ => rfl
  · intro p
    refine bind (x := g.target) (convert t sig p) ?_
    intro u
    exact pure rfl

theorem checkArguments
    (t : Target)
    (args : List Value) :
    g.Moves g.halt id (t.checkArguments rt args)
      ((g.target t).checkArguments rt (args.map g.value)) := by
  unfold Target.checkArguments
  rw [signature_target, admits_values, arguments_values]
  exact ite (fun _ => pure rfl) (fun _ => plainFault nofun)

section Enter

variable {enter enter' : Enter}

variable
  (hEnter :
    ∀ t args,
      g.Moves g.halt g.value (enter t args)
        (enter' (g.target t) (args.map g.value)))

include hEnter

theorem invokeExact
    (t : Target)
    (args : List Value) :
    g.Moves g.halt g.value (t.invokeExact rt enter args)
      ((g.target t).invokeExact rt enter'
        (args.map g.value)) := by
  unfold Target.invokeExact
  exact
    bind (checkArguments t args) (fun _ => hEnter t args)

theorem invokeExactTyped
    (t : Target)
    (sig : Signature)
    (args : List Value) :
    g.Moves g.halt g.value (t.invokeExactTyped rt enter sig args)
      ((g.target t).invokeExactTyped rt enter' sig
        (args.map g.value)) := by
  unfold Target.invokeExactTyped
  rw [signature_target]
  refine ite (fun _ => ?_) (fun _ => plainFault nofun)
  exact invokeExact hEnter t args

theorem invokeTyped
    (hForget : rt.memoizeAsType = false)
    (t : Target)
    (sig : Signature)
    (args : List Value) :
    g.Moves g.halt g.value (t.invokeTyped rt enter sig args)
      ((g.target t).invokeTyped rt enter' sig
        (args.map g.value)) := by
  unfold Target.invokeTyped
  rw [signature_target]
  refine
    bind
      (holding (rootsOf_values args)
        (ofLink rfl (asType hForget t sig)))
      ?_
  intro u
  exact holding rfl (invokeExact hEnter u args)

end Enter

end Moves

end Gap

end Linkage
