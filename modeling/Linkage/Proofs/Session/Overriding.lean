import Linkage.ClassTable.WellKnown
import Linkage.Proofs.Session.Fields
import Linkage.Proofs.World.Slots

/-
  Methods that override others.  A target that was found for a
  method runs what the class of the receiver has in the slot
  of the method.  A class that overrides the method has its
  body there if it shares the slot, and else the body of some
  other class is run, or none.  So overriding works exactly
  along the steps to the nearest supertype.

  Key definitions include:
    * `Target.Does`
    * `Body.called`
    * `World.answer`
    * `Target.DoesOn`

  Key theorems include:
    * `World.dispatch_of_gives`
    * `World.resolveMethod_own`
    * `State.Knows.does_behave`
    * `Target.doesOn_answer`
    * `Session.overriding_follows_links`
-/

------------------------------------------------------------
-- What a World Runs
------------------------------------------------------------

namespace Linkage

variable {rt : Runtime}
variable {w : World}
variable {l : Lookup}
variable {ds : List Declaration}
variable {n p : ClassName}
variable {name : String}
variable {sig : Signature}
variable {m : Method}
variable {k j : Nat}
variable {b : Body}
variable {code : Code}
variable {o : Obj}
variable {t u : Target}
variable {ts : List Target}
variable {args : List Value}
variable {q q' s s' : State}

namespace World

/- A class that runs a body in a slot is asked first. -/
theorem dispatch_of_gives
    (hGives : w.Gives n k name sig b code) :
    w.dispatch (.cls n) k = some code :=
  ClassTable.findSome?_supertypes hGives.installed

/-
  If a class runs a body in another slot only, then what is
  run in this one is the body of another class.
-/
theorem Tabled.of_dispatch
    {code' : Code}
    (hTabled : w.Tabled ds)
    (hGives : w.Gives n k name sig b code)
    (hOnly : w.Only n name sig m)
    (hSlot : tableIndex? m.slot = some k)
    (hOther : j ≠ k)
    (hHolds : w.Holds j name sig)
    (hDispatch : w.dispatch (.cls n) j = some code') :
    code' ≠ code ∧
      ∃ p flags b',
        p ≠ n ∧ w.classes.Reaches n p ∧
          .method p name sig flags (some b') ∈ ds ∧
            w.bodies[code'.index]? = some (name, b') := by
  rcases List.exists_of_findSome?_eq_some hDispatch with
    ⟨p, hp, hLookup⟩
  have hReaches := ClassTable.mem_supertypes_iff.1 hp
  constructor
  · rintro rfl
    exact
      hOther (hTabled.eq_of_lookup hGives.installed hLookup).2
  · have hMem : ((p, j), code') ∈ w.implementations := by
      rcases List.lookup_eq_some_iff.1 hLookup with
        ⟨xs, ys, hEq, _⟩
      rw [hEq]
      exact List.mem_append_right _ List.mem_cons_self
    rcases hTabled.filled p j code' hMem with
      ⟨x, hx, hOwner, hIndex, flags, b', hTold, hAt⟩
    rcases
      hTabled.named j _ _ _ _ hHolds ⟨x, hx, hIndex, rfl, rfl⟩
      with ⟨hName, hSig⟩
    rw [hName, hSig] at hTold
    rw [hName] at hAt
    refine ⟨p, flags, b', ?_, hReaches, hTold, hAt⟩
    rintro rfl
    have hSame := hOnly.unique x hx hOwner hName hSig
    rw [hSame, hSlot] at hIndex
    exact hOther (Option.some.inj hIndex).symm

/- A class that shows a method is asked for it first. -/
theorem resolveMethod_own
    {how : MethodKind}
    (hPlaced : w.overrides = [])
    (hShown : w.declared? name sig n = some m)
    (hHow : how ≠ .isConstructor) :
    w.resolveMethod n name sig how = .ok m := by
  have hFirst :
      (w.classes.supertypes n).findSome?
          (w.declared? name sig) =
        some m :=
    ClassTable.findSome?_supertypes hShown
  have hPlace : w.placeOf m.declaring m.name m.slot = m.slot := by
    unfold placeOf
    rw [hPlaced]
    rfl
  unfold resolveMethod
  dsimp only
  rw [if_neg hHow, hFirst]
  dsimp only
  rw [hPlace]

end World

------------------------------------------------------------
-- What a Call Does
------------------------------------------------------------

/-
  In whatever way a target is called with arguments that
  match, it comes to what an operation comes to; only nodes
  are entered besides.
-/
def Target.Does
    (rt : Runtime)
    (t : Target)
    (args : List Value)
    (q : State)
    (x : Run Value) : Prop :=
  ∀ e : Entry, e.Suits t args →
    ∃ r, e.ComesTo rt t args q r ∧ Run.Same (x q) r

/- The host runs a body that is at an address. -/
def Body.called
    (b : Body)
    (code : Code)
    (args : List Value) : Run Value := do
  modify (fun s => s.log (.called code args s.heap))
  Run.onHeap (b.run args)

/- An operation that ends, and does not see what was entered. -/
structure Run.Steady (x : Run Value) : Prop where
  ended : ∀ s, Run.Ended (x s)
  same : ∀ s s', s.Same s' → Run.Same (x s) (x s')

theorem Run.steady_fault (f : Fault) :
    Run.Steady (Run.fault f) where
  ended := fun _ => nofun
  same := fun _ _ hSame => .error hSame

theorem Run.same_onHeap
    (f : Heap → Except Fault Value × Heap)
    (hSame : s.Same s') :
    Run.Same (Run.onHeap f s) (Run.onHeap f s') := by
  have hStates (h : Heap) :
      State.Same { s with heap := h } { s' with heap := h } :=
    ⟨rfl, hSame.sites_eq, hSame.calls_eq⟩
  unfold Run.onHeap
  rw [hSame.heap_eq]
  cases f s.heap with
  | mk x h =>
      cases x with
      | ok v => exact .ok (hStates h)
      | error e => exact .error (hStates h)

theorem Run.steady_call
    (rt : Runtime)
    (code : Code)
    (args : List Value) :
    Run.Steady (Run.call rt code args) where
  ended := by
    intro s
    change
      Run.Ended
        (Run.onHeap (rt.host.call code args)
          (s.log (.called code args s.heap)))
    unfold Run.onHeap Run.Ended
    split
    · exact nofun
    · exact nofun
  same := by
    intro s s' hSame
    refine Run.same_onHeap (rt.host.call code args) ?_
    refine ⟨hSame.heap_eq, hSame.sites_eq, ?_⟩
    dsimp only
    rw [hSame.heap_eq]
    exact congrArg (_ :: ·) hSame.calls_eq

/- An address of a world has the body that is there. -/
theorem World.call_eq_called
    (hHost : rt.host = w.host)
    (hAt : w.bodies[code.index]? = some (name, b)) :
    Run.call rt code args = b.called code args := by
  have hBody : rt.host.call code args = b.run args := by
    rw [hHost]
    change w.runBody code args = _
    funext h
    unfold runBody
    rw [hAt]
  unfold Run.call Body.called
  rw [hBody]

------------------------------------------------------------
-- Calls of Targets that Are Known
------------------------------------------------------------

section Calls

variable (hKnows : q.Knows rt ts)
variable (hChecking : rt.compile = .checking)
variable (hTargets : rt.host.MakesNoTargets)
variable (ht : t ∈ ts)
variable (hAdmits : Target.admits rt.classes t.signature args = true)
include hKnows hChecking hTargets ht hAdmits

/-
  A target does what its node does, or the node below if the
  target collects its arguments.
-/
theorem State.Knows.does_behave
    {x : Run Value}
    (hSteady : x.Steady)
    (hBehave :
      ∀ enter, t.asFixedArity.behave rt enter args = x) :
    t.Does rt args q x := by
  intro e hSuits
  rcases hKnows with ⟨c, hFits, hSound, hMade⟩
  have hMem := hMade t ht
  rcases
    Entry.run_enters hChecking hTargets hFits hSound hMem hAdmits
      hSuits
    with ⟨i, j, hEnters⟩
  rcases
    Target.enter_asFixedArity hChecking hTargets hSound hMem
      (Target.length_of_admits hAdmits)
    with ⟨i', hFixed⟩
  rcases Makes.asFixedArity_mem hFits hSound.valid hMem with
    ⟨hBelow, hSig⟩
  have hCount :
      args.length = t.asFixedArity.stub.arity := by
    rw [(hSound.valid.serves _ hBelow).arity_eq hChecking, hSig]
    exact Target.length_of_admits hAdmits
  have hNode :
      Target.enter rt (i + 1) t.asFixedArity args q =
        x (q.passed (some t.asFixedArity) args) := by
    rw [Target.enter_succ hCount, hBehave]
    rfl
  have hHere := hFixed (i + 1)
  rw [hNode] at hHere
  have hThere := hEnters (1 + i')
  rw [show 1 + i' + i = i + 1 + i' by omega] at hThere
  have hPassed :
      Run.Same (x q) (x (q.passed (some t.asFixedArity) args)) :=
    hSteady.same _ _ ((State.Same.refl q).logEntry _ _)
  have hSame := hPassed.trans (hHere.symm.trans hThere)
  exact
    ⟨_, ⟨hSame.ended_iff.1 (hSteady.ended q), _, rfl⟩, hSame⟩

end Calls

/- A method that is found is known, and is what is called. -/
theorem State.Knows.findVirtual
    (hKnows : q.Knows rt ts)
    (hRun : l.findVirtual rt n name sig q = .ok u q') :
    q'.Knows rt (u :: ts) ∧ q'.heap = q.heap ∧
      ∃ m how,
        rt.host.resolveMethod n name sig
            (Lookup.instanceKind rt n) l.cls =
          .ok m ∧
          u.asFixedArity.form.Calls m how := by
  rcases hKnows.makes (fun _ => .findVirtual) hRun with
    ⟨hKnows', hHeap⟩
  have hPromise :=
    Lookup.Request.virtual_spares rt l n name sig q
  rw [hRun] at hPromise
  rcases hPromise with ⟨x, hPermits⟩
  have hResolved := hPermits.resolved
  have hReaches := hPermits.reaches
  unfold Lookup.Request.resolve at hResolved
  dsimp only at hResolved
  cases hAnswer :
      rt.host.resolveMethod n name sig (Lookup.instanceKind rt n)
        l.cls with
  | error e =>
      rw [hAnswer] at hResolved
      cases hResolved
  | ok m =>
      rw [hAnswer] at hResolved
      cases hResolved
      generalize u.asFixedArity.form = form at hReaches ⊢
      cases hReaches with
      | virtual hCalls =>
          exact ⟨hKnows', hHeap, m, _, rfl, hCalls⟩

/- A class that shows a method is where the method is found. -/
theorem State.Knows.findVirtual_own
    (hHost : rt.host = w.host)
    (hPlaced : w.overrides = [])
    (hShown : w.declared? name sig n = some m)
    (hKnows : q.Knows rt ts)
    (hRun : l.findVirtual rt n name sig q = .ok u q') :
    q'.Knows rt (u :: ts) ∧ q'.heap = q.heap ∧
      ∃ how, u.asFixedArity.form.Calls m how := by
  have hInstance : Lookup.instanceKind rt n ≠ .isConstructor := by
    unfold Lookup.instanceKind
    split
    · decide
    · decide
  rcases hKnows.findVirtual hRun with
    ⟨hKnows', hHeap, x, how, hResolve, hCalls⟩
  rw [hHost] at hResolve
  cases
    hResolve.symm.trans
      (World.resolveMethod_own hPlaced hShown hInstance)
  exact ⟨hKnows', hHeap, how, hCalls⟩

/- What comes of the code that a class has in a slot, or none. -/
def World.answer
    (w : World)
    (rt : Runtime)
    (m : Method)
    (k : Nat)
    (n : ClassName)
    (args : List Value) : Run Value :=
  match w.dispatch (.cls n) k with
  | some code => Run.call rt code args
  | none => Run.fault (missingCode m (.cls n))

theorem World.answer_of_dispatch
    (hHost : rt.host = w.host)
    (hDispatch : w.dispatch (.cls n) k = some code)
    (hAt : w.bodies[code.index]? = some (name, b)) :
    w.answer rt m k n = b.called code := by
  funext args
  unfold answer
  rw [hDispatch]
  exact call_eq_called hHost hAt

theorem World.answer_of_none
    (hDispatch : w.dispatch (.cls n) k = none) :
    w.answer rt m k n =
      fun _ =>
        .fault (.abstractMethod m.declaring m.name n.text) := by
  funext args
  unfold answer
  rw [hDispatch]
  rfl

/-
  What a target does on each object that is of a class at run
  time, in each state that knows it.
-/
def Target.DoesOn
    (rt : Runtime)
    (u : Target)
    (n : ClassName)
    (x : List Value → Run Value) : Prop :=
  ∀ (s : State) (o : Obj) (args : List Value),
    s.Knows rt [u] → o.type = .cls n →
    Target.admits rt.classes u.signature (.ref o :: args) = true →
      u.Does rt (.ref o :: args) s (x (.ref o :: args))

/-
  A target that calls a method of the table runs what the
  class of the receiver has in the slot.
-/
theorem Target.doesOn_answer
    {how : MethodKind}
    (hChecking : rt.compile = .checking)
    (hHost : rt.host = w.host)
    (hClasses : rt.classes = w.classes)
    (hCalls : u.asFixedArity.form.Calls m how)
    (hSlot : World.tableIndex? m.slot = some k)
    (hBelow : w.classes.Reaches n m.declaring) :
    u.DoesOn rt n (w.answer rt m k n) := by
  intro s o args hKnows hType hAdmits
  have hTargets : rt.host.MakesNoTargets := by
    rw [hHost]
    exact w.host_makesNoTargets
  have hAssignable :
      rt.classes.isAssignable (.cls n) (.cls m.declaring) = true := by
    rw [hClasses]
    exact ClassTable.isSubclass_eq_true_iff.2 (Or.inr hBelow)
  have hSteady :
      Run.Steady (w.answer rt m k n (.ref o :: args)) := by
    unfold World.answer
    split
    · exact Run.steady_call rt _ _
    · exact Run.steady_fault _
  have hReceiver : receiverOf m (.ref o :: args) = pure o := rfl
  refine
    hKnows.does_behave hChecking hTargets List.mem_cons_self
      hAdmits hSteady ?_
  intro enter
  unfold Target.behave
  generalize u.asFixedArity.form = form at hCalls
  cases hCalls with
  | direct c hPlace =>
      rw [hPlace] at hSlot
      cases hSlot
  | virtual i hPlace =>
      rw [hPlace] at hSlot
      cases hSlot
      change runVirtual rt m k (.ref o :: args) = _
      unfold runVirtual
      rw [hReceiver, pure_bind, hType, hHost]
      rfl
  | interface i hPlace =>
      rw [hPlace] at hSlot
      cases hSlot
      change runInterface rt m k (.ref o :: args) = _
      unfold runInterface
      rw [hReceiver, pure_bind, hType, if_pos hAssignable, hHost]
      rfl

------------------------------------------------------------
-- Overriding in a Session
------------------------------------------------------------

namespace Session

/-
  A class and a supertype of it that are each told once of a
  method that may be overridden, and the class with a body.
  Whatever calls the method of the supertype on an instance
  of the class runs that body if the two are linked, and so
  always if supertypes are in line.  If they are not linked,
  it runs the body of another supertype of the class instead,
  or fails for want of one.
-/
theorem overriding_follows_links
    {T : ClassTable}
    (hTold : (World.initial T).declareAll ds = some w)
    (hOrder : w.MethodsInOrder ds)
    (settings : Settings) :
    let s := Session.start w w.staticHeap settings .checking
    let rt := s.context.runtime
    (∀ (xs : List Step) (ts : List Target),
      (∀ t ∈ ts, (s.after xs).context.Names t) →
        (s.after xs).state.Knows rt ts) ∧
      ∀ (n p : ClassName) (name : String) (sig : Signature)
        (flags flags' : Flags) (b : Body) (body : Option Body),
        DeclaredOnce ds n name sig flags (some b) →
        World.isFixed flags = false →
        DeclaredOnce ds p name sig flags' body →
        World.isFixed flags' = false →
        w.classes.Reaches n p →
          (w.InLine name sig → w.Linked name sig n p) ∧
            ∃ k code,
              w.Gives n k name sig b code ∧
                ∀ (q q' : State) (ts : List Target) (l : Lookup)
                  (u : Target),
                  q.Knows rt ts →
                  l.findVirtual rt p name sig q = .ok u q' →
                    q'.Knows rt (u :: ts) ∧ q'.heap = q.heap ∧
                      (w.Linked name sig n p →
                        u.DoesOn rt n (b.called code)) ∧
                      (¬w.Linked name sig n p →
                        u.DoesOn rt n
                            (fun _ =>
                              .fault
                                (.abstractMethod p name n.text)) ∨
                          ∃ c flags b' code',
                            c ≠ n ∧ w.classes.Reaches n c ∧
                              .method c name sig flags (some b') ∈
                                  ds ∧
                              code' ≠ code ∧
                              u.DoesOn rt n (b'.called code')) := by
  intro s rt
  constructor
  · intro xs ts hNamed
    exact
      knows_after (start_isFresh w settings .checking)
        w.host_makesNoTargets xs hNamed
  intro n p name sig flags flags' b body hOwn hTable hAbove hTable'
    hReaches
  have hTabled := World.tabled_of_declareAll hTold
  rcases World.only_of_declaredOnce hTold hOwn hTable with
    ⟨m, k, hOnly, hSlot, hBody⟩
  rcases World.only_of_declaredOnce hTold hAbove hTable' with
    ⟨m', j, hOnly', hSlot', -⟩
  rcases hBody b rfl with ⟨code, hGives⟩
  have hHere := World.slotIn?_of_declared? hOnly.declared?_eq hSlot
  have hThere :=
    World.slotIn?_of_declared? hOnly'.declared?_eq hSlot'
  refine
    ⟨fun hInLine =>
      World.linked_of_inLine hTold hOrder hHere hThere hInLine
        hReaches,
      k, code, hGives, ?_⟩
  intro q q' ts l u hKnows hFind
  rcases
    hKnows.findVirtual_own rfl hTabled.placed hOnly'.declared?_eq
      hFind
    with ⟨hKnows', hHeap, how, hCalls⟩
  have hDoes : u.DoesOn rt n (w.answer rt m' j n) := by
    refine Target.doesOn_answer rfl rfl rfl hCalls hSlot' ?_
    rw [hOnly'.owner_eq]
    exact hReaches
  have hIff :=
    World.slotIn?_eq_iff_linked hTold hOrder hHere hThere
  refine ⟨hKnows', hHeap, ?_, ?_⟩
  · intro hLinked
    rw [hIff.2 hLinked] at hDoes
    rw [
      World.answer_of_dispatch rfl (World.dispatch_of_gives hGives)
        hGives.body] at hDoes
    exact hDoes
  · intro hNot
    have hOther : j ≠ k := mt hIff.1 hNot
    cases hDispatch : w.dispatch (.cls n) j with
    | none =>
        rw [World.answer_of_none hDispatch, hOnly'.owner_eq,
          hOnly'.name_eq] at hDoes
        exact .inl hDoes
    | some code' =>
        refine .inr ?_
        rcases
          hTabled.of_dispatch hGives hOnly hSlot hOther
            (World.holds_of_slotIn? hThere) hDispatch
          with
          ⟨hCode, c, flags'', b', hApart, hUp, hMethod, hAt⟩
        rw [World.answer_of_dispatch rfl hDispatch hAt] at hDoes
        exact
          ⟨c, flags'', b', code', hApart, hUp, hMethod, hCode,
            hDoes⟩

/- Two interfaces, and a class that implements them both. -/
def left : ClassName := ⟨"a.Left"⟩
def right : ClassName := ⟨"a.Right"⟩
def both : ClassName := ⟨"a.Both"⟩

def sides : ClassTable :=
  ((ClassTable.wellKnown.add (.ofInterface left)).add
    (.ofInterface right)).add
      { ClassInfo.ofClass both with interfaces := [left, right] }

def toInt : Signature :=
  ⟨[], .int, Lookup.admissible_nil⟩

def seven : Body := .const (.prim (.int 7))

/- A public method of a class. -/
def runs
    (n : ClassName)
    (body : Option Body) : Declaration :=
  .method n "run" toInt (.ofList [.isPublic]) body

/- Both interfaces declare the method that the class has. -/
def siding : List Declaration :=
  [.addClass (.ofInterface left), .addClass (.ofInterface right),
   .addClass
     { ClassInfo.ofClass both with interfaces := [left, right] },
   runs left none, runs right none, runs both (some seven)]

/- The method of an interface in a slot of the table. -/
def sideMethod
    (n : ClassName)
    (k : Nat) : Method :=
  ⟨n, "run", toInt, (Flags.ofList [.isPublic]).set .isAbstract,
    .interfaceTable k⟩

/- The class has its body in the slot of the first interface. -/
def sided : World :=
  { World.initial sides with
    methods :=
      [sideMethod left 1, sideMethod right 2,
       ⟨both, "run", toInt, .ofList [.isPublic], .virtualTable 1⟩]
    bodies := [("run", seven)]
    implementations := [((both, 1), ⟨0⟩)]
    lastSlot := 2 }

theorem sides_supertypes :
    sides.supertypes left = [left] ∧
      sides.supertypes right = [right] ∧
      sides.supertypes both = [both, .object, left, right] := by
  refine ⟨?_, ?_, ?_⟩
  · cbv
  · cbv
  · cbv

theorem sides_interfaces :
    sides.isInterface left = true ∧
      sides.isInterface right = true ∧
      sides.isInterface both = false := by
  decide +kernel

theorem sides_apart :
    left ≠ right ∧ left ≠ both ∧ right ≠ both ∧
      left ≠ .object ∧ right ≠ .object := by
  decide +kernel

theorem runs_flags :
    World.isFixed (.ofList [.isPublic]) = false := by
  decide +kernel

theorem sided_told :
    (World.initial .wellKnown).declareAll siding = some sided := by
  change
    (World.initial sides).declareAll
        [runs left none, runs right none, runs both (some seven)] =
      some sided
  rcases sides_supertypes with ⟨hLeft, hRight, hBoth⟩
  rcases sides_interfaces with ⟨hLeft', hRight', hBoth'⟩
  rcases sides_apart with ⟨-, -, -, hLeftRoot, hRightRoot⟩
  unfold sided
  -- Of the table, only what was stated above is needed.
  generalize sides = T at *
  simp [World.declareAll, World.declare, World.addMethod, runs,
    World.takeSlot, World.inheritedSlot?, World.slotIn?,
    World.tableIndex?, World.implement, World.tableSlot,
    World.pushBody, World.initial, sideMethod, runs_flags, hLeft,
    hRight, hBoth, hLeft', hRight', hBoth', hLeftRoot, hRightRoot]

theorem sided_reaches {n : ClassName} :
    (sided.classes.Reaches both n ↔
      n ∈ [both, .object, left, right]) ∧
    (sided.classes.Reaches left n ↔ n = left) ∧
    (sided.classes.Reaches right n ↔ n = right) := by
  rcases sides_supertypes with ⟨hLeft, hRight, hBoth⟩
  change
    (sides.Reaches both n ↔ _) ∧ (sides.Reaches left n ↔ _) ∧
      (sides.Reaches right n ↔ _)
  refine ⟨?_, ?_, ?_⟩
  · rw [← ClassTable.mem_supertypes_iff, hBoth]
  · rw [← ClassTable.mem_supertypes_iff, hLeft,
      List.mem_singleton]
  · rw [← ClassTable.mem_supertypes_iff, hRight,
      List.mem_singleton]

theorem sided_inOrder : sided.MethodsInOrder siding := by
  rcases sides_apart with ⟨hSides, hLeft, hRight, -, -⟩
  have hFromLeft := @fun n => (sided_reaches (n := n)).2.1
  have hFromRight := @fun n => (sided_reaches (n := n)).2.2
  simp [World.MethodsInOrder, siding, runs, Declaration.Precedes,
    hFromLeft, hFromRight, hSides.symm, hLeft.symm, hRight.symm]

theorem siding_once :
    DeclaredOnce siding left "run" toInt (.ofList [.isPublic])
        none ∧
      DeclaredOnce siding right "run" toInt (.ofList [.isPublic])
        none ∧
      DeclaredOnce siding both "run" toInt (.ofList [.isPublic])
        (some seven) := by
  rcases sides_apart with ⟨hSides, hLeft, hRight, -, -⟩
  refine
    ⟨⟨siding.take 3, siding.drop 4, rfl, ?_⟩,
      ⟨siding.take 4, siding.drop 5, rfl, ?_⟩,
      ⟨siding.take 5, [], rfl, ?_⟩⟩
  · simp [siding, runs, Declaration.Names, hSides.symm, hLeft.symm]
  · simp [siding, runs, Declaration.Names, hSides, hRight.symm]
  · simp [siding, runs, Declaration.Names, hLeft, hRight]

theorem sided_linked : sided.Linked "run" toInt both left := by
  rcases sides_supertypes with ⟨-, -, hBoth⟩
  have hOverrides : sided.Overrides "run" toInt both left := by
    unfold World.Overrides World.overridden?
    rw [show sided.classes.supertypes both = _ from hBoth]
    decide +kernel
  exact ⟨left, .single hOverrides, .refl⟩

/- A session of that world. -/
def facing : Session :=
  .start sided sided.staticHeap {} .checking

/- The class calls the method of an interface. -/
theorem facing_finds
    {p : ClassName}
    {j : Nat}
    (hDeclared :
      sided.declared? "run" toInt p = some (sideMethod p j))
    (hInterface : sides.isInterface p = true)
    (hClass : isClassAccessible sides p both .all = true)
    (q : State) :
    ∃ u q',
      (Lookup.full both).findVirtual facing.context.runtime p "run"
          toInt q =
        .ok u q' ∧
      u.params = [.cls p] := by
  have hFlags :
      (sideMethod p j).flags.has .isStatic = false ∧
        (sideMethod p j).flags.has .isVarargs = false ∧
        (sideMethod p j).flags.has .isProtected = false ∧
        (sideMethod p j).flags.has .isPublic = true := by
    dsimp only [sideMethod]
    decide +kernel
  have hAdmissible : Admissible [.cls p] := by
    constructor
    · simp [Ty.IsVoid]
    · exact Nat.le_of_ble_eq_true rfl
  have hWhole :
      toInt.insertParams 0
          [(Lookup.full both).receiverType facing.context.runtime p
            (sideMethod p j)] =
        .ok ⟨[.cls p], .int, hAdmissible⟩ := by
    rw [Lookup.receiverType_of_not_restricted]
    · exact Signature.build_of_admissible .int hAdmissible
    · intro hRestricted
      cases hFlags.2.2.1.symm.trans hRestricted.1
  have hResolve :
      facing.context.runtime.host.resolveMethod p "run" toInt
          (Lookup.instanceKind facing.context.runtime p) both =
        .ok (sideMethod p j) := by
    refine World.resolveMethod_own rfl hDeclared ?_
    unfold Lookup.instanceKind
    rw [show facing.context.runtime.classes.isInterface p = true from
      hInterface]
    decide
  have hGrants :
      (Lookup.full both).Grants facing.context.runtime.classes p p
        (sideMethod p j).flags := by
    refine Lookup.grants_iff.2 ⟨hClass, ?_⟩
    rw [if_pos hFlags.2.2.2]
    trivial
  rcases
    Lookup.findVirtual_succeeds (l := Lookup.full both) rfl hResolve
      hFlags.1 hFlags.2.1 hGrants rfl hWhole rfl q
    with ⟨u, q', hFind, hSig⟩
  refine ⟨u, q', hFind, ?_⟩
  rw [Target.params, hSig]

/- An object of the class. -/
def facer : Obj :=
  ⟨0, .plain both⟩

theorem admits_facer
    {u : Target}
    {p : ClassName}
    (hParams : u.params = [.cls p])
    (hBelow : sided.classes.Reaches both p) :
    Target.admits facing.context.runtime.classes u.signature
        [.ref facer] =
      true := by
  have hSubclass : sides.isSubclass both p = true :=
    ClassTable.isSubclass_eq_true_iff.2 (.inr hBelow)
  refine Target.admits_iff.2 ?_
  rw [show u.signature.params = _ from hParams]
  exact .cons hSubclass .nil

theorem exact_suits
    (u : Target)
    (args : List Value) :
    (Entry.way .exact).Suits u args :=
  ⟨trivial, by simp⟩

/-
  Through the first interface, to whose method the class is
  linked, the body of the class is run.
-/
theorem overriding_follows_links_left :
    (World.initial .wellKnown).declareAll siding = some sided ∧
      sided.MethodsInOrder siding ∧
      World.isFixed (.ofList [.isPublic]) = false ∧
      DeclaredOnce siding both "run" toInt (.ofList [.isPublic])
        (some seven) ∧
      DeclaredOnce siding left "run" toInt (.ofList [.isPublic])
        none ∧
      sided.classes.Reaches both left ∧
      sided.Linked "run" toInt both left ∧
      ∃ u q z,
        (Lookup.full both).findVirtual facing.context.runtime left
            "run" toInt facing.state =
          .ok u q ∧
        facer.shape = .plain both ∧
        (Entry.way .exact).ComesTo facing.context.runtime u
          [.ref facer] q (.ok (.prim (.int 7)) z) := by
  rcases siding_once with ⟨hLeft, -, hBoth⟩
  have hBelow := (sided_reaches (n := left)).1.2 (by simp)
  rcases overriding_follows_links sided_told sided_inOrder {} with
    ⟨hKnown, hOverriding⟩
  have hKnows := hKnown [] [] (List.forall_mem_nil _)
  rcases
    hOverriding _ _ _ _ _ _ _ _ hBoth runs_flags hLeft runs_flags
      hBelow
    with ⟨-, k, code, -, hFinds⟩
  rcases
    facing_finds (p := left) (j := 1) (by cbv) sides_interfaces.1
      (by decide +kernel) facing.state
    with ⟨u, q, hFind, hParams⟩
  rcases hFinds _ _ _ _ _ hKnows hFind with
    ⟨hKnows', -, hLinked, -⟩
  rcases
    hLinked sided_linked q facer [] hKnows' rfl
      (admits_facer hParams hBelow) _ (exact_suits _ _)
    with ⟨r, hComes, hSame⟩
  cases hSame with
  | ok _ =>
      exact
        ⟨sided_told, sided_inOrder, runs_flags, hBoth, hLeft, hBelow,
          sided_linked, u, q, _, hFind, rfl, hComes⟩

/-
  Through the second one it is not.  No class has a body in
  the slot of its method, so that the call fails.
-/
theorem overriding_skips_right :
    (World.initial .wellKnown).declareAll siding = some sided ∧
      sided.MethodsInOrder siding ∧
      World.isFixed (.ofList [.isPublic]) = false ∧
      DeclaredOnce siding both "run" toInt (.ofList [.isPublic])
        (some seven) ∧
      DeclaredOnce siding right "run" toInt (.ofList [.isPublic])
        none ∧
      sided.classes.Reaches both right ∧
      ∃ u q z,
        (Lookup.full both).findVirtual facing.context.runtime right
            "run" toInt facing.state =
          .ok u q ∧
        facer.shape = .plain both ∧
        (Entry.way .exact).ComesTo facing.context.runtime u
          [.ref facer] q
          (.error (.fault (.abstractMethod right "run" "a.Both"))
            z) := by
  rcases siding_once with ⟨-, hRight, hBoth⟩
  have hBelow := (sided_reaches (n := right)).1.2 (by simp)
  have hKnows : facing.state.Knows facing.context.runtime [] :=
    knows_after (start_isFresh sided {} .checking)
      sided.host_makesNoTargets [] (List.forall_mem_nil _)
  have hDeclared :
      sided.declared? "run" toInt right =
        some (sideMethod right 2) := by
    cbv
  rcases
    facing_finds hDeclared sides_interfaces.2.1 (by decide +kernel)
      facing.state
    with ⟨u, q, hFind, hParams⟩
  rcases
    hKnows.findVirtual_own (rfl : _ = sided.host) rfl hDeclared hFind
    with ⟨hKnows', -, how, hCalls⟩
  have hDoes :
      u.DoesOn facing.context.runtime both
        (sided.answer facing.context.runtime (sideMethod right 2) 2
          both) :=
    Target.doesOn_answer rfl rfl rfl hCalls rfl hBelow
  rcases
    hDoes q facer [] hKnows' rfl (admits_facer hParams hBelow) _
      (exact_suits _ _)
    with ⟨r, hComes, hSame⟩
  have hNone : sided.dispatch (.cls both) 2 = none := by
    cbv
  rw [World.answer_of_none hNone] at hSame
  cases hSame with
  | error _ =>
      exact
        ⟨sided_told, sided_inOrder, runs_flags, hBoth, hRight, hBelow,
          u, q, _, hFind, rfl, hComes⟩

end Session

end Linkage
