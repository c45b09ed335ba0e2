import Linkage.Proofs.Fields
import Linkage.Proofs.Session.Elements
import Linkage.Proofs.World
import Linkage.Proofs.World.Spots

/-
  Targets that read and write fields.  Through whatever class
  a target was found, it reads or writes the one cell of its
  field in the object that it is given, or the static cell.
  What was stored last in a spot is what comes back from it,
  and at first that is the zero of its type.

  Key definitions include:
    * `Target.FoundFor`
    * `Spot.ReachedBy`
    * `State.Gives`
    * `Write`
    * `Spot.after`

  Key theorems include:
    * `ClassTable.Descends.isSubclass`
    * `State.Knows.findField`
    * `State.Knows.gives`
    * `State.Knows.writes`
    * `Write.run_all`
    * `Session.fields_do_not_alias`
-/

------------------------------------------------------------
-- Fields that Worlds Resolve
------------------------------------------------------------

namespace Linkage

variable {rt : Runtime}
variable {w : World}
variable {l : Lookup}
variable {owner : ClassName}
variable {name : String}
variable {t : Ty}
variable {isStatic setter : Bool}
variable {f : Field}
variable {u : Target}
variable {ts : List Target}
variable {q q' : State}
variable {os : List Obj}
variable {x y : Spot}
variable {v : Value}

/- A subclass is one that the table tells. -/
theorem ClassTable.Descends.isSubclass
    {T : ClassTable}
    {n m : ClassName}
    (hDescends : T.Descends n m) :
    T.isSubclass n m = true := by
  refine isSubclass_eq_true_iff.2 (Or.inr ?_)
  refine Relation.ReflTransGen.mono ?_ _ _ hDescends
  intro a b hExtends
  unfold Extends superclass? at hExtends
  rcases Option.bind_eq_some_iff.1 hExtends with
    ⟨c, hFind, hSuper⟩
  show b ∈ T.parents a
  unfold parents
  rw [hFind]
  simp [ClassInfo.parents, hSuper]

/- A field that is resolved is one that was declared. -/
theorem World.of_resolveField
    (hPlaced : w.overrides = [])
    (hResolve : w.resolveField owner name t = .ok f) :
    f ∈ w.fields ∧ f.name = name ∧ f.type = t := by
  unfold resolveField at hResolve
  dsimp only at hResolve
  split at hResolve
  · rename_i g hFound
    have hSame : w.placeOf g.declaring g.name g.slot = g.slot := by
      unfold placeOf
      rw [hPlaced]
      rfl
    rw [hSame] at hResolve
    cases hResolve
    rcases List.exists_of_findSome?_eq_some hFound with
      ⟨n, _, hDeclared⟩
    have hMem := List.mem_of_find?_eq_some hDeclared
    have hAsked := List.find?_some hDeclared
    simp only [Bool.and_eq_true, decide_eq_true_eq] at hAsked
    exact ⟨hMem, hAsked.1.2, hAsked.2⟩
  · cases hResolve

/- A target that was found for a field, by whatever request. -/
def Target.FoundFor
    (rt : Runtime)
    (setter : Bool)
    (owner : ClassName)
    (f : Field)
    (u : Target) : Prop :=
  ∃ (l : Lookup) (name : String) (t : Ty) (isStatic : Bool),
    l.Accesses rt owner name t isStatic setter f u

/- A field that is found is known, and nothing is stored. -/
theorem State.Knows.findField
    (hKnows : q.Knows rt ts)
    (hRun :
      l.findField rt owner name t isStatic setter q = .ok u q') :
    q'.Knows rt (u :: ts) ∧ q'.heap = q.heap ∧
      ∃ f, l.Accesses rt owner name t isStatic setter f u := by
  rcases hKnows.makes (fun _ => .findField) hRun with
    ⟨hKnows', hHeap⟩
  exact
    ⟨hKnows', hHeap,
      Lookup.findField_yields _ _ _ _ _ _ _ q u q' hRun⟩

------------------------------------------------------------
-- Reading and Writing
------------------------------------------------------------

/- The object of a spot is one of a class. -/
def Spot.IsOf
    (T : ClassTable)
    (owner : ClassName)
    (x : Spot) : Prop :=
  ∀ o, x.object = some o →
    (Value.ref o).conforms T (.cls owner) = true

/-
  A known target that was found for the field of a spot,
  through a class that the object of the spot is of.
-/
structure Spot.ReachedBy
    (rt : Runtime)
    (ts : List Target)
    (setter : Bool)
    (u : Target)
    (x : Spot) : Prop where
  known : u ∈ ts
  found :
    ∃ owner,
      u.FoundFor rt setter owner x.field ∧
        x.IsOf rt.classes owner

/- A target gives a value, and stores nothing. -/
def State.Gives
    (rt : Runtime)
    (q : State)
    (u : Target)
    (x : Spot)
    (v : Value) : Prop :=
  ∃ z,
    q.Same z ∧
      (Entry.way .exact).ComesTo rt u x.args q (.ok v z)

/- An instance is one of each class on its chain. -/
theorem Spot.isOf_of_descends
    {T : ClassTable}
    {o : Obj}
    {n : ClassName}
    (hShape : o.shape = .plain n)
    (hDescends : T.Descends n owner) :
    IsOf T owner ⟨some o, f⟩ := by
  intro p hSame
  cases hSame
  change T.isAssignable o.shape.type (.cls owner) = true
  rw [hShape]
  exact hDescends.isSubclass

section Accessors

variable (hHost : rt.host = w.host)
variable (hSpot : w.HasSpot os x)
include hHost hSpot

/- The place of a field is where its spot is kept. -/
theorem fieldPlace_eq
    {k : Nat}
    (hSlot : x.field.slot = .fieldOffset k)
    (s : State) :
    fieldPlace rt x.field k x.args s = .ok (x.place w) s := by
  unfold fieldPlace Spot.place Spot.args
  rw [hSlot, hHost]
  cases hSpot with
  | static hField hStatic =>
      dsimp only
      rw [if_pos hStatic]
      rfl
  | inside hField hInstance hObject hShape hDescends =>
      dsimp only
      rw [hInstance, if_neg Bool.false_ne_true]
      rfl

theorem runFieldGet_spot
    {k : Nat}
    {s : State}
    (hSlot : x.field.slot = .fieldOffset k)
    (hStores : w.Stores os s.heap) :
    ∃ v,
      x.value? w s.heap = some v ∧
        runFieldGet rt x.field k x.args s = .ok v s := by
  rcases hStores.cells x hSpot with ⟨r, c, hPlace, hCell, -⟩
  refine ⟨c.load, ?_, ?_⟩
  · unfold Spot.value?
    rw [hPlace, Option.bind_some, hCell]
    rfl
  · unfold runFieldGet
    rw [Run.bind_ok (fieldPlace_eq hHost hSpot hSlot s),
      Run.get_bind, hPlace, Option.bind_some, hCell]
    rfl

theorem runFieldSet_spot
    {k : Nat}
    {s : State}
    (hSlot : x.field.slot = .fieldOffset k)
    (hStores : w.Stores os s.heap)
    (v : Value) :
    ∃ r,
      x.place w = some r ∧
        runFieldSet rt x.field k (x.args ++ [v]) s =
          .ok .void { s with heap := s.heap.storeCell r v } := by
  rcases hStores.cells x hSpot with ⟨r, c, hPlace, hCell, -⟩
  have hSplit : splitLast (x.args ++ [v]) = (v, x.args) := by
    simp [splitLast]
  refine ⟨r, hPlace, ?_⟩
  unfold runFieldSet
  rw [hSplit]
  dsimp only
  rw [Run.bind_ok (fieldPlace_eq hHost hSpot hSlot s), hPlace]
  dsimp only
  rw [Run.get_bind, hCell]
  rfl

omit hHost in
/- The object, and a value to store, are what is asked for. -/
theorem admits_spot
    {vs : List Value}
    (hReached : x.ReachedBy rt ts setter u)
    (hValues :
      List.Forall₂ (fun v p => v.conforms rt.classes p = true) vs
        (if setter then [x.field.type] else [])) :
    Target.admits rt.classes u.signature (x.args ++ vs) = true := by
  rcases hReached.found with
    ⟨owner, ⟨l, name, t, isStatic, hAccesses⟩, hOf⟩
  refine Target.admits_iff.2 ?_
  rw [show u.signature.params = _ from hAccesses.params]
  refine List.rel_append ?_ hValues
  have hStatic := hAccesses.suits
  cases hSpot with
  | static hField hStatic' =>
      rw [hStatic'] at hStatic
      cases hStatic
      exact .nil
  | inside hField hInstance hObject hShape hDescends =>
      rw [hInstance] at hStatic
      cases hStatic
      exact .cons (hOf _ rfl) .nil

end Accessors

section Calls

variable (hKnows : q.Knows rt ts)
variable (hChecking : rt.compile = .checking)
variable (hHost : rt.host = w.host)
variable (hStores : w.Stores os q.heap)
variable (hSpot : w.HasSpot os x)
include hKnows hChecking hHost hStores hSpot

/- A getter gives what is in the spot, and stores nothing. -/
theorem State.Knows.gives
    (hReached : x.ReachedBy rt ts false u) :
    ∃ v, x.value? w q.heap = some v ∧ q.Gives rt u x v := by
  have hAdmits := admits_spot hSpot hReached .nil
  rw [List.append_nil] at hAdmits
  rcases hReached.found with
    ⟨owner, ⟨l, name, t, isStatic, hAccesses⟩, -⟩
  rcases hAccesses.place with ⟨k, hSlot, hForm⟩
  have hLater : w.Stores os (q.passed (some u) x.args).heap :=
    hStores
  rcases runFieldGet_spot hHost hSpot hSlot hLater with
    ⟨v, hValue, hRun⟩
  refine
    ⟨v, hValue, _, (State.Same.refl q).logEntry u x.args, ?_⟩
  refine
    hKnows.comesTo_behave hChecking hReached.known hAdmits nofun ?_
  intro e
  unfold Target.behave
  rw [hForm]
  exact hRun

/- A getter gives no other value than the one in the spot. -/
theorem State.Knows.gives_of_value?
    (hReached : x.ReachedBy rt ts false u)
    (hValue : x.value? w q.heap = some v) :
    q.Gives rt u x v := by
  rcases hKnows.gives hChecking hHost hStores hSpot hReached with
    ⟨v', hValue', hGives⟩
  rw [hValue] at hValue'
  cases hValue'
  exact hGives

/- A setter stores a value in the spot, and in no other. -/
theorem State.Knows.writes
    (hLaid : w.LaidOut)
    (hAcyclic : w.classes.Acyclic)
    (hClasses : rt.classes = w.classes)
    (hReached : x.ReachedBy rt ts true u)
    (hFits : v.conforms rt.classes x.field.type = true) :
    ∃ z,
      (Entry.way .exact).ComesTo rt u (x.args ++ [v]) q
          (.ok .void z) ∧
        State.Same { q with heap := z.heap } z ∧
        z.Knows rt ts ∧ w.Stores os z.heap ∧
        x.value? w z.heap = some v ∧
        ∀ y,
          w.HasSpot os y → y ≠ x →
            y.value? w z.heap = y.value? w q.heap := by
  have hAdmits :
      Target.admits rt.classes u.signature (x.args ++ [v]) = true :=
    admits_spot hSpot hReached (.cons hFits .nil)
  rcases hReached.found with
    ⟨owner, ⟨l, name, t, isStatic, hAccesses⟩, -⟩
  have hVoid : x.field.type.IsVoid = false := by
    apply u.signature.admissible.noVoid
    rw [show u.signature.params = _ from hAccesses.params]
    exact List.mem_append_right _ List.mem_cons_self
  rcases hAccesses.place with ⟨k, hSlot, hForm⟩
  have hLater :
      w.Stores os (q.passed (some u) (x.args ++ [v])).heap :=
    hStores
  rcases runFieldSet_spot hHost hSpot hSlot hLater v with
    ⟨r, hPlace, hRun⟩
  rw [hClasses] at hFits
  rcases
    World.Stores.storeCell hLaid hAcyclic hStores hSpot hPlace
      hFits hVoid
    with ⟨hStores', hValue, hOthers⟩
  -- A stored value is no handle.
  have hKnows' :=
    (hKnows.passed u (x.args ++ [v])).withHeap
      (h := q.heap.storeCell r v)
      (fun _ _ => Heap.at?_storeCell_target)
  refine ⟨_, ?_, ?_, hKnows', hStores', hValue, hOthers⟩
  · refine
      hKnows.comesTo_behave hChecking hReached.known hAdmits nofun
        ?_
    intro e
    unfold Target.behave
    rw [hForm]
    exact hRun
  · exact ⟨rfl, rfl, rfl⟩

end Calls

------------------------------------------------------------
-- Sequences of Writes
------------------------------------------------------------

/- A value to be stored in a spot through a target. -/
structure Write where
  setter : Target
  spot : Spot
  value : Value

namespace Write

/- The call that stores the value. -/
def call (a : Write) : Target × List Value :=
  (a.setter, a.spot.args ++ [a.value])

/-
  The target reaches the spot, and the value is one of the
  type of its field.
-/
structure Suits
    (rt : Runtime)
    (w : World)
    (ts : List Target)
    (os : List Obj)
    (a : Write) : Prop where
  spot : w.HasSpot os a.spot
  reached : a.spot.ReachedBy rt ts true a.setter
  fits :
    a.value.conforms rt.classes a.spot.field.type = true

end Write

/- What is in a spot after some writes: what was stored last. -/
def Spot.after
    (x : Spot)
    (as : List Write)
    (before : Option Value) : Option Value :=
  as.foldl
    (fun b a => if a.spot = x then some a.value else b) before

/- All writes are done, and nothing else is. -/
theorem Write.run_all
    (hChecking : rt.compile = .checking)
    (hHost : rt.host = w.host)
    (hClasses : rt.classes = w.classes)
    (hLaid : w.LaidOut)
    (hAcyclic : w.classes.Acyclic)
    (as : List Write)
    (hKnows : q.Knows rt ts)
    (hStores : w.Stores os q.heap)
    (hSuits : ∀ a ∈ as, a.Suits rt w ts os) :
    ∃ z,
      Target.Calls rt q (as.map Write.call) z ∧
        z.Knows rt ts ∧ w.Stores os z.heap ∧
        ∀ x,
          w.HasSpot os x →
            x.value? w z.heap =
              x.after as (x.value? w q.heap) := by
  induction as generalizing q with
  | nil => exact ⟨q, .nil q, hKnows, hStores, fun _ _ => rfl⟩
  | cons a as ih =>
      rw [List.forall_mem_cons] at hSuits
      rcases hSuits with ⟨hFirst, hRest⟩
      rcases
        hKnows.writes hChecking hHost hStores hFirst.spot hLaid
          hAcyclic hClasses hFirst.reached hFirst.fits
        with ⟨z, hComes, -, hKnows', hStores', hValue, hOthers⟩
      rcases ih hKnows' hStores' hRest with
        ⟨z', hCalls, hKnows'', hStores'', hValues⟩
      refine ⟨z', .cons hComes hCalls, hKnows'', hStores'', ?_⟩
      intro x hx
      rw [hValues x hx]
      unfold Spot.after
      rw [List.foldl_cons]
      by_cases hSame : a.spot = x
      · rw [if_pos hSame, ← hSame, hValue]
      · rw [if_neg hSame, hOthers x hx (Ne.symm hSame)]

------------------------------------------------------------
-- Sessions of Declared Worlds
------------------------------------------------------------

namespace Session

theorem start_isFresh
    (w : World)
    (settings : Settings)
    (compile : Stub.Compiler) :
    (Session.start w w.staticHeap settings compile).IsFresh where
  names := rfl
  state := by
    refine ⟨w.staticHeap, _, rfl, ?_⟩
    intro i t hAt
    unfold Heap.at? World.staticHeap at hAt
    rw [List.getElem?_toArray, List.getElem?_map] at hAt
    rcases Option.map_eq_some_iff.1 hAt with ⟨e, _, hCells⟩
    cases hCells

/-
  In a world that was declared in order, fields do not share
  cells.  When a session starts the static fields have the
  zeros of their types, and so do the fields of an instance
  when it is made.  A target that was found for a field,
  through whatever class, gives what is in its spot, or stores
  a value there and leaves all other spots of all objects and
  classes.  After any sequence of writes each spot has what
  was stored there last.
-/
theorem fields_do_not_alias
    (hDeclared : w.Declared)
    (hAcyclic : w.classes.Acyclic)
    (hOrder : w.SupersFirst)
    (settings : Settings) :
    let s := Session.start w w.staticHeap settings .checking
    let rt := s.context.runtime
    (s.state.Knows rt [] ∧ w.Stores [] s.state.heap ∧
      ∀ x,
        w.HasSpot [] x →
          x.value? w s.state.heap = some (.zero x.field.type)) ∧
      (∀ (q : State) (ts : List Target) (l : Lookup)
        (owner : ClassName) (name : String) (t : Ty)
        (isStatic setter : Bool) (u : Target) (q' : State),
        q.Knows rt ts →
        l.findField rt owner name t isStatic setter q =
          .ok u q' →
            q'.Knows rt (u :: ts) ∧ q'.heap = q.heap ∧
              ∃ f ∈ w.fields,
                f.name = name ∧ f.type = t ∧
                  f.flags.has .isStatic = isStatic ∧
                  u.FoundFor rt setter owner f) ∧
      (∀ (o : Obj) (n owner : ClassName) (f : Field),
        o.shape = .plain n → rt.classes.Descends n owner →
          Spot.IsOf rt.classes owner ⟨some o, f⟩) ∧
      (∀ (q : State) (ts : List Target) (os : List Obj)
        (n : ClassName),
        q.Knows rt ts → w.Stores os q.heap →
          ∃ o h',
            rt.host.allocate n q.heap = some (.ok o, h') ∧
              o.shape = .plain n ∧ o ∉ os ∧
              State.Knows rt { q with heap := h' } ts ∧
              w.Stores (o :: os) h' ∧
              (∀ f,
                w.HasSpot (o :: os) ⟨some o, f⟩ →
                  Spot.value? w h' ⟨some o, f⟩ =
                    some (.zero f.type)) ∧
              ∀ x,
                w.HasSpot os x →
                  x.value? w h' = x.value? w q.heap) ∧
      (∀ (q : State) (ts : List Target) (os : List Obj)
        (x : Spot) (u : Target),
        q.Knows rt ts → w.Stores os q.heap → w.HasSpot os x →
        x.ReachedBy rt ts false u →
          ∃ v, x.value? w q.heap = some v ∧ q.Gives rt u x v) ∧
      (∀ (q : State) (ts : List Target) (os : List Obj)
        (x : Spot) (u : Target) (v : Value),
        q.Knows rt ts → w.Stores os q.heap → w.HasSpot os x →
        x.ReachedBy rt ts true u →
        v.conforms rt.classes x.field.type = true →
          ∃ z,
            (Entry.way .exact).ComesTo rt u (x.args ++ [v]) q
                (.ok .void z) ∧
              State.Same { q with heap := z.heap } z ∧
              z.Knows rt ts ∧ w.Stores os z.heap ∧
              (∀ g, x.ReachedBy rt ts false g →
                z.Gives rt g x v) ∧
              ∀ y,
                w.HasSpot os y → y ≠ x →
                  y.value? w z.heap = y.value? w q.heap ∧
                    ∀ g b,
                      y.ReachedBy rt ts false g →
                      q.Gives rt g y b → z.Gives rt g y b) ∧
      ∀ (q : State) (ts : List Target) (os : List Obj)
        (as : List Write),
        q.Knows rt ts → w.Stores os q.heap →
        (∀ a ∈ as, a.Suits rt w ts os) →
          ∃ z,
            Target.Calls rt q (as.map Write.call) z ∧
              (∀ z', Target.Calls rt q (as.map Write.call) z' →
                z' = z) ∧
              z.Knows rt ts ∧ w.Stores os z.heap ∧
              ∀ x,
                w.HasSpot os x →
                  x.value? w z.heap =
                    x.after as (x.value? w q.heap) := by
  intro s rt
  have hLaid := hDeclared.laidOut hOrder
  refine ⟨?start, ?found, ?asked, ?made, ?read, ?written, ?run⟩
  case start =>
    have hFresh := start_isFresh w settings .checking
    have hHost := World.host_makesNoTargets w
    exact
      ⟨knows_after hFresh hHost [] (List.forall_mem_nil _),
        World.stores_staticHeap hLaid⟩
  case found =>
    intro q ts l owner name t isStatic setter u q' hKnows hFind
    rcases hKnows.findField hFind with
      ⟨hKnows', hHeap, f, hAccesses⟩
    rcases World.of_resolveField hLaid.placed hAccesses.resolved
      with ⟨hField, hName, hType⟩
    exact
      ⟨hKnows', hHeap, f, hField, hName, hType, hAccesses.suits,
        l, name, t, isStatic, hAccesses⟩
  case asked =>
    intro o n owner f hShape hDescends
    exact Spot.isOf_of_descends hShape hDescends
  case made =>
    intro q ts os n hKnows hStores
    rcases hStores.allocate hLaid hAcyclic n with
      ⟨o, h', hAllocate, hShape, hNew, hStores', hZero, hOthers⟩
    exact
      ⟨o, h', hAllocate, hShape, hNew,
        hKnows.withHeap
          (fun _ _ => World.allocate_target hAllocate),
        hStores', hZero, hOthers⟩
  case read =>
    intro q ts os x u hKnows hStores hSpot hReached
    exact hKnows.gives rfl rfl hStores hSpot hReached
  case written =>
    intro q ts os x u v hKnows hStores hSpot hReached hFits
    rcases
      hKnows.writes rfl rfl hStores hSpot hLaid hAcyclic rfl
        hReached hFits
      with
      ⟨z, hComes, hSame, hKnows', hStores', hValue, hOthers⟩
    refine ⟨z, hComes, hSame, hKnows', hStores', ?_, ?_⟩
    · intro g hGetter
      exact
        hKnows'.gives_of_value? rfl rfl hStores' hSpot hGetter
          hValue
    · intro y hOther hNe
      refine ⟨hOthers y hOther hNe, ?_⟩
      rintro g b hGetter ⟨p, -, hBefore⟩
      rcases hKnows.gives rfl rfl hStores hOther hGetter with
        ⟨b', hHeld, p', -, hGives⟩
      cases hBefore.unique hGives
      refine
        hKnows'.gives_of_value? rfl rfl hStores' hOther hGetter ?_
      rw [hOthers y hOther hNe, hHeld]
  case run =>
    intro q ts os as hKnows hStores hSuits
    rcases
      Write.run_all rfl rfl rfl hLaid hAcyclic as hKnows hStores
        hSuits
      with ⟨z, hCalls, hKnows', hStores', hValues⟩
    exact
      ⟨z, hCalls, fun _ hOther => hCalls.unique hOther, hKnows',
        hStores', hValues⟩

/- A class of points, and a class of points that have a depth. -/
def figures : ClassTable :=
  ⟨[.ofClass ⟨"a.Point"⟩,
    { ClassInfo.ofClass ⟨"b.Pixel"⟩ with
      superclass := some ⟨"a.Point"⟩ }]⟩

/- Superclasses have the lower ranks. -/
def rankOf (n : ClassName) : Nat :=
  if n = ⟨"b.Pixel"⟩ then 2
  else if n = ⟨"a.Point"⟩ then 1
  else 0

theorem figures_ranked :
    ∀ c ∈ figures.classes, ∀ m ∈ c.superclass,
      rankOf m < rankOf c.name := by
  decide +kernel

def pointPlace : Field :=
  ⟨⟨"a.Point"⟩, "place", .int, .ofList [.isPublic],
    .fieldOffset 0⟩

def pointsMade : Field :=
  ⟨⟨"a.Point"⟩, "made", .int, .ofList [.isPublic, .isStatic],
    .fieldOffset 0⟩

def pixelDepth : Field :=
  ⟨⟨"b.Pixel"⟩, "depth", .prim .long, .ofList [.isPublic],
    .fieldOffset 1⟩

/- The world in which the three fields are declared. -/
def drawing : World :=
  { World.initial figures with
    fields := [pointPlace, pointsMade, pixelDepth]
    layouts := [(⟨"a.Point"⟩, [.int]), (⟨"b.Pixel"⟩, [.prim .long])]
    statics := [(⟨"a.Point"⟩, [.int])] }

theorem figures_acyclic : figures.Acyclic :=
  ClassTable.acyclic_of_rank figures_ranked

theorem figures_extends :
    figures.Extends ⟨"b.Pixel"⟩ ⟨"a.Point"⟩ := by
  unfold ClassTable.Extends
  decide +kernel

theorem drawing_declared : drawing.Declared := by
  have hRoot : figures.Extends ⟨"a.Point"⟩ .object := by
    unfold ClassTable.Extends
    decide +kernel
  have hPoint : figures.Chain ⟨"a.Point"⟩ [⟨"a.Point"⟩, .object] :=
    .step hRoot (.last (by decide +kernel))
  have hPixel :
      figures.Chain ⟨"b.Pixel"⟩
        [⟨"b.Pixel"⟩, ⟨"a.Point"⟩, .object] :=
    .step figures_extends hPoint
  have hWalk := figures_acyclic.superclasses?_eq hPoint
  have hWalk' := figures_acyclic.superclasses?_eq hPixel
  let placed : World :=
    { World.initial figures with
      fields := [pointPlace]
      layouts := [(⟨"a.Point"⟩, [.int])] }
  let made : World :=
    { placed with
      fields := [pointPlace, pointsMade]
      statics := [(⟨"a.Point"⟩, [.int])] }
  have hPlace :
      (World.initial figures).addField ⟨"a.Point"⟩ "place" .int
          pointPlace.flags =
        some placed := by
    unfold World.addField World.layout? World.initial
    rw [hWalk]
    cbv
  have hMade :
      placed.addField ⟨"a.Point"⟩ "made" .int pointsMade.flags =
        some made := by
    cbv
  have hDepth :
      made.addField ⟨"b.Pixel"⟩ "depth" (.prim .long)
          pixelDepth.flags =
        some drawing := by
    unfold World.addField World.layout?
    rw [show made.classes.superclasses? _ = _ from hWalk']
    cbv
  exact
    .addField (.addField (.addField (.initial figures) hPlace) hMade)
      hDepth

theorem drawing_supersFirst : drawing.SupersFirst := by
  have hAbove :
      ¬figures.IsBelow ⟨"a.Point"⟩ ⟨"b.Pixel"⟩ := by
    intro hBelow
    exact
      absurd (hBelow.rank_lt figures_ranked) (by decide +kernel)
  have hStatic : pointsMade.flags.has .isStatic ≠ false := by
    decide +kernel
  refine .cons ?_ (.cons ?_ (.cons (List.forall_mem_nil _) .nil))
  · simp only [List.forall_mem_cons]
    exact
      ⟨fun _ hInside => absurd hInside hStatic,
        fun _ _ => hAbove, List.forall_mem_nil _⟩
  · simp only [List.forall_mem_cons]
    exact
      ⟨fun hInside => absurd hInside hStatic,
        List.forall_mem_nil _⟩

/- A session of that world. -/
def drawn : Session :=
  .start drawing drawing.staticHeap {} .checking

/- What reads or writes a public field is found. -/
theorem drawn_finds
    (owner : ClassName)
    (f : Field)
    (setter : Bool)
    (hResolve :
      drawing.resolveField owner f.name f.type = .ok f)
    (hFlags :
      f.flags.has .isPublic = true ∧
        f.flags.has .isStatic = false ∧
        f.flags.has .isFinal = false)
    (hClass :
      isClassAccessible figures owner ⟨"a.Point"⟩ .all = true)
    (hSlot : ∃ k, f.slot = .fieldOffset k)
    (hValue : f.type.IsVoid = false)
    (q : State) :
    ∃ u q',
      (Lookup.full ⟨"a.Point"⟩).findField drawn.context.runtime
          owner f.name f.type false setter q = .ok u q' ∧
        u.FoundFor drawn.context.runtime setter owner f := by
  rcases hSlot with ⟨k, hSlot⟩
  have hGrants :
      (Lookup.full ⟨"a.Point"⟩).Grants
        drawn.context.runtime.classes f.declaring owner
        f.flags := by
    refine Lookup.grants_iff.2 ⟨hClass, ?_⟩
    rw [if_pos hFlags.1]
    trivial
  have hFinds :
      ((Lookup.full ⟨"a.Point"⟩).findField drawn.context.runtime
        owner f.name f.type false setter).Succeeds
          ((Lookup.full ⟨"a.Point"⟩).Accesses
            drawn.context.runtime owner f.name f.type false setter
            f) :=
    Lookup.findField_succeeds rfl hResolve hFlags.2.1
      (fun _ => hFlags.2.2) hGrants rfl hSlot (fun _ => hValue)
  rcases hFinds q with ⟨u, q', hRun, hAccesses⟩
  exact ⟨u, q', hRun, _, _, _, _, hAccesses⟩

/-
  The place of a pixel is set through the class of points, and
  read through the class of pixels.  The pixel keeps the zero
  that its depth had.
-/
theorem fields_do_not_alias_drawing :
    drawing.Declared ∧ figures.Acyclic ∧ drawing.SupersFirst ∧
      ∃ set get other o q z,
        Target.FoundFor drawn.context.runtime true ⟨"a.Point"⟩
            pointPlace set ∧
          Target.FoundFor drawn.context.runtime false
            ⟨"b.Pixel"⟩ pointPlace get ∧
          Target.FoundFor drawn.context.runtime false
            ⟨"b.Pixel"⟩ pixelDepth other ∧
          Obj.shape o = .plain ⟨"b.Pixel"⟩ ∧
          (Entry.way .exact).ComesTo drawn.context.runtime set
            [.ref o, .prim (.int 5)] q (.ok .void z) ∧
          z.Gives drawn.context.runtime get
            ⟨some o, pointPlace⟩ (.prim (.int 5)) ∧
          z.Gives drawn.context.runtime other
            ⟨some o, pixelDepth⟩ (.prim (.long 0)) := by
  rcases
    fields_do_not_alias drawing_declared figures_acyclic
      drawing_supersFirst {}
    with
    ⟨⟨hStart, hStores, -⟩, hFind, hAsked, hMake, hRead, hWrite, -⟩
  have hPlace :
      pointPlace.flags.has .isPublic = true ∧
        pointPlace.flags.has .isStatic = false ∧
        pointPlace.flags.has .isFinal = false := by
    decide +kernel
  have hDepth :
      pixelDepth.flags.has .isPublic = true ∧
        pixelDepth.flags.has .isStatic = false ∧
        pixelDepth.flags.has .isFinal = false := by
    decide +kernel
  rcases
    drawn_finds ⟨"a.Point"⟩ pointPlace true (by cbv) hPlace
      (by decide +kernel) ⟨_, rfl⟩ rfl drawn.state
    with ⟨set, q₁, hSet, hSetter⟩
  rcases
    drawn_finds ⟨"b.Pixel"⟩ pointPlace false (by cbv) hPlace
      (by decide +kernel) ⟨_, rfl⟩ rfl q₁
    with ⟨get, q₂, hGet, hGetter⟩
  rcases
    drawn_finds ⟨"b.Pixel"⟩ pixelDepth false (by cbv) hDepth
      (by decide +kernel) ⟨_, rfl⟩ rfl q₂
    with ⟨other, q₃, hOther, hOtherGetter⟩
  rcases hFind _ _ _ _ _ _ _ _ _ _ hStart hSet with
    ⟨hKnows₁, hHeap₁, -⟩
  rcases hFind _ _ _ _ _ _ _ _ _ _ hKnows₁ hGet with
    ⟨hKnows₂, hHeap₂, -⟩
  rcases hFind _ _ _ _ _ _ _ _ _ _ hKnows₂ hOther with
    ⟨hKnows₃, hHeap₃, -⟩
  rw [← hHeap₁, ← hHeap₂, ← hHeap₃] at hStores
  rcases hMake _ _ _ ⟨"b.Pixel"⟩ hKnows₃ hStores with
    ⟨o, h', -, hShape, -, hKnows, hStores', hZero, -⟩
  have hPlaceSpot : drawing.HasSpot [o] ⟨some o, pointPlace⟩ :=
    .inside List.mem_cons_self hPlace.2.1 List.mem_cons_self
      hShape (.single figures_extends)
  have hDepthSpot : drawing.HasSpot [o] ⟨some o, pixelDepth⟩ :=
    .inside
      (List.mem_cons_of_mem _
        (List.mem_cons_of_mem _ List.mem_cons_self))
      hDepth.2.1 List.mem_cons_self hShape .refl
  have hReaches :
      (⟨some o, pointPlace⟩ : Spot).ReachedBy
        drawn.context.runtime [other, get, set] true set :=
    ⟨by simp, _, hSetter,
      hAsked o _ ⟨"a.Point"⟩ pointPlace hShape
        (.single figures_extends)⟩
  have hReadsPlace :
      (⟨some o, pointPlace⟩ : Spot).ReachedBy
        drawn.context.runtime [other, get, set] false get :=
    ⟨by simp, _, hGetter, hAsked o _ _ _ hShape .refl⟩
  have hReadsDepth :
      (⟨some o, pixelDepth⟩ : Spot).ReachedBy
        drawn.context.runtime [other, get, set] false other :=
    ⟨by simp, _, hOtherGetter, hAsked o _ _ _ hShape .refl⟩
  rcases
    hRead _ _ _ _ _ hKnows hStores' hDepthSpot hReadsDepth
    with ⟨v, hDeep, hBefore⟩
  rw [hZero _ hDepthSpot] at hDeep
  cases hDeep
  rcases
    hWrite _ _ _ _ _ (.prim (.int 5)) hKnows hStores' hPlaceSpot
      hReaches rfl
    with ⟨z, hSets, -, -, -, hGets, hOthers⟩
  have hApart :
      (⟨some o, pixelDepth⟩ : Spot) ≠ ⟨some o, pointPlace⟩ := by
    intro hSame
    have hName : "depth" = "place" :=
      congrArg (fun x : Spot => x.field.name) hSame
    exact absurd hName (by decide)
  exact
    ⟨drawing_declared, figures_acyclic, drawing_supersFirst, set, get,
      other, o, _, z, hSetter, hGetter, hOtherGetter, hShape,
      hSets, hGets get hReadsPlace,
      (hOthers _ hDepthSpot hApart).2 other _ hReadsDepth hBefore⟩

end Session

end Linkage
