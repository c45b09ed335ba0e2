import Linkage.Proofs.Session.RoundTrip

/-
  Targets that write elements of arrays.  The array may be one
  of a narrower component type than the target is made for.
  A value is stored if the index lies in the array and the
  value is one of the component type that the array has at
  run time, and then one element changes; in all other cases
  nothing does.  So an array whose elements are values of its
  component type stays one, whatever is stored through
  whatever targets.

  Key definitions include:
    * `Target.ReadsElements`
    * `Target.WritesElements`
    * `Heap.Replaces`
    * `Run.Stored`
    * `Target.StoresInto`
    * `Heap.HoldsElements`
    * `Target.Calls`

  Key theorems include:
    * `Run.runArraySet_stored`
    * `State.Knows.comesTo_stored`
    * `Target.StoresInto.of_stored`
    * `State.Knows.call_writes`
    * `Target.Calls.holds`
    * `Session.elements_stay_typed`
-/

------------------------------------------------------------
-- Targets for Elements
------------------------------------------------------------

namespace Linkage

/- A target that reads elements of arrays of a component. -/
structure Target.ReadsElements
    (g : Target)
    (p : Ty) : Prop where
  form_eq : g.form = .arrayGet
  params_eq : g.params = [.array p, .int]
  ret_eq : g.ret = p

/- A target that writes elements of arrays of a component. -/
structure Target.WritesElements
    (t : Target)
    (p : Ty) : Prop where
  form_eq : t.form = .arraySet
  params_eq : t.params = [.array p, .int, p]
  ret_eq : t.ret = .void

variable {T : ClassTable}
variable {rt : Runtime}
variable {t : Target}
variable {ts : List Target}
variable {args : List Value}
variable {q z : State}
variable {h h' : Heap}
variable {o x : Obj}
variable {c p : Ty}
variable {vs : List Value}
variable {i : Int32}
variable {n : Nat}
variable {v w : Value}

section Making

variable (hKnows : q.Knows rt ts)
variable (hChecking : rt.compile = .checking)
include hKnows hChecking

theorem State.Knows.arrayGetter_ok
    (p : Ty) :
    ∃ g q',
      Target.arrayGetter rt (.array p) q = .ok g q' ∧
        q'.Knows rt (g :: ts) ∧ g.ReadsElements p := by
  have hAdmissible : Admissible [.array p, .int] :=
    ⟨by simp [Ty.IsVoid, Ty.int], Nat.le_of_ble_eq_true rfl⟩
  rcases
    hKnows.elementary_ok (m := Target.arrayGetter rt (.array p))
      hChecking hAdmissible rfl rfl (fun _ => Makes.arrayGetter)
    with ⟨g, q', hRun, hLater, hForm, hParams, hRet⟩
  exact ⟨g, q', hRun, hLater, hForm, hParams, hRet⟩

/- Arrays of `void` have no elements to write. -/
theorem State.Knows.arraySetter_ok
    (hElements : p.IsVoid = false) :
    ∃ t q',
      Target.arraySetter rt (.array p) q = .ok t q' ∧
        q'.Knows rt (t :: ts) ∧ t.WritesElements p := by
  have hAdmissible : Admissible [.array p, .int, p] := by
    constructor
    · simp only [List.forall_mem_cons]
      exact ⟨rfl, rfl, hElements, List.forall_mem_nil _⟩
    · cases p with
      | prim k => cases k <;> exact Nat.le_of_ble_eq_true rfl
      | cls n => exact Nat.le_of_ble_eq_true rfl
      | array c => exact Nat.le_of_ble_eq_true rfl
  rcases
    hKnows.elementary_ok (m := Target.arraySetter rt (.array p))
      hChecking hAdmissible rfl rfl (fun _ => Makes.arraySetter)
    with ⟨t, q', hRun, hLater, hForm, hParams, hRet⟩
  exact ⟨t, q', hRun, hLater, hForm, hParams, hRet⟩

end Making

------------------------------------------------------------
-- Elements in the Heap
------------------------------------------------------------

/- One element of an array is replaced, and nothing else. -/
structure Heap.Replaces
    (h : Heap)
    (o : Obj)
    (n : Nat)
    (v : Value)
    (h' : Heap) : Prop where
  elements :
    ∃ vs ws,
      h.elements? o = some vs ∧ h'.elements? o = some ws ∧
        ws.length = vs.length ∧ ws[n]? = some v ∧
        ∀ j, j ≠ n → ws[j]? = vs[j]?
  others : ∀ k, k ≠ o.id → h'.at? k = h.at? k

/- Elements are kept in the heap if there are any. -/
theorem Heap.at?_of_elements?
    (hElements : h.elements? o = some vs)
    (hInside : n < vs.length) :
    h.at? o.id = some (.elements vs) := by
  unfold elements? at hElements
  split at hElements
  · split at hElements
    · rename_i hAt
      cases hElements
      exact hAt
    · cases hElements
      cases hInside
  · cases hElements

/- The elements of an array after one of them was stored. -/
theorem Heap.elements?_setElement
    (hElements : h.elements? o = some vs)
    (hInside : n < vs.length) :
    (h.setElement o n v).elements? o = some (vs.set n v) := by
  have hAt := at?_of_elements? hElements hInside
  have hStored :
      (h.setElement o n v).at? o.id =
        some (.elements (vs.set n v)) := by
    have hSize : o.id < h.size :=
      (Array.getElem?_eq_some_iff.1 hAt).1
    unfold setElement
    rw [hElements]
    dsimp only
    rw [at?_set, if_pos ⟨rfl, hSize⟩]
  unfold elements? at hElements ⊢
  split at hElements
  · rw [hStored]
  · cases hElements

theorem Heap.at?_setElement_ne
    {k : Nat}
    (hNe : k ≠ o.id) :
    (h.setElement o n v).at? k = h.at? k := by
  unfold setElement
  split
  · rw [at?_set, if_neg (fun hBoth => hNe hBoth.1.symm)]
  · rfl

theorem Heap.replaces_setElement
    (hElements : h.elements? o = some vs)
    (hInside : n < vs.length) :
    h.Replaces o n v (h.setElement o n v) where
  elements := by
    refine
      ⟨vs, vs.set n v, hElements,
        elements?_setElement hElements hInside,
        List.length_set, ?_, ?_⟩
    · rw [List.getElem?_set_self hInside]
    · intro j hNe
      rw [List.getElem?_set_ne (Ne.symm hNe)]
  others := fun _ => at?_setElement_ne

------------------------------------------------------------
-- Reading and Storing
------------------------------------------------------------

/- An index lies in an array of some elements. -/
def InBounds
    (i : Int32)
    (vs : List Value) : Prop :=
  0 ≤ i.toInt ∧ i.toInt < vs.length

theorem InBounds.lt
    (hIn : InBounds i vs) :
    i.toInt.toNat < vs.length := by
  unfold InBounds at hIn
  omega

/- The fault of an index that lies outside. -/
def outOfBounds
    (i : Int32)
    (vs : List Value) : Halt :=
  .fault (.arrayIndex i.toInt vs.length)

/- The fault of an array that is null. -/
def nullArray : Halt :=
  .fault (.nullReference "array is null")

/-
  What comes of storing a value at an index of an array.  The
  index is looked at first, and the value after it.
-/
inductive Run.Stored
    (T : ClassTable)
    (o : Obj)
    (c : Ty)
    (vs : List Value)
    (i : Int32)
    (v : Value)
    (z : State) : EStateM.Result Halt State Value → Prop
| outside
    (hOut : ¬InBounds i vs) :
    Stored T o c vs i v z (.error (outOfBounds i vs) z)
| mismatch
    (hIn : InBounds i vs)
    (hNot : ¬v.conforms T c = true) :
    Stored T o c vs i v z
      (.error (.fault (.arrayStore v.typeText c)) z)
| stored
    (hIn : InBounds i vs)
    (hFits : v.conforms T c = true) :
    Stored T o c vs i v z
      (.ok .void
        { z with heap := z.heap.setElement o i.toInt.toNat v })

theorem Run.Stored.ended
    {r : EStateM.Result Halt State Value}
    (hStored : Run.Stored T o c vs i v z r) :
    Run.Ended r := by
  unfold Run.Ended
  cases hStored with
  | outside _ => exact nofun
  | mismatch _ _ => exact nofun
  | stored _ _ => exact nofun

section Arrays

variable (hElements : z.heap.elements? o = some vs)
include hElements

theorem arrayOf_ref (rest : List Value) :
    arrayOf (.ref o :: rest) z = .ok (o, vs) z := by
  unfold arrayOf
  dsimp only [List.head?_cons]
  rw [Run.get_bind, hElements]
  rfl

theorem elementOf_inBounds
    (hIn : InBounds i vs) :
    elementOf [.ref o, .prim (.int i)] z =
      .ok (o, vs, i.toInt.toNat) z := by
  unfold InBounds at hIn
  unfold elementOf
  rw [Run.bind_ok (arrayOf_ref hElements _)]
  dsimp only [List.tail_cons, List.head?_cons]
  rw [if_pos hIn]
  rfl

theorem elementOf_outside
    (hOut : ¬InBounds i vs) :
    elementOf [.ref o, .prim (.int i)] z =
      .error (outOfBounds i vs) z := by
  unfold InBounds at hOut
  unfold elementOf
  rw [Run.bind_ok (arrayOf_ref hElements _)]
  dsimp only [List.tail_cons, List.head?_cons]
  rw [if_neg hOut]
  rfl

theorem runArrayGet_eq
    (hIn : InBounds i vs)
    (hAt : vs[i.toInt.toNat]? = some v) :
    runArrayGet [.ref o, .prim (.int i)] z = .ok v z := by
  unfold runArrayGet
  rw [Run.bind_ok (elementOf_inBounds hElements hIn)]
  dsimp only
  rw [hAt]
  rfl

theorem runArraySet_stored
    (rt : Runtime)
    (hShape : o.shape = .array c) :
    Run.Stored rt.classes o c vs i v z
      (runArraySet rt [.ref o, .prim (.int i), v] z) := by
  have hSplit :
      splitLast [.ref o, .prim (.int i), v] =
        (v, [.ref o, .prim (.int i)]) :=
    rfl
  have hComponent : o.component?.getD .object = c := by
    unfold Obj.component?
    rw [hShape]
    rfl
  unfold runArraySet
  rw [hSplit]
  dsimp only
  by_cases hIn : InBounds i vs
  · rw [Run.bind_ok (elementOf_inBounds hElements hIn)]
    dsimp only
    rw [hComponent]
    by_cases hFits : v.conforms rt.classes c = true
    · rw [if_pos hFits]
      exact .stored hIn hFits
    · rw [if_neg hFits]
      exact .mismatch hIn hFits
  · rw [Run.bind_error (elementOf_outside hElements hIn)]
    exact .outside hIn

end Arrays

theorem runArraySet_null
    (rt : Runtime)
    (v w : Value)
    (z : State) :
    runArraySet rt [.null, w, v] z = .error nullArray z :=
  rfl

------------------------------------------------------------
-- Exact Calls
------------------------------------------------------------

/- The arguments that a target for elements takes. -/
theorem Target.WritesElements.args_eq
    (hWrites : t.WritesElements p)
    (hAdmits : Target.admits T t.signature args = true) :
    ∃ a i v,
      args = [a, .prim (.int i), v] ∧
        a.conforms T (.array p) = true := by
  have hParams : t.signature.params = [.array p, .int, p] :=
    hWrites.params_eq
  have hMatch := Target.admits_iff.1 hAdmits
  rw [hParams] at hMatch
  rcases hMatch with _ | ⟨hArray, _ | ⟨hInt, _ | ⟨_, _ | _⟩⟩⟩
  rcases Value.conforms_prim hInt (by decide) with ⟨m, rfl, hKind⟩
  cases m with
  | int i => exact ⟨_, i, _, rfl, hArray⟩
  | _ => cases hKind

/- An array that is given is null, or has a component. -/
theorem Value.array_cases
    {a : Value}
    (h : Heap)
    (hArray : a.conforms T (.array p) = true) :
    a = .null ∨
      ∃ o c vs,
        a = .ref o ∧ o.shape = .array c ∧
          h.elements? o = some vs := by
  rcases Value.conforms_ref hArray rfl with rfl | ⟨o, rfl, hAssign⟩
  · exact Or.inl rfl
  · rcases ClassTable.eq_array_of_isAssignable hAssign with
      ⟨c, hType, _⟩
    rcases h.exists_elements hType with ⟨vs, hElements⟩
    exact
      Or.inr ⟨o, c, vs, rfl, Obj.shape_of_type hType, hElements⟩

section Calls

variable (hKnows : q.Knows rt ts)
include hKnows

theorem State.Knows.setElement
    (o : Obj)
    (n : Nat)
    (v : Value) :
    State.Knows rt { q with heap := q.heap.setElement o n v } ts :=
  hKnows.withHeap (fun _ _ => Heap.at?_setElement_target)

variable (hChecking : rt.compile = .checking)
variable (ht : t ∈ ts)
include hChecking ht

/- What a target does that enters no other. -/
theorem State.Knows.comesTo_behave
    {r : EStateM.Result Halt State Value}
    (hAdmits : Target.admits rt.classes t.signature args = true)
    (hEnded : Run.Ended r)
    (hBehave :
      ∀ e, t.behave rt e args (q.passed (some t) args) = r) :
    (Entry.way .exact).ComesTo rt t args q r := by
  refine ⟨hEnded, 1, ?_⟩
  rw [hKnows.exact_succ hChecking ht hAdmits 0]
  exact hBehave _

theorem State.Knows.comesTo_null
    (hWrites : t.WritesElements p)
    (hAdmits :
      Target.admits rt.classes t.signature [.null, w, v] = true) :
    (Entry.way .exact).ComesTo rt t [.null, w, v] q
      (.error nullArray (q.passed (some t) [.null, w, v])) := by
  refine hKnows.comesTo_behave hChecking ht hAdmits nofun ?_
  intro e
  unfold Target.behave
  rw [hWrites.form_eq]
  exact runArraySet_null rt v w _

/- What a call of a target that writes elements comes to. -/
theorem State.Knows.comesTo_stored
    (hWrites : t.WritesElements p)
    (hAdmits :
      Target.admits rt.classes t.signature
        [.ref o, .prim (.int i), v] = true)
    (hShape : o.shape = .array c)
    (hElements : q.heap.elements? o = some vs) :
    ∃ r,
      (Entry.way .exact).ComesTo rt t [.ref o, .prim (.int i), v] q
          r ∧
        Run.Stored rt.classes o c vs i v
          (q.passed (some t) [.ref o, .prim (.int i), v]) r := by
  have hLater :
      (q.passed (some t)
          [.ref o, .prim (.int i), v]).heap.elements? o =
        some vs :=
    hElements
  have hStored :=
    runArraySet_stored (i := i) (v := v) hLater rt hShape
  refine ⟨_, ?_, hStored⟩
  refine hKnows.comesTo_behave hChecking ht hAdmits ?_ ?_
  · exact hStored.ended
  · intro e
    unfold Target.behave
    rw [hWrites.form_eq]

theorem State.Knows.comesTo_element
    (hReads : t.ReadsElements p)
    (hAdmits :
      Target.admits rt.classes t.signature
        [.ref o, .prim (.int i)] = true)
    (hElements : q.heap.elements? o = some vs)
    (hIn : InBounds i vs)
    (hAt : vs[i.toInt.toNat]? = some v) :
    (Entry.way .exact).ComesTo rt t [.ref o, .prim (.int i)] q
      (.ok v (q.passed (some t) [.ref o, .prim (.int i)])) := by
  refine hKnows.comesTo_behave hChecking ht hAdmits nofun ?_
  intro e
  unfold Target.behave
  rw [hReads.form_eq]
  exact runArrayGet_eq hElements hIn hAt

end Calls

/- Arguments that do not match are refused at once. -/
theorem Target.comesTo_refused
    (hNot : ¬Target.admits rt.classes t.signature args = true) :
    (Entry.way .exact).ComesTo rt t args q
      (.error (.fault (.arguments t.signature args)) q) := by
  refine ⟨nofun, 0, ?_⟩
  change t.invokeExact rt (Target.enter rt 0) args q = _
  unfold Target.invokeExact Target.checkArguments
  rw [if_neg hNot]
  rfl

/-
  An exact call of a target that stores a value into an array
  of a component type and of some elements.  It gives `void`
  if the index lies in the array and the value is one of the
  component type, and only then.  In that case this element
  is replaced, and is what the targets give that read it.
  Else the call fails, for the index if that lies outside, and
  nothing changes.
-/
structure Target.StoresInto
    (rt : Runtime)
    (t : Target)
    (args : List Value)
    (o : Obj)
    (c : Ty)
    (vs : List Value)
    (i : Int32)
    (v : Value)
    (q : State) : Prop where
  gives_iff :
    (∃ z, (Entry.way .exact).ComesTo rt t args q (.ok .void z)) ↔
      InBounds i vs ∧ v.conforms rt.classes c = true
  stores :
    ∀ z,
      (Entry.way .exact).ComesTo rt t args q (.ok .void z) →
        q.heap.Replaces o i.toInt.toNat v z.heap ∧
          State.Same { q with heap := z.heap } z ∧
          ∀ (g : Target) (p : Ty) (y : State),
            y.heap = z.heap → y.Knows rt [g] →
              g.ReadsElements p →
              Target.admits rt.classes g.signature
                  [.ref o, .prim (.int i)] = true →
                ∃ y',
                  y.Same y' ∧
                    (Entry.way .exact).ComesTo rt g
                      [.ref o, .prim (.int i)] y (.ok v y')
  outside :
    ¬InBounds i vs →
      ∃ z,
        q.Same z ∧
          (Entry.way .exact).ComesTo rt t args q
            (.error (outOfBounds i vs) z)
  mismatch :
    InBounds i vs → ¬v.conforms rt.classes c = true →
      ∃ z,
        q.Same z ∧
          (Entry.way .exact).ComesTo rt t args q
            (.error (.fault (.arrayStore v.typeText c)) z)

theorem Target.StoresInto.of_stored
    {r : EStateM.Result Halt State Value}
    (hChecking : rt.compile = .checking)
    (hElements : q.heap.elements? o = some vs)
    (hComes : (Entry.way .exact).ComesTo rt t args q r)
    (hStored :
      Run.Stored rt.classes o c vs i v (q.passed (some t) args) r) :
    t.StoresInto rt args o c vs i v q := by
  have hPassed : q.Same (q.passed (some t) args) :=
    (State.Same.refl q).logEntry t args
  cases hStored with
  | outside hOut =>
      refine ⟨⟨?_, ?_⟩, ?_, ?_, ?_⟩
      · rintro ⟨z, hGives⟩
        cases hComes.unique hGives
      · rintro ⟨hIn, _⟩
        exact absurd hIn hOut
      · intro z hGives
        cases hComes.unique hGives
      · intro _
        exact ⟨_, hPassed, hComes⟩
      · intro hIn
        exact absurd hIn hOut
  | mismatch hIn hNot =>
      refine ⟨⟨?_, ?_⟩, ?_, ?_, ?_⟩
      · rintro ⟨z, hGives⟩
        cases hComes.unique hGives
      · rintro ⟨_, hFits⟩
        exact absurd hFits hNot
      · intro z hGives
        cases hComes.unique hGives
      · intro hOut
        exact absurd hIn hOut
      · intro _ _
        exact ⟨_, hPassed, hComes⟩
  | stored hIn hFits =>
      refine ⟨⟨?_, ?_⟩, ?_, ?_, ?_⟩
      · intro _
        exact ⟨hIn, hFits⟩
      · intro _
        exact ⟨_, hComes⟩
      · intro z hGives
        cases hComes.unique hGives
        refine
          ⟨Heap.replaces_setElement hElements hIn.lt,
            ⟨rfl, rfl, rfl⟩, ?_⟩
        intro g p y hHeap hKnows hReads hAdmits
        have hNow :
            y.heap.elements? o = some (vs.set i.toInt.toNat v) := by
          rw [hHeap]
          exact Heap.elements?_setElement hElements hIn.lt
        have hStill : InBounds i (vs.set i.toInt.toNat v) := by
          unfold InBounds
          rw [List.length_set]
          exact hIn
        exact
          ⟨_, (State.Same.refl y).logEntry g _,
            hKnows.comesTo_element hChecking List.mem_cons_self
              hReads hAdmits hNow hStill
              (List.getElem?_set_self hIn.lt)⟩
      · intro hOut
        exact absurd hIn hOut
      · intro _ hNot
        exact absurd hFits hNot

------------------------------------------------------------
-- Arrays that Hold What They are For
------------------------------------------------------------

/- The elements of an array are values of its component type. -/
def Heap.HoldsElements
    (T : ClassTable)
    (h : Heap)
    (o : Obj) : Prop :=
  ∀ c vs,
    o.shape = .array c → h.elements? o = some vs →
      ∀ w ∈ vs, w.conforms T c = true

/-
  What has the number of an object among some values is that
  object: of what shape it is never changes.
-/
def Obj.KnownIn
    (o : Obj)
    (args : List Value) : Prop :=
  ∀ x, .ref x ∈ args → x.id = o.id → x = o

theorem Heap.elements?_congr
    (hAt : h'.at? o.id = h.at? o.id) :
    h'.elements? o = h.elements? o := by
  unfold elements?
  rw [hAt]

/- A value of the component type is stored into some array. -/
theorem Heap.HoldsElements.setElement
    (hHolds : h.HoldsElements T o)
    (hKnown : x.id = o.id → x = o)
    (hShape : x.shape = .array c)
    (hElements : h.elements? x = some vs)
    (hInside : n < vs.length)
    (hFits : v.conforms T c = true) :
    (h.setElement x n v).HoldsElements T o := by
  intro c' ws hShape' hElements' w hw
  by_cases hSame : x.id = o.id
  · cases hKnown hSame
    rw [hShape] at hShape'
    cases hShape'
    rw [elements?_setElement hElements hInside] at hElements'
    cases hElements'
    rcases List.mem_or_eq_of_mem_set hw with hOld | rfl
    · exact hHolds c vs hShape hElements w hOld
    · exact hFits
  · rw [elements?_congr (at?_setElement_ne (Ne.symm hSame))]
      at hElements'
    exact hHolds c' ws hShape' hElements' w hw

/- An array holds what it is for after a value was stored. -/
theorem Run.Stored.holds
    {r : EStateM.Result Halt State Value}
    (hStored : Run.Stored T x c vs i v z r)
    (hShape : x.shape = .array c)
    (hElements : z.heap.elements? x = some vs)
    (hKnown : x.id = o.id → x = o)
    (hHolds : z.heap.HoldsElements T o) :
    (Run.final r).heap.HoldsElements T o := by
  cases hStored with
  | outside _ => exact hHolds
  | mismatch _ _ => exact hHolds
  | stored hIn hFits =>
      exact
        hHolds.setElement hKnown hShape hElements hIn.lt hFits

theorem Run.Stored.knows
    {r : EStateM.Result Halt State Value}
    (hStored : Run.Stored T x c vs i v z r)
    (hKnows : z.Knows rt ts) :
    (Run.final r).Knows rt ts := by
  cases hStored with
  | outside _ => exact hKnows
  | mismatch _ _ => exact hKnows
  | stored _ _ => exact hKnows.setElement x _ v

/-
  One exact call of a target that writes elements, with any
  arguments.  It comes to an end, after which as much is known
  as before, and each array holds what it is for if it did so.
-/
theorem State.Knows.call_writes
    (hKnows : q.Knows rt ts)
    (hChecking : rt.compile = .checking)
    (ht : t ∈ ts)
    (hWrites : t.WritesElements p)
    (args : List Value) :
    ∃ r,
      (Entry.way .exact).ComesTo rt t args q r ∧
        (Run.final r).Knows rt ts ∧
        ∀ o : Obj, o.KnownIn args →
          q.heap.HoldsElements rt.classes o →
            (Run.final r).heap.HoldsElements rt.classes o := by
  by_cases hAdmits :
      Target.admits rt.classes t.signature args = true
  · have hPassed := hKnows.passed t args
    rcases hWrites.args_eq hAdmits with ⟨a, i, v, rfl, hArray⟩
    rcases Value.array_cases q.heap hArray with
      rfl | ⟨x, c, vs, rfl, hShape, hElements⟩
    · exact
        ⟨_, hKnows.comesTo_null hChecking ht hWrites hAdmits,
          hPassed, fun o _ hHolds => hHolds⟩
    · rcases
        hKnows.comesTo_stored hChecking ht hWrites hAdmits hShape
          hElements
        with ⟨r, hComes, hStored⟩
      refine ⟨r, hComes, hStored.knows hPassed, ?_⟩
      intro o hKnown hHolds
      exact
        hStored.holds hShape hElements
          (hKnown x List.mem_cons_self) hHolds
  · exact
      ⟨_, Target.comesTo_refused hAdmits, hKnows,
        fun o _ hHolds => hHolds⟩

/- Exact calls one after the other, whatever they come to. -/
inductive Target.Calls
    (rt : Runtime) :
    State → List (Target × List Value) → State → Prop
| nil (q : State) : Calls rt q [] q
| cons
    {q z : State}
    {t : Target}
    {args : List Value}
    {rest : List (Target × List Value)}
    {r : EStateM.Result Halt State Value}
    (hComes : (Entry.way .exact).ComesTo rt t args q r)
    (hRest : Calls rt (Run.final r) rest z) :
    Calls rt q ((t, args) :: rest) z

theorem Target.Calls.unique
    {calls : List (Target × List Value)}
    {z' : State}
    (hCalls : Target.Calls rt q calls z)
    (hCalls' : Target.Calls rt q calls z') :
    z' = z := by
  induction hCalls with
  | nil q =>
      cases hCalls'
      rfl
  | cons hComes _ ih =>
      cases hCalls' with
      | cons hComes' hRest' =>
          cases hComes.unique hComes'
          exact ih hRest'

/- All calls come to an end, and arrays hold what they are for. -/
theorem Target.Calls.holds
    (hChecking : rt.compile = .checking)
    (calls : List (Target × List Value))
    (hKnows : q.Knows rt ts)
    (hWrite :
      ∀ x ∈ calls, x.1 ∈ ts ∧ ∃ p, x.1.WritesElements p) :
    ∃ z,
      Target.Calls rt q calls z ∧ z.Knows rt ts ∧
        ∀ o : Obj, (∀ x ∈ calls, o.KnownIn x.2) →
          q.heap.HoldsElements rt.classes o →
            z.heap.HoldsElements rt.classes o := by
  induction calls generalizing q with
  | nil => exact ⟨q, .nil q, hKnows, fun _ _ hHolds => hHolds⟩
  | cons call calls ih =>
      rcases call with ⟨t, args⟩
      rw [List.forall_mem_cons] at hWrite
      rcases hWrite with ⟨⟨ht, p, hWrites⟩, hLater⟩
      rcases hKnows.call_writes hChecking ht hWrites args with
        ⟨r, hComes, hKnows', hHolds⟩
      rcases ih hKnows' hLater with
        ⟨z, hCalls, hKnows'', hHolds'⟩
      refine ⟨z, .cons hComes hCalls, hKnows'', ?_⟩
      intro o hKnown hBefore
      rw [List.forall_mem_cons] at hKnown
      exact hHolds' o hKnown.2 (hHolds o hKnown.1 hBefore)

------------------------------------------------------------
-- Targets for Elements in a Session
------------------------------------------------------------

namespace Session

variable {s : Session}

/-
  Targets for the elements of arrays can be made in any state
  of a session, for all components of which there are
  elements.  An exact call stores a value into the array that
  it is given if the index and the value allow it, and else
  fails and changes nothing; a null array is a fault of its
  own.  After any sequence of such calls, each array whose
  elements were values of its component type has only such
  elements.
-/
theorem elements_stay_typed
    (hFresh : s.IsFresh)
    (hChecking : s.context.runtime.compile = .checking)
    (hHost : s.context.runtime.host.MakesNoTargets)
    (xs : List Step) :
    let rt := s.context.runtime
    (∀ ts : List Target,
      (∀ t ∈ ts, (s.after xs).context.Names t) →
        (s.after xs).state.Knows rt ts) ∧
      (∀ (r : State) (ts : List Target) (p : Ty),
        r.Knows rt ts →
          (∃ g r',
            Target.arrayGetter rt (.array p) r = .ok g r' ∧
              r'.Knows rt (g :: ts) ∧ g.ReadsElements p) ∧
            (p.IsVoid = false →
              ∃ t r',
                Target.arraySetter rt (.array p) r = .ok t r' ∧
                  r'.Knows rt (t :: ts) ∧ t.WritesElements p)) ∧
      (∀ (q : State) (t : Target) (p : Ty) (args : List Value),
        q.Knows rt [t] → t.WritesElements p →
          Target.admits rt.classes t.signature args = true →
            ∃ a i v,
              args = [a, .prim (.int i), v] ∧
                ((a = .null ∧
                    ∃ z,
                      q.Same z ∧
                        (Entry.way .exact).ComesTo rt t args q
                          (.error nullArray z)) ∨
                  ∃ o c vs,
                    a = .ref o ∧ o.shape = .array c ∧
                      q.heap.elements? o = some vs ∧
                      t.StoresInto rt args o c vs i v q)) ∧
      ∀ (q : State) (ts : List Target)
        (calls : List (Target × List Value)),
        q.Knows rt ts →
          (∀ x ∈ calls, x.1 ∈ ts ∧ ∃ p, x.1.WritesElements p) →
            ∃ z,
              Target.Calls rt q calls z ∧
                (∀ z', Target.Calls rt q calls z' → z' = z) ∧
                z.Knows rt ts ∧
                ∀ o : Obj, (∀ x ∈ calls, o.KnownIn x.2) →
                  q.heap.HoldsElements rt.classes o →
                    z.heap.HoldsElements rt.classes o := by
  intro rt
  refine ⟨?named, ?made, ?stored, ?kept⟩
  case named =>
    intro ts hNamed
    exact knows_after hFresh hHost xs hNamed
  case made =>
    intro r ts p hKnows
    exact
      ⟨hKnows.arrayGetter_ok hChecking p,
        hKnows.arraySetter_ok hChecking⟩
  case stored =>
    intro q t p args hKnows hWrites hAdmits
    have ht : t ∈ [t] := List.mem_cons_self
    rcases hWrites.args_eq hAdmits with ⟨a, i, v, rfl, hArray⟩
    refine ⟨a, i, v, rfl, ?_⟩
    rcases Value.array_cases q.heap hArray with
      rfl | ⟨o, c, vs, rfl, hShape, hElements⟩
    · exact
        Or.inl
          ⟨rfl, _, (State.Same.refl q).logEntry t _,
            hKnows.comesTo_null hChecking ht hWrites hAdmits⟩
    · rcases
        hKnows.comesTo_stored hChecking ht hWrites hAdmits hShape
          hElements
        with ⟨r, hComes, hStored⟩
      exact
        Or.inr
          ⟨o, c, vs, rfl, hShape, hElements,
            .of_stored hChecking hElements hComes hStored⟩
  case kept =>
    intro q ts calls hKnows hWrite
    rcases Target.Calls.holds hChecking calls hKnows hWrite with
      ⟨z, hCalls, hLater, hHolds⟩
    exact
      ⟨z, hCalls, fun _ hOther => hCalls.unique hOther, hLater,
        hHolds⟩

/- An array of one text, in a session of its own. -/
def oneWord : List Step :=
  [.letValue (.array .string [.text "x"]) (some "words")]

def words : Obj := ⟨1, .array .string⟩

def word : Value := .ref ⟨0, .text "x"⟩

/- To store a value as the first element of the texts. -/
def asFirstWord (v : Value) : List Value :=
  [.ref words, .prim (.int 0), v]

/-
  Whether the texts are there when a target that writes
  objects is made, which takes a text as well as an array.
-/
def takesWords (s : Session) : Bool :=
  let rt := s.context.runtime
  match Target.arraySetter rt (.array .object) s.state with
  | .error _ _ => false
  | .ok t r =>
      r.heap.elements? words = some [word] &&
        Target.admits rt.classes t.signature (asFirstWord word) &&
        Target.admits rt.classes t.signature
          (asFirstWord (.ref words))

/-
  A text is stored among texts through a target for objects.
  An array is an object, but no text, and is refused.
-/
theorem elements_stay_typed_words :
    ∃ t r z z',
      Target.arraySetter known.context.runtime (.array .object)
          (known.after oneWord).state =
        .ok t r ∧
        (Entry.way .exact).ComesTo known.context.runtime t
          (asFirstWord word) r (.ok .void z) ∧
        r.heap.Replaces words 0 word z.heap ∧
        (Entry.way .exact).ComesTo known.context.runtime t
          (asFirstWord (.ref words)) r
          (.error
            (.fault
              (.arrayStore (Value.ref words).typeText .string)) z') ∧
        r.Same z' ∧
        ∃ y,
          Target.Calls known.context.runtime r
              [(t, asFirstWord word), (t, asFirstWord (.ref words))]
              y ∧
            y.heap.HoldsElements known.context.runtime.classes
              words := by
  have hCheck : (known.after oneWord).takesWords = true := by
    decide +kernel
  rcases
    elements_stay_typed known_isFresh rfl
      (World.host_makesNoTargets (.initial .wellKnown)) oneWord
    with ⟨hKnows, hMade, hStored, hKept⟩
  rcases
    (hMade _ [] .object (hKnows [] (List.forall_mem_nil _))).2 rfl
    with
    ⟨t, r, hRun, hKnows', hWrites⟩
  unfold takesWords at hCheck
  rw [runtime_after] at hCheck
  dsimp only at hCheck
  rw [hRun] at hCheck
  simp only [Bool.and_eq_true, decide_eq_true_eq] at hCheck
  rcases hCheck with ⟨⟨hElements, hText⟩, hArray⟩
  have hString :
      word.conforms known.context.runtime.classes .string = true := by
    decide
  have hIn : InBounds 0 [word] := by
    unfold InBounds
    decide
  have hStores :
      ∀ v,
        Target.admits known.context.runtime.classes t.signature
            (asFirstWord v) = true →
          t.StoresInto known.context.runtime (asFirstWord v) words
            .string [word] 0 v r := by
    intro v hAdmits
    rcases hStored r t .object _ hKnows' hWrites hAdmits with
      ⟨a, i, w, hArgs, hCase⟩
    cases hArgs
    rcases hCase with
      ⟨hNull, _⟩ | ⟨o, c, vs, hRef, hShape, hVs, hInto⟩
    · cases hNull
    · cases hRef
      cases hShape
      rw [hElements] at hVs
      cases hVs
      exact hInto
  have hFirst := hStores word hText
  have hSecond := hStores (.ref words) hArray
  rcases hFirst.gives_iff.2 ⟨hIn, hString⟩ with ⟨z, hGives⟩
  rcases hSecond.mismatch hIn (by decide) with
    ⟨z', hSame, hFails⟩
  have hBoth :
      ∀ x ∈ [(t, asFirstWord word), (t, asFirstWord (.ref words))],
        x.1 ∈ [t] ∧ ∃ p, x.1.WritesElements p := by
    simp only [List.forall_mem_cons]
    exact
      ⟨⟨List.mem_cons_self, .object, hWrites⟩,
        ⟨List.mem_cons_self, .object, hWrites⟩,
        List.forall_mem_nil _⟩
  rcases hKept r [t] _ hKnows' hBoth with ⟨y, hCalls, _, _, hHolds⟩
  refine
    ⟨t, r, z, z', hRun, hGives, (hFirst.stores z hGives).1, hFails,
      hSame, y, hCalls, hHolds words ?_ ?_⟩
  · simp only [List.forall_mem_cons]
    refine ⟨?_, ?_, List.forall_mem_nil _⟩
    · intro x hx hId
      simp only [asFirstWord, word, List.mem_cons,
        Value.ref.injEq, reduceCtorEq, List.not_mem_nil,
        or_false, false_or] at hx
      rcases hx with rfl | rfl
      · rfl
      · cases hId
    · intro x hx hId
      simp only [asFirstWord, List.mem_cons,
        Value.ref.injEq, reduceCtorEq, List.not_mem_nil,
        or_false, false_or, or_self] at hx
      exact hx
  · intro c vs hShape hVs w hw
    cases hShape
    rw [hElements] at hVs
    cases hVs
    rw [List.mem_singleton.1 hw]
    exact hString

end Session

end Linkage
