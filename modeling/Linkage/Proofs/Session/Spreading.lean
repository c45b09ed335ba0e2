import Linkage.Proofs.Session.Permuting
import Linkage.Proofs.Session.Varargs

/-
  Collectors and spreaders of arrays.  A collector hands its
  last arguments on as a new array; a spreader hands on the
  elements of an array in its last place, if there are as many
  as it asks for.  One after the other they copy the array.

  Key definitions include:
    * `Target.PassesTo`
    * `Target.CollectsInto`
    * `Target.RefusesArray`
    * `Target.SpreadsOver`
    * `Target.Copies`

  Key theorems include:
    * `Target.enter_collect_same`
    * `Target.enter_spread_same`
    * `State.Sound.of_asCollector`
    * `State.Sound.of_asSpreader`
    * `Session.collectors_and_spreaders`
-/

------------------------------------------------------------
-- Entering the Nodes
------------------------------------------------------------

namespace Linkage

variable {rt : Runtime}
variable {c : Catalog}
variable {s s' r : State}
variable {sig : Signature}
variable {t u x y : Target}
variable {component : Ty}
variable {count : Nat}
variable {head tail args vs : List Value}
variable {o : Obj}

namespace Target

/- A state in which there is a new array. -/
theorem sound_allocArray
    (hSound : s.Sound rt c)
    (component : Ty)
    (vs : List Value) :
    State.Sound rt c
      { s with heap := (s.heap.allocArray component vs).2 } :=
  hSound.withHeap
    (fun i t hAt =>
      hSound.handles i t (Heap.at?_allocArray_target hAt))

/-
  A collector comes to what its target comes to, with a new
  array of the last arguments.
-/
theorem enter_collect_same
    (hChecking : rt.compile = .checking)
    (hHost : rt.host.MakesNoTargets)
    (hSound : r.Sound rt c)
    (hx : x ∈ c.made)
    (hForm : x.form = .collect t component count)
    (hTail : tail.length = count)
    (hCount : (head ++ tail).length = x.count)
    (n : Nat) :
    Run.Same (enter rt (n + 1) x (head ++ tail) r)
      (enter rt n t
        (head ++ [.ref (r.heap.allocArray component tail).1])
        { r with
          heap := (r.heap.allocArray component tail).2 }) := by
  have hArity := (hSound.valid.serves x hx).arity_eq hChecking
  have ht : t ∈ c.made :=
    hSound.valid.delegate hx hForm List.mem_cons_self
  have hSplit : (head ++ tail).length - count = head.length := by
    rw [List.length_append, hTail, Nat.add_sub_cancel]
  have hEnough : count ≤ (head ++ tail).length := by
    rw [List.length_append, hTail]
    exact Nat.le_add_left _ _
  have hPassed := sound_passed hSound (some x) (head ++ tail)
  have hNew :
      Run.newArray component tail
          (r.passed (some x) (head ++ tail)) =
        .ok (r.heap.allocArray component tail).1
          { r.passed (some x) (head ++ tail) with
            heap := (r.heap.allocArray component tail).2 } :=
    rfl
  rw [enter_collect hForm (hCount.trans hArity.symm) hEnough,
    Run.bind_ok (pass_eq (some x) _ r), hSplit,
    List.drop_left' rfl, List.take_left' rfl, Run.bind_ok hNew]
  refine
    enter_same hChecking hHost ?_
      (sound_allocArray hPassed component tail)
      (sound_allocArray hSound component tail) ht ht n _
  exact ⟨rfl, rfl, rfl⟩

/- A node that spreads its last argument. -/
theorem behave_spread
    {enter : Enter}
    (hForm : x.form = .spread y count) :
    x.behave rt enter args =
      spreadArgs x.signature count args >>= enter y := by
  unfold behave
  rw [hForm]

/- What an array in the last place is replaced by. -/
theorem spreadArgs_ref
    (hElements : s.heap.elements? o = some vs) :
    spreadArgs sig count (head ++ [.ref o]) s =
      (if vs.length = count then pure (head ++ vs)
      else
        Run.fault
          (.illegalArgument
            ("array of length " ++ toString vs.length ++
              " cannot supply " ++ toString count ++
              " spread arguments"))) s := by
  have hGet : (get : Run State) s = .ok s s := rfl
  unfold spreadArgs
  rw [List.getLast?_concat, List.dropLast_concat]
  dsimp only
  rw [Run.bind_ok hGet, hElements]

/- Null in the last place stands for no elements. -/
theorem spreadArgs_null :
    spreadArgs sig count (head ++ [.null]) =
      (if count = 0 then pure head
      else
        Run.fault
          (.illegalArgument
            ("null array cannot supply " ++ toString count ++
              " spread arguments"))) := by
  unfold spreadArgs
  rw [List.getLast?_concat, List.dropLast_concat]

section Spread

variable (hChecking : rt.compile = .checking)
variable (hSound : r.Sound rt c)
variable (hx : x ∈ c.made)
variable (hForm : x.form = .spread y count)
variable (hCount : args.length = x.count)
include hChecking hSound hx hForm hCount

/- A spreader enters its target with what it spreads. -/
theorem enter_spread_same
    (hHost : rt.host.MakesNoTargets)
    (hSpread :
      spreadArgs x.signature count args (r.passed (some x) args) =
        .ok vs (r.passed (some x) args))
    (n : Nat) :
    Run.Same (enter rt (n + 1) x args r) (enter rt n y vs r) := by
  have hArity := (hSound.valid.serves x hx).arity_eq hChecking
  have hy : y ∈ c.made :=
    hSound.valid.delegate hx hForm List.mem_cons_self
  have hPassed := sound_passed hSound (some x) args
  rw [enter_succ (hCount.trans hArity.symm),
    Run.bind_ok (pass_eq (some x) args r), behave_spread hForm,
    Run.bind_ok hSpread]
  exact
    (enter_same hChecking hHost
      ((State.Same.refl r).logEntry x args) hSound hPassed hy hy n
      vs).symm

/- A spreader that fails has entered nothing but itself. -/
theorem enter_spread_error
    {e : Halt}
    (hSpread :
      spreadArgs x.signature count args (r.passed (some x) args) =
        .error e (r.passed (some x) args))
    (n : Nat) :
    enter rt (n + 1) x args r =
      .error e (r.log (.entered x args)) := by
  have hArity := (hSound.valid.serves x hx).arity_eq hChecking
  rw [enter_succ (hCount.trans hArity.symm),
    Run.bind_ok (pass_eq (some x) args r), behave_spread hForm,
    Run.bind_error hSpread]
  rfl

end Spread

end Target

------------------------------------------------------------
-- Making the Nodes
------------------------------------------------------------

namespace State.Sound

/- A collector that was made. -/
theorem of_asCollector
    (hSound : s.Sound rt c)
    (hChecking : rt.compile = .checking)
    (ht : t ∈ c.made)
    (hOk :
      t.asCollector rt (.array component) count s = .ok x s') :
    ∃ fixed element,
      t.params = fixed ++ [.array element] ∧
        rt.classes.isAssignable (.array component)
          (.array element) = true ∧
        x.params = fixed ++ List.replicate count component ∧
        x.ret = t.ret ∧ x.form = .collect t component count ∧
        State.Grown rt c s (c.addNode x) s' := by
  have hArrays :=
    checkTrailingArray_inspects rt t (.array component)
  rcases hArrays.of_bind_ok hOk with
    ⟨_, ⟨_, element, hEq, hParams, hArray⟩, _⟩
  cases hEq
  by_cases hSlots :
      Admissible
        (t.params.dropLast ++ List.replicate count component)
  · rcases
      Target.asCollector_made hChecking hSound ht hParams hArray
        hSlots
      with ⟨y, q, hMade, hGrown, hIs⟩
    rw [hOk] at hMade
    cases hMade
    have hRet : x.ret = t.ret := by
      unfold Target.ret
      rw [hIs.signature_eq]
      rfl
    exact
      ⟨_, element, hParams, hArray,
        congrArg Signature.params hIs.signature_eq, hRet,
        hIs.form_eq, hGrown⟩
  · rcases
      Target.asCollector_refused hParams hArray hSlots s
      with ⟨e, hRefused⟩
    rw [hOk] at hRefused
    cases hRefused

/- A spreader that was made, and the retyping below it. -/
theorem of_asSpreader
    (hSound : s.Sound rt c)
    (hChecking : rt.compile = .checking)
    (ht : t ∈ c.made)
    (hOk :
      t.asSpreader rt (.array component) count s = .ok x s') :
    ∃ wanted p y d,
      count ≤ t.count ∧
        wanted.params =
          t.params.take (t.count - count) ++
            List.replicate count component ∧
        wanted.ret = t.ret ∧
        planSignature rt.classes wanted t.signature .implicit =
          .ok p ∧
        t.Converted wanted p y ∧ y ∈ d.made ∧
        x.params =
          t.params.take (t.count - count) ++ [.array component] ∧
        x.ret = t.ret ∧ x.form = .spread y count ∧ c ≤ d ∧
        State.Grown rt c s (d.addNode x) s' := by
  unfold Target.asSpreader at hOk
  rcases (componentOf_inspects _).of_bind_ok hOk with
    ⟨_, hArray, hOk⟩
  cases hArray
  split at hOk
  · cases hOk
  · rename_i hCount
    dsimp only at hOk
    rcases (Link.Inspects.ofSignature _).of_bind_ok hOk with
      ⟨wanted, hWanted, hOk⟩
    rcases Signature.params_of_build hWanted with
      ⟨hParams, hRet⟩
    change EStateM.bind (t.asType rt wanted) _ s = _ at hOk
    unfold EStateM.bind at hOk
    rcases hSound.retypeAs_cases hChecking ht .implicit wanted with
      ⟨e, _, _, hRun⟩ | ⟨p, y, d, r, hPlan, hRun, hGrown, hy, hCon⟩
    · change t.asType rt wanted s = _ at hRun
      rw [hRun] at hOk
      cases hOk
    · change t.asType rt wanted s = _ at hRun
      rw [hRun] at hOk
      rcases (Link.Inspects.ofSignature _).of_bind_ok hOk with
        ⟨sig, hSig, hOk⟩
      rcases Signature.params_of_build hSig with
        ⟨hParams', hRet'⟩
      have hTargets :
          ∀ u ∈ (Form.spread y count).targets, u ∈ d.made :=
        Catalog.all_one hy
      rcases hGrown.sound.build_ok hChecking sig hTargets with
        ⟨z, q, hMade, hLater, hIs⟩
      rw [hOk] at hMade
      cases hMade
      have hNewParams : x.params = sig.params :=
        congrArg Signature.params hIs.signature_eq
      have hNewRet : x.ret = sig.ret :=
        congrArg Signature.ret hIs.signature_eq
      exact
        ⟨wanted, p, y, d, Nat.le_of_not_lt hCount, hParams, hRet,
          hPlan, hCon, hy, hNewParams.trans hParams',
          hNewRet.trans hRet', hIs.form_eq, hGrown.le,
          hGrown.trans hLater⟩

end State.Sound

------------------------------------------------------------
-- Calls that are Passed on
------------------------------------------------------------

namespace Target

variable {r' : State}
variable {args' : List Value}
variable {fixed ps : List Ty}
variable {j k : Nat}

/-
  A call of the one target comes to what a call of the other
  comes to: through their stubs, and exactly if their
  arguments match.
-/
structure PassesTo
    (rt : Runtime)
    (x : Target)
    (args : List Value)
    (r : State)
    (y : Target)
    (args' : List Value)
    (r' : State) : Prop where
  entered :
    (Entry.stub x.stub).Agrees rt x args r (.stub y.stub) y args'
      r'
  exact :
    admits rt.classes x.signature args = true →
      admits rt.classes y.signature args' = true →
        (Entry.way .exact).Agrees rt x args r (.way .exact) y
          args' r'

theorem PassesTo.of_same
    (hSame :
      ∀ n,
        Run.Same (enter rt (n + j) x args r)
          (enter rt (n + k) y args' r')) :
    x.PassesTo rt args r y args' r' where
  entered := Entry.comesTo_of_same hSame
  exact := by
    intro hAdmits hAdmits'
    refine Entry.comesTo_of_same (j := j) (k := k) ?_
    intro n
    change
      Run.Same (x.invokeExact rt (enter rt (n + j)) args r)
        (y.invokeExact rt (enter rt (n + k)) args' r')
    rw [invokeExact_of_admits hAdmits,
      invokeExact_of_admits hAdmits']
    exact hSame n

theorem admits_append_iff
    (hParams : x.params = fixed ++ ps)
    (hLength : tail.length = ps.length) :
    admits rt.classes x.signature (head ++ tail) = true ↔
      List.Forall₂ (fun v a => v.conforms rt.classes a = true) head
          fixed ∧
        List.Forall₂ (fun v a => v.conforms rt.classes a = true)
          tail ps := by
  have hSig : x.signature.params = fixed ++ ps := hParams
  rw [admits_iff, hSig]
  constructor
  · intro hAll
    have hEqual : head.length = fixed.length := by
      have hBoth := hAll.length_eq
      rw [List.length_append, List.length_append, hLength] at hBoth
      exact Nat.add_right_cancel hBoth
    have hBefore := List.forall₂_take head.length hAll
    have hAfter := List.forall₂_drop head.length hAll
    rw [List.take_left' rfl, List.take_left' hEqual.symm] at hBefore
    rw [List.drop_left' rfl, List.drop_left' hEqual.symm] at hAfter
    exact ⟨hBefore, hAfter⟩
  · rintro ⟨hBefore, hAfter⟩
    exact List.rel_append hBefore hAfter

/-
  A collector passes its calls on, with a new array of its
  last arguments.  If they match, so do those.
-/
def CollectsInto
    (rt : Runtime)
    (t : Target)
    (component : Ty)
    (count : Nat)
    (x : Target) : Prop :=
  ∀ (r : State) (head tail : List Value),
    r.Lists rt [t, x] → (head ++ tail).length = x.count →
      tail.length = count →
        let new := r.heap.allocArray component tail
        r.heap.GainsArray component tail new.1 new.2 ∧
          x.PassesTo rt (head ++ tail) r t (head ++ [.ref new.1])
            { r with heap := new.2 } ∧
          (admits rt.classes x.signature (head ++ tail) = true →
            admits rt.classes t.signature
              (head ++ [.ref new.1]) = true)

theorem collectsInto
    {element : Ty}
    (hChecking : rt.compile = .checking)
    (hHost : rt.host.MakesNoTargets)
    (hForm : x.form = .collect t component count)
    (hParams : t.params = fixed ++ [.array element])
    (hArray :
      rt.classes.isAssignable (.array component)
        (.array element) = true)
    (hParams' : x.params = fixed ++ List.replicate count component) :
    t.CollectsInto rt component count x := by
  rintro r head tail ⟨c, hSound, hListed⟩ hCount hTail
  refine ⟨r.heap.gainsArray_allocArray component tail, ?_, ?_⟩
  · exact
      .of_same (j := 1) (k := 0)
        (enter_collect_same hChecking hHost hSound
          (hListed x (by simp)) hForm hTail hCount)
  · intro hAdmits
    have hLength :
        tail.length = (List.replicate count component).length := by
      rw [hTail, List.length_replicate]
    rcases (admits_append_iff hParams' hLength).1 hAdmits with
      ⟨hHead, _⟩
    refine (admits_append_iff hParams rfl).2 ⟨hHead, ?_⟩
    exact .cons hArray .nil

/-
  A call with an array in the last place is refused, as an
  illegal argument.  Nothing but the node itself is entered.
-/
def RefusesArray
    (rt : Runtime)
    (x : Target)
    (args : List Value)
    (r : State) : Prop :=
  ∃ text, ∀ n,
    enter rt (n + 1) x args r =
        .error (.fault (.illegalArgument text))
          (r.log (.entered x args)) ∧
      (admits rt.classes x.signature args = true →
        x.invokeExact rt (enter rt (n + 1)) args r =
          .error (.fault (.illegalArgument text))
            (r.log (.entered x args)))

/-
  A spreader passes its calls on if there is an array of the
  right length in the last place, or null in place of an empty
  one.  It refuses all other arrays, and null in their place.
-/
structure SpreadsOver
    (rt : Runtime)
    (y : Target)
    (component : Ty)
    (count : Nat)
    (x : Target)
    (r : State)
    (head : List Value) : Prop where
  told :
    ∀ v : Value,
      v.conforms rt.classes (.array component) = true →
        v = .null ∨
          ∃ o vs, v = .ref o ∧ r.heap.elements? o = some vs
  fitting :
    ∀ o vs,
      r.heap.elements? o = some vs → vs.length = count →
        x.PassesTo rt (head ++ [.ref o]) r y (head ++ vs) r ∧
          (admits rt.classes x.signature (head ++ [.ref o]) =
              true →
            (∀ v ∈ vs, v.conforms rt.classes component = true) →
              admits rt.classes y.signature (head ++ vs) = true)
  unfitting :
    ∀ o vs,
      r.heap.elements? o = some vs → vs.length ≠ count →
        x.RefusesArray rt (head ++ [.ref o]) r
  empty :
    count = 0 →
      x.PassesTo rt (head ++ [.null]) r y head r ∧
        (admits rt.classes x.signature (head ++ [.null]) = true →
          admits rt.classes y.signature head = true)
  missing :
    count ≠ 0 → x.RefusesArray rt (head ++ [.null]) r

theorem told_of_conforms
    {v : Value}
    (r : State)
    (hValue : v.conforms rt.classes (.array component) = true) :
    v = .null ∨ ∃ o vs, v = .ref o ∧ r.heap.elements? o = some vs := by
  rcases Value.conforms_ref hValue rfl with rfl | ⟨o, rfl, hAssign⟩
  · exact Or.inl rfl
  · rcases ClassTable.eq_array_of_isAssignable hAssign with
      ⟨q, hType, _⟩
    rcases r.heap.exists_elements hType with ⟨vs, hElements⟩
    exact Or.inr ⟨o, vs, rfl, hElements⟩

/- A refusal of the spread is one of the call. -/
theorem refusesArray
    {v : Value}
    {text : String}
    (hSound : r.Sound rt c)
    (hx : x ∈ c.made)
    (hChecking : rt.compile = .checking)
    (hForm : x.form = .spread y count)
    (hCount : (head ++ [v]).length = x.count)
    (hSpread :
      spreadArgs x.signature count (head ++ [v])
          (r.passed (some x) (head ++ [v])) =
        .error (.fault (.illegalArgument text))
          (r.passed (some x) (head ++ [v]))) :
    x.RefusesArray rt (head ++ [v]) r := by
  refine ⟨text, fun n => ?_⟩
  have hEntered :=
    enter_spread_error hChecking hSound hx hForm hCount hSpread n
  refine ⟨hEntered, ?_⟩
  intro hAdmits
  rw [invokeExact_of_admits hAdmits]
  exact hEntered

theorem elements_passed
    (hElements : r.heap.elements? o = some vs) :
    (r.passed (some x) args).heap.elements? o = some vs :=
  hElements

theorem forall₂_replicate
    {R : Value → Ty → Prop}
    (hAll : ∀ v ∈ vs, R v component) :
    List.Forall₂ R vs (List.replicate vs.length component) := by
  induction vs with
  | nil => exact .nil
  | cons v vs ih =>
      rw [List.forall_mem_cons] at hAll
      exact .cons hAll.1 (ih hAll.2)

/-
  A spreader over one retyping of a target acts like one over
  any other, since all of them follow one plan.
-/
theorem spreadsOver
    (hChecking : rt.compile = .checking)
    (hHost : rt.host.MakesNoTargets)
    (hForm : x.form = .spread u count)
    (hMatched : u.MatchedBy True rt y)
    (hParams : x.params = fixed ++ [.array component])
    (hParams' : y.params = fixed ++ List.replicate count component)
    (hLists : r.Lists rt [x, y])
    (hCount : head.length + 1 = x.count) :
    y.SpreadsOver rt component count x r head := by
  rcases hLists with ⟨c, hSound, hListed⟩
  have hx := hListed x (by simp)
  have hy := hListed y (by simp)
  have hu : u ∈ c.made :=
    hSound.valid.delegate hx hForm List.mem_cons_self
  have hCount' : ∀ v, (head ++ [v]).length = x.count := by
    intro v
    rw [List.length_append]
    exact hCount
  have hFixed : head.length = fixed.length := by
    have hBoth : head.length + 1 = x.params.length := hCount
    rw [hParams, List.length_append] at hBoth
    exact Nat.add_right_cancel hBoth
  rcases hMatched with ⟨hSig, j, k, hEnters⟩
  -- What is spread over the one retyping is entered in the other.
  have hPasses :
      ∀ v vs,
        spreadArgs x.signature count (head ++ [v])
            (r.passed (some x) (head ++ [v])) =
          .ok (head ++ vs) (r.passed (some x) (head ++ [v])) →
        vs.length = count →
          x.PassesTo rt (head ++ [v]) r y (head ++ vs) r := by
    intro v vs hSpread hLength
    have hArgs : (head ++ vs).length = u.count := by
      have hSame : u.count = y.params.length := by
        unfold Target.count
        rw [← hSig]
        rfl
      rw [hSame, hParams', List.length_append, List.length_append,
        List.length_replicate, hLength, hFixed]
    refine .of_same (j := j + 1) (k := k) ?_
    intro n
    have hOuter :=
      enter_spread_same hChecking hSound hx hForm (hCount' v) hHost
        hSpread (n + j)
    have hInner :=
      hEnters r (head ++ vs) n
        (hSound.lists_two hu hy) hArgs (Or.inl trivial)
    exact hOuter.trans hInner
  refine ⟨fun v => told_of_conforms r, ?_, ?_, ?_, ?_⟩
  · intro o vs hElements hLength
    refine ⟨?_, ?_⟩
    · apply hPasses _ _ _ hLength
      rw [spreadArgs_ref (elements_passed hElements),
        if_pos hLength]
      rfl
    · intro hAdmits hAll
      rcases (admits_append_iff hParams rfl).1 hAdmits with
        ⟨hHead, _⟩
      have hLast :
          vs.length = (List.replicate count component).length := by
        rw [List.length_replicate, hLength]
      refine (admits_append_iff hParams' hLast).2 ⟨hHead, ?_⟩
      rw [← hLength]
      exact forall₂_replicate hAll
  · intro o vs hElements hLength
    apply refusesArray hSound hx hChecking hForm (hCount' _)
    rw [spreadArgs_ref (elements_passed hElements),
      if_neg hLength]
    rfl
  · rintro rfl
    have hNone := hPasses .null [] ?_ rfl
    · rw [List.append_nil] at hNone
      refine ⟨hNone, ?_⟩
      intro hAdmits
      rcases (admits_append_iff hParams rfl).1 hAdmits with
        ⟨hHead, _⟩
      have hAll := (admits_append_iff hParams' rfl).2 ⟨hHead, .nil⟩
      rw [List.append_nil] at hAll
      exact hAll
    · rw [spreadArgs_null, if_pos rfl, List.append_nil]
      rfl
  · intro hSome
    apply refusesArray hSound hx hChecking hForm (hCount' _)
    rw [spreadArgs_null, if_neg hSome]
    rfl

/-
  A spreader over a collector passes its calls on with a copy
  of the array in the last place.
-/
def Copies
    (rt : Runtime)
    (t : Target)
    (component : Ty)
    (count : Nat)
    (x : Target) : Prop :=
  ∀ (r : State) (head : List Value) (o : Obj) (vs : List Value),
    r.Lists rt [t, x] → head.length + 1 = x.count →
      r.heap.elements? o = some vs → vs.length = count →
        let copy := r.heap.allocArray component vs
        r.heap.GainsArray component vs copy.1 copy.2 ∧
          x.PassesTo rt (head ++ [.ref o]) r t
            (head ++ [.ref copy.1]) { r with heap := copy.2 } ∧
          (admits rt.classes x.signature (head ++ [.ref o]) =
              true →
            admits rt.classes t.signature
              (head ++ [.ref copy.1]) = true)

theorem copies
    {element : Ty}
    (hChecking : rt.compile = .checking)
    (hHost : rt.host.MakesNoTargets)
    (hForm : u.form = .collect t component count)
    (hForm' : x.form = .spread u count)
    (hParams : t.params = fixed ++ [.array element])
    (hArray :
      rt.classes.isAssignable (.array component)
        (.array element) = true)
    (hMiddle : u.params = fixed ++ List.replicate count component)
    (hParams' : x.params = fixed ++ [.array component]) :
    t.Copies rt component count x := by
  rintro r head o vs ⟨c, hSound, hListed⟩ hCount hElements hLength
  have hx := hListed x (by simp)
  have hu : u ∈ c.made :=
    hSound.valid.delegate hx hForm' List.mem_cons_self
  have hFixed : head.length = fixed.length := by
    have hBoth : head.length + 1 = x.params.length := hCount
    rw [hParams', List.length_append] at hBoth
    exact Nat.add_right_cancel hBoth
  have hCount' : (head ++ [Value.ref o]).length = x.count := by
    rw [List.length_append]
    exact hCount
  have hMiddleCount : (head ++ vs).length = u.count := by
    change _ = u.params.length
    rw [hMiddle, List.length_append, List.length_append,
      List.length_replicate, hLength, hFixed]
  have hSpread :
      spreadArgs x.signature count (head ++ [.ref o])
          (r.passed (some x) (head ++ [.ref o])) =
        .ok (head ++ vs) (r.passed (some x) (head ++ [.ref o])) := by
    rw [spreadArgs_ref (elements_passed hElements), if_pos hLength]
    rfl
  refine ⟨r.heap.gainsArray_allocArray component vs, ?_, ?_⟩
  · refine .of_same (j := 2) (k := 0) ?_
    intro n
    have hOuter :=
      enter_spread_same hChecking hSound hx hForm' hCount' hHost
        hSpread (n + 1)
    have hInner :=
      enter_collect_same hChecking hHost hSound hu hForm hLength
        hMiddleCount n
    exact hOuter.trans hInner
  · intro hAdmits
    rcases (admits_append_iff hParams' rfl).1 hAdmits with
      ⟨hHead, _⟩
    exact
      (admits_append_iff hParams rfl).2
        ⟨hHead, .cons hArray .nil⟩

end Target

namespace State.Lists

variable {fixed : List Ty}
variable {element : Ty}
variable {p : Plan}

/- A spreader over a collector hands on copies of arrays. -/
theorem copies_of_asSpreader
    (hLists : r.Lists rt [t, x])
    (hChecking : rt.compile = .checking)
    (hHost : rt.host.MakesNoTargets)
    (hForm : x.form = .collect t component count)
    (hParams : t.params = fixed ++ [.array element])
    (hArray :
      rt.classes.isAssignable (.array component)
        (.array element) = true)
    (hParams' : x.params = fixed ++ List.replicate count component)
    (hOk :
      x.asSpreader rt (.array component) count r = .ok y s') :
    s'.Lists rt [t, y] ∧ t.Copies rt component count y := by
  rcases hLists with ⟨c, hSound, hMade⟩
  have ht := hMade t (by simp)
  have hx := hMade x (by simp)
  rcases hSound.of_asSpreader hChecking hx hOk with
    ⟨wanted, p, u, d, _, hWanted, hWantedRet, _, hCon, _, hLast, _,
      hForm', hLe, hGrown⟩
  have hTake : x.params.take (x.count - count) = fixed := by
    have hCount : x.count = fixed.length + count := by
      change x.params.length = _
      rw [hParams', List.length_append, List.length_replicate]
    rw [hParams', hCount, Nat.add_sub_cancel, List.take_left' rfl]
  -- The collector takes the elements already.
  have hSame : x.signature = wanted := by
    rw [hTake, ← hParams'] at hWanted
    exact Signature.eq_of_parts hWanted.symm hWantedRet.symm
  have hEq : u = x := hCon.eq_of_signature_eq hSame
  subst hEq
  rw [hTake] at hLast
  exact
    ⟨hGrown.lists_new ht,
      Target.copies hChecking hHost hForm hForm' hParams hArray
        hParams' hLast⟩

/-
  A spreader was made over a target that was retyped.  If the
  target is retyped once more, then its calls are what the
  spreader passes on.
-/
theorem asType_spreadsOver
    (hLists : r.Lists rt [t, x])
    (hChecking : rt.compile = .checking)
    (hHost : rt.host.MakesNoTargets)
    (hForm : x.form = .spread u count)
    (hPlan :
      planSignature rt.classes sig t.signature .implicit = .ok p)
    (hConverted : t.Converted sig p u)
    (hParams : x.params = fixed ++ [.array component])
    (hSig : sig.params = fixed ++ List.replicate count component) :
    ∃ y r',
      t.asType rt sig r = .ok y r' ∧ r'.Lists rt [x, y] ∧
        ∀ q head,
          q.Lists rt [x, y] → head.length + 1 = x.count →
            y.SpreadsOver rt component count x q head := by
  rcases hLists with ⟨c, hSound, hMade⟩
  have ht := hMade t (by simp)
  have hx := hMade x (by simp)
  rcases hSound.retypeAs_ok hChecking ht hPlan with
    ⟨y, d, r', hRun, hGrown, hy, hConverted'⟩
  have hx' := Catalog.mem_of_le hGrown.le hx
  refine ⟨y, r', hRun, hGrown.sound.lists_two hx' hy, ?_⟩
  intro q head hNow hCount
  have hu : u ∈ d.made :=
    hGrown.sound.valid.delegate hx' hForm List.mem_cons_self
  have hMatched : u.MatchedBy True rt y :=
    Target.Converted.matchedBy hChecking hHost hGrown.sound.valid hu
      hy hPlan hPlan hConverted hConverted'
      (List.forall₂_same.2 fun k _ => .refl k) (.refl p.ret)
  have hParams' :
      y.params = fixed ++ List.replicate count component :=
    (congrArg Signature.params hConverted'.signature_eq).trans hSig
  exact
    Target.spreadsOver hChecking hHost hForm hMatched hParams hParams'
      hNow hCount

end State.Lists

------------------------------------------------------------
-- Collectors and Spreaders of Named Targets
------------------------------------------------------------

namespace Session

variable {s : Session}

/-
  A collector of a named target hands the last arguments on in
  a new array.  A spreader hands the elements of an array on
  to the target, retyped to take them, if there are as many as
  it asks for, and refuses other arrays.  A spreader over the
  collector hands on a copy of the array.
-/
theorem collectors_and_spreaders
    (hFresh : s.IsFresh)
    (hChecking : s.context.runtime.compile = .checking)
    (hHost : s.context.runtime.host.MakesNoTargets)
    (xs : List Step)
    (hNamed : (s.after xs).context.Names t)
    (component : Ty)
    (count : Nat) :
    let rt := s.context.runtime
    let s₀ := (s.after xs).state
    (∀ x s₁,
      t.asCollector rt (.array component) count s₀ = .ok x s₁ →
        s₁.Lists rt [t, x] ∧
          t.CollectsInto rt component count x ∧
          ∀ r y r',
            r.Lists rt [t, x] →
              x.asSpreader rt (.array component) count r =
                  .ok y r' →
                r'.Lists rt [t, y] ∧
                  t.Copies rt component count y) ∧
      ∀ x s₁,
        t.asSpreader rt (.array component) count s₀ = .ok x s₁ →
          s₁.Lists rt [t, x] ∧
            ∃ wanted : Signature,
              wanted.params =
                  t.params.take (t.count - count) ++
                    List.replicate count component ∧
                wanted.ret = t.ret ∧
                ∀ r, r.Lists rt [t, x] →
                  ∃ y r',
                    t.asType rt wanted r = .ok y r' ∧
                      r'.Lists rt [x, y] ∧
                      ∀ q head,
                        q.Lists rt [x, y] →
                          head.length + 1 = x.count →
                            y.SpreadsOver rt component count x q
                              head := by
  intro rt s₀
  rcases listed_after hFresh hHost xs with ⟨c, hListed⟩
  have hSound : s₀.Sound rt c := by
    have hKnown := hListed.known.sound
    rw [runtime_after] at hKnown
    exact hKnown
  have ht := hListed.names t hNamed
  refine ⟨?_, ?_⟩
  · intro x s₁ hOk
    rcases hSound.of_asCollector hChecking ht hOk with
      ⟨fixed, element, hParams, hArray, hParams', hRet, hForm,
        hGrown⟩
    refine ⟨hGrown.lists_new ht, ?_, ?_⟩
    · exact
        Target.collectsInto hChecking hHost hForm hParams hArray
          hParams'
    · intro r y r' hLists hOk'
      exact
        hLists.copies_of_asSpreader hChecking hHost hForm hParams
          hArray hParams' hOk'
  · intro x s₁ hOk
    rcases hSound.of_asSpreader hChecking ht hOk with
      ⟨wanted, p, u, d, _, hWanted, hWantedRet, hPlan, hCon, hu,
        hLast, _, hForm, hLe, hGrown⟩
    refine
      ⟨hGrown.lists_new ht, wanted, hWanted, hWantedRet, ?_⟩
    intro r hLists
    exact
      hLists.asType_spreadsOver hChecking hHost hForm hPlan hCon hLast
        hWanted

/- A target of arrays of integers. -/
def arrays : List Step :=
  [.make (.identity (.array .int)) (some "same")]

def twoIntegers : List Value :=
  [.prim (.int 1), .prim (.int 2)]

/- A new array of the two, and the heap with it. -/
def withTwo (h : Heap) : Obj × Heap :=
  h.allocArray .int twoIntegers

/- Whether a run gives a value and keeps two elements there. -/
def isTwo
    (v : Value)
    (o : Obj) : EStateM.Result Halt State Value → Bool
| .ok a s => a = v && s.heap.elements? o = some twoIntegers
| .error _ _ => false

theorem exists_of_isTwo
    {v : Value}
    {o : Obj}
    {r : EStateM.Result Halt State Value}
    (hTwo : isTwo v o r = true) :
    ∃ s, r = .ok v s ∧ s.heap.elements? o = some twoIntegers := by
  unfold isTwo at hTwo
  split at hTwo
  · rename_i a q
    simp only [Bool.and_eq_true, decide_eq_true_eq] at hTwo
    exact ⟨q, by rw [hTwo.1], hTwo.2⟩
  · cases hTwo

/-
  Whether a named target collects two arguments into an array,
  a spreader over that takes an array, and the target itself
  gives a second array that it gets.
-/
def spreadsAndCollects
    (s : Session)
    (n : String) : Bool :=
  let rt := s.context.runtime
  match s.context.names.targets.lookup n with
  | none => false
  | some t =>
      match t.asCollector rt (.array .int) 2 s.state with
      | .error _ _ => false
      | .ok x s₁ =>
          match x.asSpreader rt (.array .int) 2 s₁ with
          | .error _ _ => false
          | .ok y r =>
              let first := withTwo r.heap
              let second := withTwo first.2
              y.count = 1 &&
                Target.admits rt.classes y.signature
                  [.ref first.1] &&
                isTwo (.ref second.1) second.1
                  ((Entry.way .exact).run rt 9 t [.ref second.1]
                    { r with heap := second.2 })

/- An array of two integers is copied. -/
theorem collectors_and_spreaders_copy :
    ∃ t x y s₁ r q,
      (plain.after arrays).context.Names t ∧
        t.asCollector plain.context.runtime (.array .int) 2
          (plain.after arrays).state = .ok x s₁ ∧
        x.asSpreader plain.context.runtime (.array .int) 2 s₁ =
          .ok y r ∧
        let first := withTwo r.heap
        let second := withTwo first.2
        (Entry.way .exact).ComesTo plain.context.runtime y
            [.ref first.1] { r with heap := first.2 }
            (.ok (.ref second.1) q) ∧
          second.1 ≠ first.1 ∧
          q.heap.elements? second.1 = some twoIntegers := by
  have hCheck :
      spreadsAndCollects (plain.after arrays) "same" = true := by
    decide +kernel
  unfold spreadsAndCollects at hCheck
  rw [runtime_after] at hCheck
  dsimp only at hCheck
  split at hCheck
  · cases hCheck
  · rename_i t hLookup
    have hNamed := names_of_lookup hLookup
    split at hCheck
    · cases hCheck
    · rename_i x s₁ hCollector
      split at hCheck
      · cases hCheck
      · rename_i y r hSpreader
        simp only [Bool.and_eq_true, decide_eq_true_eq] at hCheck
        rcases hCheck with ⟨⟨hCount, hAdmits⟩, hTwo⟩
        have hHost := World.host_makesNoTargets (.initial .empty)
        rcases
          (collectors_and_spreaders plain_isFresh rfl hHost arrays
            hNamed .int 2).1 x s₁ hCollector
          with ⟨hLists, _, hCopies⟩
        rcases hCopies s₁ y r hLists hSpreader with
          ⟨⟨c, hSound, hListed⟩, hCopy⟩
        have hNow :=
          Target.sound_allocArray hSound .int twoIntegers
        have hElements :
            (withTwo r.heap).2.elements? (withTwo r.heap).1 =
              some twoIntegers :=
          (r.heap.gainsArray_allocArray .int
            twoIntegers).elements_eq
        rcases
          hCopy { r with heap := (withTwo r.heap).2 } []
            (withTwo r.heap).1 twoIntegers ⟨c, hNow, hListed⟩
            hCount.symm hElements rfl
          with ⟨-, hPasses, hMatch⟩
        have hAgree := hPasses.exact hAdmits (hMatch hAdmits)
        rcases exists_of_isTwo hTwo with ⟨q, hRun, hKept⟩
        have hTarget :
            (Entry.way .exact).ComesTo plain.context.runtime t
              [.ref (withTwo (withTwo r.heap).2).1]
              { r with heap := (withTwo (withTwo r.heap).2).2 }
              (.ok (.ref (withTwo (withTwo r.heap).2).1) q) :=
          ⟨nofun, 9, hRun⟩
        rcases hAgree.1.2 ⟨_, hTarget⟩ with ⟨_, hCall⟩
        have hSame := hAgree.2 _ _ hCall hTarget
        cases hSame with
        | @ok _ q' _ hStates =>
            refine
              ⟨t, x, y, s₁, r, q', hNamed, hCollector, hSpreader,
                hCall, ?_, ?_⟩
            · intro hEq
              have hIds :
                  (r.heap.contents.push
                      (.elements twoIntegers)).size =
                    r.heap.contents.size :=
                congrArg Obj.id hEq
              rw [Array.size_push] at hIds
              exact Nat.succ_ne_self _ hIds
            · rw [← hStates.heap_eq]
              exact hKept

end Session

end Linkage
