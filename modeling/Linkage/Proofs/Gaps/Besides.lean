import Linkage.Proofs.Gaps.Behaviours
import Linkage.Proofs.Gaps.Host
import Linkage.Proofs.Invoke.Depth

/-
  Runs from a heap with some more boxes.  Where a state, a
  target and its arguments hold only objects of the heap, the
  boxes at its end are nobody's.  Then a target is entered as
  it is without them: the same calls of the host, the same
  result or failure, but for the numbers of new objects, which
  come after those of the boxes.

  Key definitions include:
    * `Target.Below`
    * `State.Grounded`
    * `Run.Besides`

  Key theorems include:
    * `Gap.target_of_below`
    * `Gap.heap_of_grounded`
    * `Target.enter_besides`
-/

------------------------------------------------------------
-- Objects of the Heap
------------------------------------------------------------

namespace Linkage

/- Neither a node nor what it delegates to holds later objects. -/
inductive Target.Below (n : Nat) : Target → Prop where
| node
    {t : Target}
    (hValues : ∀ v ∈ t.form.values, v.Below n)
    (hTargets : ∀ u ∈ t.wrapped, Below n u) :
    Below n t

def Contents.Below (n : Nat) : Contents → Prop
| .fixed => True
| .cells cs => ∀ v, Cell.ref v ∈ cs → v.Below n
| .elements vs => ∀ v ∈ vs, v.Below n
| .target t => t.Below n

/- What objects and call sites hold is in the heap. -/
structure State.Grounded (s : State) : Prop where
  contents :
    ∀ i c, s.heap.at? i = some c → c.Below s.heap.size
  sites :
    ∀ i x, s.site? i = some x → x.target.Below s.heap.size

/- Nothing refers to an object that is not in the heap. -/
structure State.Houses
    (s : State)
    (t : Target)
    (args : List Value) : Prop where
  grounded : s.Grounded
  target : t.Below s.heap.size
  args : ∀ v ∈ args, v.Below s.heap.size

variable {g : Gap}
variable {n : Nat}
variable {rt : Runtime}
variable {t : Target}
variable {s : State}

namespace Gap

theorem values_of_below
    {vs : List Value}
    (hBelow : ∀ v ∈ vs, v.Below n)
    (hFrom : n ≤ g.start) :
    vs.map g.value = vs := by
  refine (List.map_congr_left (g := id) ?_).trans vs.map_id
  intro v hv
  exact value_of_below (hBelow v hv) hFrom

/- A form that holds what stays, and delegates that stay. -/
theorem form_of_same
    {f : Form Target}
    (hValues : ∀ v ∈ f.values, g.value v = v)
    (hTargets : ∀ u ∈ f.targets, g.target u = u) :
    g.form f = f := by
  cases f with
  | filterArguments u pos fs =>
      have hTarget := hTargets u List.mem_cons_self
      have hFilters : g.filters fs = fs := by
        rw [filters_eq_map]
        refine (List.map_congr_left (g := id) ?_).trans fs.map_id
        intro o ho
        cases o with
        | none => rfl
        | some x =>
            have hx : x ∈ fs.filterMap id :=
              List.mem_filterMap.2 ⟨some x, ho, rfl⟩
            exact congrArg some (hTargets x (List.mem_cons_of_mem u hx))
      unfold form
      rw [hTarget, hFilters]
  | insert u pos vs =>
      have hTarget := hTargets u List.mem_cons_self
      have hAll : vs.map g.value = vs :=
        (List.map_congr_left (g := id) hValues).trans vs.map_id
      unfold form
      rw [hTarget, hAll]
  | _ => simp_all [form, Form.values, Form.targets]

theorem target_of_below
    (hBelow : t.Below n)
    (hFrom : n ≤ g.start) :
    g.target t = t := by
  induction hBelow with
  | @node t hValues _ ih =>
      have hForm : g.form t.form = t.form := by
        apply form_of_same _ ih
        intro v hv
        exact value_of_below (hValues v hv) hFrom
      cases t with
      | node i sig stub f => exact congrArg (Target.node i sig stub) hForm

theorem contents_of_below
    {c : Contents}
    (hBelow : c.Below n)
    (hFrom : n ≤ g.start) :
    g.contents c = c := by
  cases c with
  | fixed => rfl
  | cells cs =>
      refine congrArg Contents.cells ?_
      refine (List.map_congr_left (g := id) ?_).trans cs.map_id
      intro x hx
      cases x with
      | bits k w => rfl
      | ref v =>
          exact congrArg Cell.ref (value_of_below (hBelow v hx) hFrom)
  | elements vs =>
      exact congrArg Contents.elements (values_of_below hBelow hFrom)
  | target t =>
      exact congrArg Contents.target (target_of_below hBelow hFrom)

/- The gap after all objects is one at the end of the heap. -/
theorem heap_of_grounded
    {h : Heap}
    (hContents : ∀ i c, h.at? i = some c → c.Below h.size)
    (k : Nat) :
    (Gap.mk h.size k).heap h = h.plus k := by
  apply Heap.ext_at?
  intro i
  rw [at?_heap (Nat.le_refl h.size), Heap.at?_plus]
  by_cases hBefore : i < h.size
  · rw [if_pos hBefore, if_pos hBefore]
    cases hAt : h.at? i with
    | none => rfl
    | some c =>
        exact
          congrArg some
            (contents_of_below (hContents i c hAt) (Nat.le_refl _))
  · rw [if_neg hBefore, if_neg hBefore]
    split
    · rfl
    · have hNone : h.at? (i - k) = none := by
        apply Array.getElem?_eq_none
        change h.size ≤ i - k
        dsimp only at *
        omega
      dsimp only
      rw [hNone]
      rfl

theorem sites_of_grounded
    (hGrounded : s.Grounded)
    (hFrom : s.heap.size ≤ g.start) :
    s.sites.map g.site = s.sites := by
  apply Array.ext_getElem?
  intro i
  rw [Array.getElem?_map]
  cases hSite : s.sites[i]? with
  | none => rfl
  | some x =>
      have hBelow := hGrounded.sites ⟨i⟩ x hSite
      have hTarget := target_of_below hBelow hFrom
      rw [Option.map_some]
      unfold site
      rw [hTarget]

end Gap

------------------------------------------------------------
-- States with Boxes Besides
------------------------------------------------------------

/-
  What a run from a state came to, and what it came to with
  boxes besides: the heap has the gap, and a number of boxes
  at its end; the calls of the host since then are those, with
  the gap.
-/
structure State.Besides
    (g : Gap)
    (n : Nat)
    (s r r' : State) : Prop where
  heap_eq : r'.heap = (g.heap r.heap).plus n
  sites_eq : r'.sites = r.sites
  calls :
    ∃ es,
      hostEvents r.trace = es ++ hostEvents s.trace ∧
        hostEvents r'.trace = es.map g.event ++ hostEvents s.trace

/- One result or failure, but for the numbers of objects. -/
inductive Run.Besides
    (g : Gap)
    (n : Nat)
    (s : State) :
    EStateM.Result Halt State Value →
      EStateM.Result Halt State Value → Prop
| ok {v : Value} {r r' : State} :
    State.Besides g n s r r' →
    Besides g n s (.ok v r) (.ok (g.value v) r')
| error {e : Halt} {r r' : State} :
    State.Besides g n s r r' →
    Besides g n s (.error e r) (.error (g.halt e) r')

theorem State.Besides.congr
    {x x' y y' : State}
    (hSame : x.Same x')
    (hBesides : State.Besides g n s x' y)
    (hSame' : y.Same y') :
    State.Besides g n s x y' where
  heap_eq := by
    rw [hSame'.heap_eq, hBesides.heap_eq, hSame.heap_eq]
  sites_eq := by
    rw [hSame'.sites_eq, hBesides.sites_eq, hSame.sites_eq]
  calls := by
    rw [hSame'.calls_eq, ← hSame.calls_eq]
    exact hBesides.calls

namespace Run.Besides

variable {r r' : EStateM.Result Halt State Value}

/- Outcomes that are the same can stand for each other. -/
theorem congr
    {x x' : EStateM.Result Halt State Value}
    (hSame : Run.Same r r')
    (hBesides : Run.Besides g n s r' x)
    (hSame' : Run.Same x x') :
    Run.Besides g n s r x' := by
  cases hBesides with
  | ok hState =>
      cases hSame with
      | ok hLeft =>
          cases hSame' with
          | ok hRight => exact .ok (hState.congr hLeft hRight)
  | error hState =>
      cases hSame with
      | error hLeft =>
          cases hSame' with
          | error hRight => exact .error (hState.congr hLeft hRight)

theorem ended_iff
    (hBesides : Run.Besides g n s r r') :
    Run.Ended r ↔ Run.Ended r' := by
  cases hBesides with
  | ok _ => exact Iff.rfl
  | @error e _ _ _ =>
      unfold Run.Ended Run.halt?
      cases e with
      | _ => simp [Gap.halt]

end Run.Besides

theorem Gap.hostEvents_map (es : List Event) :
    hostEvents (es.map g.event) = (hostEvents es).map g.event := by
  unfold hostEvents
  rw [List.filter_map]
  congr 2
  funext e
  cases e with
  | _ => rfl

variable {c : Catalog}

theorem State.Sound.memoizing
    (hSound : s.Sound rt c)
    (b : Bool) :
    s.Sound (rt.memoizing b) c where
  valid :=
    ⟨hSound.valid.numbered, hSound.valid.closed,
      fun t ht =>
        ⟨(hSound.valid.serves t ht).key,
          (hSound.valid.serves t ht).compiled⟩⟩
  nextId := hSound.nextId
  resident := hSound.resident
  siteCount := hSound.siteCount
  site := hSound.site
  memo := hSound.memo
  handles := hSound.handles

/- More boxes are no handles. -/
theorem State.Sound.plus
    (hSound : s.Sound rt c)
    (k : Nat) :
    ({ s with heap := s.heap.plus k } : State).Sound rt c := by
  apply hSound.withHeap
  intro i t hAt
  rw [Heap.at?_plus] at hAt
  split at hAt
  · exact hSound.handles i t hAt
  · split at hAt
    · cases hAt
    · cases hAt

/- Outcomes of runs that started with nothing traced. -/
theorem Run.Besides.of_result
    {r r' r₀ : EStateM.Result Halt State Value}
    (hLeft : Run.Same r r₀)
    (hRight : Run.Same r' (g.result g.halt g.value r₀))
    (hSites : (Run.final r').sites = (Run.final r).sites) :
    Run.Besides g 0 s (Run.above s.trace r)
      (Run.above s.trace r') := by
  have hState :
      ∀ {z z' z₀ : State}, z.Same z₀ → z'.Same (g.state z₀) →
        z'.sites = z.sites →
          State.Besides g 0 s (z.above s.trace)
            (z'.above s.trace) := by
    intro z z' z₀ hz hz' hEq
    have hCalls :
        hostEvents z'.trace = (hostEvents z.trace).map g.event :=
      calc
        hostEvents z'.trace
          = hostEvents (z₀.trace.map g.event) := hz'.calls_eq.symm
        _ = (hostEvents z₀.trace).map g.event :=
            Gap.hostEvents_map z₀.trace
        _ = (hostEvents z.trace).map g.event := by rw [hz.calls_eq]
    refine ⟨?_, hEq, hostEvents z.trace, ?_, ?_⟩
    · rw [Heap.plus_zero]
      change z'.heap = g.heap z.heap
      rw [← hz'.heap_eq, ← hz.heap_eq]
      rfl
    · exact List.filter_append ..
    · rw [← hCalls]
      exact List.filter_append ..
  cases hLeft with
  | ok hz =>
      cases hRight with
      | ok hz' => exact .ok (hState hz hz' hSites)
  | error hz =>
      cases hRight with
      | error hz' => exact .error (hState hz hz' hSites)

------------------------------------------------------------
-- Entering with Boxes Besides
------------------------------------------------------------

/- What is in the heap stays where the gap is after it. -/
theorem Gap.state_of_grounded
    (hGrounded : s.Grounded)
    (k : Nat) :
    (Gap.mk s.heap.size k).state { s with trace := [] } =
      { s with
        heap := s.heap.plus k
        held := s.held.map (Gap.mk s.heap.size k).root
        trace := [] } := by
  unfold state
  dsimp only
  rw [heap_of_grounded hGrounded.contents,
    sites_of_grounded hGrounded (Nat.le_refl _)]
  rfl

/-
  A target that is entered with boxes besides does what it
  does without them.
-/
theorem Target.enter_besides
    {args : List Value}
    (hChecking : rt.compile = .checking)
    (hHost : rt.host.MakesNoTargets)
    (hUniform : rt.host.Uniform n)
    (hFrom : n ≤ s.heap.size)
    (hSound : s.Sound rt c)
    (ht : t ∈ c.made)
    (hGrounded : s.Grounded)
    (hTarget : t.Below s.heap.size)
    (hArgs : ∀ v ∈ args, v.Below s.heap.size)
    (k fuel : Nat) :
    Run.Besides ⟨s.heap.size, k⟩ 0 s (enter rt fuel t args s)
      (enter rt fuel t args { s with heap := s.heap.plus k }) := by
  let g : Gap := ⟨s.heap.size, k⟩
  let bare : State := { s with trace := [] }
  let more : State := { bare with heap := s.heap.plus k }
  have hBare : bare.Sound rt c := hSound.withTrace []
  have hMore : more.Sound rt c := hBare.plus k
  have hMoved : (g.state bare).Sound (rt.memoizing false) c := by
    rw [Gap.state_of_grounded hGrounded]
    exact (hMore.withHeld _).memoizing false
  have hEq :
      enter (rt.memoizing false) fuel t args (g.state bare) =
        g.result g.halt g.value
          (enter (rt.memoizing false) fuel t args bare) := by
    have hForgetful : (rt.memoizing false).host.Uniform n := hUniform
    have hMoves :=
      (Gap.Moves.enter (g := g) hForgetful hFrom rfl fuel t args bare
        (Nat.le_refl _)).1
    rw [Gap.target_of_below hTarget (Nat.le_refl _),
      Gap.values_of_below hArgs (Nat.le_refl _)] at hMoves
    exact hMoves
  have hLeft :
      Run.Same (enter rt fuel t args bare)
        (enter (rt.memoizing false) fuel t args bare) :=
    enter_memoizing false hChecking hHost (.refl bare) hBare
      (hBare.memoizing false) ht ht fuel args
  have hRight :
      Run.Same (enter rt fuel t args more)
        (enter (rt.memoizing false) fuel t args (g.state bare)) := by
    refine
      enter_memoizing false hChecking hHost ?_ hMore hMoved ht ht
        fuel args
    rw [Gap.state_of_grounded hGrounded]
    exact ⟨rfl, rfl, rfl⟩
  rw [hEq] at hRight
  have hSites :
      (Run.final (enter rt fuel t args more)).sites =
        (Run.final (enter rt fuel t args bare)).sites := by
    unfold enter
    rw [enterStub_sites, enterStub_sites]
  have hBesides :=
    Run.Besides.of_result (s := s) hLeft hRight hSites
  rw [← enter_above, ← enter_above] at hBesides
  exact hBesides

end Linkage
