import Linkage.Proofs.Invoke.Course
import Linkage.Session

/-
  The moments of a run: its events and its failures, in their
  order.  A failure that no exception guard catches is the
  last moment of the run, and the run ends with it.

  Key definitions include:
    * `Moment`
    * `Course.moments`
    * `momentsOf`
    * `Way`
    * `Entry`
    * `Entry.moments`
    * `Entry.story`

  Key theorems include:
    * `Entry.trace_eq`
    * `Course.tells`
    * `Entry.passes_failures`
    * `Session.callingOf_isEntry`
-/

------------------------------------------------------------
-- Moments
------------------------------------------------------------

namespace Linkage

/-
  Something that happens in a run: an event, or the failure
  of a step of a node, of the host or of a stub.
-/
inductive Moment where
| event (e : Event)
| failed (e : Halt)

namespace Moment

/- The events among moments. -/
def events (ms : List Moment) : List Event :=
  ms.filterMap fun
    | event e => some e
    | failed _ => none

theorem events_append (ms ns : List Moment) :
    events (ms ++ ns) = events ms ++ events ns :=
  List.filterMap_append

/- The moment at which an operation failed. -/
def failureOf
    {α : Type} :
    EStateM.Result Halt State α → List Moment
| .ok _ _ => []
| .error e _ => [failed e]

theorem events_failureOf
    {α : Type}
    (r : EStateM.Result Halt State α) :
    events (failureOf r) = [] := by
  cases r with
  | _ => rfl

/- Moments at which no exception guard is entered. -/
def Guardless (ms : List Moment) : Prop :=
  ∀ t args, event (.entered t args) ∈ ms →
    t.kind ≠ .exceptionGuard

theorem Guardless.left
    {ms ns : List Moment}
    (hGuardless : Guardless (ms ++ ns)) :
    Guardless ms := by
  intro t args hMem
  exact hGuardless t args (List.mem_append_left ns hMem)

theorem Guardless.right
    {ms ns : List Moment}
    (hGuardless : Guardless (ms ++ ns)) :
    Guardless ns := by
  intro t args hMem
  exact hGuardless t args (List.mem_append_right ms hMem)

theorem Guardless.tail
    {x : Moment}
    {ms : List Moment}
    (hGuardless : Guardless (x :: ms)) :
    Guardless ms := by
  intro t args hMem
  exact hGuardless t args (List.mem_cons_of_mem x hMem)

end Moment

open Moment

/-
  The moments of targets that are entered: with which
  arguments, and in which state.
-/
abbrev Telling :=
  Target → List Value → State → List Moment

/-
  The moments of a course, as targets are entered, and as
  their moments are told.
-/
def Course.moments
    {rt : Runtime}
    (enter : Enter)
    (telling : Telling) :
    {α : Type} → {m : Enter → Run α} →
      Course rt α m → State → List Moment
| _, _, own m _, s => failureOf (m s)
| _, _, call code args, s =>
    event (.called code args s.heap) ::
      failureOf (Run.call rt code args s)
| _, _, allocate n, s =>
    event (.allocated n) :: failureOf (Run.allocate rt n s)
| _, _, .enter t args, s => telling t args s
| _, _, bind (m := m) first rest, s =>
    first.moments enter telling s ++
      match m enter s with
      | .ok b s' => (rest b).moments enter telling s'
      | .error _ _ => []
| _, _, holding rs inner, s =>
    inner.moments enter telling { s with held := rs ++ s.held }
| _, _, catching (m := m) caught inner rest, s =>
    inner.moments enter telling s ++
      match m enter s with
      | .error (.fault f) s' =>
          if f.isInstance rt.classes caught
          then (rest f).moments enter telling s'
          else []
      | _ => []
| _, _, same inner _, s => inner.moments enter telling s

theorem Course.moments_own
    {α : Type}
    {rt : Runtime}
    {m : Run α}
    {hSilent : Silent m}
    {enter : Enter}
    {telling : Telling}
    {s : State} :
    (own m hSilent : Course rt α _).moments enter telling s =
      failureOf (m s) :=
  rfl

/- The rest of a sequence has moments if its first part ends. -/
theorem Course.moments_bind_ok
    {α β : Type}
    {rt : Runtime}
    {m : Enter → Run β}
    {f : Enter → β → Run α}
    {first : Course rt β m}
    {rest : ∀ b, Course rt α (fun enter => f enter b)}
    {enter : Enter}
    {telling : Telling}
    {s s' : State}
    {b : β}
    (hRun : m enter s = .ok b s') :
    (bind first rest).moments enter telling s =
      first.moments enter telling s ++
        (rest b).moments enter telling s' := by
  conv => lhs; unfold moments
  rw [hRun]

theorem Course.moments_bind_error
    {α β : Type}
    {rt : Runtime}
    {m : Enter → Run β}
    {f : Enter → β → Run α}
    {first : Course rt β m}
    {rest : ∀ b, Course rt α (fun enter => f enter b)}
    {enter : Enter}
    {telling : Telling}
    {s s' : State}
    {e : Halt}
    (hRun : m enter s = .error e s') :
    (bind first rest).moments enter telling s =
      first.moments enter telling s := by
  conv => lhs; unfold moments
  rw [hRun, List.append_nil]

/- The moments of entering a target through a stub. -/
def momentsOf
    (rt : Runtime) :
    Nat → Stub → Telling
| 0, _, _, _, _ => [failed .unfinished]
| n + 1, stub, t, args, s =>
    event (.entered t args) ::
      if args.length = stub.arity then
        Course.moments
          (fun u => enterStub rt n u.stub u)
          (fun u => momentsOf rt n u.stub u)
          (Course.behave t args : Course rt Value _)
          (s.log (.entered t args))
      else [failed (.fault (wrongCount stub args))]

------------------------------------------------------------
-- The Events of a Run Are Its Trace
------------------------------------------------------------

/- The trace of a result is that of a state and given moments. -/
def Traces
    {α : Type}
    (s : State)
    (r : EStateM.Result Halt State α)
    (ms : List Moment) : Prop :=
  (Run.final r).trace = (events ms).reverse ++ s.trace

variable {α : Type}
variable {rt : Runtime}
variable {m : Enter → Run α}
variable {enter : Enter}
variable {telling : Telling}

theorem Traces.append
    {β : Type}
    {s s' : State}
    {r : EStateM.Result Halt State α}
    {r' : EStateM.Result Halt State β}
    {ms ns : List Moment}
    (hFirst : Traces s r ms)
    (hState : Run.final r = s')
    (hRest : Traces s' r' ns) :
    Traces s r' (ms ++ ns) := by
  unfold Traces at *
  rw [hRest, ← hState, hFirst, events_append, List.reverse_append,
    List.append_assoc]

theorem Traces.cons
    {s : State}
    {r : EStateM.Result Halt State α}
    {e : Event}
    {ms : List Moment}
    (hRest : Traces (s.log e) r ms) :
    Traces s r (event e :: ms) := by
  have hEvents : events (event e :: ms) = e :: events ms := rfl
  unfold Traces at *
  rw [hRest, hEvents, List.reverse_cons, List.append_assoc]
  rfl

/- An operation of which only the failure is told. -/
theorem Traces.failureOf
    {s : State}
    {r : EStateM.Result Halt State α}
    (hTrace : (Run.final r).trace = s.trace) :
    Traces s r (failureOf r) := by
  unfold Traces
  rw [events_failureOf]
  exact hTrace

theorem Course.traces
    (hEnter :
      ∀ t args s, Traces s (enter t args s) (telling t args s))
    (c : Course rt α m)
    (s : State) :
    Traces s (m enter s) (c.moments enter telling s) := by
  induction c generalizing s with
  | own m hSilent => exact .failureOf (hSilent.trace_eq s)
  | call code args =>
      apply Traces.cons
      apply Traces.failureOf
      exact
        (Silent.onHeap (rt.host.call code args)).trace_eq
          (s.log (.called code args s.heap))
  | allocate n =>
      apply Traces.cons
      apply Traces.failureOf
      unfold Run.allocate
      dsimp only
      split
      all_goals rfl
  | enter t args => exact hEnter t args s
  | @bind _ _ m f first rest ihFirst ihRest =>
      have hFirst := ihFirst s
      change Traces s (EStateM.bind (m enter) (f enter) s) _
      unfold EStateM.bind
      cases hRun : m enter s with
      | ok b s' =>
          rw [hRun] at hFirst
          rw [moments_bind_ok hRun]
          exact hFirst.append rfl (ihRest b s')
      | error e s' =>
          rw [hRun] at hFirst
          rw [moments_bind_error hRun]
          exact hFirst
  | @holding _ m rs inner ih =>
      have hInner := ih { s with held := rs ++ s.held }
      unfold moments
      dsimp only
      unfold Run.holding
      cases hRun : m enter { s with held := rs ++ s.held } with
      | ok a s' =>
          rw [hRun] at hInner
          exact hInner
      | error e s' =>
          rw [hRun] at hInner
          exact hInner
  | @catching _ m handler caught inner rest ihInner ihRest =>
      have hInner := ihInner s
      unfold moments
      dsimp only
      unfold Run.catching
      cases hRun : m enter s with
      | ok a s' =>
          rw [hRun] at hInner
          simpa using hInner
      | error e s' =>
          rw [hRun] at hInner
          cases e with
          | fault f =>
              dsimp only
              split
              · exact hInner.append rfl (ihRest f s')
              · rw [List.append_nil]
                exact hInner
          | outside => simpa using hInner
          | unfinished => simpa using hInner
  | same inner hSame ih =>
      rw [← hSame]
      exact ih s

/- The entry is traced, and then the arguments are counted. -/
theorem enterStub_succ
    (n : Nat)
    (stub : Stub)
    (t : Target)
    (args : List Value)
    (s : State) :
    enterStub rt (n + 1) stub t args s =
      (if args.length = stub.arity then
        t.behave rt (fun u => enterStub rt n u.stub u) args
      else Run.fault (wrongCount stub args))
        (s.log (.entered t args)) :=
  rfl

theorem enterStub_traces
    (n : Nat)
    (stub : Stub)
    (t : Target)
    (args : List Value)
    (s : State) :
    Traces s (enterStub rt n stub t args s)
      (momentsOf rt n stub t args s) := by
  induction n generalizing stub t args s with
  | zero => rfl
  | succ n ih =>
      rw [enterStub_succ]
      unfold momentsOf
      apply Traces.cons
      split
      · exact
          Course.traces (fun u => ih u.stub u)
            (Course.behave t args) (s.log (.entered t args))
      · exact .failureOf rfl

/- Entering a target changes no call site. -/
theorem enterStub_sites
    (n : Nat)
    (stub : Stub)
    (t : Target)
    (args : List Value)
    (s : State) :
    (Run.final (enterStub rt n stub t args s)).sites =
      s.sites := by
  induction n generalizing stub t args s with
  | zero => rfl
  | succ n ih =>
      rw [enterStub_succ]
      split
      · exact
          Course.sites_eq (fun u => ih u.stub u)
            (Course.behave t args) (s.log (.entered t args))
      · rfl

------------------------------------------------------------
-- Failures
------------------------------------------------------------

/- With what an operation failed, if it did. -/
def Run.halt? : EStateM.Result Halt State α → Option Halt
| .ok _ _ => none
| .error e _ => some e

/-
  An end as it is told: no failure at all, or one failure at
  the last moment.
-/
inductive Tells : Option Halt → List Moment → Prop
| value {ms : List Moment}
    (hNone : ∀ e, failed e ∉ ms) :
    Tells none ms
| halt {ms : List Moment} (e : Halt)
    (hNone : ∀ e, failed e ∉ ms) :
    Tells (some e) (ms ++ [failed e])

variable {end? : Option Halt}
variable {ms ns : List Moment}

theorem Tells.failureOf
    (r : EStateM.Result Halt State α) :
    Tells (Run.halt? r) (failureOf r) := by
  cases r with
  | ok a s => exact .value (fun _ => List.not_mem_nil)
  | error e s =>
      change Tells (some e) ([] ++ [failed e])
      exact .halt e (fun _ => List.not_mem_nil)

/- More happened before, and nothing failed then. -/
theorem Tells.after
    (hBefore : Tells none ms)
    (hTells : Tells end? ns) :
    Tells end? (ms ++ ns) := by
  rcases hBefore with ⟨hBefore⟩
  cases hTells with
  | value hNone =>
      apply Tells.value
      intro e
      exact List.not_mem_append (hBefore e) (hNone e)
  | halt f hNone =>
      rw [← List.append_assoc]
      apply Tells.halt
      intro e
      exact List.not_mem_append (hBefore e) (hNone e)

theorem Tells.cons
    (e : Event)
    (hTells : Tells end? ms) :
    Tells end? (event e :: ms) := by
  have hEvent : Tells none [event e] := by
    apply Tells.value
    intro f hMem
    cases List.mem_singleton.1 hMem
  exact hEvent.after hTells

/- A failure is the last moment, and ends the run. -/
theorem Tells.last
    {e : Halt}
    (hTells : Tells end? (ms ++ failed e :: ns)) :
    ns = [] ∧ end? = some e := by
  generalize hAll : ms ++ failed e :: ns = all at hTells
  have hMem : failed e ∈ all := by
    rw [← hAll]
    exact List.mem_append_right ms (List.mem_cons_self)
  cases hTells with
  | value hNone => exact absurd hMem (hNone e)
  | @halt before f hNone =>
      rcases List.eq_nil_or_concat ns with rfl | ⟨init, x, rfl⟩
      · have hEq := List.append_inj_right' hAll rfl
        cases hEq
        exact ⟨rfl, rfl⟩
      · have hSplit :
            (ms ++ failed e :: init) ++ [x] =
              before ++ [failed f] := by
          rw [← hAll]
          simp
        have hEq := List.append_inj_left' hSplit rfl
        apply absurd _ (hNone e)
        rw [← hEq]
        exact List.mem_append_right ms (List.mem_cons_self)

/-
  What fails on a course on which nothing is caught ends it,
  if that is so for the targets that are entered.
-/
theorem Course.tells
    (hEnter :
      ∀ t args s, Guardless (telling t args s) →
        Tells (Run.halt? (enter t args s)) (telling t args s))
    (c : Course rt α m)
    (hStraight : c.Straight)
    (s : State)
    (hGuardless : Guardless (c.moments enter telling s)) :
    Tells (Run.halt? (m enter s)) (c.moments enter telling s) := by
  induction c generalizing s with
  | own m hSilent => exact .failureOf (m s)
  | call code args => exact .cons _ (.failureOf _)
  | allocate n => exact .cons _ (.failureOf _)
  | enter t args => exact hEnter t args s hGuardless
  | @bind _ _ m f first rest ihFirst ihRest =>
      have hFirst := ihFirst hStraight.1 s
      change Tells (Run.halt? (EStateM.bind (m enter) (f enter) s)) _
      unfold EStateM.bind
      cases hRun : m enter s with
      | ok b s' =>
          rw [hRun] at hFirst
          rw [moments_bind_ok hRun] at hGuardless ⊢
          exact
            (hFirst hGuardless.left).after
              (ihRest b (hStraight.2 b) s' hGuardless.right)
      | error e s' =>
          rw [hRun] at hFirst
          rw [moments_bind_error hRun] at hGuardless ⊢
          exact hFirst hGuardless
  | @holding _ m rs inner ih =>
      have hInner :=
        ih hStraight { s with held := rs ++ s.held } hGuardless
      unfold moments
      dsimp only
      unfold Run.holding
      cases hRun : m enter { s with held := rs ++ s.held } with
      | _ =>
          rw [hRun] at hInner
          exact hInner
  | catching caught inner rest ihInner ihRest =>
      exact hStraight.elim
  | same inner hSame ih =>
      rw [← hSame]
      exact ih hStraight s hGuardless

theorem enterStub_tells
    (n : Nat)
    (stub : Stub)
    (t : Target)
    (args : List Value)
    (s : State)
    (hGuardless : Guardless (momentsOf rt n stub t args s)) :
    Tells (Run.halt? (enterStub rt n stub t args s))
      (momentsOf rt n stub t args s) := by
  induction n generalizing stub t args s with
  | zero => exact .failureOf _
  | succ n ih =>
      rw [enterStub_succ]
      unfold momentsOf at hGuardless ⊢
      have hKind : t.kind ≠ .exceptionGuard :=
        hGuardless t args List.mem_cons_self
      have hRest := hGuardless.tail
      apply Tells.cons
      split
      · rename_i hArity
        rw [if_pos hArity] at hRest
        exact
          Course.tells (fun u => ih u.stub u)
            (Course.behave t args)
            (Course.straight_behave hKind)
            (s.log (.entered t args)) hRest
      · exact .failureOf _

------------------------------------------------------------
-- Ways of Calling
------------------------------------------------------------

/- A way in which a target is called. -/
inductive Way where
| exact
| flexible
| exactTyped (sig : Signature)
| typed (sig : Signature)
| interpret

namespace Way

def run
    (rt : Runtime)
    (enter : Enter)
    (t : Target)
    (args : List Value) : Way → Run Value
| exact => t.invokeExact rt enter args
| flexible => t.invokeFlexibly rt enter args
| exactTyped sig => t.invokeExactTyped rt enter sig args
| typed sig => t.invokeTyped rt enter sig args
| interpret => t.behave rt enter args

def course
    (t : Target)
    (args : List Value) :
    (w : Way) →
      Course rt Value (fun enter => w.run rt enter t args)
| exact => .invokeExact t args
| flexible => .invokeFlexibly t args
| exactTyped sig => .invokeExactTyped t sig args
| typed sig => .invokeTyped t sig args
| interpret => .behave t args

/- The node that is called without its stub is no guard. -/
def SparesGuard
    (t : Target) : Way → Prop
| interpret => t.kind ≠ .exceptionGuard
| _ => True

theorem straight_course
    {t : Target}
    {args : List Value}
    {w : Way}
    (hRoot : w.SparesGuard t) :
    (w.course t args : Course rt Value _).Straight := by
  cases w with
  | exact => exact Course.straight_invokeExact
  | flexible => exact Course.straight_invokeFlexibly
  | exactTyped sig => exact Course.straight_invokeExactTyped
  | typed sig => exact Course.straight_invokeTyped
  | interpret => exact Course.straight_behave hRoot

end Way

/- A target is called in some way, or entered through a stub. -/
inductive Entry where
| way (w : Way)
| stub (c : Stub)

namespace Entry

/- A call, with a bound on its depth. -/
def run
    (rt : Runtime)
    (fuel : Nat)
    (t : Target)
    (args : List Value) : Entry → Run Value
| way w => w.run rt (Target.enter rt fuel) t args
| .stub c => enterStub rt fuel c t args

/- The moments of a call. -/
def moments
    (rt : Runtime)
    (fuel : Nat)
    (t : Target)
    (args : List Value)
    (s : State) : Entry → List Moment
| way w =>
    (w.course t args : Course rt Value _).moments
      (Target.enter rt fuel) (fun u => momentsOf rt fuel u.stub u) s
| .stub c => momentsOf rt fuel c t args s

/-
  The moments of a call; where a node is called without its
  stub, its entry is told as well.
-/
def story
    (rt : Runtime)
    (fuel : Nat)
    (t : Target)
    (args : List Value)
    (s : State)
    (x : Entry) : List Moment :=
  match x with
  | way .interpret =>
      event (.entered t args) :: x.moments rt fuel t args s
  | _ => x.moments rt fuel t args s

def SparesGuard
    (t : Target) : Entry → Prop
| way w => w.SparesGuard t
| stub _ => True

variable {fuel : Nat}
variable {t : Target}
variable {args : List Value}

/-
  The events among the moments of a call are those that it
  adds to the trace.
-/
theorem trace_eq
    (x : Entry)
    (s : State) :
    (Run.final (x.run rt fuel t args s)).trace =
      (events (x.moments rt fuel t args s)).reverse ++
        s.trace := by
  cases x with
  | way w =>
      exact
        (w.course t args).traces
          (fun u => enterStub_traces fuel u.stub u) s
  | stub c => exact enterStub_traces fuel c t args s

/- A call changes no call site. -/
theorem sites_eq
    (x : Entry)
    (s : State) :
    (Run.final (x.run rt fuel t args s)).sites = s.sites := by
  cases x with
  | way w =>
      exact
        (w.course t args).sites_eq
          (fun u => enterStub_sites fuel u.stub u) s
  | stub c => exact enterStub_sites fuel c t args s

theorem tells
    (x : Entry)
    (s : State)
    (hRoot : x.SparesGuard t)
    (hGuardless : Guardless (x.moments rt fuel t args s)) :
    Tells (Run.halt? (x.run rt fuel t args s))
      (x.moments rt fuel t args s) := by
  cases x with
  | way w =>
      exact
        (w.course t args).tells
          (fun u => enterStub_tells fuel u.stub u)
          (w.straight_course hRoot) s hGuardless
  | stub c => exact enterStub_tells fuel c t args s hGuardless

/-
  What fails in a call in which no exception guard is entered
  is passed on: nothing is entered after it, the host is asked
  for nothing, and the call ends with that very failure.
-/
theorem passes_failures
    {before after : List Moment}
    {e : Halt}
    (x : Entry)
    (s : State)
    (hRoot : x.SparesGuard t)
    (hGuardless : Guardless (x.moments rt fuel t args s))
    (hFailed :
      x.moments rt fuel t args s = before ++ failed e :: after) :
    after = [] ∧
      ∃ s',
        x.run rt fuel t args s = .error e s' ∧
          s'.trace = (events before).reverse ++ s.trace := by
  have hTells := x.tells s hRoot hGuardless
  have hTrace :
      (Run.final (x.run rt fuel t args s)).trace =
        (events (x.moments rt fuel t args s)).reverse ++ s.trace :=
    x.trace_eq s
  rw [hFailed] at hTells hTrace
  rcases hTells.last with ⟨rfl, hHalt⟩
  refine ⟨rfl, ?_⟩
  cases hRun : x.run rt fuel t args s with
  | ok v s' =>
      rw [hRun] at hHalt
      cases hHalt
  | error f s' =>
      rw [hRun] at hHalt hTrace
      cases hHalt
      refine ⟨s', rfl, ?_⟩
      have hEvents : events [failed e] = [] := rfl
      rw [events_append, hEvents, List.append_nil] at hTrace
      exact hTrace

/- A node that throws what it is given. -/
def thrower : Target :=
  .node 0 ⟨[.object], .prim .int, ⟨by decide, by decide⟩⟩
    ⟨0, ⟨"(Ljava/lang/Object;)I", none⟩, 1⟩ .throw

/- Its result, which there never is, is filtered. -/
def filtered : Target :=
  .node 2 thrower.signature thrower.stub
    (.filterReturn thrower
      (.node 1 ⟨[.prim .int], .prim .int, ⟨by decide, by decide⟩⟩
        ⟨1, ⟨"(I)I", none⟩, 1⟩ .identity))

/- A runtime without classes. -/
def bare : Runtime where
  classes := .empty
  host := (World.initial .empty).host
  compile := .checking
  memoizeAsType := true

/- The filter is not entered, and the fault is as it was. -/
theorem passes_failures_filtered :
    ∃ s',
      (way .exact).run bare 9 filtered [.null]
          (.initial .empty none) =
        .error
          (.fault (.nullReference "thrown exception is null"))
          s' ∧
        s'.trace =
          [.entered thrower [.null], .entered filtered [.null]] := by
  have hMoments :
      (way .exact).moments bare 9 filtered [.null]
          (.initial .empty none) =
        [.event (.entered filtered [.null]),
          .event (.entered thrower [.null])] ++
          .failed
            (.fault (.nullReference "thrown exception is null")) ::
            [] :=
    rfl
  refine (passes_failures (way .exact) _ trivial ?_ hMoments).2
  rw [hMoments]
  intro t args hMem
  simp at hMem
  rcases hMem with ⟨rfl, _⟩ | ⟨rfl, _⟩
  · decide
  · decide

end Entry

/- What comes after a result that does not depend on the state. -/
theorem Script.exists_of_ofExcept_bind
    {β : Type}
    {x : Except StepError α}
    {f : α → Script β}
    {b : β}
    {s s' : State}
    (hRun : (Script.ofExcept x >>= f) s = .ok b s') :
    ∃ a, f a s = .ok b s' := by
  cases x with
  | ok a => exact ⟨a, hRun⟩
  | error e => cases hRun

/- Every way in which a script calls a target is one of these. -/
theorem Session.callingOf_isEntry
    {c : Context}
    {how : Calling}
    {m : Run Value}
    {s s' : State}
    (hCalling : callingOf c t args how s = .ok m s') :
    ∃ x : Entry, m = x.run c.runtime Session.fuel t args := by
  cases how with
  | exact =>
      cases hCalling
      exact ⟨.way .exact, rfl⟩
  | flexible =>
      cases hCalling
      exact ⟨.way .flexible, rfl⟩
  | interpret =>
      cases hCalling
      exact ⟨.way .interpret, rfl⟩
  | exactTyped sig =>
      rcases Script.exists_of_ofExcept_bind hCalling with ⟨x, hRest⟩
      cases hRest
      exact ⟨.way (.exactTyped x), rfl⟩
  | typed sig =>
      rcases Script.exists_of_ofExcept_bind hCalling with ⟨x, hRest⟩
      cases hRest
      exact ⟨.way (.typed x), rfl⟩
  | throughStub =>
      unfold callingOf at hCalling
      dsimp only at hCalling
      split at hCalling
      · cases hCalling
      · rename_i stub k hGet
        cases hCalling
        exact ⟨.stub stub, rfl⟩

end Linkage
