import Linkage.Conversion.Apply

/-
  A runtime and its state.  A runtime is what all targets
  share and nobody changes: the class table, the host that
  resolves members and runs code, the compiler of stubs and
  the settings.  The state is the heap, the cache of stubs,
  the call sites, what each target remembers of its last
  retyping, and the trace of what was run.

  Key definitions include:
    * `Host`
    * `Runtime`
    * `Policy`
    * `Site`
    * `Event`
    * `Root`
    * `State`
    * `Link`
    * `Halt`
    * `Run`
    * `Target.build`
-/

------------------------------------------------------------
-- Hosts and runtimes
------------------------------------------------------------

namespace Linkage

/-
  The host: it resolves members, decides on access beyond the
  table of member access, runs code and owns the instances
  and the cells of static fields.  Allocation may never end,
  in which case there is no answer.
-/
structure Host where
  resolveMethod :
    ClassName → String → Signature → MethodKind → ClassName →
      Except LinkError Method
  resolveField :
    ClassName → String → Ty → ClassName → Except LinkError Field
  check :
    ClassName → ClassName → Flags → ClassName → Except LinkError Unit
  call : Code → List Value → Heap → Except Fault Value × Heap
  virtualEntry : Ty → Nat → Option Code
  interfaceEntry : Ty → ClassName → Nat → Option Code
  allocate : ClassName → Heap → Option (Except Fault Obj × Heap)
  staticCell : ClassName → Nat → Option CellRef

/- What all targets of a runtime share. -/
structure Runtime where
  classes : ClassTable
  host : Host
  compile : Stub.Compiler
  memoizeAsType : Bool

------------------------------------------------------------
-- State
------------------------------------------------------------

/- How the target of a call site may change. -/
inductive Policy where
| constant
| volatile
| mutable
deriving DecidableEq, Repr, Inhabited

/- The name of a policy. -/
def Policy.name : Policy → String
| constant => "Constant"
| volatile => "Volatile"
| mutable => "Mutable"

/- A call site: a fixed signature and a current target. -/
structure Site where
  policy : Policy
  signature : Signature
  target : Target

/-
  What happens in a run: a stub is entered, the host is asked
  for an instance, or the host runs code on given arguments
  and a given heap.
-/
inductive Event where
| entered (t : Target) (args : List Value)
| allocated (n : ClassName)
| called (code : Code) (args : List Value) (heap : Heap)

/-
  Something that keeps targets alive: a target, an object or
  a call site.
-/
inductive Root where
| target (t : Target)
| object (id : Nat)
| site (s : SiteId)

/- The objects that a value holds on to. -/
def Value.roots : Value → List Root
| ref o => [.object o.id]
| _ => []

/- The state of a runtime; the last event comes first. -/
structure State where
  heap : Heap
  cache : Stub.Cache
  sites : Array Site
  memo : List (Nat × Target)
  held : List Root
  nextId : Nat
  trace : List Event

namespace State

/- The state before anything was made. -/
def initial
    (heap : Heap)
    (capacity : Option Nat) : State :=
  ⟨heap, .new capacity, #[], [], [], 0, []⟩

/- What a target remembers of its last retyping. -/
def memoOf
    (s : State)
    (t : Target) : Option Target :=
  s.memo.lookup t.id

/- Let a target remember a retyping in place of the last. -/
def remember
    (s : State)
    (t adapted : Target) : State :=
  { s with
    memo :=
      (t.id, adapted) :: s.memo.filter (fun p => p.1 ≠ t.id) }

/- The call site of a number. -/
def site?
    (s : State)
    (i : SiteId) : Option Site :=
  s.sites[i.index]?

def log
    (s : State)
    (e : Event) : State :=
  { s with trace := e :: s.trace }

end State

------------------------------------------------------------
-- Operations on the state
------------------------------------------------------------

/- An operation that makes targets. -/
abbrev Link (α : Type) :=
  EStateM LinkError State α

/-
  Why a run stopped without a value: a fault; an edit of the
  argument list that fell outside it; or no end of the run
  within the fuel, or within the host.
-/
inductive Halt where
| fault (f : Fault)
| outside
| unfinished
deriving DecidableEq, Repr

/- An operation that runs targets. -/
abbrev Run (α : Type) :=
  EStateM Halt State α

/- A link operation that fails with an error of signatures. -/
def Link.ofSignature
    {α : Type} : Except SignatureError α → Link α
| .ok a => pure a
| .error e => throw (.signature e)

/- Refuse an argument of an operation. -/
def Link.misuse
    {α : Type}
    (w : Misuse) : Link α :=
  throw (.illegalArgument w)

/- A run that fails with a fault. -/
def Run.fault
    {α : Type}
    (f : Fault) : Run α :=
  throw (.fault f)

/- Use the heap in a run. -/
def Run.onHeap
    {α : Type}
    (f : Heap → Except Fault α × Heap) : Run α :=
  fun s =>
    match f s.heap with
    | (.ok a, h) => .ok a { s with heap := h }
    | (.error e, h) => .error (.fault e) { s with heap := h }

/- Use the heap in a link operation. -/
def Link.onHeap
    {α : Type}
    (f : Heap → α × Heap) : Link α :=
  fun s =>
    let (a, h) := f s.heap
    .ok a { s with heap := h }

/-
  Make a node whose stub is shared up to given slots.  The
  stub is taken from the cache, and the node gets a number of
  its own.
-/
def Target.buildKeyed
    (rt : Runtime)
    (signature : Signature)
    (form : Form Target)
    (exact : SlotRange)
    (extra : Option Stub.Extra) : Link Target :=
  fun s =>
    let key := Stub.Key.ofSignature signature exact extra
    match s.cache.get rt.compile key with
    | (.error f, c) => .error (.stubFailed f) { s with cache := c }
    | (.ok stub, c) =>
        .ok (.node s.nextId signature stub form)
          { s with cache := c, nextId := s.nextId + 1 }

/- Make a node whose stub is shared in all slots. -/
def Target.build
    (rt : Runtime)
    (signature : Signature)
    (form : Form Target) : Link Target :=
  buildKeyed rt signature form .none none

end Linkage
