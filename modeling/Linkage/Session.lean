import Linkage.Invoke
import Linkage.Session.Step
import Linkage.Session.View
import Linkage.Settings
import Linkage.Value.Text

/-
  Sessions: scripts that are run step by step against a
  world.  Each step gives an answer; a step that fails binds
  no name.

  Key definitions include:
    * `Description`
    * `Answer`
    * `Session`
    * `Session.start`
    * `Session.step`
    * `Session.run`
-/

------------------------------------------------------------
-- Answers
------------------------------------------------------------

namespace Linkage

/- What can be asked of a value by itself. -/
structure Description where
  kind : Option Kind
  type : Option Ty
  isNull : Bool
  isReference : Bool
  bool : Option Bool
  int : Option Int
  long : Option Int
  isDouble : Bool
  text : Option String
  length : Option Nat
  component : Option Ty
  message : Option String
deriving DecidableEq, Repr

/- What a call gave: a value, or a fault and its throwable. -/
inductive Outcome where
| returned (v : View)
| failed (f : Fault) (throwable : View)

/- A call of a host method that was made in a run. -/
structure LogEntry where
  name : String
  args : List View

/- The answer of a step. -/
inductive Answer where
| failed (e : StepError)
| target (t : Target)
| lookup (l : Lookup)
| value (v : View)
| noValue
| invoked (o : Outcome) (entered : Nat) (log : List LogEntry)
| tree (t : Tree)
| is (b : Bool)
| same (node key : Bool)
| sameSite (b : Bool)
| wrappedSame (bs : List Bool)
| released (b : Bool)
| stats (s : Stub.Stats)
| site (policy : Policy) (sig : Signature) (t : Target)
| done
| equal (content : Bool) (identity : Option Bool)
| text (s : Option String)
| described (d : Description)

------------------------------------------------------------
-- Describing
------------------------------------------------------------

/- What can be asked of a value by itself. -/
def Value.describe
    (h : Heap)
    (v : Value) : Description where
  kind := v.kind?
  type := v.type?
  isNull := v.isNull
  isReference := v.isReference
  bool :=
    match v with
    | .prim (.boolean b) => some b
    | _ => none
  int :=
    match v with
    | .prim (.int n) => some n.toInt
    | _ => none
  long :=
    match v with
    | .prim (.long n) => some n.toInt
    | _ => none
  isDouble :=
    match v with
    | .prim (.double _) => true
    | _ => false
  text := v.object?.bind Obj.text?
  length := (v.object?.bind h.elements?).map List.length
  component := v.object?.bind Obj.component?
  message := v.object?.bind Obj.message?

/- A call site in words. -/
def Site.text (x : Site) : String :=
  "CallSite \x7b policy: " ++ x.policy.name ++
    ", signature: SignatureType" ++ x.signature.text ++ ", .. \x7d"

/- The values are one object; none if one is no object. -/
def Value.identical? : Value → Value → Option Bool
| .ref a, .ref b => some (a.id = b.id)
| _, _ => none

------------------------------------------------------------
-- Sessions
------------------------------------------------------------

/- A world, a runtime on it, its state and the names so far. -/
structure Session where
  context : Context
  state : State

namespace Session

/- The depth of calls that a run may have. -/
def fuel : Nat := 1000000

/-
  The session of a world.  The heap is that of the world,
  with the static fields first.
-/
def start
    (w : World)
    (heap : Heap)
    (settings : Settings)
    (compile : Stub.Compiler) : Session :=
  { context :=
      { world := w
        runtime :=
          { classes := w.classes
            host := w.host
            compile := compile
            memoizeAsType := settings.invoke.memoizeAsType }
        names := ⟨[], [], [], []⟩ }
    state := .initial heap settings.stubs.capacity }

/-
  What a session holds: the static fields, the values in the
  bodies of methods, and the names.
-/
def roots (s : Session) : List Root :=
  let w := s.context.world
  (List.range w.statics.length).map Root.object ++
    w.bodies.flatMap (fun p => rootsOf p.2.constants) ++
    s.context.names.roots

/- A step either gives an answer and new names, or fails. -/
abbrev Stepping :=
  Script (Answer × Bindings)

/- The calls of host methods in a trace, the first one first. -/
def logOf
    (w : World)
    (trace : List Event) : List LogEntry :=
  trace.reverse.filterMap fun
    | .called code args heap =>
        match w.bodies[code.index]? with
        | some (name, _) =>
            some ⟨name, args.map (Value.view heap)⟩
        | none => none
    | _ => none

/- The number of stubs entered in a trace. -/
def entriesOf (trace : List Event) : Nat :=
  trace.countP fun
    | .entered _ _ => true
    | _ => false

/- What a way of calling makes of a target and arguments. -/
def callingOf
    (c : Context)
    (t : Target)
    (args : List Value)
    (how : Calling) : Script (Run Value) :=
  let rt := c.runtime
  let enter := Target.enter rt fuel
  match how with
  | .exact => pure (t.invokeExact rt enter args)
  | .flexible => pure (t.invokeFlexibly rt enter args)
  | .exactTyped sig => do
      let sig ← sig.run
      pure (t.invokeExactTyped rt enter sig args)
  | .typed sig => do
      let sig ← sig.run
      pure (t.invokeTyped rt enter sig args)
  | .interpret => pure (t.interpret rt fuel args)
  | .throughStub =>
      fun s =>
        match s.cache.get rt.compile t.stub.key with
        | (.error f, k) =>
            .error (.link (.stubFailed f)) { s with cache := k }
        | (.ok stub, k) =>
            .ok (enterStub rt fuel stub t args)
              { s with cache := k }

/-
  Run a call.  A fault is shown with its throwable object,
  which takes the place of the result.
-/
def invoke
    (c : Context)
    (name : Option String)
    (m : Run Value) : Stepping :=
  fun s =>
    let bound (v : Value) : Bindings :=
      { c.names with values := Names.bindIf c.names.values name v }
    let answer (o : Outcome) (t : State) : Answer :=
      .invoked o (entriesOf t.trace) (logOf c.world t.trace)
    match m s with
    | .ok v t => .ok (answer (.returned (v.view t.heap)) t, bound v) t
    | .error (.fault f) t =>
        match Run.throwable f t with
        | .ok o t' =>
            let v := Value.ref o
            .ok (answer (.failed f (v.view t'.heap)) t', bound v) t'
        | .error _ t' => .error .unfinished t'
    | .error .outside t => .error .outside t
    | .error .unfinished t => .error .unfinished t

/- The cell at an offset of an instance. -/
def cellOf
    (h : Heap)
    (v : Value)
    (offset : Nat) : Option (CellRef × Cell) := do
  let o ← v.object?
  let r ← Heap.fieldRef o offset
  let cell ← h.cell? r
  pure (r, cell)

/- Make a call site. -/
def makeSite
    (c : Context)
    (policy : Policy) : SiteSource → Script SiteId
| .linked x => do
    let t ← c.target x
    .ofLink (Site.make policy t)
| .unlinked sig => do
    let sig ← sig.run
    .ofLink (Site.unlinked c.runtime policy sig)

/- What a step answers, and the names after it. -/
def stepping
    (c : Context)
    (step : Step) : Stepping :=
  let names := c.names
  let keep (a : Answer) : Stepping := pure (a, names)
  match step with
  | .make op x => do
      let t ← op.run c
      pure
        (.target t,
          { names with targets := Names.bindIf names.targets x t })
  | .lookup n x => do
      let l := Lookup.full n
      pure
        (.lookup l,
          { names with lookups := Names.bindIf names.lookups x l })
  | .inClass l n x => do
      let l ← c.lookup l
      let m := l.inClass c.runtime.classes n
      pure
        (.lookup m,
          { names with lookups := Names.bindIf names.lookups x m })
  | .publicLookup l x => do
      let _ ← c.lookup l
      let m := Lookup.publicLookup
      pure
        (.lookup m,
          { names with lookups := Names.bindIf names.lookups x m })
  | .letValue e x => do
      let v ← c.value e
      pure
        (.value (v.view (← get).heap),
          { names with values := Names.bindIf names.values x v })
  | .invoke t args how x => do
      let t ← c.target t
      let vs ← c.values args
      invoke c x (← callingOf c t vs how)
  | .tree t => do
      let t ← c.target t
      keep (.tree t.tree)
  | .isVarargs t => do
      let t ← c.target t
      keep (.is t.isVarargs)
  | .same a b => do
      let a ← c.target a
      let b ← c.target b
      keep (.same (a.same b) (a.stub.key = b.stub.key))
  | .wrappedSame a b => do
      let a ← c.target a
      let b ← c.target b
      keep (.wrappedSame (a.wrapped.map (·.same b)))
  | .release t =>
      pure
        (.released (names.targets.lookup t).isSome,
          { names with targets := Names.erase names.targets t })
  | .stats => do
      keep (.stats (← get).cache.stats)
  | .isCached t => do
      let t ← c.target t
      keep (.is ((← get).cache.contains t.stub.key))
  | .makeSite policy source x => do
      let i ← makeSite c policy source
      match (← get).site? i with
      | some s =>
          pure
            (.site s.policy s.signature s.target,
              { names with sites := Names.bindIf names.sites x i })
      | none => throw .unfinished
  | .setTarget site t => do
      let (i, s) ← c.siteState site
      let t ← c.target t
      Script.ofLink (Site.setTarget i s t)
      keep .done
  | .syncAll sites => do
      let _ ← Script.ofExcept (Names.getAll names.sites sites)
      keep .done
  | .sameSite a b => do
      let a ← c.site a
      let b ← c.site b
      keep (.sameSite (a = b))
  | .equal a b => do
      let a ← c.value a
      let b ← c.value b
      keep (.equal (a.same b) (a.identical? b))
  | .conforms e type => do
      let v ← c.value e
      keep (.is (v.conforms c.runtime.classes type))
  | .cast e kind => do
      let v ← c.value e
      match v.cast? kind with
      | some w => keep (.value (w.view (← get).heap))
      | none => keep .noValue
  | .zeroValue type => do
      keep (.value ((Value.zero type).view (← get).heap))
  | .showValue e => do
      let v ← c.value e
      keep (.text (some (v.text (← get).heap)))
  | .showTarget t => do
      let t ← c.target t
      keep (.text (some t.text))
  | .showSite x => do
      let (_, s) ← c.siteState x
      keep (.text (some s.text))
  | .showLookup l => do
      let l ← c.lookup l
      keep (.text (some l.text))
  | .showField e offset => do
      let v ← c.value e
      let h := (← get).heap
      keep (.text ((cellOf h v offset).map (fun p => p.2.text h)))
  | .describe e => do
      let v ← c.value e
      keep (.described (v.describe (← get).heap))
  | .load e offset => do
      let v ← c.value e
      let h := (← get).heap
      match cellOf h v offset with
      | some (_, cell) => keep (.value (cell.load.view h))
      | none => keep .noValue
  | .store e offset new => do
      let v ← c.value e
      let w ← c.value new
      match cellOf (← get).heap v offset with
      | some (r, cell) => do
          modify (fun s => { s with heap := s.heap.storeCell r w })
          keep (.value ((cell.store w).load.view (← get).heap))
      | none => keep .noValue
  | .arrayGet e i => do
      let v ← c.value e
      let h := (← get).heap
      match (v.object?.bind h.elements?).bind (·[i]?) with
      | some w => keep (.value (w.view h))
      | none => keep .noValue
  | .arraySet e i new => do
      let v ← c.value e
      let w ← c.value new
      let h := (← get).heap
      match v.object?, v.object?.bind h.elements? with
      | some o, some vs =>
          if i < vs.length then
            modify
              (fun s => { s with heap := s.heap.setElement o i w })
            keep (.is true)
          else keep (.is false)
      | _, _ => keep (.is false)

/-
  Run a step.  The trace holds what this step runs, and what
  is held are the names before it.
-/
def step
    (s : Session)
    (x : Step) : Answer × Session :=
  let before := { s.state with trace := [], held := s.roots }
  match stepping s.context x before with
  | .ok (a, names) t =>
      (a,
        { context := { s.context with names := names },
          state := t })
  | .error e t => (.failed e, { s with state := t })

/- Run a script. -/
def run
    (s : Session) : List Step → List Answer
| [] => []
| x :: xs =>
    let (a, t) := s.step x
    a :: run t xs

end Session

end Linkage
