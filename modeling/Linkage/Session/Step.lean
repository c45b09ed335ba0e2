import Linkage.CallSite
import Linkage.Session.Expr

/-
  Steps of a script.  A step names its operands; it is run in
  a session, where targets, values, call sites and lookups
  have separate names.

  Key definitions include:
    * `TargetOp`
    * `Calling`
    * `SiteSource`
    * `Step`
    * `Bindings`
    * `Bindings.roots`
    * `Script`
    * `TargetOp.run`
-/

------------------------------------------------------------
-- Steps
------------------------------------------------------------

namespace Linkage

/- An operation that gives a target. -/
inductive TargetOp where
| findStatic
    (lookup : String) (owner : ClassName) (member : String)
    (sig : SignatureExpr)
| findVirtual
    (lookup : String) (owner : ClassName) (member : String)
    (sig : SignatureExpr)
| findSpecial
    (lookup : String) (owner : ClassName) (member : String)
    (sig : SignatureExpr) (caller : ClassName)
| findConstructor
    (lookup : String) (owner : ClassName) (sig : SignatureExpr)
| findField
    (lookup : String) (owner : ClassName) (member : String)
    (type : Ty) (isStatic setter : Bool)
| bindMethod
    (receiver : ValueExpr) (lookup member : String)
    (sig : SignatureExpr)
| asType (t : String) (sig : SignatureExpr)
| explicitCast (t : String) (sig : SignatureExpr)
| bindTo (t : String) (receiver : ValueExpr)
| asCollector (t : String) (array : Ty) (count : Nat)
| asSpreader (t : String) (array : Ty) (count : Nat)
| asVarargsCollector (t : String) (array : Ty)
| asFixedArity (t : String)
| filterReturn (t filter : String)
| filterArguments
    (filters : List (Option String)) (t : String) (pos : Nat)
| permuteArguments
    (order : List Nat) (t : String) (sig : SignatureExpr)
| insertArguments
    (t : String) (pos : Nat) (values : List ValueExpr)
| dropArguments (t : String) (pos : Nat) (types : List Ty)
| foldArguments (t combiner : String)
| guardWithTest (test yes no : String)
| catchException
    (t : String) (caught : ClassName) (handler : String)
| constant (type : Ty) (value : ValueExpr)
| identity (type : Ty)
| zero (type : Ty)
| throwException (type : Ty) (thrown : ClassName)
| arrayGetter (type : Ty)
| arraySetter (type : Ty)
| arrayLength (type : Ty)
| invoker (sig : SignatureExpr) (exact : Bool)
| wrapped (t : String) (i : Nat)
| siteTarget (site : String)
| dynamicInvoker (site : String)

/- How a target is called. -/
inductive Calling where
| exact
| flexible
| exactTyped (sig : SignatureExpr)
| typed (sig : SignatureExpr)
| interpret
| throughStub

/- What a call site starts with. -/
inductive SiteSource where
| linked (t : String)
| unlinked (sig : SignatureExpr)

/- One step of a script. -/
inductive Step where
| make (op : TargetOp) (name : Option String)
| lookup (n : ClassName) (name : Option String)
| inClass (lookup : String) (n : ClassName) (name : Option String)
| publicLookup (lookup : String) (name : Option String)
| letValue (e : ValueExpr) (name : Option String)
| invoke
    (t : String) (args : List ValueExpr) (how : Calling)
    (name : Option String)
| tree (t : String)
| isVarargs (t : String)
| same (a b : String)
| wrappedSame (a b : String)
| release (t : String)
| stats
| isCached (t : String)
| makeSite
    (policy : Policy) (source : SiteSource) (name : Option String)
| setTarget (site t : String)
| syncAll (sites : List String)
| sameSite (a b : String)
| equal (a b : ValueExpr)
| conforms (e : ValueExpr) (type : Ty)
| cast (e : ValueExpr) (kind : Kind)
| zeroValue (type : Ty)
| showValue (e : ValueExpr)
| showTarget (t : String)
| showSite (site : String)
| showLookup (lookup : String)
| showField (e : ValueExpr) (offset : Nat)
| describe (e : ValueExpr)
| load (e : ValueExpr) (offset : Nat)
| store (e : ValueExpr) (offset : Nat) (new : ValueExpr)
| arrayGet (e : ValueExpr) (i : Nat)
| arraySet (e : ValueExpr) (i : Nat) (new : ValueExpr)

------------------------------------------------------------
-- Bindings
------------------------------------------------------------

/- The names of a session. -/
structure Bindings where
  targets : Names Target
  values : Names Value
  sites : Names SiteId
  lookups : Names Lookup

/- What the names hold. -/
def Bindings.roots (b : Bindings) : List Root :=
  b.targets.map (fun p => Root.target p.2) ++
    b.values.flatMap (fun p => p.2.roots) ++
    b.sites.map (fun p => Root.site p.2)

/- What every step of a session shares. -/
structure Context where
  world : World
  runtime : Runtime
  names : Bindings

/- What the expressions of a step refer to. -/
def Context.scope (c : Context) : Scope :=
  ⟨c.names.targets, c.names.values, c.world.allocate⟩

------------------------------------------------------------
-- Running operations
------------------------------------------------------------

/- A part of a step: it may fail, and changes the state. -/
abbrev Script (α : Type) :=
  EStateM StepError State α

namespace Script

variable {α : Type}

/- A result that does not depend on the state. -/
def ofExcept : Except StepError α → Script α
| .ok a => pure a
| .error e => throw e

/- A link operation as a part of a step. -/
def ofLink (m : Link α) : Script α :=
  fun s =>
    match m s with
    | .ok a s' => .ok a s'
    | .error e s' => .error (.link e) s'

/- A part of a step that works on the heap. -/
def onHeap
    (f : Heap → Except StepError α × Heap) : Script α :=
  fun s =>
    match f s.heap with
    | (.ok a, h) => .ok a { s with heap := h }
    | (.error e, h) => .error e { s with heap := h }

end Script

namespace Context

def target
    (c : Context)
    (x : String) : Script Target :=
  .ofExcept (Names.get c.names.targets x)

def site
    (c : Context)
    (x : String) : Script SiteId :=
  .ofExcept (Names.get c.names.sites x)

def lookup
    (c : Context)
    (x : String) : Script Lookup :=
  .ofExcept (Names.get c.names.lookups x)

def value
    (c : Context)
    (e : ValueExpr) : Script Value :=
  .onHeap (e.eval c.scope)

def values
    (c : Context)
    (es : List ValueExpr) : Script (List Value) :=
  .onHeap (ValueExpr.evalAll c.scope es)

/- The call site bound to a name, with its state. -/
def siteState
    (c : Context)
    (x : String) : Script (SiteId × Site) := do
  let i ← c.site x
  match (← get).site? i with
  | some s => pure (i, s)
  | none => throw (.unbound x)

end Context

def SignatureExpr.run
    (e : SignatureExpr) : Script Signature :=
  .ofExcept e.eval

/-
  Run an operation that gives a target.  Operands are read in
  the order in which the operation lists them.
-/
def TargetOp.run
    (c : Context)
    (op : TargetOp) : Script Target :=
  let rt := c.runtime
  match op with
  | findStatic l owner member sig => do
      let l ← c.lookup l
      let sig ← sig.run
      .ofLink (l.findStatic rt owner member sig)
  | findVirtual l owner member sig => do
      let l ← c.lookup l
      let sig ← sig.run
      .ofLink (l.findVirtual rt owner member sig)
  | findSpecial l owner member sig caller => do
      let l ← c.lookup l
      let sig ← sig.run
      .ofLink (l.findSpecial rt owner member sig caller)
  | findConstructor l owner sig => do
      let l ← c.lookup l
      let sig ← sig.run
      .ofLink (l.findConstructor rt owner sig)
  | findField l owner member type isStatic setter => do
      let l ← c.lookup l
      .ofLink (l.findField rt owner member type isStatic setter)
  | bindMethod receiver l member sig => do
      let v ← c.value receiver
      let l ← c.lookup l
      let sig ← sig.run
      .ofLink (l.bind rt v member sig)
  | asType t sig => do
      let t ← c.target t
      let sig ← sig.run
      .ofLink (t.asType rt sig)
  | explicitCast t sig => do
      let t ← c.target t
      let sig ← sig.run
      .ofLink (t.explicitCast rt sig)
  | bindTo t receiver => do
      let t ← c.target t
      let v ← c.value receiver
      .ofLink (t.bindTo rt v)
  | asCollector t array count => do
      let t ← c.target t
      .ofLink (t.asCollector rt array count)
  | asSpreader t array count => do
      let t ← c.target t
      .ofLink (t.asSpreader rt array count)
  | asVarargsCollector t array => do
      let t ← c.target t
      .ofLink (t.asVarargsCollector rt array)
  | asFixedArity t => do
      let t ← c.target t
      pure t.asFixedArity
  | filterReturn t filter => do
      let t ← c.target t
      let f ← c.target filter
      .ofLink (t.filterReturn rt f)
  | filterArguments filters t pos => do
      let fs ← .ofExcept (Names.getSome c.names.targets filters)
      let t ← c.target t
      .ofLink (t.filterArguments rt pos fs)
  | permuteArguments order t sig => do
      let t ← c.target t
      let sig ← sig.run
      .ofLink (t.permuteArguments rt sig order)
  | insertArguments t pos values => do
      let t ← c.target t
      let vs ← c.values values
      .ofLink (t.insertArguments rt pos vs)
  | dropArguments t pos types => do
      let t ← c.target t
      .ofLink (t.dropArguments rt pos types)
  | foldArguments t combiner => do
      let t ← c.target t
      let f ← c.target combiner
      .ofLink (t.foldArguments rt f)
  | guardWithTest test yes no => do
      let test ← c.target test
      let yes ← c.target yes
      let no ← c.target no
      .ofLink (Target.guardWithTest rt test yes no)
  | catchException t caught handler => do
      let t ← c.target t
      let h ← c.target handler
      .ofLink (t.catchException rt caught h)
  | constant type e => do
      let v ← c.value e
      .ofLink (Target.constant rt type v)
  | identity type => .ofLink (Target.identity rt type)
  | zero type => .ofLink (Target.zero rt type)
  | throwException type thrown =>
      .ofLink (Target.throwException rt type thrown)
  | arrayGetter type => .ofLink (Target.arrayGetter rt type)
  | arraySetter type => .ofLink (Target.arraySetter rt type)
  | arrayLength type => .ofLink (Target.arrayLength rt type)
  | invoker sig exact => do
      let sig ← sig.run
      .ofLink (Target.invoker rt sig exact)
  | wrapped t i => do
      let t ← c.target t
      match t.wrapped[i]? with
      | some u => pure u
      | none => throw .outside
  | siteTarget x => do
      let (_, s) ← c.siteState x
      pure s.target
  | dynamicInvoker x => do
      let (i, s) ← c.siteState x
      .ofLink (Site.dynamicInvoker rt i s)

end Linkage
