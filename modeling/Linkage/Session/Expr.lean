import Linkage.World

/-
  Names and expressions of a session: what a step of a script
  says where it wants a value or a signature.

  Key definitions include:
    * `Names`
    * `StepError`
    * `SignatureExpr`
    * `ValueExpr`
    * `Scope`
    * `ValueExpr.eval`
-/

------------------------------------------------------------
-- Names
------------------------------------------------------------

namespace Linkage

/- Things bound to names; a name is bound at most once. -/
abbrev Names (α : Type) :=
  List (String × α)

namespace Names

variable {α : Type}

/- Forget a name. -/
def erase
    (ns : Names α)
    (x : String) : Names α :=
  ns.filter (fun p => p.1 ≠ x)

/- Bind a name in place of what it was bound to. -/
def bind
    (ns : Names α)
    (x : String)
    (a : α) : Names α :=
  (x, a) :: Names.erase ns x

/- Bind a name, if one is given. -/
def bindIf
    (ns : Names α)
    (x : Option String)
    (a : α) : Names α :=
  match x with
  | some x => Names.bind ns x a
  | none => ns

end Names

------------------------------------------------------------
-- Errors of steps
------------------------------------------------------------

/- Why a step of a script has no result. -/
inductive StepError where
| unbound (name : String)
| unboxable
| link (e : LinkError)
| fault (f : Fault)
| outside
| unfinished

/- A thing bound to a name. -/
def Names.get
    {α : Type}
    (ns : Names α)
    (x : String) : Except StepError α :=
  match ns.lookup x with
  | some a => .ok a
  | none => .error (.unbound x)

/- Things bound to names, up to the first that is not bound. -/
def Names.getAll
    {α : Type}
    (ns : Names α) : List String → Except StepError (List α)
| [] => .ok []
| x :: xs =>
    match Names.get ns x with
    | .error e => .error e
    | .ok a =>
        match Names.getAll ns xs with
        | .error e => .error e
        | .ok as => .ok (a :: as)

/- Things bound to names, where a gap stays a gap. -/
def Names.getSome
    {α : Type}
    (ns : Names α) :
    List (Option String) → Except StepError (List (Option α))
| [] => .ok []
| x :: xs =>
    let first : Except StepError (Option α) :=
      match x with
      | none => .ok none
      | some x => (Names.get ns x).map some
    match first with
    | .error e => .error e
    | .ok a =>
        match Names.getSome ns xs with
        | .error e => .error e
        | .ok as => .ok (a :: as)

------------------------------------------------------------
-- Expressions
------------------------------------------------------------

/- The types of a signature that may not exist. -/
structure SignatureExpr where
  params : List Ty
  ret : Ty
deriving DecidableEq, Repr, Inhabited

/- The types that a written form names. -/
def SignatureExpr.ofText (s : String) : SignatureExpr :=
  ⟨(Signature.typesOfText s).1, (Signature.typesOfText s).2⟩

/- The signature of given types. -/
def SignatureExpr.eval
    (e : SignatureExpr) : Except StepError Signature :=
  match Signature.build e.ret e.params with
  | .ok s => .ok s
  | .error f => .error (.link (.signature f))

/- An expression of a value. -/
inductive ValueExpr where
| void
| null
| prim (p : Prim)
| text (s : String)
| box (e : ValueExpr)
| array (component : Ty) (es : List ValueExpr)
| zeros (component : Ty) (count : Nat)
| throwable (n : ClassName) (message : Option String)
| fresh (n : ClassName)
| handle (name : String)
| name (name : String)
deriving Inhabited

/- What expressions of values refer to. -/
structure Scope where
  targets : Names Target
  values : Names Value
  allocate : ClassName → Heap → Option (Except Fault Obj × Heap)

/- A result that is a new object. -/
def newObject
    (p : Obj × Heap) : Except StepError Value × Heap :=
  (.ok (.ref p.1), p.2)

mutual

/- The value of an expression. -/
def ValueExpr.eval
    (c : Scope) :
    ValueExpr → Heap → Except StepError Value × Heap
| .void, h => (.ok .void, h)
| .null, h => (.ok .null, h)
| .prim p, h => (.ok (.prim p), h)
| .text s, h => newObject (h.allocText s)
| .box e, h =>
    match e.eval c h with
    | (.error f, h') => (.error f, h')
    | (.ok (.prim p), h') => newObject (h'.allocBox p)
    | (.ok _, h') => (.error .unboxable, h')
| .array t es, h =>
    match ValueExpr.evalAll c es h with
    | (.error f, h') => (.error f, h')
    | (.ok vs, h') => newObject (h'.allocArray t vs)
| .zeros t n, h =>
    newObject (h.allocArray t (List.replicate n (.zero t)))
| .throwable n m, h => newObject (h.allocThrowable n m)
| .fresh n, h =>
    match c.allocate n h with
    | none => (.error .unfinished, h)
    | some (.error f, h') => (.error (.fault f), h')
    | some (.ok o, h') => (.ok (.ref o), h')
| .handle x, h =>
    match Names.get c.targets x with
    | .error e => (.error e, h)
    | .ok t => newObject (h.allocHandle t)
| .name x, h => (Names.get c.values x, h)

/- The values of expressions, up to the first error. -/
def ValueExpr.evalAll
    (c : Scope) :
    List ValueExpr → Heap →
      Except StepError (List Value) × Heap
| [], h => (.ok [], h)
| e :: es, h =>
    match e.eval c h with
    | (.error f, h') => (.error f, h')
    | (.ok v, h') =>
        match ValueExpr.evalAll c es h' with
        | (.error f, h'') => (.error f, h'')
        | (.ok vs, h'') => (.ok (v :: vs), h'')

end

end Linkage
