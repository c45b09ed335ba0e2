import Linkage.Adapter

/-
  Invocation.  Each form has its behaviour, which enters its
  delegates through their stubs; a stub checks the number of
  arguments and hands the call to the behaviour of the node.
  The depth of a run is bounded by fuel.

  Key definitions include:
    * `Enter`
    * `Run.holding`
    * `Target.checkArguments`
    * `Target.invokeExact`
    * `Target.invokeExactTyped`
    * `Target.invokeTyped`
    * `Target.arityAdapted`
    * `Target.callType`
    * `Target.invokeFlexibly`
    * `Target.behave`
    * `enterStub`
    * `Target.enter`
    * `Target.interpret`
-/

------------------------------------------------------------
-- Entry points
------------------------------------------------------------

namespace Linkage

/- A way to enter targets. -/
abbrev Enter :=
  Target → List Value → Run Value

/-
  Run with more roots held.  They are released at the end,
  whatever the outcome.
-/
def Run.holding
    {α : Type}
    (rs : List Root)
    (m : Run α) : Run α :=
  fun s =>
    match m { s with held := rs ++ s.held } with
    | .ok a s' => .ok a { s' with held := s.held }
    | .error e s' => .error e { s' with held := s.held }

/- What arguments hold. -/
def rootsOf (args : List Value) : List Root :=
  args.flatMap Value.roots

/- What a fault holds: the object that it throws. -/
def Fault.roots : Fault → List Root
| .thrown o => [.object o.id]
| _ => []

/- Run a link operation, with a fault in place of its errors. -/
def Run.ofLink
    {α : Type}
    (m : Link α)
    (f : Fault) : Run α :=
  fun s =>
    match m s with
    | .ok a s' => .ok a s'
    | .error _ s' => .error (.fault f) s'

namespace Target

/- Each argument is a value of its parameter. -/
def admits
    (T : ClassTable)
    (sig : Signature)
    (args : List Value) : Bool :=
  args.length = sig.count &&
    (args.zip sig.params).all (fun (v, t) => v.conforms T t)

/- Refuse arguments that are no values of the parameters. -/
def checkArguments
    (rt : Runtime)
    (t : Target)
    (args : List Value) : Run Unit :=
  if admits rt.classes t.signature args then pure ()
  else Run.fault (.arguments t.signature args)

/- Invoke with arguments that match the signature. -/
def invokeExact
    (rt : Runtime)
    (enter : Enter)
    (t : Target)
    (args : List Value) : Run Value := do
  t.checkArguments rt args
  enter t args

/- Invoke with a call type that equals the signature. -/
def invokeExactTyped
    (rt : Runtime)
    (enter : Enter)
    (t : Target)
    (sig : Signature)
    (args : List Value) : Run Value :=
  if sig = t.signature then t.invokeExact rt enter args
  else Run.fault (.callType t.signature sig)

/-
  Invoke with a call type to which the target is retyped.  The
  arguments are held until they are passed on.
-/
def invokeTyped
    (rt : Runtime)
    (enter : Enter)
    (t : Target)
    (sig : Signature)
    (args : List Value) : Run Value := do
  let adapted ←
    Run.holding (rootsOf args)
      (Run.ofLink (t.asType rt sig) (.callType t.signature sig))
  Run.holding [.target adapted]
    (adapted.invokeExact rt enter args)

/-
  The target that takes a number of arguments.  One that
  collects trailing arguments does so unless the last
  argument may stand for its array.
-/
def arityAdapted
    (rt : Runtime)
    (t : Target)
    (args : List Value) : Run Target :=
  match t.form with
  | .varargs u array =>
      let fixed := t.count - 1
      let refused := Fault.arguments t.signature args
      let passed :=
        if args.length = fixed + 1 then
          match args[fixed]?, t.params[fixed]? with
          | some v, some p => v.conforms rt.classes p
          | _, _ => false
        else false
      if passed then pure u
      else if args.length < fixed then Run.fault refused
      else
        Run.ofLink (u.asCollector rt array (args.length - fixed))
          refused
  | _ => pure t

/-
  The type that an argument gives to its slot: its own type;
  for null the declared type, or `Object` if that is
  primitive.
-/
def slotType
    (v : Value)
    (declared : Ty) : Ty :=
  match v.type? with
  | some t => t
  | none => if declared.IsRef then declared else .object

/- The call type that arguments give to a call. -/
def callType
    (t : Target)
    (args : List Value) : Run Signature :=
  let refused := Fault.arguments t.signature args
  if args.length ≠ t.count then Run.fault refused
  else
    match
      Signature.build t.ret (List.zipWith slotType args t.params)
    with
    | .ok s => pure s
    | .error _ => Run.fault refused

/- Invoke with arguments of any number and any types. -/
def invokeFlexibly
    (rt : Runtime)
    (enter : Enter)
    (t : Target)
    (args : List Value) : Run Value := do
  let u ← Run.holding (rootsOf args) (t.arityAdapted rt args)
  Run.holding [.target u] do
    let sig ← u.callType args
    u.invokeTyped rt enter sig args

end Target

------------------------------------------------------------
-- The host
------------------------------------------------------------

/- Let the host run code. -/
def Run.call
    (rt : Runtime)
    (code : Code)
    (args : List Value) : Run Value := do
  modify (fun s => s.log (.called code args s.heap))
  Run.onHeap (rt.host.call code args)

/- Let the host allocate an instance. -/
def Run.allocate
    (rt : Runtime)
    (n : ClassName) : Run Obj :=
  fun s =>
    let logged := s.log (.allocated n)
    match rt.host.allocate n s.heap with
    | none => .error .unfinished logged
    | some (.ok o, h) => .ok o { logged with heap := h }
    | some (.error f, h) =>
        .error (.fault f) { logged with heap := h }

/- Put a new array into the heap. -/
def Run.newArray
    (component : Ty)
    (vs : List Value) : Run Obj :=
  Run.onHeap
    (fun h =>
      let (o, h') := h.allocArray component vs
      (.ok o, h'))

/- The throwable object of a fault. -/
def Run.throwable (f : Fault) : Run Obj :=
  match f with
  | .thrown o => pure o
  | f =>
      Run.onHeap
        (fun h =>
          let (o, h') :=
            h.allocThrowable f.exceptionClass (some f.message)
          (.ok o, h'))

------------------------------------------------------------
-- Arguments of behaviours
------------------------------------------------------------

/- The receiver of a method: the first argument. -/
def receiverOf
    (m : Method)
    (args : List Value) : Run Obj :=
  match args.head? with
  | some (.ref o) => pure o
  | some .null | none =>
      Run.fault
        (.nullReference
          ("receiver of " ++ m.declaring.text ++ "." ++ m.name))
  | some v =>
      Run.fault (.typeMismatch m.declaring.text v.typeText)

/- The receiver of a field: the first argument. -/
def fieldReceiver
    (f : Field)
    (args : List Value) : Run Obj :=
  match args.head? with
  | some (.ref o) => pure o
  | _ =>
      Run.fault (.nullReference ("receiver of field " ++ f.name))

/- No storage belongs to a field. -/
def missingField (f : Field) : Fault :=
  .illegalState
    ("no storage for field " ++ f.declaring.text ++ "." ++ f.name)

/- No code belongs to a method of a receiver. -/
def missingCode
    (m : Method)
    (receiver : Ty) : Fault :=
  .abstractMethod m.declaring m.name receiver.text

/- An array and its elements: the first argument. -/
def arrayOf
    (args : List Value) : Run (Obj × List Value) := do
  match args.head? with
  | some (.ref o) =>
      match (← get).heap.elements? o with
      | some vs => pure (o, vs)
      | none => Run.fault (.typeMismatch "an array" o.type.text)
  | _ => Run.fault (.nullReference "array is null")

/-
  An array, its elements and a position within it: the first
  two arguments.
-/
def elementOf
    (args : List Value) : Run (Obj × List Value × Nat) := do
  let (o, vs) ← arrayOf args
  match args.tail.head? with
  | some (.prim (.int i)) =>
      if 0 ≤ i.toInt ∧ i.toInt < vs.length
      then pure (o, vs, i.toInt.toNat)
      else Run.fault (.arrayIndex i.toInt vs.length)
  | some v => Run.fault (.typeMismatch "int" v.typeText)
  | none => Run.fault (.typeMismatch "int" "nothing")

/- The last argument, or null, and the arguments before it. -/
def splitLast (args : List Value) : Value × List Value :=
  (args.getLast?.getD .null, args.dropLast)

/- The first arguments of a call. -/
def leadingArgs
    (sig : Signature)
    (n : Nat)
    (args : List Value) : Run (List Value) :=
  if n ≤ args.length then pure (args.take n)
  else Run.fault (.tooFew sig n)

------------------------------------------------------------
-- Behaviours
------------------------------------------------------------

/- Code at a fixed address. -/
def runDirect
    (rt : Runtime)
    (m : Method)
    (how : MethodKind)
    (entry : Code)
    (args : List Value) : Run Value :=
  match how with
  | .isStatic => Run.call rt entry args
  | .isConstructor => do
      let o ← Run.allocate rt m.declaring
      let _ ← Run.call rt entry (.ref o :: args)
      pure (.ref o)
  | .isVirtual | .isInterface | .isSpecial => do
      let _ ← receiverOf m args
      Run.call rt entry args

/- Code that the class of the receiver selects. -/
def runVirtual
    (rt : Runtime)
    (m : Method)
    (slot : Nat)
    (args : List Value) : Run Value := do
  let o ← receiverOf m args
  match rt.host.virtualEntry o.type slot with
  | some code => Run.call rt code args
  | none => Run.fault (missingCode m o.type)

/- Code that the receiver has for an interface. -/
def runInterface
    (rt : Runtime)
    (m : Method)
    (slot : Nat)
    (args : List Value) : Run Value := do
  let o ← receiverOf m args
  if rt.classes.isAssignable o.type (.cls m.declaring) then
    match rt.host.interfaceEntry o.type m.declaring slot with
    | some code => Run.call rt code args
    | none => Run.fault (missingCode m o.type)
  else Run.fault (.castError o.type.text (.cls m.declaring))

/-
  The place of a field: a static cell, or a cell of the
  receiver.
-/
def fieldPlace
    (rt : Runtime)
    (f : Field)
    (offset : Nat)
    (args : List Value) : Run (Option CellRef) := do
  if f.flags.has .isStatic then
    pure (rt.host.staticCell f.declaring offset)
  else
    let o ← fieldReceiver f args
    pure (Heap.fieldRef o offset)

/- Read a field. -/
def runFieldGet
    (rt : Runtime)
    (f : Field)
    (offset : Nat)
    (args : List Value) : Run Value := do
  let place ← fieldPlace rt f offset args
  match place.bind (← get).heap.cell? with
  | some c => pure c.load
  | none => Run.fault (missingField f)

/- Write a field. -/
def runFieldSet
    (rt : Runtime)
    (f : Field)
    (offset : Nat)
    (args : List Value) : Run Value := do
  let (v, rest) := splitLast args
  match ← fieldPlace rt f offset rest with
  | none => Run.fault (missingField f)
  | some r =>
      match (← get).heap.cell? r with
      | none => Run.fault (missingField f)
      | some _ =>
          modify (fun s => { s with heap := s.heap.storeCell r v })
          pure .void

/-
  Run the filters of arguments from position `i` on.  While a
  filter runs, the arguments of the other positions are held.
-/
def runFilters
    (enter : Enter)
    (sig : Signature)
    (i : Nat)
    (filters : List (Option Target))
    (args : List Value) : Run (List Value) :=
  match filters with
  | [] => pure args
  | none :: fs => runFilters enter sig (i + 1) fs args
  | some f :: fs => do
      match args[i]? with
      | none => Run.fault (.tooFew sig (i + 1))
      | some v =>
          let others := rootsOf (args.set i .null)
          let w ← Run.holding others (enter f [v])
          runFilters enter sig (i + 1) fs (args.set i w)

/- Collect the last arguments into a new array. -/
def collectArgs
    (sig : Signature)
    (component : Ty)
    (count : Nat)
    (args : List Value) : Run (List Value) := do
  if args.length < count then Run.fault (.tooFew sig count)
  else
    let start := args.length - count
    let o ← Run.newArray component (args.drop start)
    pure (args.take start ++ [.ref o])

/- Replace the last argument, an array, by its elements. -/
def spreadArgs
    (sig : Signature)
    (count : Nat)
    (args : List Value) : Run (List Value) := do
  match args.getLast? with
  | none => Run.fault (.tooFew sig 1)
  | some .null =>
      if count = 0 then pure args.dropLast
      else
        Run.fault
          (.illegalArgument
            ("null array cannot supply " ++ toString count ++
              " spread arguments"))
  | some (.ref o) =>
      match (← get).heap.elements? o with
      | none =>
          Run.fault (.castError o.type.text (.array .object))
      | some vs =>
          if vs.length = count then pure (args.dropLast ++ vs)
          else
            Run.fault
              (.illegalArgument
                ("array of length " ++ toString vs.length ++
                  " cannot supply " ++ toString count ++
                  " spread arguments"))
  | some v => Run.fault (.typeMismatch "an array" v.typeText)

/- The arguments at given positions. -/
def permuteArgs
    (sig : Signature)
    (args : List Value) : List Nat → Run (List Value)
| [] => pure []
| i :: is => do
    match args[i]? with
    | none => Run.fault (.tooFew sig (i + 1))
    | some v =>
        let vs ← permuteArgs sig args is
        pure (v :: vs)

/- Insert constants at a position. -/
def insertArgs
    (pos : Nat)
    (values args : List Value) : Run (List Value) :=
  if pos ≤ args.length
  then pure (args.take pos ++ values ++ args.drop pos)
  else throw .outside

/- Leave out arguments from a position on. -/
def dropArgs
    (pos count : Nat)
    (args : List Value) : Run (List Value) :=
  if pos + count ≤ args.length
  then pure (args.take pos ++ args.drop (pos + count))
  else throw .outside

/-
  Call a combiner, then a target with its result in front.
  The arguments are held while the combiner runs.
-/
def runFold
    (enter : Enter)
    (sig : Signature)
    (t combiner : Target)
    (args : List Value) : Run Value := do
  let first ← leadingArgs sig combiner.count args
  let v ← Run.holding (rootsOf args) (enter combiner first)
  if combiner.ret.IsVoid
  then enter t args
  else enter t (v :: args)

/-
  Call a test, then the target that it selects.  The arguments
  are held while the test runs.
-/
def runGuard
    (enter : Enter)
    (test yes no : Target)
    (sig : Signature)
    (args : List Value) : Run Value := do
  let first ← leadingArgs sig test.count args
  match ← Run.holding (rootsOf args) (enter test first) with
  | .prim (.boolean true) => enter yes args
  | .prim (.boolean false) => enter no args
  | v => Run.fault (.typeMismatch "boolean" v.typeText)

/-
  Call a target, and a handler if it fails in a given way.  The
  arguments of the handler are held while the target runs, and
  what was thrown while the handler runs.
-/
def runRescue
    (rt : Runtime)
    (enter : Enter)
    (sig : Signature)
    (t : Target)
    (caught : ClassName)
    (handler : Target)
    (args : List Value) : Run Value := do
  let first ← leadingArgs sig (handler.count - 1) args
  fun s =>
    match Run.holding (rootsOf first) (enter t args) s with
    | .error (.fault f) s' =>
        if f.isInstance rt.classes caught then
          Run.holding f.roots
            (do
              let o ← Run.throwable f
              enter handler (.ref o :: first)) s'
        else .error (.fault f) s'
    | r => r

/- Call the current target of a call site. -/
def runSite
    (enter : Enter)
    (i : SiteId)
    (args : List Value) : Run Value := do
  match (← get).site? i with
  | some x => Run.holding [.target x.target] (enter x.target args)
  | none => throw .unfinished

/- Throw the first argument. -/
def runThrow (args : List Value) : Run Value :=
  match args.head? with
  | some (.ref o) => Run.fault (.thrown o)
  | _ => Run.fault (.nullReference "thrown exception is null")

/- Read an element of an array. -/
def runArrayGet (args : List Value) : Run Value := do
  let (_, vs, i) ← elementOf args
  match vs[i]? with
  | some v => pure v
  | none => Run.fault (.arrayIndex i vs.length)

/-
  Write an element of an array.  The value must be one of the
  component type that the array has at run time.
-/
def runArraySet
    (rt : Runtime)
    (args : List Value) : Run Value := do
  let (v, rest) := splitLast args
  let (o, _, i) ← elementOf rest
  let component := o.component?.getD .object
  if v.conforms rt.classes component then
    modify
      (fun s => { s with heap := s.heap.setElement o i v })
    pure .void
  else Run.fault (.arrayStore v.typeText component)

/- The length of an array, at most the greatest `int`. -/
def runArrayLength (args : List Value) : Run Value := do
  let (_, vs) ← arrayOf args
  pure
    (.prim (.int
      (Int32.ofInt (min vs.length Int32.maxValue.toInt))))

/- Invoke the first argument with the others. -/
def runInvoker
    (rt : Runtime)
    (enter : Enter)
    (whole : Signature)
    (exact : Bool)
    (sig : Signature)
    (args : List Value) : Run Value := do
  match args with
  | [] => Run.fault (.tooFew whole 1)
  | .ref o :: rest =>
      match (← get).heap.handle? o with
      | none => Run.fault (.castError o.type.text .methodHandle)
      | some t =>
          Run.holding [.target t]
            (if exact
            then t.invokeExactTyped rt enter sig rest
            else t.invokeTyped rt enter sig rest)
  | _ =>
      Run.fault (.nullReference "invoked call target is null")

/- What a node does with its arguments. -/
def Target.behave
    (rt : Runtime)
    (enter : Enter)
    (t : Target)
    (args : List Value) : Run Value :=
  let sig := t.signature
  match t.form with
  | .direct m how entry => runDirect rt m how entry args
  | .virtual m slot => runVirtual rt m slot args
  | .interface m slot => runInterface rt m slot args
  | .fieldGet f offset => runFieldGet rt f offset args
  | .fieldSet f offset => runFieldSet rt f offset args
  | .bound u v => enter u (v :: args)
  | .convertArguments u cs => do
      enter u (← Run.onHeap (applyAll rt.classes cs args))
  | .convertReturn u c => do
      let v ← enter u args
      Run.onHeap (c.apply rt.classes v)
  | .filterReturn u f => do
      let v ← enter u args
      enter f (if u.ret.IsVoid then [] else [v])
  | .filterArguments u pos fs => do
      enter u (← runFilters enter sig pos fs args)
  | .collect u component count => do
      enter u (← collectArgs sig component count args)
  | .spread u count => do
      enter u (← spreadArgs sig count args)
  | .permute u order => do
      let vs ← permuteArgs sig args order
      Run.holding (rootsOf args) (enter u vs)
  | .insert u pos vs => do
      enter u (← insertArgs pos vs args)
  | .drop u pos count => do
      enter u (← dropArgs pos count args)
  | .fold u c => runFold enter sig u c args
  | .guard c yes no => runGuard enter c yes no sig args
  | .rescue u n h => runRescue rt enter sig u n h args
  | .varargs u _ => enter u args
  | .site i => runSite enter i args
  | .constant v => pure v
  | .identity =>
      match args.head? with
      | some v => pure v
      | none => Run.fault (.tooFew sig 1)
  | .throw => runThrow args
  | .arrayGet => runArrayGet args
  | .arraySet => runArraySet rt args
  | .arrayLength => runArrayLength args
  | .invoker exact s => runInvoker rt enter sig exact s args
  | .unlinked =>
      Run.fault
        (.illegalState
          ("call site of type " ++ sig.text ++ " has no target"))

------------------------------------------------------------
-- Stubs
------------------------------------------------------------

/- A stub is entered with a wrong number of arguments. -/
def wrongCount
    (stub : Stub)
    (args : List Value) : Fault :=
  .typeMismatch
    (toString stub.arity ++ " arguments for stub " ++ stub.key.text)
    (toString args.length ++ " arguments")

/-
  Enter a target through a stub.  The entry is traced before
  the arguments are counted.
-/
def enterStub
    (rt : Runtime) : Nat → Stub → Enter
| 0, _, _, _ => throw .unfinished
| n + 1, stub, t, args => do
    modify (fun s => s.log (.entered t args))
    if args.length = stub.arity then
      t.behave rt (fun u => enterStub rt n u.stub u) args
    else Run.fault (wrongCount stub args)

/- Enter a target through its own stub. -/
def Target.enter
    (rt : Runtime)
    (fuel : Nat) : Enter :=
  fun t => enterStub rt fuel t.stub t

/- Run a target without entering its stub. -/
def Target.interpret
    (rt : Runtime)
    (fuel : Nat) : Enter :=
  fun t => t.behave rt (Target.enter rt fuel)

end Linkage
