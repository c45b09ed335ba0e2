import Linkage.Lookup

/-
  Worlds: small hosts that are declared class by class and
  member by member.  Methods that can be overridden live in
  table slots, and one that has the name and the signature of
  an inherited one takes its slot; instances hold the fields
  of their superclasses first.

  Key definitions include:
    * `Body`
    * `World`
    * `World.addMethod`
    * `World.addConstructor`
    * `ClassTable.superclasses?`
    * `World.layout?`
    * `World.addField`
    * `World.dispatch`
    * `World.runBody`
    * `World.host`
    * `World.staticHeap`
-/

------------------------------------------------------------
-- Superclass chains
------------------------------------------------------------

namespace Linkage

/-
  A class and its superclasses up to one without a superclass
  or without an entry.  A chain that comes back to a class
  never ends, and gives nothing.
-/
def ClassTable.superclassesFrom?
    (T : ClassTable)
    (seen : List ClassName)
    (n : ClassName) : Option (List ClassName) :=
  if _hs : n ∈ seen then none
  else
    match _h : T.find? n with
    | none => some [n]
    | some c =>
        match c.superclass with
        | none => some [n]
        | some m =>
            (T.superclassesFrom? (n :: seen) m).map (n :: ·)
termination_by (T.unvisited seen).length
decreasing_by
  exact T.unvisited_cons_lt n seen (by simp [_h]) _hs

/- The chain of superclasses of a class, if it ends. -/
def ClassTable.superclasses?
    (T : ClassTable)
    (n : ClassName) : Option (List ClassName) :=
  T.superclassesFrom? [] n

------------------------------------------------------------
-- Bodies
------------------------------------------------------------

/- What a method of a world does. -/
inductive Body where
| const (v : Value)
| arg (i : Nat)
| add
| sub
| neg
| div
| isPositive
| throw (n : ClassName) (message : Option String)
| rethrow
| message
| fail (f : Fault)
| setFields (pairs : List (Nat × Nat))
| getField (offset : Nat)
| arrayLength
| setElement (i arg : Nat)
deriving DecidableEq, Repr

namespace Body

/- The short name of what a body does. -/
def name : Body → String
| const _ => "const"
| arg _ => "arg"
| add => "iadd"
| sub => "isub"
| neg => "ineg"
| div => "idiv"
| isPositive => "ipos"
| throw _ _ => "throw"
| rethrow => "rethrow"
| message => "message"
| fail _ => "fail"
| setFields _ => "setf"
| getField _ => "getf"
| arrayLength => "alen"
| setElement _ _ => "aset"

/- The values that a body keeps from call to call. -/
def constants : Body → List Value
| const v => [v]
| _ => []

/- A body cannot work with the arguments it was given. -/
def unfit (b : Body) : Fault :=
  .illegalState ("body " ++ b.name)

/- An argument that is an `int`. -/
def int?
    (args : List Value)
    (i : Nat) : Option Int32 :=
  match args[i]? with
  | some (.prim (.int n)) => some n
  | _ => none

/- An argument that is an object. -/
def object?
    (args : List Value)
    (i : Nat) : Option Obj :=
  match args[i]? with
  | some (.ref o) => some o
  | _ => none

/- The result of an operation on the first two arguments. -/
def binary
    (b : Body)
    (args : List Value)
    (f : Int32 → Int32 → Int32) : Except Fault Value :=
  match int? args 0, int? args 1 with
  | some x, some y => .ok (.prim (.int (f x y)))
  | _, _ => .error b.unfit

/- The result of an operation on the first argument. -/
def unary
    (b : Body)
    (args : List Value)
    (f : Int32 → Prim) : Except Fault Value :=
  match int? args 0 with
  | some x => .ok (.prim (f x))
  | none => .error b.unfit

/- Throw a new object. -/
def throwNew
    (n : ClassName)
    (message : Option String)
    (h : Heap) : Except Fault Value × Heap :=
  let (o, h') := h.allocThrowable n message
  (.error (.thrown o), h')

/-
  Store arguments into fields of an object one by one, up to
  the first that cannot be stored.
-/
def storeFields
    (b : Body)
    (o : Obj)
    (args : List Value) :
    List (Nat × Nat) → Heap → Except Fault Value × Heap
| [], h => (.ok .void, h)
| (offset, i) :: rest, h =>
    match Heap.fieldRef o offset, h.field? o offset, args[i]? with
    | some r, some _, some v =>
        storeFields b o args rest (h.storeCell r v)
    | _, _, _ => (.error b.unfit, h)

/- Run a body. -/
def run
    (b : Body)
    (args : List Value)
    (h : Heap) : Except Fault Value × Heap :=
  let unfit : Except Fault Value × Heap := (.error b.unfit, h)
  match b with
  | const v => (.ok v, h)
  | arg i =>
      match args[i]? with
      | some v => (.ok v, h)
      | none => unfit
  | add => (b.binary args (· + ·), h)
  | sub => (b.binary args (· - ·), h)
  | neg => (b.unary args (fun x => .int (-x)), h)
  | div =>
      match int? args 1 with
      | some 0 =>
          if (int? args 0).isSome then
            throwNew ⟨"java.lang.ArithmeticException"⟩
              (some "/ by zero") h
          else unfit
      | _ => (b.binary args (· / ·), h)
  | isPositive =>
      (b.unary args (fun x => .boolean (decide (0 < x))), h)
  | throw n m => throwNew n m h
  | rethrow =>
      match object? args 0 with
      | some o => (.error (.thrown o), h)
      | none => unfit
  | message =>
      match object? args 0 with
      | none => unfit
      | some o =>
          match o.message? with
          | some m =>
              let (t, h') := h.allocText m
              (.ok (.ref t), h')
          | none => (.ok .null, h)
  | fail f => (.error f, h)
  | setFields pairs =>
      match object? args 0 with
      | some o => b.storeFields o args pairs h
      | none => unfit
  | getField offset =>
      match (object? args 0).bind (h.field? · offset) with
      | some c => (.ok c.load, h)
      | none => unfit
  | arrayLength =>
      match (object? args 0).bind h.elements? with
      | some vs => (.ok (.prim (.int (.ofNat vs.length))), h)
      | none => unfit
  | setElement i j =>
      match object? args 0, args[j]? with
      | some o, some v =>
          match h.elements? o with
          | some _ => (.ok .void, h.setElement o i v)
          | none => unfit
      | _, _ => unfit

end Body

------------------------------------------------------------
-- Worlds
------------------------------------------------------------

/-
  A world.  Fields are laid out per class; `overrides` puts
  members at other places than they were declared at.
-/
structure World where
  classes : ClassTable
  methods : List Method
  bodies : List (String × Body)
  implementations : List ((ClassName × Nat) × Code)
  lastSlot : Nat
  fields : List Field
  layouts : List (ClassName × List Ty)
  statics : List (ClassName × List Ty)
  denied : List ClassName
  overrides : List ((ClassName × String) × Slot)

namespace World

/- The world that has the well-known classes only. -/
def initial (T : ClassTable) : World :=
  ⟨T, [], [], [], 0, [], [], [], [], []⟩

/- The entry of a class, or the empty one. -/
def entryOf
    (n : ClassName)
    (es : List (ClassName × List Ty)) : List Ty :=
  (es.lookup n).getD []

/- Add a type at the end of the entry of a class. -/
def appendTo
    (n : ClassName)
    (t : Ty) :
    List (ClassName × List Ty) → List (ClassName × List Ty)
| [] => [(n, [t])]
| (m, ts) :: es =>
    if m = n then (m, ts ++ [t]) :: es
    else (m, ts) :: appendTo n t es

------------------------------------------------------------
-- Declaring methods
------------------------------------------------------------

/- The index of a table slot. -/
def tableIndex? : Slot → Option Nat
| .virtualTable n => some n
| .interfaceTable n => some n
| _ => none

/- The first table slot of a method of a class. -/
def slotIn?
    (w : World)
    (name : String)
    (sig : Signature)
    (n : ClassName) : Option Nat :=
  w.methods.findSome?
    (fun m =>
      if m.declaring = n && m.name = name && m.signature = sig
      then tableIndex? m.slot
      else none)

/- The table slot that a method inherits. -/
def inheritedSlot?
    (w : World)
    (owner : ClassName)
    (name : String)
    (sig : Signature) : Option Nat :=
  ((w.classes.supertypes owner).drop 1).findSome?
    (w.slotIn? name sig)

/- Add a body under the next address. -/
def pushBody
    (w : World)
    (name : String)
    (b : Body) : Code × World :=
  (⟨w.bodies.length⟩,
    { w with bodies := w.bodies ++ [(name, b)] })

/- Methods of these flags are called at a fixed address. -/
def isFixed (flags : Flags) : Bool :=
  flags.has .isStatic || flags.has .isPrivate || flags.has .isFinal

/- The table slot of a method, and the world that has it. -/
def takeSlot
    (w : World)
    (owner : ClassName)
    (name : String)
    (sig : Signature) : Nat × World :=
  match w.inheritedSlot? owner name sig with
  | some n => (n, w)
  | none =>
      (w.lastSlot + 1, { w with lastSlot := w.lastSlot + 1 })

/- Let a class run code in a table slot. -/
def implement
    (w : World)
    (owner : ClassName)
    (slot : Nat) : Option Code → World
| some c =>
    { w with
      implementations := ((owner, slot), c) :: w.implementations }
| none => w

/- A table slot as its class shows it. -/
def tableSlot
    (w : World)
    (owner : ClassName)
    (n : Nat) : Slot :=
  if w.classes.isInterface owner
  then .interfaceTable n
  else .virtualTable n

/-
  Declare a method.  One without a body is abstract; at a
  fixed address there is none.
-/
def addMethod
    (w : World)
    (owner : ClassName)
    (name : String)
    (sig : Signature)
    (flags : Flags)
    (body : Option Body) : Option World :=
  let (code, w) : Option Code × World :=
    match body with
    | some b =>
        let (c, w') := w.pushBody name b
        (some c, w')
    | none => (none, w)
  if isFixed flags then
    match code with
    | none => none
    | some c =>
        some
          { w with
            methods :=
              w.methods ++
                [⟨owner, name, sig, flags, .address c⟩] }
  else
    let (n, w) := w.takeSlot owner name sig
    let w := w.implement owner n code
    let flags :=
      if code.isNone then flags.set .isAbstract else flags
    some
      { w with
        methods :=
          w.methods ++
            [⟨owner, name, sig, flags, w.tableSlot owner n⟩] }

/- Declare a public constructor. -/
def addConstructor
    (w : World)
    (owner : ClassName)
    (sig : Signature)
    (body : Body) : World :=
  let (c, w) := w.pushBody constructorName body
  { w with
    methods :=
      w.methods ++
        [⟨owner, constructorName, sig.withRet .void,
          .ofList [.isPublic], .address c⟩] }

------------------------------------------------------------
-- Declaring fields
------------------------------------------------------------

/-
  The types of the cells of an instance: those of the last
  superclass first.
-/
def layout?
    (w : World)
    (n : ClassName) : Option (List Ty) :=
  (w.classes.superclasses? n).map
    (fun chain =>
      chain.reverse.flatMap (entryOf · w.layouts))

/- Add a field at an offset. -/
def pushField
    (w : World)
    (owner : ClassName)
    (name : String)
    (t : Ty)
    (flags : Flags)
    (offset : Nat) : World :=
  { w with
    fields :=
      w.fields ++ [⟨owner, name, t, flags, .fieldOffset offset⟩] }

/-
  Declare a field.  A static one is stored with its class, an
  instance one after all fields declared so far.
-/
def addField
    (w : World)
    (owner : ClassName)
    (name : String)
    (t : Ty)
    (flags : Flags) : Option World :=
  if flags.has .isStatic then
    let offset := (entryOf owner w.statics).length
    some
      ({ w with statics := appendTo owner t w.statics }.pushField
        owner name t flags offset)
  else
    (w.layout? owner).map
      (fun before =>
        { w with layouts := appendTo owner t w.layouts }.pushField
          owner name t flags before.length)

/- Refuse every access to members of a class. -/
def deny
    (w : World)
    (n : ClassName) : World :=
  { w with denied := n :: w.denied }

/- Put the members of a name at another place. -/
def relocate
    (w : World)
    (owner : ClassName)
    (name : String)
    (slot : Slot) : World :=
  { w with overrides := ((owner, name), slot) :: w.overrides }

------------------------------------------------------------
-- Worlds as hosts
------------------------------------------------------------

/- The code that a class runs in a table slot. -/
def dispatch
    (w : World)
    (receiver : Ty)
    (slot : Nat) : Option Code :=
  let n := receiver.class?.getD .object
  (w.classes.supertypes n).findSome?
    (fun m => w.implementations.lookup (m, slot))

/- The place of a member. -/
def placeOf
    (w : World)
    (declaring : ClassName)
    (name : String)
    (slot : Slot) : Slot :=
  (w.overrides.lookup (declaring, name)).getD slot

/- The method that a class declares. -/
def declared?
    (w : World)
    (name : String)
    (sig : Signature)
    (n : ClassName) : Option Method :=
  w.methods.find?
    (fun m => m.declaring = n && m.name = name && m.signature = sig)

/-
  The nearest method of a class.  Constructors are not
  inherited.
-/
def resolveMethod
    (w : World)
    (owner : ClassName)
    (name : String)
    (sig : Signature)
    (how : MethodKind) : Except LinkError Method :=
  let classes :=
    if how = .isConstructor then [owner]
    else w.classes.supertypes owner
  match classes.findSome? (w.declared? name sig) with
  | some m =>
      .ok { m with slot := w.placeOf m.declaring m.name m.slot }
  | none => .error (.noSuchMethod owner name sig)

/- The nearest field of a class. -/
def resolveField
    (w : World)
    (owner : ClassName)
    (name : String)
    (t : Ty) : Except LinkError Field :=
  let declared (n : ClassName) :=
    w.fields.find?
      (fun f => f.declaring = n && f.name = name && f.type = t)
  match (w.classes.supertypes owner).findSome? declared with
  | some f =>
      .ok { f with slot := w.placeOf f.declaring f.name f.slot }
  | none => .error (.noSuchField owner name)

/- Members of denied classes are refused. -/
def check
    (w : World)
    (defining reference caller : ClassName) :
    Except LinkError Unit :=
  if defining ∈ w.denied then
    .error
      (.securityViolation reference ("members of " ++ defining.text)
        (caller.text ++ " is not trusted"))
  else .ok ()

/- Run the body at an address. -/
def runBody
    (w : World)
    (c : Code)
    (args : List Value)
    (h : Heap) : Except Fault Value × Heap :=
  match w.bodies[c.index]? with
  | some (_, b) => b.run args h
  | none => (.error (.illegalState ("no code at " ++ c.text)), h)

/- A new instance of a class, if its layout can be told. -/
def allocate
    (w : World)
    (n : ClassName)
    (h : Heap) : Option (Except Fault Obj × Heap) :=
  (w.layout? n).map
    (fun fields =>
      let (o, h') := h.allocInstance n fields
      (.ok o, h'))

/- The place of a static cell; statics come first in the heap. -/
def staticCell
    (w : World)
    (owner : ClassName)
    (offset : Nat) : Option CellRef :=
  match w.statics.findIdx? (fun e => e.1 == owner) with
  | none => none
  | some i =>
      if offset < (entryOf owner w.statics).length
      then some ⟨i, offset⟩
      else none

/- A world as a host. -/
def host (w : World) : Host where
  resolveMethod := fun owner name sig how _ =>
    w.resolveMethod owner name sig how
  resolveField := fun owner name t _ => w.resolveField owner name t
  check := fun defining reference _ caller =>
    w.check defining reference caller
  call := w.runBody
  virtualEntry := w.dispatch
  interfaceEntry := fun receiver _ slot => w.dispatch receiver slot
  allocate := w.allocate
  staticCell := w.staticCell

/- The heap that holds the zeroed static fields only. -/
def staticHeap (w : World) : Heap :=
  ⟨(w.statics.map
    (fun e => Contents.cells (e.2.map Cell.new))).toArray⟩

end World

end Linkage
