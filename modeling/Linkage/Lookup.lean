import Linkage.Access
import Linkage.Adapter

/-
  Lookups: symbolic references in, checked targets out.  A
  lookup acts on behalf of a class and within its modes.  The
  host resolves a member, the table of member access decides
  on it, and the host may refuse it still.

  Key definitions include:
    * `Lookup`
    * `Lookup.inClass`
    * `Lookup.publicLookup`
    * `Lookup.checkAccess`
    * `Lookup.receiverType`
    * `Lookup.findStatic`
    * `Lookup.findVirtual`
    * `Lookup.findSpecial`
    * `Lookup.findConstructor`
    * `Lookup.findField`
    * `Lookup.bind`
-/

------------------------------------------------------------
-- Lookups
------------------------------------------------------------

namespace Linkage

/- The name under which constructors are resolved. -/
def constructorName : String := "<init>"

/- A class on whose behalf to look up, and its modes. -/
structure Lookup where
  cls : ClassName
  modes : Modes
deriving DecidableEq, Repr

namespace Lookup

/- The lookup that may reach all that its class may. -/
def full (n : ClassName) : Lookup :=
  ⟨n, .all⟩

/- A lookup of public members of public classes. -/
def publicLookup : Lookup :=
  ⟨.object, .publicOnly⟩

/- The lookup moved to another class. -/
def inClass
    (T : ClassTable)
    (l : Lookup)
    (n : ClassName) : Lookup :=
  ⟨n, narrowModes T l.cls n l.modes⟩

/- A lookup in words. -/
def text (l : Lookup) : String :=
  "Lookup \x7b lookup_class: ClassName(" ++ l.cls.text ++
    "), modes: " ++ toString l.modes.word.toNat ++ ", .. \x7d"

------------------------------------------------------------
-- Access
------------------------------------------------------------

/- Refuse a member for a reason. -/
def refuse
    {α : Type}
    (l : Lookup)
    (owner : ClassName)
    (member reason : String) : Link α :=
  throw (.illegalAccess owner member l.cls reason)

/- An answer of the host, whose errors are passed on. -/
def ofHost
    {α : Type} : Except LinkError α → Link α
| .ok a => pure a
| .error e => throw e

/-
  The table of member access must grant a member, and then
  the host must allow it.
-/
def checkAccess
    (rt : Runtime)
    (l : Lookup)
    (defining reference : ClassName)
    (flags : Flags)
    (member : String) : Link Unit :=
  match
    checkMember rt.classes l.cls l.modes defining reference flags
  with
  | .error d => l.refuse reference member d.reason
  | .ok () => ofHost (rt.host.check defining reference flags l.cls)

/- The class that a method is called on. -/
def receiverType
    (rt : Runtime)
    (l : Lookup)
    (owner : ClassName)
    (m : Method) : Ty :=
  if m.flags.has .isProtected &&
    !decide (m.declaring.SamePackage l.cls) &&
    rt.classes.isSubclass l.cls owner
  then .cls l.cls
  else .cls owner

/- The host resolves a method. -/
def resolve
    (rt : Runtime)
    (l : Lookup)
    (owner : ClassName)
    (name : String)
    (sig : Signature)
    (how : MethodKind) : Link Method :=
  ofHost (rt.host.resolveMethod owner name sig how l.cls)

/- The fixed address of a method. -/
def addressOf (m : Method) : Link Code :=
  match m.slot with
  | .address c => pure c
  | slot =>
      Link.misuse (.methodSlot m.declaring m.name slot)

/-
  A method of a variable number of arguments collects its
  trailing ones, if its last parameter is an array.
-/
def withVarargs
    (rt : Runtime)
    (t : Target)
    (flags : Flags) : Link Target :=
  match t.params.getLast? with
  | some last =>
      if flags.has .isVarargs && last.IsArray
      then t.asVarargsCollector rt last
      else pure t
  | none => pure t

------------------------------------------------------------
-- Methods
------------------------------------------------------------

/- A static method. -/
def findStatic
    (rt : Runtime)
    (l : Lookup)
    (owner : ClassName)
    (name : String)
    (sig : Signature) : Link Target := do
  let m ← l.resolve rt owner name sig .isStatic
  if !m.flags.has .isStatic then
    l.refuse owner name "expected a static method"
  else
    l.checkAccess rt m.declaring owner m.flags name
    let entry ← addressOf m
    let t ←
      Target.build rt m.signature (.direct m .isStatic entry)
    withVarargs rt t m.flags

/- How methods of a class are called. -/
def instanceKind
    (rt : Runtime)
    (owner : ClassName) : MethodKind :=
  if rt.classes.isInterface owner then .isInterface else .isVirtual

/- The form of a call of an instance method. -/
def instanceForm
    (m : Method)
    (how : MethodKind) : Link (Form Target) :=
  match m.slot with
  | .address c => pure (.direct m how c)
  | .virtualTable n => pure (.virtual m n)
  | .interfaceTable n => pure (.interface m n)
  | slot => Link.misuse (.methodSlot m.declaring m.name slot)

/- An instance method, selected by the class of the receiver. -/
def findVirtual
    (rt : Runtime)
    (l : Lookup)
    (owner : ClassName)
    (name : String)
    (sig : Signature) : Link Target := do
  let how := instanceKind rt owner
  let m ← l.resolve rt owner name sig how
  if m.flags.has .isStatic then
    l.refuse owner name "expected an instance method"
  else
    l.checkAccess rt m.declaring owner m.flags name
    let whole ←
      Link.ofSignature
        (m.signature.insertParams 0 [l.receiverType rt owner m])
    let form ← instanceForm m how
    let t ← Target.build rt whole form
    withVarargs rt t m.flags

/- The code of a method itself, whatever overrides it. -/
def specialEntry
    (rt : Runtime)
    (m : Method) : Link Code :=
  let found (c : Option Code) : Link Code :=
    match c with
    | some c => pure c
    | none => Link.misuse (.specialAbstract m.declaring m.name)
  match m.slot with
  | .address c => pure c
  | .virtualTable n =>
      found (rt.host.virtualEntry (.cls m.declaring) n)
  | .interfaceTable n =>
      found
        (rt.host.interfaceEntry (.cls m.declaring) m.declaring n)
  | slot => Link.misuse (.methodSlot m.declaring m.name slot)

/- An instance method called without selection. -/
def findSpecial
    (rt : Runtime)
    (l : Lookup)
    (owner : ClassName)
    (name : String)
    (sig : Signature)
    (caller : ClassName) : Link Target := do
  if caller ≠ l.cls || !l.modes.has .privateAccess then
    l.refuse owner name
      "special calls need private access to the calling class"
  else if !rt.classes.isSubclass caller owner then
    l.refuse owner name "caller is not a subclass of the owner"
  else
    let m ← l.resolve rt owner name sig .isSpecial
    if m.flags.has .isStatic then
      l.refuse owner name "expected an instance method"
    else
      l.checkAccess rt m.declaring owner m.flags name
      let entry ← specialEntry rt m
      let whole ←
        Link.ofSignature (m.signature.insertParams 0 [.cls caller])
      let t ←
        Target.build rt whole (.direct m .isSpecial entry)
      withVarargs rt t m.flags

/- A class of which there are no instances of its own. -/
def isAbstract
    (T : ClassTable)
    (n : ClassName) : Bool :=
  match T.find? n with
  | some c => c.flags.has .isAbstract || c.flags.has .isInterface
  | none => false

/- A new instance, on which a constructor is run. -/
def findConstructor
    (rt : Runtime)
    (l : Lookup)
    (owner : ClassName)
    (sig : Signature) : Link Target := do
  if !sig.ret.IsVoid then Link.mismatch none sig.ret .void
  else if isAbstract rt.classes owner then
    l.refuse owner constructorName "class is abstract"
  else
    let m ← l.resolve rt owner constructorName sig .isConstructor
    l.checkAccess rt m.declaring owner m.flags constructorName
    let entry ← addressOf m
    let t ←
      Target.build rt (m.signature.withRet (.cls owner))
        (.direct m .isConstructor entry)
    withVarargs rt t m.flags

------------------------------------------------------------
-- Fields
------------------------------------------------------------

/- The signature of reading or writing a field. -/
def fieldSignature
    (owner : ClassName)
    (t : Ty)
    (isStatic setter : Bool) : Except SignatureError Signature :=
  match isStatic, setter with
  | false, false => Signature.build t [.cls owner]
  | false, true => Signature.build .void [.cls owner, t]
  | true, false => Signature.build t []
  | true, true => Signature.build .void [t]

/- The offset of a field. -/
def offsetOf
    (owner : ClassName)
    (name : String)
    (f : Field) : Link Nat :=
  match f.slot with
  | .fieldOffset n => pure n
  | slot => Link.misuse (.fieldSlot owner name slot)

/- A field, to be read or written. -/
def findField
    (rt : Runtime)
    (l : Lookup)
    (owner : ClassName)
    (name : String)
    (t : Ty)
    (isStatic setter : Bool) : Link Target := do
  let f ← ofHost (rt.host.resolveField owner name t l.cls)
  if f.flags.has .isStatic ≠ isStatic then
    l.refuse owner name
      (if isStatic
      then "expected a static field"
      else "expected an instance field")
  else if setter && f.flags.has .isFinal then
    l.refuse owner name "field is final"
  else
    l.checkAccess rt f.declaring owner f.flags name
    let offset ← offsetOf owner name f
    let sig ←
      Link.ofSignature
        (fieldSignature owner f.type isStatic setter)
    Target.build rt sig
      (if setter then .fieldSet f offset else .fieldGet f offset)

/- An instance field, to be read. -/
def findGetter
    (rt : Runtime)
    (l : Lookup)
    (owner : ClassName)
    (name : String)
    (t : Ty) : Link Target :=
  l.findField rt owner name t false false

/- An instance field, to be written. -/
def findSetter
    (rt : Runtime)
    (l : Lookup)
    (owner : ClassName)
    (name : String)
    (t : Ty) : Link Target :=
  l.findField rt owner name t false true

/- A static field, to be read. -/
def findStaticGetter
    (rt : Runtime)
    (l : Lookup)
    (owner : ClassName)
    (name : String)
    (t : Ty) : Link Target :=
  l.findField rt owner name t true false

/- A static field, to be written. -/
def findStaticSetter
    (rt : Runtime)
    (l : Lookup)
    (owner : ClassName)
    (name : String)
    (t : Ty) : Link Target :=
  l.findField rt owner name t true true

------------------------------------------------------------
-- Bound methods
------------------------------------------------------------

/- A method of the class of a receiver, bound to it. -/
def bind
    (rt : Runtime)
    (l : Lookup)
    (receiver : Value)
    (name : String)
    (sig : Signature) : Link Target := do
  match receiver.type? with
  | none => Link.misuse .bindNullReceiver
  | some (.cls n) =>
      let t ← l.findVirtual rt n name sig
      let bound ← t.asFixedArity.bindTo rt receiver
      if t.isVarargs then
        match bound.params.getLast? with
        | some last => bound.asVarargsCollector rt last
        | none => pure bound
      else pure bound
  | some other => Link.misuse (.bindReceiverType other)

end Lookup

end Linkage
