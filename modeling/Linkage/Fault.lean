import Linkage.Stub.Cache
import Linkage.Member
import Linkage.Value

/-
  Errors.  A link error says why a target could not be made;
  a fault says why a call failed.  A fault can be caught: it
  has an exception class, and becomes a throwable object for
  the handler.

  Key definitions include:
    * `Misuse`
    * `LinkError`
    * `LinkError.message`
    * `Fault`
    * `Fault.message`
    * `Fault.exceptionClass`
    * `Fault.isInstance`
-/

------------------------------------------------------------
-- Link errors
------------------------------------------------------------

namespace Linkage

/- An argument of an operation that makes no sense. -/
inductive Misuse where
| bindPrimitive (first : Ty)
| bindNothing
| bindMismatch (value : String) (first : Ty)
| notAnArray (t : Ty)
| spreadTooMany (count params : Nat)
| trailingMismatch (array last : Ty)
| noTrailingArray
| filtersExceed (filters pos params : Nat)
| orderLength (order params : Nat)
| orderIndex (source : Nat) (signature : Signature)
| valuesExceed (values pos params : Nat)
| insertMismatch (value : String) (index : Nat) (t : Ty)
| branchesDiffer (thenSig elseSig : Signature)
| notThrowable (n : ClassName)
| constantVoid
| constantMismatch (value : String) (t : Ty)
| identityVoid
| constantSiteUnlinked
| constantSiteRetarget
| methodSlot (declaring : ClassName) (name : String) (slot : Slot)
| fieldSlot (owner : ClassName) (name : String) (slot : Slot)
| specialAbstract (declaring : ClassName) (name : String)
| bindReceiverType (t : Ty)
| bindNullReceiver
| other (text : String)
deriving DecidableEq

/- The wording of each misuse. -/
def Misuse.message : Misuse → String
| bindPrimitive t =>
    "cannot bind a receiver to a leading " ++ t.text ++ " parameter"
| bindNothing => "target has no leading parameter to bind"
| bindMismatch v t => "cannot bind " ++ v ++ " as " ++ t.text
| notAnArray t => t.text ++ " is not an array type"
| spreadTooMany c n =>
    "cannot spread " ++ toString c ++ " arguments into a target " ++
      "with " ++ toString n ++ " parameters"
| trailingMismatch a l =>
    a.text ++ " is not assignable to trailing parameter " ++ l.text
| noTrailingArray => "target has no trailing array parameter"
| filtersExceed f p n =>
    toString f ++ " filters at position " ++ toString p ++
      " exceed " ++ toString n ++ " parameters"
| orderLength o n =>
    "reorder list has " ++ toString o ++ " entries for " ++
      toString n ++ " target parameters"
| orderIndex i s =>
    "reorder index " ++ toString i ++ " is out of range for " ++
      s.text
| valuesExceed v p n =>
    toString v ++ " values at position " ++ toString p ++
      " exceed " ++ toString n ++ " parameters"
| insertMismatch v i t =>
    "cannot insert " ++ v ++ " as parameter " ++ toString i ++
      " of type " ++ t.text
| branchesDiffer a b =>
    "branch signatures differ: " ++ a.text ++ " and " ++ b.text
| notThrowable n => n.text ++ " is not a throwable type"
| constantVoid => "constant of type void"
| constantMismatch v t =>
    v ++ " is not a constant of type " ++ t.text
| identityVoid => "identity of type void"
| constantSiteUnlinked =>
    "a constant call site needs its target at construction"
| constantSiteRetarget =>
    "constant call sites cannot be retargeted"
| methodSlot d n s =>
    "method " ++ d.text ++ "." ++ n ++ " resolved to " ++ s.text
| fieldSlot o n s =>
    "field " ++ o.text ++ "." ++ n ++ " resolved to " ++ s.text
| specialAbstract d n =>
    "abstract method " ++ d.text ++ "." ++ n ++
      " has no code for a special call"
| bindReceiverType t =>
    "cannot bind a method to a receiver of type " ++ t.text
| bindNullReceiver => "cannot bind a method to a null receiver"
| other s => s

/- Why a target could not be made. -/
inductive LinkError where
| signature (e : SignatureError)
| illegalArgument (why : Misuse)
| noSuchMethod
    (owner : ClassName) (name : String) (signature : Signature)
| noSuchField (owner : ClassName) (name : String)
| illegalAccess
    (owner : ClassName) (member : String)
    (caller : ClassName) (reason : String)
| securityViolation
    (owner : ClassName) (member reason : String)
| typeMismatch (expected found : Signature)
| stubFailed (f : Stub.Failure)
deriving DecidableEq

/- The wording of each link error. -/
def LinkError.message : LinkError → String
| signature e => e.message
| illegalArgument w => "illegal argument: " ++ w.message
| noSuchMethod o n s =>
    "no such method: " ++ o.text ++ "." ++ n ++ s.text
| noSuchField o n => "no such field: " ++ o.text ++ "." ++ n
| illegalAccess o m c r =>
    "illegal access to " ++ o.text ++ "." ++ m ++ " from " ++
      c.text ++ ": " ++ r
| securityViolation o m r =>
    "security policy rejected access to " ++ o.text ++ "." ++ m ++
      ": " ++ r
| typeMismatch e f =>
    "target type " ++ f.text ++ " does not match call site type " ++
      e.text
| stubFailed f =>
    "failed to compile dispatch stub for " ++ f.key ++ ": " ++
      f.reason

------------------------------------------------------------
-- Faults
------------------------------------------------------------

/- Why a call failed. -/
inductive Fault where
| typeMismatch (expected found : String)
| castError (source : String) (target : Ty)
| nullReference (what : String)
| arrayIndex (index : Int) (length : Nat)
| arrayStore (value : String) (component : Ty)
| illegalArgument (text : String)
| illegalState (text : String)
| abstractMethod
    (owner : ClassName) (name receiver : String)
| thrown (o : Obj)
deriving DecidableEq, Repr

namespace Fault

/- The wording of each fault. -/
def message : Fault → String
| typeMismatch e f =>
    "expected call type " ++ e ++ ", found " ++ f
| castError s t => "cannot cast " ++ s ++ " to " ++ t.text
| nullReference w => "null reference: " ++ w
| arrayIndex i n =>
    "array index " ++ toString i ++ " out of bounds for length " ++
      toString n
| arrayStore v c =>
    "array store: " ++ v ++ " into " ++ c.text ++ "[]"
| illegalArgument s => "illegal argument: " ++ s
| illegalState s => "illegal state: " ++ s
| abstractMethod o n r =>
    "no implementation of " ++ o.text ++ "." ++ n ++
      " for receiver " ++ r
| thrown o =>
    match o.message? with
    | some m => o.type.text ++ ": " ++ m
    | none => o.type.text

/- The class of exceptions that a fault belongs to. -/
def exceptionClass : Fault → ClassName
| typeMismatch _ _ =>
    ⟨"java.lang.invoke.WrongMethodTypeException"⟩
| castError _ _ => ⟨"java.lang.ClassCastException"⟩
| nullReference _ => ⟨"java.lang.NullPointerException"⟩
| arrayIndex _ _ =>
    ⟨"java.lang.ArrayIndexOutOfBoundsException"⟩
| arrayStore _ _ => ⟨"java.lang.ArrayStoreException"⟩
| illegalArgument _ => ⟨"java.lang.IllegalArgumentException"⟩
| illegalState _ => ⟨"java.lang.IllegalStateException"⟩
| abstractMethod _ _ _ => ⟨"java.lang.AbstractMethodError"⟩
| thrown o =>
    match o.type with
    | .cls n => n
    | _ => .throwable

/- A guard for a class catches the fault. -/
def isInstance
    (T : ClassTable)
    (f : Fault)
    (n : ClassName) : Bool :=
  T.isSubclass f.exceptionClass n

/- A call type was wanted and another one found. -/
def callType
    (wanted found : Signature) : Fault :=
  typeMismatch wanted.text found.text

/- The types of given arguments in words. -/
def argumentsText (vs : List Value) : String :=
  "(" ++ ",".intercalate (vs.map Value.typeText) ++ ")"

/- A call type was wanted and other arguments found. -/
def arguments
    (wanted : Signature)
    (vs : List Value) : Fault :=
  typeMismatch wanted.text (argumentsText vs)

/- A call has fewer arguments than it needs. -/
def tooFew
    (wanted : Signature)
    (needed : Nat) : Fault :=
  typeMismatch wanted.text
    ("fewer than " ++ toString needed ++ " arguments")

end Fault

end Linkage
