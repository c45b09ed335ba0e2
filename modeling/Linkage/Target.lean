import Linkage.Conversion
import Linkage.Member
import Linkage.Stub.Cache
import Linkage.Value

/-
  Call targets: typed nodes that can be invoked.  A node has
  a signature, the dispatch stub of its canonical signature
  and a form, which says what the node does and to which
  targets it delegates.  Nodes never change; two are the same
  node if their numbers are equal.

  Key definitions include:
    * `Form`
    * `Form.targets`
    * `TargetKind`
    * `Form.kind`
    * `Target`
    * `Target.wrapped`
-/

------------------------------------------------------------
-- Forms
------------------------------------------------------------

namespace Linkage

/- The number of a call site. -/
structure SiteId where
  index : Nat
deriving DecidableEq, Repr, Inhabited

/-
  What a node does with its arguments.  Delegates are of type
  `α`.
-/
inductive Form (α : Type) where
| direct (method : Method) (how : MethodKind) (entry : Code)
| virtual (method : Method) (slot : Nat)
| interface (method : Method) (slot : Nat)
| fieldGet (field : Field) (offset : Nat)
| fieldSet (field : Field) (offset : Nat)
| bound (target : α) (receiver : Value)
| convertArguments (target : α) (conversions : List Conversion)
| convertReturn (target : α) (conversion : Conversion)
| filterReturn (target filter : α)
| filterArguments
    (target : α) (pos : Nat) (filters : List (Option α))
| collect (target : α) (component : Ty) (count : Nat)
| spread (target : α) (count : Nat)
| permute (target : α) (order : List Nat)
| insert (target : α) (pos : Nat) (values : List Value)
| drop (target : α) (pos count : Nat)
| fold (target combiner : α)
| guard (test thenTarget elseTarget : α)
| rescue (target : α) (caught : ClassName) (handler : α)
| varargs (target : α) (array : Ty)
| site (id : SiteId)
| constant (value : Value)
| identity
| throw
| arrayGet
| arraySet
| arrayLength
| invoker (exact : Bool) (signature : Signature)
| unlinked

/- The sort of a node that is shown to its users. -/
inductive TargetKind where
| directCall
| virtualCall
| interfaceCall
| fieldRead
| fieldWrite
| boundReceiver
| argumentConvert
| returnFilter
| argumentFilter
| collect
| spread
| permute
| insert
| drop
| fold
| guardedDispatch
| exceptionGuard
| varargsCollector
| dynamicCallSiteInvoker
| constant
| identity
| throw
| arrayElementGetter
| arrayElementSetter
| arrayLength
| invoker
| unlinked
deriving DecidableEq, Repr

/- The name of a sort. -/
def TargetKind.name : TargetKind → String
| directCall => "DirectCall"
| virtualCall => "VirtualCall"
| interfaceCall => "InterfaceCall"
| fieldRead => "FieldRead"
| fieldWrite => "FieldWrite"
| boundReceiver => "BoundReceiver"
| argumentConvert => "ArgumentConvert"
| returnFilter => "ReturnFilter"
| argumentFilter => "ArgumentFilter"
| collect => "Collect"
| spread => "Spread"
| permute => "Permute"
| insert => "Insert"
| drop => "Drop"
| fold => "Fold"
| guardedDispatch => "GuardedDispatch"
| exceptionGuard => "ExceptionGuard"
| varargsCollector => "VarargsCollector"
| dynamicCallSiteInvoker => "DynamicCallSiteInvoker"
| constant => "Constant"
| identity => "Identity"
| throw => "Throw"
| arrayElementGetter => "ArrayElementGetter"
| arrayElementSetter => "ArrayElementSetter"
| arrayLength => "ArrayLength"
| invoker => "Invoker"
| unlinked => "Unlinked"

namespace Form

variable {α : Type}

/-
  The sort of a form.  Filtering and converting a result are
  one sort.
-/
def kind : Form α → TargetKind
| direct _ _ _ => .directCall
| virtual _ _ => .virtualCall
| interface _ _ => .interfaceCall
| fieldGet _ _ => .fieldRead
| fieldSet _ _ => .fieldWrite
| bound _ _ => .boundReceiver
| convertArguments _ _ => .argumentConvert
| convertReturn _ _ => .returnFilter
| filterReturn _ _ => .returnFilter
| filterArguments _ _ _ => .argumentFilter
| collect _ _ _ => .collect
| spread _ _ => .spread
| permute _ _ => .permute
| insert _ _ _ => .insert
| drop _ _ _ => .drop
| fold _ _ => .fold
| guard _ _ _ => .guardedDispatch
| rescue _ _ _ => .exceptionGuard
| varargs _ _ => .varargsCollector
| site _ => .dynamicCallSiteInvoker
| constant _ => .constant
| identity => .identity
| throw => .throw
| arrayGet => .arrayElementGetter
| arraySet => .arrayElementSetter
| arrayLength => .arrayLength
| invoker _ _ => .invoker
| unlinked => .unlinked

/- The delegates of a form, in the order of invocation. -/
def targets : Form α → List α
| bound t _ => [t]
| convertArguments t _ => [t]
| convertReturn t _ => [t]
| filterReturn t f => [t, f]
| filterArguments t _ fs => t :: fs.filterMap id
| collect t _ _ => [t]
| spread t _ => [t]
| permute t _ => [t]
| insert t _ _ => [t]
| drop t _ _ => [t]
| fold t c => [c, t]
| guard c t e => [c, t, e]
| rescue t _ h => [t, h]
| varargs t _ => [t]
| _ => []

/- The values that a form holds. -/
def values : Form α → List Value
| bound _ v => [v]
| insert _ _ vs => vs
| constant v => [v]
| _ => []

/- The call sites that a form holds. -/
def sites : Form α → List SiteId
| site s => [s]
| _ => []

end Form

------------------------------------------------------------
-- Targets
------------------------------------------------------------

/- A call target. -/
inductive Target where
| node
    (id : Nat)
    (signature : Signature)
    (stub : Stub)
    (form : Form Target)

namespace Target

def id : Target → Nat
| node i _ _ _ => i

def signature : Target → Signature
| node _ s _ _ => s

def stub : Target → Stub
| node _ _ c _ => c

def form : Target → Form Target
| node _ _ _ f => f

def kind (t : Target) : TargetKind :=
  t.form.kind

def ret (t : Target) : Ty :=
  t.signature.ret

def params (t : Target) : List Ty :=
  t.signature.params

def count (t : Target) : Nat :=
  t.signature.count

/- The targets that a node delegates to. -/
def wrapped (t : Target) : List Target :=
  t.form.targets

/- A delegate is smaller than the form that holds it. -/
theorem sizeOf_lt_form
    {t : Target}
    {f : Form Target}
    (h : t ∈ f.targets) :
    sizeOf t < sizeOf f := by
  cases f with
  | filterArguments u pos fs =>
      simp only [Form.targets, List.mem_cons, List.mem_filterMap,
        id_eq] at h
      rcases h with rfl | ⟨o, ho, rfl⟩
      · simp
        omega
      · have := List.sizeOf_lt_of_mem ho
        simp at this ⊢
        omega
  | _ =>
      simp only [Form.targets, List.mem_cons, List.not_mem_nil,
        or_false] at h <;> simp <;> grind

/- A delegate is smaller than the node that holds it. -/
theorem sizeOf_lt_node
    {t u : Target}
    (h : t ∈ u.wrapped) :
    sizeOf t < sizeOf u := by
  rcases u with ⟨i, s, c, f⟩
  have := sizeOf_lt_form (f := f) h
  simp
  omega

/- Two targets are one node. -/
def same (a b : Target) : Bool :=
  a.id = b.id

def isVarargs (t : Target) : Bool :=
  match t.form with
  | .varargs _ _ => true
  | _ => false

end Target

end Linkage
