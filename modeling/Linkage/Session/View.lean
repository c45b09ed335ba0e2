import Linkage.Heap

/-
  Views: values and targets as trees that can be shown.  A
  value is shown down to a fixed depth of objects.

  Key definitions include:
    * `View`
    * `maxDepth`
    * `Value.view`
    * `Tree`
    * `Target.tree`
-/

------------------------------------------------------------
-- Views of values
------------------------------------------------------------

namespace Linkage

/- What is shown of a value. -/
inductive View where
| void
| null
| prim (p : Prim)
| text (s : String)
| box (v : View)
| array (component : Ty) (vs : List View)
| throwable (n : Ty) (message : String)
| handle (signature : Signature) (kind : TargetKind)
| object (type : Ty) (fields : List View)
| deep (type : Ty)

/- The depth at which only the type of an object is shown. -/
def maxDepth : Nat := 6

/- A value down to a depth of objects. -/
def Value.viewTo
    (h : Heap) : Nat → Value → View
| _, .void => .void
| _, .null => .null
| _, .prim p => .prim p
| 0, .ref o => .deep o.type
| n + 1, .ref o =>
    match o.shape with
    | .boxed p => .box (.prim p)
    | .text s => .text s
    | .array c =>
        .array c (((h.elements? o).getD []).map (viewTo h n))
    | .throwable _ (some m) => .throwable o.type m
    | .throwable _ none => .object o.type []
    | .plain _ =>
        .object o.type
          ((h.cells o.id).map (fun c => viewTo h n c.load))
    | .handle =>
        match h.handle? o with
        | some t => .handle t.signature t.kind
        | none => .object o.type []

/- A value. -/
def Value.view
    (h : Heap)
    (v : Value) : View :=
  v.viewTo h maxDepth

------------------------------------------------------------
-- Views of targets
------------------------------------------------------------

/- A target and the trees of its delegates. -/
inductive Tree where
| node (t : Target) (children : List Tree)

/- The tree of a target. -/
def Target.tree (t : Target) : Tree :=
  .node t (t.wrapped.attach.map (fun u => u.1.tree))
termination_by sizeOf t
decreasing_by exact Target.sizeOf_lt_node u.2

end Linkage
