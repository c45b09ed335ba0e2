import Linkage.Target

/-
  The heap: what can change of each object, and the target of
  each handle.  A field of a primitive kind is kept as a bit
  pattern, so that a value of another kind that is stored
  there is read under the kind of the field.

  Key definitions include:
    * `Cell`
    * `Cell.new`
    * `Cell.load`
    * `Cell.store`
    * `Contents`
    * `Heap`
    * `Heap.alloc`
    * `Heap.cells`
    * `Heap.elements?`
    * `Heap.handle?`
    * `Heap.allocBox`
-/

------------------------------------------------------------
-- Cells
------------------------------------------------------------

namespace Linkage

/- The storage of one field. -/
inductive Cell where
| bits (kind : Kind) (word : UInt64)
| ref (value : Value)
deriving DecidableEq, Repr, Inhabited

/- The bit pattern of a value; references have none. -/
def Value.toBits : Value → UInt64
| prim p => p.toBits
| _ => 0

/- The value of a kind that a bit pattern stands for. -/
def Value.ofBits
    (k : Kind)
    (bits : UInt64) : Value :=
  match Prim.ofBits bits k with
  | some p => prim p
  | none => void

namespace Cell

/- The zeroed cell of a field of a type. -/
def new : Ty → Cell
| .prim k => bits k (Value.zeroOfKind k).toBits
| _ => ref .null

/- The value in a cell. -/
def load : Cell → Value
| bits k w => .ofBits k w
| ref v => v

/- The cell after a value is stored. -/
def store : Cell → Value → Cell
| bits k _, v => bits k v.toBits
| ref _, v => ref v

end Cell

------------------------------------------------------------
-- The heap
------------------------------------------------------------

/- What can change of an object. -/
inductive Contents where
| fixed
| cells (cs : List Cell)
| elements (vs : List Value)
| target (t : Target)

instance : Inhabited Contents := ⟨.fixed⟩

/- The place of a field cell. -/
structure CellRef where
  object : Nat
  index : Nat
deriving DecidableEq, Repr, Inhabited

/- Contents of objects, by number. -/
structure Heap where
  contents : Array Contents

namespace Heap

def empty : Heap := ⟨#[]⟩

def size (h : Heap) : Nat :=
  h.contents.size

/- The contents of an object. -/
def at?
    (h : Heap)
    (i : Nat) : Option Contents :=
  h.contents[i]?

/- Put an object of a shape into the heap. -/
def alloc
    (h : Heap)
    (s : Shape)
    (c : Contents) : Obj × Heap :=
  (⟨h.size, s⟩, ⟨h.contents.push c⟩)

/- Replace the contents of an object. -/
def set
    (h : Heap)
    (i : Nat)
    (c : Contents) : Heap :=
  ⟨h.contents.setIfInBounds i c⟩

/- The cells under a number. -/
def cells
    (h : Heap)
    (i : Nat) : List Cell :=
  match h.at? i with
  | some (.cells cs) => cs
  | _ => []

/- The cell at a place. -/
def cell?
    (h : Heap)
    (r : CellRef) : Option Cell :=
  (h.cells r.object)[r.index]?

/- Store a value into the cell at a place. -/
def storeCell
    (h : Heap)
    (r : CellRef)
    (v : Value) : Heap :=
  h.set r.object
    (.cells ((h.cells r.object).modify r.index (·.store v)))

/- The place of a field of an instance. -/
def fieldRef
    (o : Obj)
    (offset : Nat) : Option CellRef :=
  match o.shape with
  | .plain _ => some ⟨o.id, offset⟩
  | _ => none

/- The field cell of an instance. -/
def field?
    (h : Heap)
    (o : Obj)
    (offset : Nat) : Option Cell :=
  (fieldRef o offset).bind h.cell?

/- The elements of an array. -/
def elements?
    (h : Heap)
    (o : Obj) : Option (List Value) :=
  match o.shape with
  | .array _ =>
      match h.at? o.id with
      | some (.elements vs) => some vs
      | _ => some []
  | _ => none

/- Replace one element of an array. -/
def setElement
    (h : Heap)
    (o : Obj)
    (i : Nat)
    (v : Value) : Heap :=
  match h.elements? o with
  | some vs => h.set o.id (.elements (vs.set i v))
  | none => h

/- The target of a handle. -/
def handle?
    (h : Heap)
    (o : Obj) : Option Target :=
  match o.shape with
  | .handle =>
      match h.at? o.id with
      | some (.target t) => some t
      | _ => none
  | _ => none

/- A new instance of a class with zeroed fields. -/
def allocInstance
    (h : Heap)
    (n : ClassName)
    (fields : List Ty) : Obj × Heap :=
  h.alloc (.plain n) (.cells (fields.map Cell.new))

/- A new box. -/
def allocBox
    (h : Heap)
    (p : Prim) : Obj × Heap :=
  h.alloc (.boxed p) .fixed

/- A new text. -/
def allocText
    (h : Heap)
    (s : String) : Obj × Heap :=
  h.alloc (.text s) .fixed

/- A new array of given elements. -/
def allocArray
    (h : Heap)
    (component : Ty)
    (vs : List Value) : Obj × Heap :=
  h.alloc (.array component) (.elements vs)

/- A new throwable. -/
def allocThrowable
    (h : Heap)
    (n : ClassName)
    (message : Option String) : Obj × Heap :=
  h.alloc (.throwable n message) .fixed

/- A new handle of a target. -/
def allocHandle
    (h : Heap)
    (t : Target) : Obj × Heap :=
  h.alloc .handle (.target t)

end Heap

end Linkage
