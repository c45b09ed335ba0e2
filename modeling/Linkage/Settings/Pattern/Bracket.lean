import Linkage.Settings.Pattern.Atom

/-
  Sets of characters in brackets.  A set has characters,
  ranges, named classes and other sets as its items, and
  operators between its items.

  Key definitions include:
    * `joined`
    * `Bracket`
    * `Bracket.depth`
    * `Piece`
    * `Bracket.piece`
    * `Bracket.read`
-/

------------------------------------------------------------
-- Depth
------------------------------------------------------------

namespace Linkage

namespace Pattern

/-
  The depth of things that stand side by side: that of the
  only one, or one more than that of the deepest.
-/
def joined : List Nat → Nat
| [] => 0
| [d] => d
| ds => 1 + ds.foldl max 0

/-
  A set that is being read: the depth of what stands before
  its last operator, the depths of its items after that, and
  whether it has nothing but dashes yet.
-/
structure Bracket where
  before : Option Nat
  items : List Nat
  fresh : Bool
deriving DecidableEq, Repr

namespace Bracket

/- A set of which nothing was read yet. -/
def start : Bracket :=
  ⟨none, [], true⟩

/- Go on with an item. -/
def add
    (b : Bracket)
    (depth : Nat) : Bracket :=
  { b with items := depth :: b.items, fresh := false }

/- Go on with a dash at the start. -/
def addDash (b : Bracket) : Bracket :=
  { b with items := 0 :: b.items }

/- The depth of what was read. -/
def depth (b : Bracket) : Nat :=
  match b.before with
  | none => joined b.items
  | some d => 1 + max d (joined b.items)

/- Go on with an operator. -/
def operate (b : Bracket) : Bracket :=
  ⟨some b.depth, [], false⟩

end Bracket

------------------------------------------------------------
-- Pieces
------------------------------------------------------------

/-
  What comes next in a set: a dash at its start, another item
  without items of its own, the start of an inner set, an
  operator, or the end of the set.
-/
inductive Piece where
| dash
| leaf
| inner
| operator
| close
deriving DecidableEq, Repr

/- The names of classes of characters. -/
def classNames : List String :=
  ["alnum", "alpha", "ascii", "blank", "cntrl", "digit", "graph",
   "lower", "print", "punct", "space", "upper", "word", "xdigit"]

/- A named class after its bracket; a hat makes its opposite. -/
def namedClass : Reader Bool
| ':' :: cs =>
    let (opposite, cs) :=
      match cs with
      | '^' :: cs => (true, cs)
      | cs => (false, cs)
    let (name, cs) := cs.span (· ≠ ':')
    match cs with
    | ':' :: ']' :: cs =>
        if String.ofList name ∈ classNames then some (opposite, cs)
        else none
    | _ => none
| _ => none

/- What is left after a character, or after a range of them. -/
def skipRange?
    (s : Style)
    (cs : List Char) : Option (List Char) := do
  let (a, cs) ← Atom.readMember s cs
  let cs := s.skip cs
  let alone := if a.fitsSet s then some cs else none
  match cs with
  | '-' :: rest =>
      if s.peek rest = some ']' ∨ s.peek rest = some '-' then alone
      else
        let (z, rest) ← Atom.readMember s (s.skip rest)
        match a, z with
        | .char x, .char y =>
            if x ≤ y ∧ a.fitsSet s ∧ z.fitsSet s then some rest
            else none
        | _, _ => none
  | _ => alone

/-
  What is left after the bracket and the hat of a set.  The
  opposite of a set in ASCII goes beyond it.
-/
def skipHat?
    (s : Style)
    (cs : List Char) : Option (List Char) :=
  match s.skip cs with
  | '^' :: cs => if s.wide then some cs else none
  | cs => some cs

namespace Bracket

/- A leaf, unless its case would have to be passed over. -/
def leaf
    (s : Style)
    (p : Piece)
    (cs : List Char) : Option (Piece × List Char) :=
  if s.foldsAll then none else some (p, cs)

/-
  The next piece of a set.  At its start dashes are items, and
  so is a closing bracket in the very first place.
-/
def piece
    (s : Style)
    (b : Bracket) : Reader Piece :=
  fun cs =>
    match s.skip cs with
    | '[' :: cs =>
        match namedClass cs with
        | some (opposite, cs) =>
            if opposite && !s.wide then none else leaf s .leaf cs
        | none => (skipHat? s cs).map (fun cs => (.inner, cs))
    | ']' :: cs =>
        if b.fresh && b.items.isEmpty then leaf s .leaf cs
        else some (.close, cs)
    | '&' :: '&' :: cs => some (.operator, cs)
    | '~' :: '~' :: cs => some (.operator, cs)
    | '-' :: cs =>
        if b.fresh then leaf s .dash cs
        else if cs.head? = some '-' then some (.operator, cs.tail)
        else (skipRange? s ('-' :: cs)).bind (leaf s .leaf)
    | cs => (skipRange? s cs).bind (leaf s .leaf)

------------------------------------------------------------
-- Sets
------------------------------------------------------------

/-
  The rest of a set within other sets, the nearest one first,
  up to the end of the outermost: its depth.
-/
def readWithin
    (s : Style) : Nat → Bracket → List Bracket → Reader Nat
| 0, _, _, _ => none
| fuel + 1, b, outer, cs =>
    match b.piece s cs, outer with
    | none, _ => none
    | some (.dash, cs), _ => readWithin s fuel b.addDash outer cs
    | some (.leaf, cs), _ => readWithin s fuel (b.add 0) outer cs
    | some (.inner, cs), _ => readWithin s fuel start (b :: outer) cs
    | some (.operator, cs), _ => readWithin s fuel b.operate outer cs
    | some (.close, cs), [] => some (1 + b.depth, cs)
    | some (.close, cs), o :: os =>
        readWithin s fuel (o.add (1 + b.depth)) os cs

/- A set after its first bracket: its depth. -/
def read (s : Style) : Reader Nat :=
  fun cs =>
    match skipHat? s cs with
    | some cs => readWithin s (cs.length + 1) start [] cs
    | none => none

end Bracket

end Pattern

end Linkage
