import Linkage.Settings.Pattern.Bracket
import Linkage.Text.Numeral

/-
  Patterns that values are matched with: atoms, sets and
  parentheses side by side, repeated and as alternatives.  A
  pattern is valid if it can be read to its end and is not
  too deep.

  Key definitions include:
    * `Nest`
    * `Draft`
    * `Draft.step`
    * `isValid`
-/

------------------------------------------------------------
-- Parentheses
------------------------------------------------------------

namespace Linkage

namespace Pattern

/-
  Parentheses that are being read: the style outside them,
  the depths of the alternatives before the one at hand, and
  the depths of the items of that, the last one first.  Flags
  have no depth, and nothing repeats them.
-/
structure Nest where
  outside : Style
  earlier : List Nat
  items : List (Option Nat)
deriving DecidableEq, Repr

namespace Nest

/- Parentheses of which nothing was read yet. -/
def start (outside : Style) : Nest :=
  ⟨outside, [], []⟩

/- Go on with an item. -/
def add
    (n : Nest)
    (item : Option Nat) : Nest :=
  { n with items := item :: n.items }

/- The depths of the alternatives, that at hand among them. -/
def alternatives (n : Nest) : List Nat :=
  joined (n.items.map (·.getD 0)) :: n.earlier

/- Go on with the next alternative. -/
def alternate (n : Nest) : Nest :=
  { n with earlier := n.alternatives, items := [] }

/- The depth of what was read. -/
def depth (n : Nest) : Nat :=
  joined n.alternatives

/- Repeat the last item. -/
def repeat? (n : Nest) : Option Nest :=
  match n.items with
  | some d :: rest => some { n with items := some (1 + d) :: rest }
  | _ => none

end Nest

/-
  What an opening parenthesis starts: flags that hold up to
  the end of the parentheses around them, or a part with a
  style of its own and perhaps a name.
-/
inductive Opening where
| flags (s : Style)
| part (s : Style) (name : Option (List Char))
deriving DecidableEq, Repr

/- A name starts with a letter or an underscore. -/
def isName : List Char → Bool
| [] => false
| c :: cs =>
    (c = '_' || isAlphabetic c) &&
      cs.all (fun c => c ∈ ['_', '.', '[', ']'] || isAlphanumeric c)

namespace Opening

/- A part with the name that stands before an angle. -/
def named (s : Style) : Reader Opening :=
  fun cs =>
    let (name, cs) := cs.span (· ≠ '>')
    match cs with
    | [] => none
    | _ :: cs =>
        if isName name then some (.part s (some name), cs) else none

/- What stands after an opening parenthesis. -/
def read (s : Style) : Reader Opening :=
  fun cs =>
    match s.skip cs with
    | '?' :: 'P' :: '<' :: cs => named s cs
    | '?' :: '<' :: cs => named s cs
    | '?' :: cs =>
        ((Flagging.start s).read cs).map
          (fun ((t, closed), cs) =>
            (if closed then .flags t else .part t none, cs))
    | cs => some (.part s none, cs)

end Opening

------------------------------------------------------------
-- Drafts
------------------------------------------------------------

/-
  A pattern that is being read: the style that holds, the
  names so far, the parentheses at hand, and those around
  them, the nearest ones first.
-/
structure Draft where
  style : Style
  names : List (List Char)
  nest : Nest
  outer : List Nest
deriving DecidableEq, Repr

namespace Draft

/- A pattern of which nothing was read yet. -/
def start : Draft :=
  ⟨.initial, [], .start .initial, []⟩

/- Go on with an item of some depth. -/
def add
    (d : Draft)
    (depth : Nat) : Draft :=
  { d with nest := d.nest.add (some depth) }

/- Go on after an opening parenthesis; names do not repeat. -/
def enter? (d : Draft) : Opening → Option Draft
| .flags s => some { d with style := s, nest := d.nest.add none }
| .part s name =>
    if name.all (· ∉ d.names) then
      some
        { style := s
          names := name.toList ++ d.names
          nest := .start d.style
          outer := d.nest :: d.outer }
    else none

/- Go on after a closing parenthesis. -/
def leave? (d : Draft) : Option Draft :=
  match d.outer with
  | [] => none
  | n :: ns =>
      some
        { d with
          style := d.nest.outside
          nest := n.add (some (1 + d.nest.depth))
          outer := ns }

/- Repeat the last item; a mark after it tells how often. -/
def repeat?
    (d : Draft)
    (cs : List Char) : Option (Draft × List Char) :=
  d.nest.repeat?.map
    (fun n =>
      ({ d with nest := n },
        match cs with
        | '?' :: cs => cs
        | cs => cs))

/-
  Go on with the next part of a pattern.  A number of
  repetitions would need braces, which never close within
  the value of a field.
-/
def step (d : Draft) : Reader Draft
| '(' :: cs => do
    let (o, cs) ← Opening.read d.style cs
    let d ← d.enter? o
    pure (d, cs)
| ')' :: cs => d.leave?.map (fun d => (d, cs))
| '|' :: cs => some ({ d with nest := d.nest.alternate }, cs)
| '[' :: cs =>
    (Bracket.read d.style cs).map (fun (n, cs) => (d.add n, cs))
| '?' :: cs => d.repeat? cs
| '*' :: cs => d.repeat? cs
| '+' :: cs => d.repeat? cs
| '{' :: _ => none
| cs =>
    match Atom.read d.style cs with
    | some (a, cs) =>
        if a.fits d.style then some (d.add 0, cs) else none
    | none => none

/- Go on to the end of the text. -/
def read : Nat → Draft → List Char → Option Draft
| 0, _, _ => none
| fuel + 1, d, cs =>
    match d.style.skip cs with
    | [] => some d
    | cs =>
        match d.step cs with
        | some (d, cs) => read fuel d cs
        | none => none

end Draft

/- The greatest depth of a pattern. -/
def depthLimit : Nat := 250

/- A text is a pattern. -/
def isValid (cs : List Char) : Bool :=
  match Draft.start.read (cs.length + 1) cs with
  | some d => d.outer.isEmpty && d.nest.depth ≤ depthLimit
  | none => false

end Pattern

end Linkage
