import Linkage.Settings.Pattern.Style
import Linkage.Text.Hex

/-
  The smallest parts of a pattern: characters, kinds of
  characters and places in a text, written plainly or after
  a backslash.

  Key definitions include:
    * `Atom`
    * `escape`
    * `Atom.read`
    * `Atom.fits`
-/

------------------------------------------------------------
-- Escapes
------------------------------------------------------------

namespace Linkage

namespace Pattern

/- A character, a kind of characters, or a place in a text. -/
inductive Atom where
| char (c : Char)
| kind
| place
deriving DecidableEq, Repr

/- So many digits in base sixteen, with what is passed over. -/
def hexDigits (s : Style) : Nat → Reader (List Char)
| 0, cs => some ([], cs)
| n + 1, cs =>
    match s.skip cs with
    | [] => none
    | c :: cs =>
        if (hexDigit? c).isSome
        then (hexDigits s n cs).map (fun (ds, r) => (c :: ds, r))
        else none

/- A character that is given by its number. -/
def numbered
    (s : Style)
    (n : Nat) : Reader Atom :=
  fun cs =>
    match hexDigits s n cs with
    | none => none
    | some (ds, r) => (numbered? ds).map (fun c => (.char c, r))

/- A number of two digits is a byte, so in ASCII it is one. -/
def byte (s : Style) : Reader Atom :=
  fun cs =>
    match numbered s 2 cs with
    | some (.char c, r) =>
        if s.wide || c.toNat < 0x80 then some (.char c, r) else none
    | r => r

/- The control character that a letter stands for. -/
def control? : Char → Option Char
| 'a' => some '\x07'
| 'f' => some '\x0c'
| 't' => some '\t'
| 'n' => some '\n'
| 'r' => some '\r'
| 'v' => some '\x0b'
| _ => none

/-
  What stands after a backslash.  The kinds of characters and
  the borders of words are known in ASCII only; the opposite
  of such a kind goes beyond it, so there is none.
-/
def escape (s : Style) : Reader Atom
| [] => none
| 'x' :: cs => byte s cs
| 'u' :: cs => numbered s 4 cs
| 'U' :: cs => numbered s 8 cs
| c :: cs =>
    if c ∈ ['d', 's', 'w'] then
      if s.wide then none else some (.kind, cs)
    else if c ∈ ['b', 'B', '<', '>'] then
      if s.wide then none else some (.place, cs)
    else if c ∈ ['A', 'z'] then some (.place, cs)
    else if c.toNat < 0x80 && !c.isAlphanum
    then some (.char c, cs)
    else (control? c).map (fun c => (.char c, cs))

------------------------------------------------------------
-- Atoms
------------------------------------------------------------

namespace Atom

/-
  An atom outside sets.  A point stands for characters beyond
  ASCII too.
-/
def read (s : Style) : Reader Atom
| [] => none
| '\x5c' :: cs => escape s cs
| '^' :: cs => some (.place, cs)
| '$' :: cs => some (.place, cs)
| '.' :: cs => if s.wide then some (.kind, cs) else none
| c :: cs => some (.char c, cs)

/- An atom as a member of a set. -/
def readMember (s : Style) : Reader Atom
| [] => none
| '\x5c' :: cs => escape s cs
| c :: cs => some (.char c, cs)

/- An atom can be matched where it stands outside sets. -/
def fits
    (s : Style) : Atom → Bool
| char _ => !s.foldsAll
| kind => true
| place => true

/- An atom can be a member of a set. -/
def fitsSet
    (s : Style) : Atom → Bool
| char c => s.wide || c.toNat < 0x80
| kind => true
| place => false

end Atom

end Pattern

end Linkage
