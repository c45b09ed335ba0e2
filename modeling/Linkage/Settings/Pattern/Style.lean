import Linkage.Text.Blank
import Linkage.Text.Reader

/-
  How a pattern is read.  Flags in parentheses change whether
  characters beyond ASCII are matched, whether case matters,
  and whether blanks and comments stand between the parts of
  a pattern.

  Key definitions include:
    * `Style`
    * `Style.skip`
    * `Style.peek`
    * `Flagging`
    * `Flagging.read`
-/

------------------------------------------------------------
-- Styles
------------------------------------------------------------

namespace Linkage

namespace Pattern

/-
  A style of patterns: wide ones are over all characters and
  the others over ASCII; folding ones pass over case; and
  spaced ones pass over blanks and comments.
-/
structure Style where
  wide : Bool
  folding : Bool
  spaced : Bool
deriving DecidableEq, Repr

namespace Style

/- The style at the start of a pattern. -/
def initial : Style :=
  ⟨true, false, false⟩

/-
  Whether case would have to be passed over in all
  characters, for which there is no table.
-/
def foldsAll (s : Style) : Bool :=
  s.wide && s.folding

end Style

------------------------------------------------------------
-- Blanks and comments
------------------------------------------------------------

/-
  What is left after blanks, and after comments, which go up
  to the end of the line.  The first argument tells that a
  comment has begun.
-/
def skipSpace : Bool → List Char → List Char
| _, [] => []
| true, c :: cs => skipSpace (c ≠ '\n') cs
| false, c :: cs =>
    if isBlank c then skipSpace false cs
    else if c = '#' then skipSpace true cs
    else c :: cs

namespace Style

/- What is left after what the style passes over. -/
def skip
    (s : Style)
    (cs : List Char) : List Char :=
  if s.spaced then skipSpace false cs else cs

/-
  The next character after blanks.  The sign of a comment is
  passed over, but not the comment.
-/
def peek
    (s : Style)
    (cs : List Char) : Option Char :=
  if s.spaced then
    match trimStart cs with
    | '#' :: cs => (trimStart cs).head?
    | cs => cs.head?
  else cs.head?

end Style

------------------------------------------------------------
-- Flags
------------------------------------------------------------

namespace Style

/- The letters of flags. -/
def letters : List Char :=
  ['i', 'm', 's', 'U', 'u', 'R', 'x']

/- Turn a flag on or off; most have no part in reading. -/
def turn
    (s : Style)
    (letter : Char)
    (on : Bool) : Style :=
  match letter with
  | 'u' => { s with wide := on }
  | 'i' => { s with folding := on }
  | 'x' => { s with spaced := on }
  | _ => s

end Style

/-
  Flags that are being read: the style they give, the letters
  so far, whether a dash has turned to flags that are off, and
  whether that dash was the last character.
-/
structure Flagging where
  style : Style
  seen : List Char
  off : Bool
  dangling : Bool
deriving DecidableEq, Repr

namespace Flagging

/- No flag was read yet. -/
def start (s : Style) : Flagging :=
  ⟨s, [], false, false⟩

/- Go on with a letter that is new, or with the first dash. -/
def add?
    (f : Flagging)
    (c : Char) : Option Flagging :=
  if c = '-' then
    if f.off then none
    else some { f with off := true, dangling := true }
  else if c ∈ Style.letters ∧ c ∉ f.seen then
    some
      { f with
        style := f.style.turn c (!f.off)
        seen := c :: f.seen
        dangling := false }
  else none

/-
  The flags up to a colon, before which there may be none, or
  up to a closing parenthesis: the style they give, and
  whether a parenthesis ended them.
-/
def read (f : Flagging) : Reader (Style × Bool)
| [] => none
| ':' :: cs =>
    if f.dangling then none else some ((f.style, false), cs)
| ')' :: cs =>
    if f.dangling ∨ f.seen = [] then none
    else some ((f.style, true), cs)
| c :: cs =>
    match f.add? c with
    | some g => g.read cs
    | none => none

end Flagging

end Pattern

end Linkage
