/-
  Levels of logging, from nothing to everything.

  Key definitions include:
    * `Level`
    * `Level.name`
    * `Level.ofText?`
-/

------------------------------------------------------------
-- Levels
------------------------------------------------------------

namespace Linkage

/- How much is logged; each level includes those before it. -/
inductive Level where
| off
| error
| warn
| info
| debug
| trace
deriving DecidableEq, Repr, Inhabited

namespace Level

/- The levels in the order of their numbers. -/
def all : List Level :=
  [off, error, warn, info, debug, trace]

def name : Level → String
| off => "off"
| error => "error"
| warn => "warn"
| info => "info"
| debug => "debug"
| trace => "trace"

/- The number in a text, which may have a plus before it. -/
def number? (cs : List Char) : Option Nat :=
  let ds :=
    match cs with
    | '+' :: ds => ds
    | ds => ds
  if ds ≠ [] ∧ ds.all Char.isDigit
  then
    some (ds.foldl (fun n d => 10 * n + (d.toNat - '0'.toNat)) 0)
  else none

/- The level of a name, in letters of any case. -/
def ofName? (cs : List Char) : Option Level :=
  let lower := cs.map Char.toLower
  all.find? (fun l => l.name.toList = lower)

/-
  The level that a text names, by its number or its name.  The
  empty text names the level of errors.
-/
def ofText? (cs : List Char) : Option Level :=
  match (number? cs).bind (all[·]?) with
  | some l => some l
  | none => if cs = [] then some error else ofName? cs

end Level

end Linkage
