/-
  Readers: a reader takes something off the front of a text
  and gives the rest, or nothing if it is not there.

  Key definitions include:
    * `Reader`
    * `after?`
    * `firstOf`
-/

------------------------------------------------------------
-- Readers
------------------------------------------------------------

namespace Linkage

/- A reader takes something off the front of a text. -/
abbrev Reader (α : Type) :=
  List Char → Option (α × List Char)

/- What is left after a given start. -/
def after? : List Char → List Char → Option (List Char)
| [], cs => some cs
| a :: as, c :: cs => if a = c then after? as cs else none
| _ :: _, [] => none

/- Use the first reader that reads something. -/
def firstOf
    {α : Type}
    (readers : List (Reader α)) : Reader α :=
  fun cs => readers.findSome? (· cs)

end Linkage
