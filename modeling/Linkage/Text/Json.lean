/-
  Trees of JSON and their text over several lines, with two
  blanks for each level.

  Key definitions include:
    * `Json`
    * `Json.quote`
    * `Json.pretty`
-/

------------------------------------------------------------
-- Trees
------------------------------------------------------------

namespace Linkage

/-
  A tree of JSON.  The entries of an object keep their order;
  `whole` is a real number without a fraction.
-/
inductive Json where
| bool (b : Bool)
| integer (n : Int)
| whole (n : Int)
| text (s : String)
| array (js : List Json)
| object (es : List (String × Json))
deriving Inhabited

namespace Json

------------------------------------------------------------
-- Texts
------------------------------------------------------------

/- Digits in base sixteen, four of them. -/
def controlDigits (c : Char) : List Char :=
  let ds := Nat.toDigits 16 c.toNat
  List.replicate (4 - ds.length) '0' ++ ds

/- A character within a text. -/
def escape (c : Char) : List Char :=
  if c = '\x22' then ['\x5c', '\x22']
  else if c = '\x5c' then ['\x5c', '\x5c']
  else if c = '\x08' then ['\x5c', 'b']
  else if c = '\t' then ['\x5c', 't']
  else if c = '\n' then ['\x5c', 'n']
  else if c = '\x0c' then ['\x5c', 'f']
  else if c = '\r' then ['\x5c', 'r']
  else if c.toNat < 0x20 then '\x5c' :: 'u' :: controlDigits c
  else [c]

/- A text in double quotes. -/
def quote (s : String) : String :=
  String.ofList ('\x22' :: s.toList.flatMap escape ++ ['\x22'])

------------------------------------------------------------
-- Layout
------------------------------------------------------------

/- A line break and the blanks of a level. -/
def lineBreak (level : Nat) : String :=
  String.ofList ('\n' :: List.replicate (2 * level) ' ')

/- Parts between brackets, each on a line of its own. -/
def block
    (level : Nat)
    (opening closing : String) : List String → String
| [] => opening ++ closing
| parts =>
    let inner := lineBreak (level + 1)
    opening ++ inner ++ ("," ++ inner).intercalate parts ++
      lineBreak level ++ closing

mutual

/- A tree whose first line stands at a level. -/
def layout : Nat → Json → String
| _, bool b => if b then "true" else "false"
| _, integer n => toString n
| _, whole n => toString n ++ ".0"
| _, text s => quote s
| level, array js => block level "[" "]" (layouts (level + 1) js)
| level, object es =>
    block level "\x7b" "\x7d" (entryLayouts (level + 1) es)

/- The elements of an array. -/
def layouts : Nat → List Json → List String
| _, [] => []
| level, j :: js => j.layout level :: layouts level js

/- The entries of an object. -/
def entryLayouts : Nat → List (String × Json) → List String
| _, [] => []
| level, (k, j) :: es =>
    (quote k ++ ": " ++ j.layout level) :: entryLayouts level es

end

/- A tree over several lines. -/
def pretty (j : Json) : String :=
  j.layout 0

end Json

end Linkage
