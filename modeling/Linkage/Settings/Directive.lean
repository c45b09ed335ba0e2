import Linkage.Number.Decimal
import Linkage.Number.Ratio
import Linkage.Settings.Level
import Linkage.Settings.Pattern
import Linkage.Text.Alphanumeric
import Linkage.Text.Blank

/-
  Directives of a filter: a level for a target, for a span
  with given fields, or for everything.  Of two directives the
  more specific one comes first: a longer target, then a span,
  then more fields.

  Key definitions include:
    * `FieldValue`
    * `FieldTest`
    * `Directive`
    * `Directive.text`
    * `Directive.order`
    * `Directive.ofText?`
-/

------------------------------------------------------------
-- Tests of fields
------------------------------------------------------------

namespace Linkage

/- Powers are those of numbers, whatever is imported. -/
attribute [local instance (2000)] instPowNat

/- Sums start at the literal zero, whatever is imported. -/
attribute [local instance (2000)] Zero.ofOfNat0

/- What a field of a span is compared with. -/
inductive FieldValue where
| bool (b : Bool)
| real (bits : UInt64)
| nan
| signed (n : Int)
| unsigned (n : Nat)
| pattern (s : String)
deriving DecidableEq, Repr, Inhabited

/- A field of a span, which may have to match a value. -/
structure FieldTest where
  name : String
  value : Option FieldValue
deriving DecidableEq, Repr, Inhabited

/- A level for what a target, a span and fields select. -/
structure Directive where
  level : Level
  target : Option String
  span : Option String
  fields : List FieldTest
deriving DecidableEq, Repr, Inhabited

------------------------------------------------------------
-- Written form
------------------------------------------------------------

def FieldValue.text : FieldValue → String
| bool b => if b then "true" else "false"
| real bits => Format.double.text bits.toNat
| nan => "NaN"
| signed n => toString n
| unsigned n => toString n
| pattern s => s

def FieldTest.text (f : FieldTest) : String :=
  match f.value with
  | some v => f.name ++ "=" ++ v.text
  | none => f.name

namespace Directive

/- The fields of a directive, between braces. -/
def fieldsText (fields : List FieldTest) : String :=
  if fields = [] then ""
  else
    "\x7b" ++ ",".intercalate (fields.map FieldTest.text) ++
      "\x7d"

/- What a directive selects; nothing is left out for all. -/
def selection (d : Directive) : String :=
  let target := d.target.getD ""
  if d.span = none ∧ d.fields = [] then target
  else
    target ++ "[" ++ d.span.getD "" ++ fieldsText d.fields ++ "]"

/- The written form: `target[span\x7bfield=value\x7d]=level`. -/
def text (d : Directive) : String :=
  if d.target = none ∧ d.span = none ∧ d.fields = []
  then d.level.name
  else d.selection ++ "=" ++ d.level.name

end Directive

------------------------------------------------------------
-- Order
------------------------------------------------------------

/- Nothing comes before something. -/
def orderOptions
    {α : Type}
    (order : α → α → Ordering) :
    Option α → Option α → Ordering
| none, none => .eq
| none, some _ => .lt
| some _, none => .gt
| some a, some b => order a b

/- Lists by their first difference. -/
def orderLists
    {α : Type}
    (order : α → α → Ordering) :
    List α → List α → Ordering
| [], [] => .eq
| [], _ :: _ => .lt
| _ :: _, [] => .gt
| a :: as, b :: bs => (order a b).then (orderLists order as bs)

/- A number in the order of floating-point values. -/
def realKey (bits : UInt64) : Int :=
  let n := bits.toNat
  if n < 2 ^ (63 : Nat) then n
  else -((n - 2 ^ (63 : Nat) : Nat) : Int)

namespace FieldValue

/- The place of the sort of a value. -/
def rank : FieldValue → Nat
| bool _ => 0
| real _ => 1
| nan => 2
| unsigned _ => 3
| signed _ => 4
| pattern _ => 5

/- Values by their sort, and within a sort by size. -/
def order : FieldValue → FieldValue → Ordering
| bool a, bool b => compare a b
| real a, real b => compare (realKey a) (realKey b)
| signed a, signed b => compare a b
| unsigned a, unsigned b => compare a b
| pattern a, pattern b => compare a b
| a, b => compare a.rank b.rank

end FieldValue

/- A field with a value comes after one without. -/
def FieldTest.order (a b : FieldTest) : Ordering :=
  (compare a.value.isSome b.value.isSome).then
    ((compare a.name b.name).then
      (orderOptions FieldValue.order a.value b.value))

namespace Directive

/- How specific a directive is, in the parts that count first. -/
def orderWeight (a b : Directive) : Ordering :=
  (orderOptions compare
      (a.target.map String.utf8ByteSize)
      (b.target.map String.utf8ByteSize)).then
    ((compare a.span.isSome b.span.isSome).then
      (compare a.fields.length b.fields.length))

/- Directives by what they select, the least specific first. -/
def orderUp (a b : Directive) : Ordering :=
  (orderWeight a b).then
    ((orderOptions compare a.target b.target).then
      ((orderOptions compare a.span b.span).then
        (orderLists FieldTest.order a.fields b.fields)))

/- Directives by what they select, the most specific first. -/
def order (a b : Directive) : Ordering :=
  orderUp b a

end Directive

------------------------------------------------------------
-- Reading values
------------------------------------------------------------

namespace FieldValue

/- The digits at the start of a text, and the rest. -/
def digitRun (cs : List Char) : List Char × List Char :=
  cs.span Char.isDigit

/- A sign at the start of a text: the number is negative. -/
def signOf : List Char → Bool × List Char
| '+' :: cs => (false, cs)
| '-' :: cs => (true, cs)
| cs => (false, cs)

/- The number that decimal digits stand for. -/
def decimalOf (ds : List Char) : Nat :=
  ds.foldl (fun n d => 10 * n + (d.toNat - '0'.toNat)) 0

/- A whole number in the bounds of sixty-four digits. -/
def whole? (cs : List Char) : Option FieldValue :=
  let (negative, ds) := signOf cs
  if ds = [] ∨ !ds.all Char.isDigit then none
  else
    let n := decimalOf ds
    if cs.head? ≠ some '-' ∧ n < 2 ^ (64 : Nat)
    then some (unsigned n)
    else if negative ∧ n ≤ 2 ^ (63 : Nat)
    then some (signed (-(n : Int)))
    else none

/- The exponent at the end of a number. -/
def exponentOf? : List Char → Option Int
| [] => some 0
| c :: cs =>
    if c = 'e' ∨ c = 'E' then
      let (negative, ds) := signOf cs
      if ds = [] ∨ !ds.all Char.isDigit then none
      else
        let n : Int := decimalOf ds
        some (if negative then -n else n)
    else none

/- A decimal without a sign: digits, a point and an exponent. -/
def decimal?
    (negative : Bool)
    (cs : List Char) : Option Nat :=
  let (ds, cs) := digitRun cs
  let (part, cs) :=
    match cs with
    | '.' :: cs => digitRun cs
    | cs => ([], cs)
  if ds = [] ∧ part = [] then none
  else
    (exponentOf? cs).map
      (fun e =>
        Format.double.ofDecimal negative (decimalOf (ds ++ part))
          (e - part.length))

/- A floating-point number, or a word for what is none. -/
def real? (cs : List Char) : Option FieldValue :=
  let (negative, rest) := signOf cs
  let word := String.ofList (rest.map Char.toLower)
  if word = "inf" ∨ word = "infinity" then
    some
      (real
        (.ofNat
          (Format.double.signed negative
            Format.double.infinityDigits)))
  else if word = "nan" then some nan
  else (decimal? negative rest).map (fun bits => real (.ofNat bits))

/- A pattern that is valid. -/
def pattern? (cs : List Char) : Option FieldValue :=
  if Pattern.isValid cs then some (pattern (String.ofList cs))
  else none

/-
  The value that a text names: a truth value, a number, or
  else a pattern.
-/
def ofText? (cs : List Char) : Option FieldValue :=
  if cs = ['t', 'r', 'u', 'e'] then some (bool true)
  else if cs = ['f', 'a', 'l', 's', 'e'] then some (bool false)
  else whole? cs <|> real? cs <|> pattern? cs

end FieldValue

/-
  A test of a field: a name, and a value between the first
  and the second equals sign.
-/
def FieldTest.ofText? (cs : List Char) : Option FieldTest :=
  let (name, rest) := cs.span (· ≠ '=')
  match rest with
  | [] => some ⟨String.ofList name, none⟩
  | _ :: rest =>
      (FieldValue.ofText? (rest.takeWhile (· ≠ '='))).map
        (fun v => ⟨String.ofList name, some v⟩)

------------------------------------------------------------
-- Reading directives
------------------------------------------------------------

/-
  A text that is read by places.  Places are counted in bytes
  of the text without the blanks at its ends, and parts are
  cut out of the text with them.
-/
structure Source where
  whole : List Char
deriving DecidableEq, Repr

namespace Source

/- The bytes that characters take. -/
def bytes (cs : List Char) : Nat :=
  (cs.map Char.utf8Size).sum

/- What is left after so many bytes. -/
def dropBytes : Nat → List Char → List Char
| 0, cs => cs
| _ + 1, [] => []
| n + 1, c :: cs => dropBytes (n + 1 - c.utf8Size) cs
termination_by _ cs => cs.length

/- The characters in the first so many bytes. -/
def takeBytes : Nat → List Char → List Char
| 0, _ => []
| _ + 1, [] => []
| n + 1, c :: cs => c :: takeBytes (n + 1 - c.utf8Size) cs
termination_by _ cs => cs.length

/- The part between two places. -/
def part
    (s : Source)
    (start stop : Nat) : List Char :=
  takeBytes (stop - start) (dropBytes start s.whole)

/- The part from a place to the end. -/
def rest
    (s : Source)
    (start : Nat) : List Char :=
  dropBytes start s.whole

end Source

/- What is left at a place. -/
structure Cursor where
  place : Nat
  left : List Char

namespace Cursor

/-
  Go to the next character of a kind: that character, its
  place, and the cursor after it.
-/
def seek
    (c : Cursor)
    (stop : Char → Bool) : Option (Char × Nat × Cursor) :=
  let (before, found) := c.left.span (fun x => !stop x)
  match found with
  | [] => none
  | x :: left =>
      let place := c.place + Source.bytes before
      some (x, place, ⟨place + x.utf8Size, left⟩)

end Cursor

namespace Directive

/- A directive for everything. -/
def everything : Directive :=
  ⟨.trace, none, none, []⟩

/- A level after an equals sign; an empty one is the most. -/
def levelAfter
    (s : Source)
    (place : Nat)
    (d : Directive) : Option Directive :=
  match s.rest place with
  | [] => some { d with level := .trace }
  | cs => (Level.ofText? cs).map (fun l => { d with level := l })

/- What may follow a closing bracket: nothing, or a level. -/
def afterBracket
    (s : Source)
    (c : Cursor)
    (d : Directive) : Option Directive :=
  match c.left with
  | [] => some d
  | '=' :: _ => levelAfter s (c.place + 1) d
  | _ => none

/- The field in braces, and the bracket after it. -/
def fieldFrom
    (s : Source)
    (c : Cursor)
    (d : Directive) : Option Directive :=
  match c.seek (· = '\x7d') with
  | none => none
  | some (_, place, rest) =>
      match s.part c.place place, rest.left with
      | [], _ => none
      | f, ']' :: left =>
          match FieldTest.ofText? f with
          | some t =>
              afterBracket s ⟨rest.place + 1, left⟩
                { d with fields := [t] }
          | none => none
      | _, _ => none

/- The span after an opening bracket, and what follows it. -/
def spanFrom
    (s : Source)
    (c : Cursor)
    (d : Directive) : Option Directive :=
  match c.seek (fun x => x = ']' || x = '\x7b') with
  | none => none
  | some (x, place, rest) =>
      let name := s.part c.place place
      if x = ']' then
        afterBracket s rest
          { d with span := some (String.ofList name) }
      else
        fieldFrom s rest
          { d with
            span :=
              if name = [] then none
              else some (String.ofList name) }

/- A text without a selection: a level, or else a target. -/
def levelOrTarget (cs : List Char) : Directive :=
  if cs = [] then everything
  else
    match Level.ofText? cs with
    | some l => { everything with level := l }
    | none => { everything with target := some (String.ofList cs) }

/- A character with which a target may begin. -/
def isStart (c : Char) : Bool :=
  c = '-' || c = ':' || c = '_' || isAlphanumeric c

/- The directive that a text without commas names. -/
def ofText? (cs : List Char) : Option Directive :=
  let s : Source := ⟨cs⟩
  match trim cs with
  | [] => none
  | '[' :: left => spanFrom s ⟨1, left⟩ everything
  | c :: left =>
      if !isStart c then none
      else
        let start : Cursor := ⟨c.utf8Size, left⟩
        match start.seek (fun x => x = '=' || x = '[') with
        | none => some (levelOrTarget (s.rest 0))
        | some (x, place, rest) =>
            let d :=
              { everything with
                target := some (String.ofList (s.part 0 place)) }
            if x = '=' then levelAfter s rest.place d
            else spanFrom s rest d

end Directive

end Linkage
