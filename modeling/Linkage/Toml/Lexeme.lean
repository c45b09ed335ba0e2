import Linkage.Number.Ratio
import Linkage.Text.Hex
import Linkage.Text.Reader

/-
  Lexemes of TOML: blanks, comments, keys, texts, numbers and
  dates.  A reader takes a lexeme off the front of a text and
  gives the rest, or nothing if there is no such lexeme.

  Key definitions include:
    * `lineEnd?`
    * `skipSpace`
    * `key`
    * `text`
    * `integer`
    * `real`
    * `dateTime`
-/

------------------------------------------------------------
-- Blanks and comments
------------------------------------------------------------

namespace Linkage

namespace Toml

/- Powers are those of numbers, whatever is imported. -/
attribute [local instance (2000)] instPowNat

/- A space or a tab. -/
def isSpace (c : Char) : Bool :=
  c = ' ' || c = '\t'

/- What is left after the blanks at the start. -/
def skipBlanks (cs : List Char) : List Char :=
  cs.dropWhile isSpace

/- A character that is no control character but the tab. -/
def isPlain (c : Char) : Bool :=
  c = '\t' || (0x20 ≤ c.toNat && c.toNat ≠ 0x7f)

/- What is left after a line break. -/
def newline? : List Char → Option (List Char)
| '\n' :: cs => some cs
| '\r' :: '\n' :: cs => some cs
| _ => none

/- What is left after a line break or at the end of the text. -/
def lineBreak? : List Char → Option (List Char)
| [] => some []
| cs => newline? cs

/- What is left after a comment, if there is one. -/
def skipComment : List Char → List Char
| '#' :: cs => cs.dropWhile isPlain
| cs => cs

/- What is left after blanks, a comment and a line break. -/
def lineEnd? (cs : List Char) : Option (List Char) :=
  lineBreak? (skipComment (skipBlanks cs))

/-
  What is left after blanks, line breaks and whole comments.
  The first argument tells that a comment has begun.
-/
def skipSpace : Bool → List Char → Option (List Char)
| true, [] => none
| false, [] => some []
| _, '\n' :: cs => skipSpace false cs
| _, '\r' :: '\n' :: cs => skipSpace false cs
| true, c :: cs => if isPlain c then skipSpace true cs else none
| false, '#' :: cs => skipSpace true cs
| false, c :: cs =>
    if isSpace c then skipSpace false cs else some (c :: cs)

------------------------------------------------------------
-- Texts
------------------------------------------------------------

/- The character that an escape of one letter stands for. -/
def escaped? : Char → Option Char
| 'b' => some '\x08'
| 't' => some '\t'
| 'n' => some '\n'
| 'f' => some '\x0c'
| 'r' => some '\r'
| '\x22' => some '\x22'
| '\x5c' => some '\x5c'
| _ => none

/- Put a character before a text that was read. -/
def prepend
    (c : Char)
    (r : Option (List Char × List Char)) :
    Option (List Char × List Char) :=
  r.map (fun (s, cs) => (c :: s, cs))

/- The rest of a text in double quotes. -/
def basicRest : Reader (List Char)
| [] => none
| '\x22' :: cs => some ([], cs)
| '\x5c' :: 'u' :: a :: b :: c :: d :: cs =>
    match numbered? [a, b, c, d] with
    | some x => prepend x (basicRest cs)
    | none => none
| '\x5c' :: 'U' :: a :: b :: c :: d :: e :: f :: g :: h :: cs =>
    match numbered? [a, b, c, d, e, f, g, h] with
    | some x => prepend x (basicRest cs)
    | none => none
| '\x5c' :: c :: cs =>
    match escaped? c with
    | some x => prepend x (basicRest cs)
    | none => none
| c :: cs => if isPlain c then prepend c (basicRest cs) else none

/- The rest of a text in single quotes. -/
def literalRest : Reader (List Char)
| [] => none
| '\x27' :: cs => some ([], cs)
| c :: cs => if isPlain c then prepend c (literalRest cs) else none

/-
  Where a text of several lines is: in its content, behind a
  backslash that folds the line break after it, or behind the
  folded line break.
-/
inductive Fold where
| content
| before
| behind
deriving DecidableEq, Repr

/-
  The rest of a text of several lines in double quotes.  Up to
  two quotes may stand before the three that end it.
-/
def blockRest : Fold → Reader (List Char)
| _, [] => none
| .before, '\n' :: cs => blockRest .behind cs
| .before, '\r' :: '\n' :: cs => blockRest .behind cs
| .before, c :: cs => if isSpace c then blockRest .before cs else none
| .behind, ' ' :: cs => blockRest .behind cs
| .behind, '\t' :: cs => blockRest .behind cs
| .behind, '\n' :: cs => blockRest .behind cs
| .behind, '\r' :: '\n' :: cs => blockRest .behind cs
| _, '\x22' :: '\x22' :: '\x22' :: '\x22' :: '\x22' :: cs =>
    some (['\x22', '\x22'], cs)
| _, '\x22' :: '\x22' :: '\x22' :: '\x22' :: cs =>
    some (['\x22'], cs)
| _, '\x22' :: '\x22' :: '\x22' :: cs => some ([], cs)
| _, '\n' :: cs => prepend '\n' (blockRest .content cs)
| _, '\r' :: '\n' :: cs => prepend '\n' (blockRest .content cs)
| _, '\x5c' :: 'u' :: a :: b :: c :: d :: cs =>
    match numbered? [a, b, c, d] with
    | some x => prepend x (blockRest .content cs)
    | none => none
| _, '\x5c' :: 'U' :: a :: b :: c :: d :: e :: f :: g :: h :: cs =>
    match numbered? [a, b, c, d, e, f, g, h] with
    | some x => prepend x (blockRest .content cs)
    | none => none
| _, '\x5c' :: '\n' :: cs => blockRest .behind cs
| _, '\x5c' :: '\r' :: '\n' :: cs => blockRest .behind cs
| _, '\x5c' :: c :: cs =>
    if isSpace c then blockRest .before cs
    else
      match escaped? c with
      | some x => prepend x (blockRest .content cs)
      | none => none
| _, c :: cs =>
    if isPlain c then prepend c (blockRest .content cs) else none

/- The rest of a text of several lines in single quotes. -/
def literalBlockRest : Reader (List Char)
| [] => none
| '\x27' :: '\x27' :: '\x27' :: '\x27' :: '\x27' :: cs =>
    some (['\x27', '\x27'], cs)
| '\x27' :: '\x27' :: '\x27' :: '\x27' :: cs => some (['\x27'], cs)
| '\x27' :: '\x27' :: '\x27' :: cs => some ([], cs)
| '\n' :: cs => prepend '\n' (literalBlockRest cs)
| '\r' :: '\n' :: cs => prepend '\n' (literalBlockRest cs)
| c :: cs =>
    if isPlain c then prepend c (literalBlockRest cs) else none

/- What is left without a line break at the start. -/
def skipFirstBreak (cs : List Char) : List Char :=
  (newline? cs).getD cs

/- A text, quoted in one of the four ways. -/
def text : Reader (List Char)
| '\x22' :: '\x22' :: '\x22' :: cs =>
    blockRest .content (skipFirstBreak cs)
| '\x22' :: cs => basicRest cs
| '\x27' :: '\x27' :: '\x27' :: cs =>
    literalBlockRest (skipFirstBreak cs)
| '\x27' :: cs => literalRest cs
| _ => none

------------------------------------------------------------
-- Keys
------------------------------------------------------------

/- A character of a key without quotes. -/
def isBare (c : Char) : Bool :=
  c.isAlphanum || c = '-' || c = '_'

/- One part of a key. -/
def keyPart : Reader String
| '\x22' :: cs =>
    (basicRest cs).map (fun (s, r) => (String.ofList s, r))
| '\x27' :: cs =>
    (literalRest cs).map (fun (s, r) => (String.ofList s, r))
| cs =>
    match cs.span isBare with
    | ([], _) => none
    | (s, r) => some (String.ofList s, r)

/- A key of at most so many parts with dots between them. -/
def keyParts : Nat → Reader (List String)
| 0, _ => none
| n + 1, cs =>
    match keyPart (skipBlanks cs) with
    | none => none
    | some (k, cs) =>
        match skipBlanks cs with
        | '.' :: cs =>
            (keyParts n cs).map (fun (ks, r) => (k :: ks, r))
        | cs => some ([k], cs)

/- The most tables that may lie within one another. -/
def maxNesting : Nat := 79

/- A key: the keys of the tables on the way and the last one. -/
def key : Reader (List String × String) :=
  fun cs =>
    match keyParts maxNesting cs with
    | none => none
    | some (ks, r) =>
        ks.getLast?.map (fun k => ((ks.dropLast, k), r))

------------------------------------------------------------
-- Numbers
------------------------------------------------------------

/- Digits, each of which may have an underscore before it. -/
def moreDigits
    (ok : Char → Bool) : List Char → List Char × List Char
| '_' :: c :: cs =>
    if ok c then
      let (ds, r) := moreDigits ok cs
      (c :: ds, r)
    else ([], '_' :: c :: cs)
| c :: cs =>
    if ok c then
      let (ds, r) := moreDigits ok cs
      (c :: ds, r)
    else ([], c :: cs)
| [] => ([], [])

/- At least one digit. -/
def digits (ok : Char → Bool) : Reader (List Char)
| c :: cs =>
    if ok c then
      let (ds, r) := moreDigits ok cs
      some (c :: ds, r)
    else none
| [] => none

/- The digits of a decimal without needless zeros. -/
def wholeDigits : Reader (List Char)
| '0' :: cs => some (['0'], cs)
| cs => digits Char.isDigit cs

/- An optional sign: the number is negative. -/
def sign : List Char → Bool × List Char
| '+' :: cs => (false, cs)
| '-' :: cs => (true, cs)
| cs => (false, cs)

/- The number that digits of a base stand for. -/
def numberOf
    (base : Nat)
    (ds : List Char) : Nat :=
  ds.foldl (fun n d => base * n + (hexDigit? d).getD 0) 0

/- An integer of sixty-four digits. -/
def bounded? (n : Int) : Option Int :=
  if -2 ^ (63 : Nat) ≤ n ∧ n < 2 ^ (63 : Nat)
  then some n
  else none

/- A character is a digit of a base. -/
def isDigitOf
    (base : Nat)
    (c : Char) : Bool :=
  match hexDigit? c with
  | some d => d < base
  | none => false

/- An integer in a base that was named before it. -/
def integerIn
    (base : Nat) : Reader Int :=
  fun cs =>
    match digits (isDigitOf base) cs with
    | none => none
    | some (ds, r) =>
        (bounded? (numberOf base ds)).map (fun n => (n, r))

/- An integer. -/
def integer : Reader Int
| '0' :: 'x' :: cs => integerIn 16 cs
| '0' :: 'o' :: cs => integerIn 8 cs
| '0' :: 'b' :: cs => integerIn 2 cs
| cs =>
    let (negative, cs) := sign cs
    match wholeDigits cs with
    | none => none
    | some (ds, r) =>
        let n : Int := numberOf 10 ds
        (bounded? (if negative then -n else n)).map
          (fun n => (n, r))

/- The exponent of a number, if there is one. -/
def exponent? : Reader Int
| c :: cs =>
    if c = 'e' ∨ c = 'E' then
      let (negative, cs) := sign cs
      (digits Char.isDigit cs).map
        (fun (ds, r) =>
          let n : Int := numberOf 10 ds
          (if negative then -n else n, r))
    else none
| [] => none

/- The digits after the point of a number. -/
def fraction? : Reader (List Char)
| '.' :: cs => digits Char.isDigit cs
| _ => none

/- The digits after the point and the exponent, not both empty. -/
def scale? : Reader (List Char × Int) :=
  fun cs =>
    match fraction? cs with
    | some (ds, r) =>
        match exponent? r with
        | some (e, r) => some ((ds, e), r)
        | none => some ((ds, 0), r)
    | none => (exponent? cs).map (fun (e, r) => (([], e), r))

/- A value without a sign, with one. -/
def signedReal
    (negative : Bool)
    (digits : Nat) : UInt64 :=
  .ofNat (Format.double.signed negative digits)

/- The words for what is no finite number. -/
def special
    (negative : Bool) : Reader UInt64
| 'i' :: 'n' :: 'f' :: cs =>
    some (signedReal negative Format.double.infinityDigits, cs)
| 'n' :: 'a' :: 'n' :: cs =>
    some
      (signedReal negative
        (Format.double.infinityDigits + 2 ^ (51 : Nat)), cs)
| _ => none

/-
  A floating-point number.  One that is too large is refused,
  unless it is negative.
-/
def real : Reader UInt64 :=
  fun cs =>
    let (negative, cs) := sign cs
    match wholeDigits cs with
    | none => special negative cs
    | some (whole, r) =>
        match scale? r with
        | none => none
        | some ((part, e), r) =>
            let bits :=
              Format.double.ofDecimal negative
                (numberOf 10 (whole ++ part)) (e - part.length)
            if bits = Format.double.infinityDigits then none
            else some (.ofNat bits, r)

------------------------------------------------------------
-- Dates and times
------------------------------------------------------------

/- A number of exactly so many digits. -/
def fixedDigits : Nat → Nat → Reader Nat
| 0, acc, cs => some (acc, cs)
| n + 1, acc, c :: cs =>
    if c.isDigit
    then fixedDigits n (10 * acc + (c.toNat - '0'.toNat)) cs
    else none
| _ + 1, _, [] => none

/- A number of two digits within bounds. -/
def twoDigits
    (low high : Nat) : Reader Nat :=
  fun cs =>
    match fixedDigits 2 0 cs with
    | some (n, r) =>
        if low ≤ n ∧ n ≤ high then some (n, r) else none
    | none => none

def isLeapYear (y : Nat) : Bool :=
  y % 4 = 0 && (y % 100 ≠ 0 || y % 400 = 0)

/- The days of a month. -/
def daysIn
    (year month : Nat) : Nat :=
  if month = 2 then if isLeapYear year then 29 else 28
  else if month ∈ [4, 6, 9, 11] then 30
  else 31

/- What is left after a date. -/
def date? (cs : List Char) : Option (List Char) := do
  let (year, cs) ← fixedDigits 4 0 cs
  let cs ← after? ['-'] cs
  let (month, cs) ← twoDigits 1 12 cs
  let cs ← after? ['-'] cs
  let (_, cs) ← twoDigits 1 (daysIn year month) cs
  pure cs

/- What is left after parts of a second, if there are any. -/
def skipSecondParts : List Char → List Char
| '.' :: c :: cs =>
    if c.isDigit then cs.dropWhile Char.isDigit else '.' :: c :: cs
| cs => cs

/- What is left after a time of day. -/
def time? (cs : List Char) : Option (List Char) := do
  let (_, cs) ← twoDigits 0 23 cs
  let cs ← after? [':'] cs
  let (_, cs) ← twoDigits 0 59 cs
  let cs ← after? [':'] cs
  let (_, cs) ← twoDigits 0 60 cs
  pure (skipSecondParts cs)

/- What is left after the distance to universal time. -/
def offset? : List Char → Option (List Char)
| c :: cs =>
    if c = 'Z' ∨ c = 'z' then some cs
    else if c = '+' ∨ c = '-' then do
      let (_, cs) ← twoDigits 0 23 cs
      let cs ← after? [':'] cs
      let (_, cs) ← twoDigits 0 59 cs
      pure cs
    else none
| [] => none

/- What is left after a time that follows a date. -/
def timeOfDate? : List Char → Option (List Char)
| c :: cs =>
    if c = 'T' ∨ c = 't' ∨ c = ' ' then
      (time? cs).map (fun r => (offset? r).getD r)
    else none
| [] => none

/- A date, a time, or both. -/
def dateTime : Reader Unit :=
  fun cs =>
    match date? cs with
    | some r => some ((), (timeOfDate? r).getD r)
    | none => (time? cs).map (fun r => ((), r))

end Toml

end Linkage
