import Linkage.Toml.Lexeme
import Linkage.Toml.Node

/-
  TOML documents: values, lines, and the table that they
  describe together.

  Key definitions include:
    * `value`
    * `Draft`
    * `Draft.finish`
    * `Table.ofText?`
-/

------------------------------------------------------------
-- Values
------------------------------------------------------------

namespace Linkage

namespace Toml

/- What was read, as a node. -/
def asNode
    {α : Type}
    (f : α → Node)
    (reader : Reader α) : Reader Node :=
  fun cs => (reader cs).map (fun (a, r) => (f a, r))

/- A value that has no values in it. -/
def scalar : Reader Node :=
  firstOf
    [asNode (fun s => .text (String.ofList s)) text,
     asNode (fun _ => .dateTime) dateTime,
     asNode .real real,
     asNode .integer integer,
     fun cs =>
       (after? ['t', 'r', 'u', 'e'] cs).map (.boolean true, ·),
     fun cs =>
       (after? ['f', 'a', 'l', 's', 'e'] cs).map (.boolean false, ·)]

mutual

/-
  A value.  The first number bounds the steps of reading, the
  second one how deep values may lie within one another.
-/
def value : Nat → Nat → Reader Node
| fuel + 1, depth + 1, '[' :: cs =>
    (elements fuel depth cs).map (fun (ns, r) => (.array ns, r))
| fuel + 1, depth + 1, '{' :: cs =>
    match skipBlanks cs with
    | '}' :: r => some (.table .inline [], r)
    | _ =>
        (pairs fuel depth (.new .inline) cs).map
          (fun (t, r) => (t.toNode, r))
| _, _, cs => scalar cs

/- The elements of an array, and what closes it. -/
def elements : Nat → Nat → Reader (List Node)
| 0, _, _ => none
| fuel + 1, depth, cs =>
    match skipSpace false cs with
    | none => none
    | some (']' :: r) => some ([], r)
    | some cs =>
        match value fuel depth cs with
        | none => none
        | some (n, cs) =>
            match skipSpace false cs with
            | some (',' :: cs) =>
                (elements fuel depth cs).map
                  (fun (ns, r) => (n :: ns, r))
            | some (']' :: r) => some ([n], r)
            | _ => none

/- The entries of a table in braces, and what closes it. -/
def pairs : Nat → Nat → Table → Reader Table
| 0, _, _, _ => none
| fuel + 1, depth, t, cs =>
    match key cs with
    | some ((path, k), '=' :: cs) =>
        match value fuel depth (skipBlanks cs) with
        | none => none
        | some (n, cs) =>
            match t.define path k n with
            | none => none
            | some t =>
                match skipBlanks cs with
                | ',' :: cs => pairs fuel depth t cs
                | '}' :: r => some (t, r)
                | _ => none
    | _ => none

end

------------------------------------------------------------
-- Drafts
------------------------------------------------------------

/-
  Where the lines after a header go: to the document itself,
  to a table, or to an element of an array of tables.
-/
inductive Place where
| document
| table (path : List String) (key : String)
| element (path : List String) (key : String)
deriving DecidableEq, Repr

/-
  A document that is being read: the tables that are done and
  the one that is being filled.
-/
structure Draft where
  whole : Table
  current : Table
  place : Place

namespace Draft

/- The draft before the first line. -/
def start : Draft :=
  ⟨.new .header, .new .header, .document⟩

/- Put the table that is being filled in its place. -/
def finish (d : Draft) : Option Table :=
  match d.place with
  | .document => some d.current
  | .table path k => d.whole.closeTable path k d.current
  | .element path k => d.whole.closeElement path k d.current

/- Begin the table of a header. -/
def beginTable
    (d : Draft)
    (path : List String)
    (k : String) : Option Draft := do
  let whole ← d.finish
  let (current, whole) ← whole.openTable path k
  pure ⟨whole, current, .table path k⟩

/- Begin an element of an array of tables. -/
def beginElement
    (d : Draft)
    (path : List String)
    (k : String) : Option Draft := do
  let whole ← d.finish
  let whole ← whole.openElement path k
  pure ⟨whole, .new .header, .element path k⟩

/- Set a key of the table that is being filled. -/
def define
    (d : Draft)
    (path : List String)
    (k : String)
    (n : Node) : Option Draft :=
  (d.current.define path k n).map (fun t => { d with current := t })

end Draft

------------------------------------------------------------
-- Documents
------------------------------------------------------------

/- One line that is not empty, and what is left after it. -/
def line
    (d : Draft) : Reader Draft
| '[' :: '[' :: cs => do
    let ((path, k), cs) ← key cs
    let cs ← after? [']', ']'] cs
    let cs ← lineEnd? cs
    let d ← d.beginElement path k
    pure (d, cs)
| '[' :: cs => do
    let ((path, k), cs) ← key cs
    let cs ← after? [']'] cs
    let cs ← lineEnd? cs
    let d ← d.beginTable path k
    pure (d, cs)
| cs => do
    let ((path, k), cs) ← key cs
    let cs ← after? ['='] cs
    let cs := skipBlanks cs
    let (n, cs) ← value (2 * cs.length + 2) maxNesting cs
    let cs ← lineEnd? cs
    let d ← d.define path k n
    pure (d, cs)

/- The lines of a document, as many as there may be. -/
def lines : Nat → Draft → List Char → Option Table
| 0, _, _ => none
| fuel + 1, d, cs =>
    match skipBlanks cs with
    | [] => d.finish
    | '#' :: cs =>
        match lineBreak? (cs.dropWhile isPlain) with
        | some cs => lines fuel d cs
        | none => none
    | cs =>
        match newline? cs with
        | some cs => lines fuel d cs
        | none =>
            match line d cs with
            | some (d, cs) => lines fuel d cs
            | none => none

/- What is left without a byte order mark at the start. -/
def skipMark : List Char → List Char
| '\ufeff' :: cs => cs
| cs => cs

/- The table that a document describes. -/
def Table.ofText? (s : String) : Option Table :=
  let cs := skipMark s.toList
  lines (cs.length + 1) .start cs

end Toml

end Linkage
