/-
  Trees of a TOML document.  A table remembers how it was
  made, which decides who may add to it: a header opens a
  table once, dotted keys add to tables that dotted keys or
  longer headers made, and a table in braces is closed.

  Key definitions include:
    * `Origin`
    * `Node`
    * `Table`
    * `Table.update`
    * `Table.define`
    * `Table.openTable`
    * `Table.openElement`
-/

------------------------------------------------------------
-- Nodes
------------------------------------------------------------

namespace Linkage

namespace Toml

/-
  How a table was made: by its own header, by the header of a
  table in it, by a dotted key, or in braces.
-/
inductive Origin where
| header
| implied
| dotted
| inline
deriving DecidableEq, Repr, Inhabited

/-
  A value of a document.  Of a date or a time it is only told
  that it is one.  The nodes of `tables` are tables.
-/
inductive Node where
| text (s : String)
| integer (n : Int)
| real (bits : UInt64)
| boolean (b : Bool)
| dateTime
| array (ns : List Node)
| tables (ns : List Node)
| table (origin : Origin) (entries : List (String × Node))
deriving Inhabited

/- A table: its entries in the order of their keys. -/
structure Table where
  origin : Origin
  entries : List (String × Node)
deriving Inhabited

namespace Table

/- A table without entries. -/
def new (o : Origin) : Table :=
  ⟨o, []⟩

def toNode (t : Table) : Node :=
  .table t.origin t.entries

/- The value of a key. -/
def get?
    (t : Table)
    (k : String) : Option Node :=
  t.entries.lookup k

/- Add an entry after the others. -/
def append
    (t : Table)
    (k : String)
    (n : Node) : Table :=
  { t with entries := t.entries ++ [(k, n)] }

/- Give a key another value, in its place. -/
def replace
    (t : Table)
    (k : String)
    (n : Node) : Table :=
  { t with
    entries :=
      t.entries.map (fun p => if p.1 = k then (k, n) else p) }

/- Remove the entry of a key. -/
def remove
    (t : Table)
    (k : String) : Table :=
  { t with entries := t.entries.filter (fun p => p.1 ≠ k) }

/- Add an entry of a key that the table does not have. -/
def insertNew
    (t : Table)
    (k : String)
    (n : Node) : Option Table :=
  match t.get? k with
  | none => some (t.append k n)
  | some _ => none

end Table

------------------------------------------------------------
-- Paths
------------------------------------------------------------

/- A table may not be entered, by a dotted key or a header. -/
def Origin.isClosed
    (byKey : Bool) : Origin → Bool
| header => byKey
| implied => false
| dotted => false
| inline => true

/- How a table on the way of a path is made. -/
def Origin.onPath (byKey : Bool) : Origin :=
  if byKey then dotted else implied

/-
  Change the table at the end of a path, and make the tables
  on the way that are missing.  A path goes through the last
  element of an array of tables.
-/
def Table.update
    {α : Type}
    (byKey : Bool)
    (f : Table → Option (α × Table)) :
    List String → Table → Option (α × Table)
| [], t => f t
| k :: ks, t =>
    match t.get? k with
    | none =>
        (update byKey f ks (.new (.onPath byKey))).map
          (fun (a, u) => (a, t.append k u.toNode))
    | some (.table o es) =>
        if o.isClosed byKey then none
        else
          (update byKey f ks ⟨o, es⟩).map
            (fun (a, u) => (a, t.replace k u.toNode))
    | some (.tables ns) =>
        match ns.getLast? with
        | some (.table o es) =>
            (update byKey f ks ⟨o, es⟩).map
              (fun (a, u) =>
                (a,
                  t.replace k (.tables (ns.dropLast ++ [u.toNode]))))
        | _ => none
    | some _ => none

/-
  Set the key at the end of a path.  A path of more than one
  key ends in a table that dotted keys made.
-/
def Table.define
    (t : Table)
    (path : List String)
    (k : String)
    (n : Node) : Option Table :=
  (t.update true
    (fun u =>
      if path ≠ [] ∧ u.origin ≠ .dotted then none
      else (u.insertNew k n).map ((), ·))
    path).map (·.2)

------------------------------------------------------------
-- Headers
------------------------------------------------------------

/-
  Open the table of a header: the opened table and the rest.
  A table that a longer header made is taken out and filled.
-/
def Table.openTable
    (t : Table)
    (path : List String)
    (k : String) : Option (Table × Table) :=
  t.update false
    (fun u =>
      match u.get? k with
      | none => some (.new .header, u)
      | some (.table .implied es) =>
          some (⟨.header, es⟩, u.remove k)
      | some _ => none)
    path

/- Put the table of a header at the end of its parent. -/
def Table.closeTable
    (t : Table)
    (path : List String)
    (k : String)
    (u : Table) : Option Table :=
  (t.update false
    (fun p => (p.insertNew k u.toNode).map ((), ·)) path).map (·.2)

/- Make sure that a header names an array of tables. -/
def Table.openElement
    (t : Table)
    (path : List String)
    (k : String) : Option Table :=
  (t.update false
    (fun u =>
      match u.get? k with
      | none => some ((), u.append k (.tables []))
      | some (.tables _) => some ((), u)
      | some _ => none)
    path).map (·.2)

/- Add a table to the array of tables of a header. -/
def Table.closeElement
    (t : Table)
    (path : List String)
    (k : String)
    (u : Table) : Option Table :=
  (t.update false
    (fun p =>
      match p.get? k with
      | some (.tables ns) =>
          some ((), p.replace k (.tables (ns ++ [u.toNode])))
      | _ => none)
    path).map (·.2)

end Toml

end Linkage
