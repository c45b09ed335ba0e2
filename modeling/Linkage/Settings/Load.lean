import Linkage.Number.Decimal
import Linkage.Settings
import Linkage.Text.Quoted
import Linkage.Toml.Document

/-
  Settings read from a document.  A record is read from a
  table, whose keys are taken in their order, or from an
  array, whose elements are its fields in turn; what is absent
  keeps its default, and the first fault is reported.

  Key definitions include:
    * `LoadError`
    * `LoadError.message?`
    * `Record`
    * `Record.read`
    * `Settings.ofText`
    * `Settings.ofFile`
-/

------------------------------------------------------------
-- Errors
------------------------------------------------------------

namespace Linkage

/-
  Why settings could not be read.  A shape that does not fit
  an alternative is reported in words of its own.
-/
inductive LoadError where
| unreadable (path : String)
| malformed
| unknownField (name : String) (known : List String)
| unknownVariant (name : String) (known : List String)
| wrongType (found expected : String)
| wrongValue (found expected : String)
| wrongShape (what : String)
deriving DecidableEq, Repr

namespace LoadError

/- A name in the quotes of a message. -/
def quoted (s : String) : String :=
  "\x60" ++ s ++ "\x60"

/- The names that were expected, in words. -/
def choices : List String → String
| [] => "nothing"
| [a] => quoted a
| [a, b] => quoted a ++ " or " ++ quoted b
| names => "one of " ++ ", ".intercalate (names.map quoted)

/-
  The wording of each error in a document that is well
  formed.
-/
def message? : LoadError → Option String
| unreadable _ => none
| malformed => none
| unknownField x known =>
    some
      ("unknown field " ++ quoted x ++ ", expected " ++
        choices known)
| unknownVariant x known =>
    some
      ("unknown variant " ++ quoted x ++ ", expected " ++
        choices known)
| wrongType found expected =>
    some ("invalid type: " ++ found ++ ", expected " ++ expected)
| wrongValue found expected =>
    some ("invalid value: " ++ found ++ ", expected " ++ expected)
| wrongShape what => some what

end LoadError

------------------------------------------------------------
-- Nodes in words
------------------------------------------------------------

/- A floating-point number, with a point if it is finite. -/
def pointedText (bits : UInt64) : String :=
  let s := Format.double.text bits.toNat
  match Format.double.decode bits.toNat with
  | .finite _ _ _ => if s.contains '.' then s else s ++ ".0"
  | _ => s

/- What a node is, in words. -/
def Toml.Node.words : Toml.Node → String
| .text s => "string " ++ Quoted.text s
| .integer n => "integer " ++ LoadError.quoted (toString n)
| .real bits =>
    "floating point " ++ LoadError.quoted (pointedText bits)
| .boolean b =>
    "boolean " ++ LoadError.quoted (if b then "true" else "false")
| .dateTime => "map"
| .array _ => "sequence"
| .tables _ => "sequence"
| .table _ _ => "map"

/- A node of another type than the one expected. -/
def Toml.Node.unfit
    {α : Type}
    (n : Toml.Node)
    (expected : String) : Except LoadError α :=
  .error (.wrongType n.words expected)

------------------------------------------------------------
-- Plain values
------------------------------------------------------------

def readBool : Toml.Node → Except LoadError Bool
| .boolean b => .ok b
| n => n.unfit "a boolean"

def readText : Toml.Node → Except LoadError String
| .text s => .ok s
| n => n.unfit "a string"

/- A number that is not negative. -/
def readCount : Toml.Node → Except LoadError Nat
| .integer n =>
    if 0 ≤ n then .ok n.toNat
    else .error (.wrongValue (Toml.Node.integer n).words "usize")
| n => n.unfit "usize"

/- The name of each way of eviction. -/
def Eviction.names : List (String × Eviction) :=
  [("never", .never), ("lru", .lru)]

def Eviction.ofName (x : String) : Except LoadError Eviction :=
  match names.lookup x with
  | some e => .ok e
  | none => .error (.unknownVariant x (names.map (·.1)))

/- An alternative without content is given an empty one. -/
def readNothing : Toml.Node → Except LoadError Unit
| .array [] => .ok ()
| .tables [] => .ok ()
| .table _ [] => .ok ()
| .array _ => .error (.wrongShape "expected empty table")
| .tables _ => .error (.wrongShape "expected empty array")
| .table _ _ => .error (.wrongShape "expected empty table")
| n => .error (.wrongShape ("expected table, found " ++ n.words))

/- An alternative: its name, or a table from it to nothing. -/
def readEviction : Toml.Node → Except LoadError Eviction
| .text x => Eviction.ofName x
| .table _ [] =>
    .error (.wrongShape "wanted exactly 1 element, found 0 elements")
| .table _ [(x, n)] => do
    let e ← Eviction.ofName x
    readNothing n
    pure e
| .table _ _ =>
    .error
      (.wrongShape "wanted exactly 1 element, more than 1 element")
| _ => .error (.wrongShape "wanted string or table")

------------------------------------------------------------
-- Records
------------------------------------------------------------

/- A field of a record: its name and how it is read. -/
structure RecordField (α : Type) where
  name : String
  read : Toml.Node → α → Except LoadError α

/- A record: its name, its fields and its defaults. -/
structure Record (α : Type) where
  name : String
  fields : List (RecordField α)
  defaults : α

namespace Record

variable {α : Type}

def fieldNames (r : Record α) : List String :=
  r.fields.map (·.name)

/- Read one entry of a table. -/
def readEntry
    (r : Record α)
    (a : α)
    (entry : String × Toml.Node) : Except LoadError α :=
  match r.fields.find? (·.name = entry.1) with
  | some f => f.read entry.2 a
  | none => .error (.unknownField entry.1 r.fieldNames)

/- Read fields from the elements of an array, in turn. -/
def readElements :
    List (RecordField α) → List Toml.Node → α →
      Except LoadError α
| f :: fs, n :: ns, a => do
    let b ← f.read n a
    readElements fs ns b
| _, _, a => .ok a

/- The key under which a date or a time shows its content. -/
def dateTimeKey : String := "$__toml_private_datetime"

/- Read a record. -/
def read
    (r : Record α) : Toml.Node → Except LoadError α
| .table _ es => es.foldlM r.readEntry r.defaults
| .array ns => readElements r.fields ns r.defaults
| .tables ns => readElements r.fields ns r.defaults
| .dateTime => .error (.unknownField dateTimeKey r.fieldNames)
| n => n.unfit ("struct " ++ r.name)

/- A record as a field of another one. -/
def asField
    {β : Type}
    (r : Record α)
    (name : String)
    (put : α → β → β) : RecordField β :=
  ⟨name, fun n b => (r.read n).map (put · b)⟩

end Record

/- A field that holds a plain value. -/
def plainField
    {α β : Type}
    (name : String)
    (read : Toml.Node → Except LoadError α)
    (put : α → β → β) : RecordField β :=
  ⟨name, fun n b => (read n).map (put · b)⟩

------------------------------------------------------------
-- Settings
------------------------------------------------------------

def StubSettings.record : Record StubSettings where
  name := "ThunkCacheConfig"
  fields :=
    [plainField "eviction" readEviction
      (fun e s => { s with eviction := e }),
     plainField "max_entries" readCount
      (fun n s => { s with maxEntries := n })]
  defaults := {}

def InvokeSettings.record : Record InvokeSettings where
  name := "InvokeConfig"
  fields :=
    [plainField "memoize_as_type" readBool
      (fun b s => { s with memoizeAsType := b })]
  defaults := {}

def LogSettings.record : Record LogSettings where
  name := "LoggingConfig"
  fields :=
    [plainField "level" readText
      (fun x s => { s with level := x }),
     plainField "json" readBool
      (fun b s => { s with json := b }),
     plainField "stderr" readBool
      (fun b s => { s with stderr := b })]
  defaults := {}

def Settings.record : Record Settings where
  name := "JunctionConfig"
  fields :=
    [StubSettings.record.asField "thunk_cache"
      (fun t s => { s with stubs := t }),
     InvokeSettings.record.asField "invoke"
      (fun t s => { s with invoke := t }),
     LogSettings.record.asField "logging"
      (fun t s => { s with logging := t })]
  defaults := {}

/- The settings that a text describes. -/
def Settings.ofText (s : String) : Except LoadError Settings :=
  match Toml.Table.ofText? s with
  | some t => Settings.record.read t.toNode
  | none => .error .malformed

/- The settings in a file, whose content may be unreadable. -/
def Settings.ofFile
    (path : String)
    (content : Option String) : Except LoadError Settings :=
  match content with
  | some s => Settings.ofText s
  | none => .error (.unreadable path)

end Linkage
