import Linkage.Stub.Key

/-
  The cache of dispatch stubs.  A request for a resident key
  gives the stored stub; any other request compiles one and
  stores it.  A bounded cache then drops the stubs whose last
  use is longest ago, the new one excepted.

  Key definitions include:
    * `Stub`
    * `Stub.Failure`
    * `Stub.Compiler`
    * `Stub.Compiler.checking`
    * `Stub.Compiler.limited`
    * `Stub.Cache`
    * `Stub.Cache.touch`
    * `Stub.Cache.drop`
    * `Stub.Cache.shrink`
    * `Stub.Cache.get`
    * `Stub.Cache.stats`
-/

------------------------------------------------------------
-- Stubs and compilers
------------------------------------------------------------

namespace Linkage

/-
  A compiled stub: it takes calls of one number of arguments.
  Stubs compiled at different times differ in their number.
-/
structure Stub where
  id : Nat
  key : Stub.Key
  arity : Nat
deriving DecidableEq, Repr

namespace Stub

/- A stub could not be compiled. -/
structure Failure where
  key : String
  reason : String
deriving DecidableEq, Repr

/-
  A compiler of stubs: from the number of compilations begun
  before and a key to the number of arguments, or a failure.
-/
abbrev Compiler :=
  Nat → Key → Except Failure Nat

/-
  The compiler that reads the canonical descriptor and takes
  as many arguments as it has parameters.
-/
def Compiler.checking : Compiler :=
  fun _ k =>
    match Signature.ofDescriptor k.canonical.toList with
    | .ok s => .ok s.count
    | .error e => .error ⟨k.text, e.message⟩

/- A compiler that gives up after a number of compilations. -/
def Compiler.limited
    (limit : Nat)
    (compile : Compiler) : Compiler :=
  fun begun k =>
    if begun < limit
    then compile begun k
    else .error ⟨k.text, "code space exhausted"⟩

------------------------------------------------------------
-- The cache
------------------------------------------------------------

/- A resident stub and the time of its last use. -/
structure Entry where
  stub : Stub
  lastUsed : Nat
deriving DecidableEq, Repr

/- Resident stubs, a logical clock and counters. -/
structure Cache where
  capacity : Option Nat
  entries : List Entry
  clock : Nat
  hits : Nat
  misses : Nat
  compiles : Nat
  evictions : Nat
deriving DecidableEq, Repr

/- The number of entries and the four counters. -/
structure Stats where
  entries : Nat
  hits : Nat
  misses : Nat
  compiles : Nat
  evictions : Nat
deriving DecidableEq, Repr

namespace Cache

/- A cache without entries. -/
def new (capacity : Option Nat) : Cache :=
  ⟨capacity, [], 0, 0, 0, 0, 0⟩

/- The entry of a key. -/
def find?
    (c : Cache)
    (k : Key) : Option Entry :=
  c.entries.find? (fun e => e.stub.key == k)

def contains
    (c : Cache)
    (k : Key) : Bool :=
  (c.find? k).isSome

def isEmpty (c : Cache) : Bool :=
  c.entries.isEmpty

def stats (c : Cache) : Stats :=
  ⟨c.entries.length, c.hits, c.misses, c.compiles, c.evictions⟩

/- Stamp the entry of a key with a time. -/
def stamp
    (k : Key)
    (time : Nat)
    (es : List Entry) : List Entry :=
  es.map
    (fun e =>
      if e.stub.key = k then { e with lastUsed := time } else e)

/-
  Advance the clock and stamp the entry of a key, if it has
  one.
-/
def touch
    (c : Cache)
    (k : Key) : Cache :=
  { c with
    clock := c.clock + 1
    entries := stamp k (c.clock + 1) c.entries }

/-
  The entry used longest ago; of two that were used at one
  time, the first.
-/
def oldest? : List Entry → Option Entry
| [] => none
| e :: es =>
    match oldest? es with
    | none => some e
    | some f => if f.lastUsed < e.lastUsed then some f else some e

/- The entry that is dropped to make room for a new key. -/
def victim?
    (c : Cache)
    (new : Key) : Option Entry :=
  oldest? (c.entries.filter (fun e => e.stub.key ≠ new))

/- Drop the entry of a key. -/
def drop
    (c : Cache)
    (k : Key) : Cache :=
  { c with
    entries := c.entries.filter (fun e => e.stub.key ≠ k)
    evictions := c.evictions + 1 }

/-
  Drop entries until the capacity holds or the new key alone
  is left; `n` bounds the number of entries to drop.
-/
def shrink
    (new : Key) : Nat → Cache → Cache
| 0, c => c
| n + 1, c =>
    match c.capacity with
    | none => c
    | some cap =>
        if c.entries.length ≤ cap then c
        else
          match c.victim? new with
          | none => c
          | some e => shrink new n (c.drop e.stub.key)

/- Store a stub under the time that the clock shows. -/
def insert
    (c : Cache)
    (s : Stub) : Cache :=
  { c with entries := c.entries ++ [⟨s, c.clock⟩] }

/-
  The stub of a key.  The clock advances once when the key is
  resident or its compilation fails, and twice when a stub is
  stored.
-/
def get
    (compile : Compiler)
    (k : Key)
    (c : Cache) : Except Failure Stub × Cache :=
  let touched := c.touch k
  match c.find? k with
  | some e => (.ok e.stub, { touched with hits := c.hits + 1 })
  | none =>
      let missed := { touched with misses := c.misses + 1 }
      match compile c.misses k with
      | .error e => (.error e, missed)
      | .ok arity =>
          let stub : Stub := ⟨c.compiles, k, arity⟩
          let compiled :=
            { missed with
              compiles := c.compiles + 1
              clock := missed.clock + 1 }
          let stored := compiled.insert stub
          (.ok stub, shrink k stored.entries.length stored)

end Cache

end Stub

end Linkage
