/-
  The settings of a runtime: how stubs are reclaimed, whether
  retyping is remembered, and what is logged where.

  Key definitions include:
    * `Eviction`
    * `StubSettings`
    * `StubSettings.capacity`
    * `InvokeSettings`
    * `LogSettings`
    * `Settings`
-/

------------------------------------------------------------
-- Settings
------------------------------------------------------------

namespace Linkage

/- How the cache of stubs gives up entries. -/
inductive Eviction where
| never
| lru
deriving DecidableEq, Repr, Inhabited

/- The settings of the cache of stubs. -/
structure StubSettings where
  eviction : Eviction := .never
  maxEntries : Nat := 4096
deriving DecidableEq, Repr, Inhabited

/-
  The most stubs that stay resident; none when they are
  never given up.
-/
def StubSettings.capacity (s : StubSettings) : Option Nat :=
  match s.eviction with
  | .never => none
  | .lru => some (max s.maxEntries 1)

/- The settings of invocation. -/
structure InvokeSettings where
  memoizeAsType : Bool := true
deriving DecidableEq, Repr, Inhabited

/- The settings of logging. -/
structure LogSettings where
  level : String := "info"
  json : Bool := false
  stderr : Bool := true
deriving DecidableEq, Repr, Inhabited

/- All settings. -/
structure Settings where
  stubs : StubSettings := {}
  invoke : InvokeSettings := {}
  logging : LogSettings := {}
deriving DecidableEq, Repr, Inhabited

theorem StubSettings.capacity_pos
    {s : StubSettings}
    {n : Nat}
    (h : s.capacity = some n) :
    0 < n := by
  unfold capacity at h
  split at h
  · cases h
  · simp only [Option.some.injEq] at h
    omega

end Linkage
