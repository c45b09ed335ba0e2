import Linkage.State

/-
  Liveness: a target that nothing holds is forgotten.  What
  is held are the roots of the state and all that they reach
  through delegates, values, cells, elements, handles and
  call sites.  A call site or an object that reaches itself
  is never released, so it counts as held.

  Key definitions include:
    * `Place`
    * `Root.place`
    * `State.children`
    * `State.places`
    * `State.sweep`
    * `State.reaches`
    * `State.isAlive`
-/

------------------------------------------------------------
-- Places and edges
------------------------------------------------------------

namespace Linkage

/- The identity of a thing that can be held. -/
inductive Place where
| target (id : Nat)
| object (id : Nat)
| site (id : Nat)
deriving DecidableEq, Repr

def Root.place : Root → Place
| target t => .target t.id
| object i => .object i
| site s => .site s.index

/- The things that a cell holds. -/
def Cell.roots : Cell → List Root
| bits _ _ => []
| ref v => v.roots

/- The things that the contents of an object hold. -/
def Contents.roots : Contents → List Root
| fixed => []
| cells cs => cs.flatMap Cell.roots
| elements vs => vs.flatMap Value.roots
| target t => [.target t]

/- The things that a node holds. -/
def Target.roots (t : Target) : List Root :=
  t.form.targets.map Root.target ++
    t.form.values.flatMap Value.roots ++
    t.form.sites.map Root.site

namespace State

/- The things that one thing holds directly. -/
def children
    (s : State) : Root → List Root
| .target t => t.roots
| .object i =>
    match s.heap.at? i with
    | some c => c.roots
    | none => []
| .site i =>
    match s.site? i with
    | some x => [.target x.target]
    | none => []

/- Every place that is in use. -/
def places (s : State) : List Place :=
  (List.range s.nextId).map Place.target ++
    (List.range s.heap.size).map Place.object ++
    (List.range s.sites.size).map Place.site

------------------------------------------------------------
-- Reachability
------------------------------------------------------------

/-
  The places that a walk from the things at hand does not
  reach, out of the places not visited before.
-/
def sweep
    (s : State)
    (unvisited : List Place)
    (work : List Root) : List Place :=
  match work with
  | [] => unvisited
  | r :: rest =>
      if r.place ∈ unvisited then
        s.sweep (unvisited.erase r.place) (s.children r ++ rest)
      else s.sweep unvisited rest
termination_by (unvisited.length, work.length)
decreasing_by
  · rename_i h
    apply Prod.Lex.left
    rw [List.length_erase_of_mem h]
    have := List.length_pos_of_mem h
    omega
  · exact Prod.Lex.right _ (by simp)

/- Some of the things at hand reach a place. -/
def reaches
    (s : State)
    (work : List Root)
    (p : Place) : Bool :=
  p ∉ s.sweep s.places work

/- Objects and call sites that reach themselves. -/
def cycles (s : State) : List Root :=
  let holders : List Root :=
    (List.range s.heap.size).map Root.object ++
      (List.range s.sites.size).map (fun i => Root.site ⟨i⟩)
  holders.filter (fun r => s.reaches (s.children r) r.place)

/- Something still holds a target. -/
def isAlive
    (s : State)
    (t : Target) : Bool :=
  s.reaches s.held (.target t.id) ||
    s.reaches s.cycles (.target t.id)

end State

end Linkage
