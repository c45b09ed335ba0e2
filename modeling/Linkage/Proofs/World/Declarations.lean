import Linkage.World
import Mathlib.Data.List.Nodup

/-
  What worlds are told.  A world comes of a list of
  declarations.  Each one adds at most one method, which is
  at a fixed address or takes a slot of the table: the one
  that it inherits, or a new one.  A class that gives a
  method a body runs it in the slot that the method took.

  Key definitions include:
    * `Declaration`
    * `World.declareAll`
    * `World.Besides`
    * `World.Takes`
    * `World.Tabled`
    * `World.Only`
    * `World.Gives`
    * `DeclaredOnce`

  Key theorems include:
    * `World.declare_cases`
    * `World.tabled_of_declareAll`
    * `World.only_of_declaredOnce`
-/

------------------------------------------------------------
-- Declarations
------------------------------------------------------------

namespace Linkage

/- What can be said of a world. -/
inductive Declaration where
| addClass (c : ClassInfo)
| method
    (owner : ClassName)
    (name : String)
    (sig : Signature)
    (flags : Flags)
    (body : Option Body)
| constructor
    (owner : ClassName)
    (sig : Signature)
    (body : Body)
| field
    (owner : ClassName)
    (name : String)
    (t : Ty)
    (flags : Flags)
| deny (n : ClassName)
deriving DecidableEq

/- A method of a class, of a name and a signature. -/
def Declaration.Names
    (n : ClassName)
    (name : String)
    (sig : Signature) : Declaration → Prop
| .method owner name' sig' _ _ =>
    owner = n ∧ name' = name ∧ sig' = sig
| .constructor owner sig' _ =>
    owner = n ∧ constructorName = name ∧ sig'.withRet .void = sig
| _ => False

namespace World

/- The world after a declaration, if that can be made. -/
def declare
    (w : World) : Declaration → Option World
| .addClass c => some { w with classes := w.classes.add c }
| .method owner name sig flags body =>
    w.addMethod owner name sig flags body
| .constructor owner sig body =>
    some (w.addConstructor owner sig body)
| .field owner name t flags => w.addField owner name t flags
| .deny n => some (w.deny n)

/- The world after declarations that are made in order. -/
def declareAll
    (w : World) : List Declaration → Option World
| [] => some w
| d :: ds => (w.declare d).bind (·.declareAll ds)

variable {w w' v : World}
variable {d : Declaration}
variable {ds before after : List Declaration}
variable {n owner : ClassName}
variable {name : String}
variable {sig : Signature}
variable {flags : Flags}
variable {body : Option Body}
variable {b : Body}
variable {m : Method}
variable {k : Nat}
variable {code : Code}

theorem declareAll_append :
    w.declareAll (before ++ after) =
      (w.declareAll before).bind (·.declareAll after) := by
  induction before generalizing w with
  | nil => rfl
  | cons d ds ih =>
      change (w.declare d).bind _ = ((w.declare d).bind _).bind _
      rw [Option.bind_assoc]
      congr 1
      funext v
      exact ih

/- What is kept by each declaration is kept by all of them. -/
theorem keeps_declareAll
    {P : World → Prop}
    (hAll : w.declareAll ds = some w')
    (hKeeps :
      ∀ d ∈ ds, ∀ v v' : World,
        P v → v.declare d = some v' → P v')
    (hBefore : P w) :
    P w' := by
  induction ds generalizing w with
  | nil =>
      cases hAll
      exact hBefore
  | cons d ds ih =>
      rcases Option.bind_eq_some_iff.1 hAll with
        ⟨v, hFirst, hRest⟩
      rw [List.forall_mem_cons] at hKeeps
      exact ih hRest hKeeps.2 (hKeeps.1 w v hBefore hFirst)

------------------------------------------------------------
-- One Declaration
------------------------------------------------------------

/- A declaration that takes no slot of the table. -/
structure Besides
    (w : World)
    (d : Declaration)
    (w' : World) : Prop where
  methods :
    ∃ ms,
      w'.methods = w.methods ++ ms ∧
        ∀ m ∈ ms,
          tableIndex? m.slot = none ∧
            d.Names m.declaring m.name m.signature
  bodies : ∃ bs, w'.bodies = w.bodies ++ bs
  implementations : w'.implementations = w.implementations
  lastSlot : w'.lastSlot = w.lastSlot
  overrides : w'.overrides = w.overrides

/-
  A method takes a slot of the table, and its class runs the
  body there if there is one.
-/
structure Takes
    (w : World)
    (owner : ClassName)
    (name : String)
    (sig : Signature)
    (body : Option Body)
    (k : Nat)
    (w' : World) : Prop where
  slot :
    w.inheritedSlot? owner name sig = some k ∧
        w'.lastSlot = w.lastSlot ∨
      w.inheritedSlot? owner name sig = none ∧
        k = w.lastSlot + 1 ∧ w'.lastSlot = k
  methods :
    ∃ m,
      w'.methods = w.methods ++ [m] ∧ m.declaring = owner ∧
        m.name = name ∧ m.signature = sig ∧
        tableIndex? m.slot = some k
  bodies :
    w'.bodies = w.bodies ++ (body.map (fun b => (name, b))).toList
  implementations :
    w'.implementations =
      (body.map
        (fun _ => ((owner, k), ⟨w.bodies.length⟩))).toList ++
          w.implementations
  overrides : w'.overrides = w.overrides

theorem tableIndex?_tableSlot
    (w : World)
    (owner : ClassName)
    (k : Nat) :
    tableIndex? (w.tableSlot owner k) = some k := by
  unfold tableSlot
  split
  · rfl
  · rfl

theorem besides_addMethod
    (hFixed : isFixed flags = true)
    (hAdd : w.addMethod owner name sig flags body = some w') :
    w.Besides (.method owner name sig flags body) w' := by
  unfold addMethod at hAdd
  cases body with
  | none =>
      dsimp only at hAdd
      rw [if_pos hFixed] at hAdd
      cases hAdd
  | some b =>
      dsimp only at hAdd
      rw [if_pos hFixed] at hAdd
      cases hAdd
      refine ⟨⟨_, rfl, ?_⟩, ⟨_, rfl⟩, rfl, rfl, rfl⟩
      rw [List.forall_mem_singleton]
      exact ⟨rfl, rfl, rfl, rfl⟩

theorem exists_takes_addMethod
    (hTable : isFixed flags = false)
    (hAdd : w.addMethod owner name sig flags body = some w') :
    ∃ k, w.Takes owner name sig body k w' := by
  have hNot : ¬isFixed flags = true := by
    rw [hTable]
    exact Bool.false_ne_true
  unfold addMethod at hAdd
  cases body with
  | none =>
      dsimp only [implement] at hAdd
      rw [if_neg hNot] at hAdd
      unfold takeSlot at hAdd
      split at hAdd
      · rename_i k hInherited
        cases hAdd
        exact
          ⟨k, .inl ⟨hInherited, rfl⟩,
            ⟨_, rfl, rfl, rfl, rfl, tableIndex?_tableSlot ..⟩,
            (List.append_nil _).symm, rfl, rfl⟩
      · rename_i hNone
        cases hAdd
        exact
          ⟨_, .inr ⟨hNone, rfl, rfl⟩,
            ⟨_, rfl, rfl, rfl, rfl, tableIndex?_tableSlot ..⟩,
            (List.append_nil _).symm, rfl, rfl⟩
  | some b =>
      dsimp only [implement] at hAdd
      rw [if_neg hNot] at hAdd
      unfold takeSlot at hAdd
      split at hAdd
      · rename_i k hInherited
        cases hAdd
        exact
          ⟨k, .inl ⟨hInherited, rfl⟩,
            ⟨_, rfl, rfl, rfl, rfl, tableIndex?_tableSlot ..⟩,
            rfl, rfl, rfl⟩
      · rename_i hNone
        cases hAdd
        exact
          ⟨_, .inr ⟨hNone, rfl, rfl⟩,
            ⟨_, rfl, rfl, rfl, rfl, tableIndex?_tableSlot ..⟩,
            rfl, rfl, rfl⟩

/-
  A declaration takes a slot if it is one of a method that is
  not at a fixed address, and only then.
-/
theorem declare_cases
    (hDeclare : w.declare d = some w') :
    w.Besides d w' ∨
      ∃ owner name sig flags body k,
        d = .method owner name sig flags body ∧
          isFixed flags = false ∧
          w.Takes owner name sig body k w' := by
  have hSame {u : World} {d : Declaration}
      (hMethods : u.methods = w.methods)
      (hBodies : u.bodies = w.bodies)
      (hImplementations : u.implementations = w.implementations)
      (hSlot : u.lastSlot = w.lastSlot)
      (hPlaced : u.overrides = w.overrides) :
      w.Besides d u := by
    refine
      ⟨⟨[], ?_, List.forall_mem_nil _⟩, ⟨[], ?_⟩,
        hImplementations, hSlot, hPlaced⟩
    · rw [hMethods, List.append_nil]
    · rw [hBodies, List.append_nil]
  cases d with
  | addClass c =>
      cases hDeclare
      exact .inl (hSame rfl rfl rfl rfl rfl)
  | method owner name sig flags body =>
      cases hFixed : isFixed flags with
      | true => exact .inl (besides_addMethod hFixed hDeclare)
      | false =>
          rcases exists_takes_addMethod hFixed hDeclare with
            ⟨k, hTakes⟩
          exact .inr ⟨_, _, _, _, _, k, rfl, hFixed, hTakes⟩
  | constructor owner sig body =>
      cases hDeclare
      refine .inl ⟨⟨_, rfl, ?_⟩, ⟨_, rfl⟩, rfl, rfl, rfl⟩
      rw [List.forall_mem_singleton]
      exact ⟨rfl, rfl, rfl, rfl⟩
  | field owner name t flags =>
      change w.addField owner name t flags = some w' at hDeclare
      unfold addField at hDeclare
      dsimp only at hDeclare
      split at hDeclare
      · cases hDeclare
        exact .inl (hSame rfl rfl rfl rfl rfl)
      · rcases Option.map_eq_some_iff.1 hDeclare with
          ⟨ts, _, rfl⟩
        exact .inl (hSame rfl rfl rfl rfl rfl)
  | deny n =>
      cases hDeclare
      exact .inl (hSame rfl rfl rfl rfl rfl)

/- Each declaration adds methods that it names. -/
theorem exists_methods_declare
    (hDeclare : w.declare d = some w') :
    ∃ ms,
      w'.methods = w.methods ++ ms ∧
        ∀ m ∈ ms, d.Names m.declaring m.name m.signature := by
  rcases declare_cases hDeclare with
    hBesides | ⟨owner, name, sig, flags, body, k, rfl, _, hTakes⟩
  · rcases hBesides.methods with ⟨ms, hMethods, hNew⟩
    exact ⟨ms, hMethods, fun m hm => (hNew m hm).2⟩
  · rcases hTakes.methods with
      ⟨m, hMethods, hOwner, hName, hSig, _⟩
    refine ⟨[m], hMethods, ?_⟩
    rw [List.forall_mem_singleton]
    exact ⟨hOwner.symm, hName.symm, hSig.symm⟩

theorem mem_methods_declare
    (hDeclare : w.declare d = some w')
    (hm : m ∈ w.methods) :
    m ∈ w'.methods := by
  rcases exists_methods_declare hDeclare with ⟨ms, hMethods, _⟩
  rw [hMethods]
  exact List.mem_append_left _ hm

theorem exists_bodies_declare
    (hDeclare : w.declare d = some w') :
    ∃ bs, w'.bodies = w.bodies ++ bs := by
  rcases declare_cases hDeclare with
    hBesides | ⟨owner, name, sig, flags, body, k, rfl, _, hTakes⟩
  · exact hBesides.bodies
  · exact ⟨_, hTakes.bodies⟩

/- The body at an address stays there. -/
theorem bodies_declare
    {x : String × Body}
    {i : Nat}
    (hDeclare : w.declare d = some w')
    (hAt : w.bodies[i]? = some x) :
    w'.bodies[i]? = some x := by
  rcases exists_bodies_declare hDeclare with ⟨bs, hBodies⟩
  rw [hBodies]
  exact
    (List.getElem?_append_left
      (List.getElem?_eq_some_iff.1 hAt).1).trans hAt

------------------------------------------------------------
-- Tables
------------------------------------------------------------

/- The slot of a method in the table, if it is one of a class. -/
def indexIn?
    (name : String)
    (sig : Signature)
    (n : ClassName)
    (m : Method) : Option Nat :=
  if m.declaring = n && m.name = name && m.signature = sig
  then tableIndex? m.slot
  else none

theorem slotIn?_eq
    (w : World)
    (name : String)
    (sig : Signature)
    (n : ClassName) :
    w.slotIn? name sig n =
      w.methods.findSome? (indexIn? name sig n) :=
  rfl

/- A slot of the table is one for a name and a signature. -/
def Holds
    (w : World)
    (k : Nat)
    (name : String)
    (sig : Signature) : Prop :=
  ∃ m ∈ w.methods,
    tableIndex? m.slot = some k ∧ m.name = name ∧
      m.signature = sig

theorem Holds.declare
    (hHolds : w.Holds k name sig)
    (hDeclare : w.declare d = some w') :
    w'.Holds k name sig := by
  rcases hHolds with ⟨m, hm, hRest⟩
  exact ⟨m, mem_methods_declare hDeclare hm, hRest⟩

theorem holds_of_slotIn?
    (hSlot : w.slotIn? name sig n = some k) :
    w.Holds k name sig := by
  rw [slotIn?_eq] at hSlot
  rcases List.exists_of_findSome?_eq_some hSlot with
    ⟨m, hm, hFound⟩
  unfold indexIn? at hFound
  split at hFound
  · rename_i hAsked
    simp only [Bool.and_eq_true, decide_eq_true_eq] at hAsked
    exact ⟨m, hm, hFound, hAsked.1.2, hAsked.2⟩
  · cases hFound

theorem holds_of_inheritedSlot?
    (hSlot : w.inheritedSlot? owner name sig = some k) :
    w.Holds k name sig := by
  rcases List.exists_of_findSome?_eq_some hSlot with
    ⟨n, _, hFound⟩
  exact holds_of_slotIn? hFound

/-
  The table of a world that was told some declarations.  A
  slot is for one name and one signature, and not above the
  last one.  What a class runs in a slot is a body that it
  was given for a method in that slot, and no other class
  runs it, or in no other slot.
-/
structure Tabled
    (ds : List Declaration)
    (w : World) : Prop where
  placed : w.overrides = []
  bounded :
    ∀ k name sig, w.Holds k name sig → k ≤ w.lastSlot
  named :
    ∀ k name sig name' sig',
      w.Holds k name sig → w.Holds k name' sig' →
        name' = name ∧ sig' = sig
  filled :
    ∀ n k c,
      ((n, k), c) ∈ w.implementations →
        ∃ m ∈ w.methods,
          m.declaring = n ∧ tableIndex? m.slot = some k ∧
            ∃ flags b,
              .method n m.name m.signature flags (some b) ∈ ds ∧
                w.bodies[c.index]? = some (m.name, b)
  distinct : (w.implementations.map Prod.snd).Nodup

theorem tabled_initial (T : ClassTable) :
    (initial T).Tabled [] where
  placed := rfl
  bounded := nofun
  named := nofun
  filled := nofun
  distinct := List.nodup_nil

/- The slots after a method was put into the table. -/
theorem Takes.holds_iff
    {name' : String}
    {sig' : Signature}
    {j : Nat}
    (hTakes : w.Takes owner name sig body k w') :
    w'.Holds j name' sig' ↔
      w.Holds j name' sig' ∨ j = k ∧ name' = name ∧ sig' = sig := by
  rcases hTakes.methods with ⟨m, hMethods, _, hName, hSig, hSlot⟩
  unfold Holds
  rw [hMethods]
  constructor
  · rintro ⟨x, hx, hIndex, hName', hSig'⟩
    rcases List.mem_append.1 hx with hOld | hNew
    · exact .inl ⟨x, hOld, hIndex, hName', hSig'⟩
    · cases List.mem_singleton.1 hNew
      rw [hSlot] at hIndex
      cases hIndex
      exact .inr ⟨rfl, hName'.symm.trans hName, hSig'.symm.trans hSig⟩
  · rintro (⟨x, hx, hRest⟩ | ⟨rfl, rfl, rfl⟩)
    · exact ⟨x, List.mem_append_left _ hx, hRest⟩
    · exact
        ⟨m, List.mem_append_right _ List.mem_cons_self, hSlot, hName,
          hSig⟩

theorem Besides.holds_iff
    {name' : String}
    {sig' : Signature}
    {j : Nat}
    (hBesides : w.Besides d w') :
    w'.Holds j name' sig' ↔ w.Holds j name' sig' := by
  rcases hBesides.methods with ⟨ms, hMethods, hNew⟩
  unfold Holds
  rw [hMethods]
  constructor
  · rintro ⟨x, hx, hIndex, hRest⟩
    rcases List.mem_append.1 hx with hOld | hAdded
    · exact ⟨x, hOld, hIndex, hRest⟩
    · rw [(hNew x hAdded).1] at hIndex
      cases hIndex
  · rintro ⟨x, hx, hRest⟩
    exact ⟨x, List.mem_append_left _ hx, hRest⟩

/- A slot that is taken is new, or one for the same method. -/
theorem Tabled.eq_of_takes
    {name' : String}
    {sig' : Signature}
    (hTabled : w.Tabled ds)
    (hTakes : w.Takes owner name sig body k w')
    (hHolds : w.Holds k name' sig') :
    name' = name ∧ sig' = sig := by
  rcases hTakes.slot with ⟨hInherited, _⟩ | ⟨_, rfl, _⟩
  · exact
      hTabled.named k _ _ _ _ (holds_of_inheritedSlot? hInherited)
        hHolds
  · exact
      absurd (hTabled.bounded _ _ _ hHolds) (Nat.not_succ_le_self _)

/- What was filled before stays filled. -/
theorem Tabled.filled_declare
    (hTabled : w.Tabled ds)
    (hDeclare : w.declare d = some w')
    (hMem : ((n, k), code) ∈ w.implementations) :
    ∃ m ∈ w'.methods,
      m.declaring = n ∧ tableIndex? m.slot = some k ∧
        ∃ flags b,
          .method n m.name m.signature flags (some b) ∈ ds ++ [d] ∧
            w'.bodies[code.index]? = some (m.name, b) := by
  rcases hTabled.filled n k code hMem with
    ⟨m, hm, hOwner, hSlot, flags, b, hTold, hAt⟩
  exact
    ⟨m, mem_methods_declare hDeclare hm, hOwner, hSlot, flags, b,
      List.mem_append_left _ hTold, bodies_declare hDeclare hAt⟩

theorem Tabled.takes
    (hTabled : w.Tabled ds)
    (hDeclare :
      w.declare (.method owner name sig flags body) = some w')
    (hTakes : w.Takes owner name sig body k w') :
    w'.Tabled (ds ++ [.method owner name sig flags body]) where
  placed := hTakes.overrides.trans hTabled.placed
  bounded := by
    intro j name' sig' hHolds
    rcases hTakes.holds_iff.1 hHolds with hOld | ⟨rfl, _⟩
    · have hLe := hTabled.bounded _ _ _ hOld
      rcases hTakes.slot with ⟨_, hLast⟩ | ⟨_, hNew, hLast⟩
      · rw [hLast]
        exact hLe
      · omega
    · rcases hTakes.slot with ⟨hInherited, hLast⟩ | ⟨_, _, hLast⟩
      · rw [hLast]
        exact
          hTabled.bounded _ _ _ (holds_of_inheritedSlot? hInherited)
      · exact Nat.le_of_eq hLast.symm
  named := by
    intro j name₁ sig₁ name₂ sig₂ hFirst hSecond
    rcases hTakes.holds_iff.1 hFirst with hOld | ⟨rfl, rfl, rfl⟩
    · rcases hTakes.holds_iff.1 hSecond with
        hOld' | ⟨rfl, rfl, rfl⟩
      · exact hTabled.named _ _ _ _ _ hOld hOld'
      · have hSame := hTabled.eq_of_takes hTakes hOld
        exact ⟨hSame.1.symm, hSame.2.symm⟩
    · rcases hTakes.holds_iff.1 hSecond with
        hOld' | ⟨_, hName, hSig⟩
      · exact hTabled.eq_of_takes hTakes hOld'
      · exact ⟨hName, hSig⟩
  filled := by
    intro n j c hMem
    rw [hTakes.implementations] at hMem
    rcases List.mem_append.1 hMem with hNew | hOld
    · cases body with
      | none => cases hNew
      | some b =>
          cases List.mem_singleton.1 hNew
          rcases hTakes.methods with
            ⟨m, hMethods, rfl, rfl, rfl, hSlot⟩
          refine ⟨m, ?_, rfl, hSlot, flags, b, ?_, ?_⟩
          · rw [hMethods]
            exact List.mem_append_right _ List.mem_cons_self
          · exact List.mem_append_right _ List.mem_cons_self
          · rw [hTakes.bodies]
            exact List.getElem?_concat_length
    · exact hTabled.filled_declare hDeclare hOld
  distinct := by
    rw [hTakes.implementations]
    cases body with
    | none => exact hTabled.distinct
    | some b =>
        refine List.nodup_cons.2 ⟨?_, hTabled.distinct⟩
        intro hMem
        rcases List.mem_map.1 hMem with ⟨⟨⟨n, j⟩, c⟩, hOld, rfl⟩
        rcases hTabled.filled n j _ hOld with
          ⟨_, _, _, _, _, _, _, hAt⟩
        exact
          absurd (List.getElem?_eq_some_iff.1 hAt).1
            (Nat.lt_irrefl _)

theorem Tabled.besides
    (hTabled : w.Tabled ds)
    (hDeclare : w.declare d = some w')
    (hBesides : w.Besides d w') :
    w'.Tabled (ds ++ [d]) where
  placed := hBesides.overrides.trans hTabled.placed
  bounded := by
    intro j name' sig' hHolds
    rw [hBesides.lastSlot]
    exact hTabled.bounded _ _ _ (hBesides.holds_iff.1 hHolds)
  named := by
    intro j name₁ sig₁ name₂ sig₂ hFirst hSecond
    exact
      hTabled.named _ _ _ _ _ (hBesides.holds_iff.1 hFirst)
        (hBesides.holds_iff.1 hSecond)
  filled := by
    intro n j c hMem
    rw [hBesides.implementations] at hMem
    exact hTabled.filled_declare hDeclare hMem
  distinct := by
    rw [hBesides.implementations]
    exact hTabled.distinct

theorem Tabled.declare
    (hTabled : w.Tabled ds)
    (hDeclare : w.declare d = some w') :
    w'.Tabled (ds ++ [d]) := by
  rcases declare_cases hDeclare with
    hBesides | ⟨owner, name, sig, flags, body, k, rfl, _, hTakes⟩
  · exact hTabled.besides hDeclare hBesides
  · exact hTabled.takes hDeclare hTakes

/- All that is told keeps the table in order. -/
theorem Tabled.declareAll
    (hTabled : w.Tabled before)
    (hAll : w.declareAll ds = some w') :
    w'.Tabled (before ++ ds) := by
  induction ds generalizing w before with
  | nil =>
      cases hAll
      rw [List.append_nil]
      exact hTabled
  | cons d ds ih =>
      rcases Option.bind_eq_some_iff.1 hAll with
        ⟨v, hFirst, hRest⟩
      rw [List.append_cons]
      exact ih (hTabled.declare hFirst) hRest

theorem tabled_of_declareAll
    {T : ClassTable}
    (hAll : (initial T).declareAll ds = some w) :
    w.Tabled ds :=
  (tabled_initial T).declareAll hAll

/- What a class runs in a slot, it runs nowhere else. -/
theorem Tabled.eq_of_lookup
    {n' : ClassName}
    {k' : Nat}
    (hTabled : w.Tabled ds)
    (hHere : w.implementations.lookup (n, k) = some code)
    (hThere : w.implementations.lookup (n', k') = some code) :
    n' = n ∧ k' = k := by
  have hMem {x : ClassName × Nat}
      (hLookup : w.implementations.lookup x = some code) :
      (x, code) ∈ w.implementations := by
    rcases List.lookup_eq_some_iff.1 hLookup with
      ⟨xs, ys, hEq, _⟩
    rw [hEq]
    exact List.mem_append_right _ List.mem_cons_self
  have hSame :=
    List.inj_on_of_nodup_map hTabled.distinct (hMem hThere)
      (hMem hHere) rfl
  cases hSame
  exact ⟨rfl, rfl⟩

------------------------------------------------------------
-- What a Class is Told Once
------------------------------------------------------------

/- What a class does not declare is no new method of it. -/
theorem mem_methods_of_not_names
    (hDeclare : w.declare d = some w')
    (hOther : ¬d.Names n name sig)
    (hm : m ∈ w'.methods)
    (hOwner : m.declaring = n)
    (hName : m.name = name)
    (hSig : m.signature = sig) :
    m ∈ w.methods := by
  rcases exists_methods_declare hDeclare with
    ⟨ms, hMethods, hNew⟩
  rw [hMethods] at hm
  rcases List.mem_append.1 hm with hOld | hAdded
  · exact hOld
  · have hNames := hNew m hAdded
    rw [hOwner, hName, hSig] at hNames
    exact absurd hNames hOther

/- A method that a class has is its only one of that name. -/
structure Only
    (w : World)
    (n : ClassName)
    (name : String)
    (sig : Signature)
    (m : Method) : Prop where
  mem : m ∈ w.methods
  owner_eq : m.declaring = n
  name_eq : m.name = name
  sig_eq : m.signature = sig
  unique :
    ∀ x ∈ w.methods,
      x.declaring = n → x.name = name → x.signature = sig → x = m

/- It stays so until the class declares the method again. -/
theorem Only.declare
    (hOnly : w.Only n name sig m)
    (hOther : ¬d.Names n name sig)
    (hDeclare : w.declare d = some w') :
    w'.Only n name sig m where
  mem := mem_methods_declare hDeclare hOnly.mem
  owner_eq := hOnly.owner_eq
  name_eq := hOnly.name_eq
  sig_eq := hOnly.sig_eq
  unique := by
    intro x hx hOwner hName hSig
    exact
      hOnly.unique x
        (mem_methods_of_not_names hDeclare hOther hx hOwner hName
          hSig)
        hOwner hName hSig

/- The only method of a class is the one that it shows. -/
theorem Only.declared?_eq
    (hOnly : w.Only n name sig m) :
    w.declared? name sig n = some m := by
  cases hShown : w.declared? name sig n with
  | none =>
      have hNot := List.find?_eq_none.1 hShown m hOnly.mem
      simp [hOnly.owner_eq, hOnly.name_eq, hOnly.sig_eq] at hNot
  | some x =>
      have hAsked := List.find?_some hShown
      simp only [Bool.and_eq_true, decide_eq_true_eq] at hAsked
      rw [
        hOnly.unique x (List.mem_of_find?_eq_some hShown)
          hAsked.1.1 hAsked.1.2 hAsked.2]

/- A slot of a class that declares a method in the table. -/
theorem slotIn?_of_declared?
    (hSome : w.declared? name sig n = some m)
    (hSlot : tableIndex? m.slot = some k) :
    w.slotIn? name sig n = some k := by
  unfold declared? at hSome
  rcases List.find?_eq_some_iff_append.1 hSome with
    ⟨hAsked, before, after, hMethods, hBefore⟩
  have hNone :
      before.findSome? (indexIn? name sig n) = none := by
    refine List.findSome?_eq_none_iff.2 ?_
    intro x hx
    have hNot := hBefore x hx
    rw [Bool.not_eq_true'] at hNot
    exact if_neg (Bool.eq_false_iff.1 hNot)
  have hHere : indexIn? name sig n m = some k :=
    (if_pos hAsked).trans hSlot
  rw [slotIn?_eq, hMethods, List.findSome?_append,
    List.findSome?_cons, hNone, hHere]
  rfl

/- A class runs a body for a method in a slot of the table. -/
structure Gives
    (w : World)
    (n : ClassName)
    (k : Nat)
    (name : String)
    (sig : Signature)
    (b : Body)
    (code : Code) : Prop where
  installed : w.implementations.lookup (n, k) = some code
  body : w.bodies[code.index]? = some (name, b)
  holds : w.Holds k name sig

/- It does so until it declares the method again. -/
theorem Gives.declare
    (hTabled : w.Tabled ds)
    (hGives : w.Gives n k name sig b code)
    (hOther : ¬d.Names n name sig)
    (hDeclare : w.declare d = some w') :
    w'.Gives n k name sig b code := by
  refine
    ⟨?_, bodies_declare hDeclare hGives.body,
      hGives.holds.declare hDeclare⟩
  rcases declare_cases hDeclare with
    hBesides | ⟨owner, name', sig', flags, body, j, rfl, _, hTakes⟩
  · rw [hBesides.implementations]
    exact hGives.installed
  · rw [hTakes.implementations]
    cases body with
    | none => exact hGives.installed
    | some b' =>
        have hApart : (n, k) ≠ (owner, j) := by
          intro hSame
          cases hSame
          rcases hTabled.eq_of_takes hTakes hGives.holds with
            ⟨hName, hSig⟩
          exact hOther ⟨rfl, hName.symm, hSig.symm⟩
        change List.lookup (n, k) (_ :: _) = _
        rw [List.lookup_cons, beq_eq_false_iff_ne.2 hApart]
        exact hGives.installed

end World

/-
  A class is told once of a method of a name and a signature,
  and with a body if there is one.
-/
def DeclaredOnce
    (ds : List Declaration)
    (n : ClassName)
    (name : String)
    (sig : Signature)
    (flags : Flags)
    (body : Option Body) : Prop :=
  ∃ before after,
    ds = before ++ .method n name sig flags body :: after ∧
      (∀ d ∈ before, ¬d.Names n name sig) ∧
      ∀ d ∈ after, ¬d.Names n name sig

namespace World

/-
  A method that a class is told of once, and that is not at a
  fixed address, is the only one of its name.  It is in a slot
  of the table, and if it has a body the class runs it there.
-/
theorem only_of_declaredOnce
    {T : ClassTable}
    (hAll : (initial T).declareAll ds = some w)
    (hOnce : DeclaredOnce ds n name sig flags body)
    (hTable : isFixed flags = false) :
    ∃ m k,
      w.Only n name sig m ∧ tableIndex? m.slot = some k ∧
        ∀ b ∈ body, ∃ code, w.Gives n k name sig b code := by
  rcases hOnce with ⟨before, after, rfl, hBefore, hAfter⟩
  rw [declareAll_append] at hAll
  rcases Option.bind_eq_some_iff.1 hAll with ⟨u, hFirst, hRest⟩
  rcases Option.bind_eq_some_iff.1 hRest with
    ⟨v, hDeclare, hLast⟩
  have hTabled := tabled_of_declareAll hFirst
  rcases exists_takes_addMethod hTable hDeclare with ⟨k, hTakes⟩
  rcases hTakes.methods with
    ⟨m, hMethods, hOwner, hName, hSig, hSlot⟩
  have hNone :
      ∀ x ∈ u.methods,
        x.declaring = n → x.name = name → x.signature ≠ sig := by
    refine
      keeps_declareAll
        (P := fun y =>
          ∀ x ∈ y.methods,
            x.declaring = n → x.name = name → x.signature ≠ sig)
        hFirst ?_ nofun
    intro d hd y y' hy hStep x hx hOwner hName hSig
    exact
      hy x
        (mem_methods_of_not_names hStep (hBefore d hd) hx hOwner
          hName hSig)
        hOwner hName hSig
  have hOnly : v.Only n name sig m := by
    refine ⟨?_, hOwner, hName, hSig, ?_⟩
    · rw [hMethods]
      exact List.mem_append_right _ List.mem_cons_self
    · rw [hMethods]
      intro x hx hOwner' hName' hSig'
      rcases List.mem_append.1 hx with hOld | hAdded
      · exact absurd hSig' (hNone x hOld hOwner' hName')
      · exact List.mem_singleton.1 hAdded
  have hKept : w.Only n name sig m :=
    keeps_declareAll (P := fun x => x.Only n name sig m) hLast
      (fun d hd _ _ hx hStep => hx.declare (hAfter d hd) hStep)
      hOnly
  refine ⟨m, k, hKept, hSlot, ?_⟩
  rintro b rfl
  have hGives : v.Gives n k name sig b ⟨u.bodies.length⟩ := by
    refine ⟨?_, ?_, hTakes.holds_iff.2 (.inr ⟨rfl, rfl, rfl⟩)⟩
    · rw [hTakes.implementations]
      exact List.lookup_cons_self
    · rw [hTakes.bodies]
      exact List.getElem?_concat_length
  refine ⟨⟨u.bodies.length⟩, ?_⟩
  refine
    (keeps_declareAll
      (P := fun x =>
        (∃ ds, x.Tabled ds) ∧ x.Gives n k name sig b _)
      hLast ?_ ⟨⟨_, hTabled.declare hDeclare⟩, hGives⟩).2
  rintro d hd x x' ⟨⟨ds, hx⟩, hHere⟩ hStep
  exact
    ⟨⟨_, hx.declare hStep⟩, hHere.declare hx (hAfter d hd) hStep⟩

end World

end Linkage
