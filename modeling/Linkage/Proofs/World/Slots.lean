import Linkage.Proofs.ClassTable.Walks
import Linkage.Proofs.World.Declarations
import Linkage.Proofs.World.Layout
import Mathlib.Data.List.Find

/-
  Classes that share a slot.  A method takes the slot of the
  nearest supertype that declares it, and of no other one.  So
  if supertypes come first, two classes have one slot exactly
  if the steps to the nearest supertype lead from both to one
  class.  This is so for a class and each of its supertypes
  if, of any two supertypes of a class, one is above the other.

  Key definitions include:
    * `World.overridden?`
    * `World.Linked`
    * `Declaration.Precedes`
    * `World.MethodsInOrder`
    * `World.InLine`

  Key theorems include:
    * `World.inheritedSlot?_eq`
    * `World.overridden?_settled`
    * `World.slotIn?_eq_iff_linked`
    * `World.linked_of_inLine`
-/

------------------------------------------------------------
-- Supertypes First
------------------------------------------------------------

namespace Linkage

/-
  One declaration may come before another.  After a method in
  the table, no class is added that is its own or one above,
  and the method is not declared in a class above.
-/
def Declaration.Precedes
    (T : ClassTable) : Declaration → Declaration → Prop
| .method n name sig flags _, .method m name' sig' flags' _ =>
    World.isFixed flags = false → World.isFixed flags' = false →
      name' = name → sig' = sig → m ≠ n → ¬T.Reaches n m
| .method n _ _ flags _, .addClass c =>
    World.isFixed flags = false → ¬T.Reaches n c.name
| _, _ => True

------------------------------------------------------------
-- The Nearest Supertype
------------------------------------------------------------

namespace World

variable {w w' v v' : World}
variable {d : Declaration}
variable {ds : List Declaration}
variable {n m owner : ClassName}
variable {name : String}
variable {sig : Signature}
variable {flags : Flags}
variable {body : Option Body}
variable {k j : Nat}

/- The first supertype that has the method in the table. -/
def overridden?
    (w : World)
    (name : String)
    (sig : Signature)
    (n : ClassName) : Option ClassName :=
  ((w.classes.supertypes n).drop 1).find?
    (fun m => (w.slotIn? name sig m).isSome)

/- A method overrides that of the nearest supertype. -/
def Overrides
    (w : World)
    (name : String)
    (sig : Signature)
    (n m : ClassName) : Prop :=
  w.overridden? name sig n = some m

/- Steps to the nearest supertypes lead from both to one. -/
def Linked
    (w : World)
    (name : String)
    (sig : Signature) : ClassName → ClassName → Prop :=
  Relation.Join (Relation.ReflTransGen (w.Overrides name sig))

theorem findSome?_eq_bind
    {α β : Type}
    (f : α → Option β)
    (as : List α) :
    as.findSome? f = (as.find? (fun a => (f a).isSome)).bind f := by
  induction as with
  | nil => rfl
  | cons a as ih =>
      rw [List.findSome?_cons, List.find?_cons]
      cases hFirst : f a with
      | none => exact ih
      | some b => exact hFirst.symm

/- The slot that is inherited is that of the nearest one. -/
theorem inheritedSlot?_eq
    (w : World)
    (n : ClassName)
    (name : String)
    (sig : Signature) :
    w.inheritedSlot? n name sig =
      (w.overridden? name sig n).bind (w.slotIn? name sig) :=
  findSome?_eq_bind _ _

theorem exists_overridden
    (hReaches : w.classes.Reaches n m)
    (hOther : m ≠ n)
    (hSlot : (w.slotIn? name sig m).isSome = true) :
    ∃ p,
      w.Overrides name sig n p ∧ w.classes.Reaches n p ∧ p ≠ n ∧
        (w.slotIn? name sig p).isSome = true := by
  have hMem : m ∈ (w.classes.supertypes n).drop 1 :=
    ClassTable.mem_supertypes_tail_iff.2 ⟨hReaches, hOther⟩
  cases hFirst : w.overridden? name sig n with
  | none =>
      unfold overridden? at hFirst
      exact absurd hSlot (List.find?_eq_none.1 hFirst m hMem)
  | some p =>
      have hMem' :=
        ClassTable.mem_supertypes_tail_iff.1
          (List.mem_of_find?_eq_some hFirst)
      have hSome := List.find?_some hFirst
      exact ⟨p, hFirst, hMem'.1, hMem'.2, hSome⟩

------------------------------------------------------------
-- Slots after a Declaration
------------------------------------------------------------

theorem slotIn?_append
    {ms : List Method}
    (hMethods : w'.methods = w.methods ++ ms) :
    w'.slotIn? name sig n =
      (w.slotIn? name sig n).or
        (ms.findSome? (indexIn? name sig n)) := by
  rw [slotIn?_eq, hMethods, List.findSome?_append]
  rfl

theorem Besides.slotIn?_eq
    (hBesides : w.Besides d w') :
    w'.slotIn? name sig n = w.slotIn? name sig n := by
  rcases hBesides.methods with ⟨ms, hMethods, hNew⟩
  have hNone : ms.findSome? (indexIn? name sig n) = none := by
    refine List.findSome?_eq_none_iff.2 ?_
    intro m hm
    unfold indexIn?
    split
    · exact (hNew m hm).1
    · rfl
  rw [slotIn?_append hMethods, hNone, Option.or_none]

/- A class that declares a method has a slot from then on. -/
theorem Takes.slotIn?_eq
    {name' : String}
    {sig' : Signature}
    (hTakes : w.Takes owner name' sig' body k w') :
    w'.slotIn? name sig n =
      (w.slotIn? name sig n).or
        (if owner = n ∧ name' = name ∧ sig' = sig
        then some k
        else none) := by
  rcases hTakes.methods with
    ⟨m, hMethods, rfl, rfl, rfl, hSlot⟩
  rw [slotIn?_append hMethods, List.findSome?_singleton]
  unfold indexIn?
  simp only [Bool.and_eq_true, decide_eq_true_eq, hSlot, and_assoc]

/- A slot of a class stays with the class. -/
theorem slotIn?_of_some
    (hDeclare : w.declare d = some w')
    (hSome : w.slotIn? name sig n = some k) :
    w'.slotIn? name sig n = some k := by
  rcases exists_methods_declare hDeclare with ⟨ms, hMethods, _⟩
  rw [slotIn?_append hMethods, hSome, Option.some_or]

theorem classes_declare
    (hDeclare : w.declare d = some w') :
    w'.classes = w.classes ∨
      ∃ c, d = .addClass c ∧ w'.classes = w.classes.add c := by
  cases d with
  | addClass c =>
      cases hDeclare
      exact .inr ⟨c, rfl, rfl⟩
  | method owner name sig flags body =>
      exact .inl (sameFields_addMethod hDeclare).classes
  | constructor owner sig body =>
      cases hDeclare
      exact .inl rfl
  | field owner name t flags =>
      rcases of_addField hDeclare with ⟨f, _, hClasses, _⟩
      exact .inl hClasses
  | deny n =>
      cases hDeclare
      exact .inl rfl

------------------------------------------------------------
-- Declarations in Order
------------------------------------------------------------

/- What a method builds on is declared before it. -/
def MethodsInOrder
    (w : World)
    (ds : List Declaration) : Prop :=
  ds.Pairwise (Declaration.Precedes w.classes)

/- A class that is not added again keeps its supertypes. -/
theorem parents_declareAll
    (hAll : v.declareAll ds = some w)
    (hOther : ∀ c, .addClass c ∈ ds → c.name ≠ n) :
    w.classes.parents n = v.classes.parents n := by
  refine
    keeps_declareAll
      (P := fun x => x.classes.parents n = v.classes.parents n)
      hAll ?_ rfl
  intro d hd x x' hx hStep
  rcases classes_declare hStep with hSame | ⟨c, rfl, hAdded⟩
  · rw [hSame]
    exact hx
  · rw [hAdded, ← hx]
    unfold ClassTable.parents
    rw [ClassTable.find?_add_ne _ _ _ (hOther c hd).symm]

/- So does one that does not declare the method its slot. -/
theorem slotIn?_declareAll
    (hAll : v.declareAll ds = some w)
    (hOther :
      ∀ flags body,
        isFixed flags = false →
          .method n name sig flags body ∉ ds) :
    w.slotIn? name sig n = v.slotIn? name sig n := by
  refine
    keeps_declareAll
      (P := fun x => x.slotIn? name sig n = v.slotIn? name sig n)
      hAll ?_ rfl
  intro d hd x x' hx hStep
  rcases declare_cases hStep with
    hBesides | ⟨_, _, _, flags, body, j, rfl, hTable, hTakes⟩
  · exact hBesides.slotIn?_eq.trans hx
  · rw [hTakes.slotIn?_eq, if_neg, Option.or_none]
    · exact hx
    · rintro ⟨rfl, rfl, rfl⟩
      exact hOther flags body hTable hd

theorem slotIn?_declareAll_of_some
    (hAll : v.declareAll ds = some w)
    (hSome : v.slotIn? name sig n = some k) :
    w.slotIn? name sig n = some k :=
  keeps_declareAll (P := fun x => x.slotIn? name sig n = some k)
    hAll (fun _ _ _ _ hx hStep => slotIn?_of_some hStep hx) hSome

section Settled

variable (hTable : isFixed flags = false)
variable
  (hAll :
    v.declareAll (.method n name sig flags body :: ds) = some w)
variable
  (hFirst :
    ∀ d ∈ ds,
      (Declaration.method n name sig flags body).Precedes
        w.classes d)
include hTable hAll hFirst

/- When a method is declared, all is settled above its class. -/
theorem settled_above :
    v.classes.supertypes n = w.classes.supertypes n ∧
      ∀ m, w.classes.Reaches n m → m ≠ n →
        v.slotIn? name sig m = w.slotIn? name sig m := by
  constructor
  · refine ClassTable.supertypes_congr ?_
    intro m hReaches
    refine (parents_declareAll hAll ?_).symm
    rintro c hc rfl
    rcases List.mem_cons.1 hc with hSame | hLater
    · cases hSame
    · exact hFirst _ hLater hTable hReaches
  · intro m hReaches hOther
    refine (slotIn?_declareAll hAll ?_).symm
    intro flags' body' hTable' hMem
    rcases List.mem_cons.1 hMem with hSame | hLater
    · cases hSame
      exact hOther rfl
    · exact
        hFirst _ hLater hTable hTable' rfl rfl hOther hReaches

/- It is known already which one it overrides. -/
theorem overridden?_settled :
    v.overridden? name sig n = w.overridden? name sig n := by
  rcases settled_above hTable hAll hFirst with ⟨hSupers, hSlots⟩
  unfold overridden?
  rw [hSupers]
  refine List.find?_congr ?_
  intro m hm
  rcases ClassTable.mem_supertypes_tail_iff.1 hm with
    ⟨hReaches, hOther⟩
  rw [hSlots m hReaches hOther]

end Settled

------------------------------------------------------------
-- Who Shares a Slot
------------------------------------------------------------

/-
  Of two classes that a class has above it, and that have the
  method in the table as it does, one is above the other.
-/
def InLine
    (w : World)
    (name : String)
    (sig : Signature) : Prop :=
  ∀ n a b,
    (w.slotIn? name sig n).isSome = true →
    (w.slotIn? name sig a).isSome = true →
    (w.slotIn? name sig b).isSome = true →
    w.classes.Reaches n a → w.classes.Reaches n b →
      w.classes.Reaches a b ∨ w.classes.Reaches b a

/-
  The slots of one method in a world `v` that is to become the
  world `w` by more declarations.  Classes that share a slot
  are linked in `w`, and a class shares its slot with the one
  that it overrides.  No class that has a slot waits for one
  above it.  If supertypes are in line, a class shares its
  slot with all those above it that have one.
-/
structure LinkedSlots
    (w : World)
    (name : String)
    (sig : Signature)
    (ds : List Declaration)
    (v : World) : Prop where
  linked :
    ∀ n m k,
      v.slotIn? name sig n = some k →
      v.slotIn? name sig m = some k →
        w.Linked name sig n m
  shared :
    ∀ n m k,
      v.slotIn? name sig n = some k →
      w.Overrides name sig n m → v.slotIn? name sig m = some k
  settled :
    ∀ n k m flags body,
      v.slotIn? name sig n = some k →
      .method m name sig flags body ∈ ds →
      isFixed flags = false → m ≠ n → ¬w.classes.Reaches n m
  level :
    w.InLine name sig →
      ∀ n m k j,
        v.slotIn? name sig n = some k →
        v.slotIn? name sig m = some j →
        w.classes.Reaches n m → j = k

theorem linkedSlots_of_none
    (hNone : v.methods = []) :
    w.LinkedSlots name sig ds v := by
  have hNo {n : ClassName} {k : Nat}
      (hSome : v.slotIn? name sig n = some k) : False := by
    rw [slotIn?_eq, hNone] at hSome
    cases hSome
  exact
    ⟨fun _ _ _ hn _ => (hNo hn).elim,
      fun _ _ _ hn _ => (hNo hn).elim,
      fun _ _ _ _ _ hn _ _ _ => (hNo hn).elim,
      fun _ _ _ _ _ hn _ _ => (hNo hn).elim⟩

theorem LinkedSlots.congr
    (hLinked : w.LinkedSlots name sig (d :: ds) v)
    (hSame :
      ∀ n, w'.slotIn? name sig n = v.slotIn? name sig n) :
    w.LinkedSlots name sig ds w' where
  linked := by
    intro n m k hn hm
    rw [hSame] at hn hm
    exact hLinked.linked n m k hn hm
  shared := by
    intro n m k hn hOverrides
    rw [hSame] at hn ⊢
    exact hLinked.shared n m k hn hOverrides
  settled := by
    intro n k m flags body hn hMem
    rw [hSame] at hn
    exact
      hLinked.settled n k m flags body hn
        (List.mem_cons_of_mem _ hMem)
  level := by
    intro hInLine n m k j hn hm
    rw [hSame] at hn hm
    exact hLinked.level hInLine n m k j hn hm

/-
  A method that a class declares for the first time has the
  slot of the one that it overrides, if there is one, and
  else one that is new.
-/
inductive NewSlot
    (w : World)
    (name : String)
    (sig : Signature)
    (v : World)
    (n : ClassName)
    (k : Nat) : Prop
| overrides
    (p : ClassName)
    (hOverrides : w.Overrides name sig n p)
    (hSlot : v.slotIn? name sig p = some k)
| first
    (hNone : w.overridden? name sig n = none)
    (hNew : ∀ m, v.slotIn? name sig m ≠ some k)

theorem Takes.newSlot
    (hTabled : v.Tabled ds)
    (hTakes : v.Takes n name sig body k v')
    (hSame :
      v.overridden? name sig n = w.overridden? name sig n) :
    w.NewSlot name sig v n k := by
  have hInherited := v.inheritedSlot?_eq n name sig
  rw [hSame] at hInherited
  rcases hTakes.slot with ⟨hSome, _⟩ | ⟨hNone, rfl, _⟩
  · rw [hSome] at hInherited
    rcases Option.bind_eq_some_iff.1 hInherited.symm with
      ⟨p, hp, hSlot⟩
    exact .overrides p hp hSlot
  · cases hFirst : w.overridden? name sig n with
    | none =>
        refine .first hFirst ?_
        intro m hSlot
        have hLe :=
          hTabled.bounded _ _ _ (holds_of_slotIn? hSlot)
        exact absurd hLe (Nat.not_succ_le_self _)
    | some p =>
        rw [← hSame] at hFirst
        have hSome := List.find?_some hFirst
        rw [hNone, ← hSame, hFirst, Option.bind_some] at hInherited
        rw [← hInherited] at hSome
        cases hSome

/- Only the class that declares the method may get a slot. -/
theorem Takes.slotIn?_cases
    (hTakes : v.Takes n name sig body k v')
    (hOld : v.slotIn? name sig n = none)
    (hSome : v'.slotIn? name sig m = some j) :
    v.slotIn? name sig m = some j ∨ m = n ∧ j = k := by
  rw [hTakes.slotIn?_eq] at hSome
  by_cases hSame : n = m
  · rw [← hSame, hOld, if_pos ⟨rfl, rfl, rfl⟩,
      Option.none_or] at hSome
    cases hSome
    exact .inr ⟨hSame.symm, rfl⟩
  · rw [if_neg (fun hAll => hSame hAll.1), Option.or_none] at hSome
    exact .inl hSome

/- A class that has a slot already keeps it. -/
theorem Takes.slotIn?_eq_of_some
    {i : Nat}
    (hTakes : v.Takes n name sig body k v')
    (hOld : v.slotIn? name sig n = some i)
    (m : ClassName) :
    v'.slotIn? name sig m = v.slotIn? name sig m := by
  rw [hTakes.slotIn?_eq]
  split
  · rename_i hSame
    rw [← hSame.1, hOld]
    rfl
  · exact Option.or_none

/- A class takes the slot of the one that it overrides. -/
theorem NewSlot.shared
    (hNew : w.NewSlot name sig v n k)
    (hOverrides : w.Overrides name sig n m) :
    v.slotIn? name sig m = some k := by
  cases hNew with
  | overrides p hp hSlot =>
      unfold Overrides at hp hOverrides
      rw [hp] at hOverrides
      cases hOverrides
      exact hSlot
  | first hNone _ =>
      unfold Overrides at hOverrides
      rw [hNone] at hOverrides
      cases hOverrides

section Linked

variable (hLinked : w.LinkedSlots name sig ds v)
include hLinked

/- Who has the slot that a class takes is linked to the class. -/
theorem LinkedSlots.linked_new
    (hNew : w.NewSlot name sig v n k)
    (hm : v.slotIn? name sig m = some k) :
    w.Linked name sig n m := by
  cases hNew with
  | overrides p hOverrides hSlot =>
      rcases hLinked.linked p m k hSlot hm with ⟨r, hp, hr⟩
      exact ⟨r, .head hOverrides hp, hr⟩
  | first _ hNew => exact absurd hm (hNew m)

/- So does whatever is found by steps to what is overridden. -/
theorem LinkedSlots.shared_up
    (hn : v.slotIn? name sig n = some k)
    (hUp : Relation.ReflTransGen (w.Overrides name sig) n m) :
    v.slotIn? name sig m = some k := by
  induction hUp with
  | refl => exact hn
  | tail _ hStep ih => exact hLinked.shared _ _ _ ih hStep

/- A class takes the slot of all that are in line above it. -/
theorem LinkedSlots.level_new
    (hLater :
      ∀ m k,
        v.slotIn? name sig m = some k →
          w.slotIn? name sig m = some k)
    (hOwn : (w.slotIn? name sig n).isSome = true)
    (hNew : w.NewSlot name sig v n k)
    (hInLine : w.InLine name sig)
    (hm : v.slotIn? name sig m = some j)
    (hReaches : w.classes.Reaches n m)
    (hOther : m ≠ n) :
    j = k := by
  have hAbove : (w.slotIn? name sig m).isSome = true := by
    rw [hLater m j hm]
    rfl
  rcases exists_overridden hReaches hOther hAbove with
    ⟨p, hOverrides, hUp, _, hSome⟩
  have hp := hNew.shared hOverrides
  rcases hInLine n p m hOwn hSome hAbove hUp hReaches with
    hFirst | hSecond
  · exact hLinked.level hInLine p m k j hp hm hFirst
  · exact (hLinked.level hInLine m p j k hm hp hSecond).symm

end Linked

/-
  A class that declares the method for the first time keeps
  the slots as they should be.
-/
theorem LinkedSlots.takes
    (hLinked :
      w.LinkedSlots name sig (.method n name sig flags body :: ds) v)
    (hTable : isFixed flags = false)
    (hTakes : v.Takes n name sig body k v')
    (hOld : v.slotIn? name sig n = none)
    (hNew : w.NewSlot name sig v n k)
    (hDeclare :
      v.declare (.method n name sig flags body) = some v')
    (hRest : v'.declareAll ds = some w)
    (hFirst :
      ∀ e ∈ ds,
        (Declaration.method n name sig flags body).Precedes
          w.classes e) :
    w.LinkedSlots name sig ds v' := by
  have hLater {m : ClassName} {j : Nat}
      (hSome : v.slotIn? name sig m = some j) :
      v'.slotIn? name sig m = some j :=
    slotIn?_of_some hDeclare hSome
  have hOther {m : ClassName} {j : Nat}
      (hSome : v.slotIn? name sig m = some j) :
      m ≠ n := by
    rintro rfl
    rw [hOld] at hSome
    cases hSome
  refine ⟨?linked, ?shared, ?settled, ?level⟩
  case linked =>
    intro a b j ha hb
    rcases hTakes.slotIn?_cases hOld ha with ha' | ⟨rfl, rfl⟩
    · rcases hTakes.slotIn?_cases hOld hb with hb' | ⟨rfl, rfl⟩
      · exact hLinked.linked a b j ha' hb'
      · rcases hLinked.linked_new hNew ha' with ⟨r, hb, ha⟩
        exact ⟨r, ha, hb⟩
    · rcases hTakes.slotIn?_cases hOld hb with hb' | ⟨rfl, _⟩
      · exact hLinked.linked_new hNew hb'
      · exact ⟨_, .refl, .refl⟩
  case shared =>
    intro a b j ha hOverrides
    rcases hTakes.slotIn?_cases hOld ha with ha' | ⟨rfl, rfl⟩
    · exact hLater (hLinked.shared a b j ha' hOverrides)
    · exact hLater (hNew.shared hOverrides)
  case settled =>
    intro a j b flags' body' ha hMem hTable' hApart
    rcases hTakes.slotIn?_cases hOld ha with ha' | ⟨rfl, rfl⟩
    · exact
        hLinked.settled a j b flags' body' ha'
          (List.mem_cons_of_mem _ hMem) hTable' hApart
    · exact hFirst _ hMem hTable hTable' rfl rfl hApart
  case level =>
    intro hInLine a b i j ha hb hReaches
    rcases hTakes.slotIn?_cases hOld ha with ha' | ⟨rfl, rfl⟩
    · rcases hTakes.slotIn?_cases hOld hb with hb' | ⟨rfl, rfl⟩
      · exact hLinked.level hInLine a b i j ha' hb' hReaches
      · exact
          absurd hReaches
            (hLinked.settled a i b flags body ha'
              List.mem_cons_self hTable (hOther ha').symm)
    · rcases hTakes.slotIn?_cases hOld hb with hb' | ⟨_, hSame⟩
      · refine
          hLinked.level_new
            (fun m k hm =>
              slotIn?_declareAll_of_some hRest (hLater hm))
            ?_ hNew hInLine hb' hReaches (hOther hb')
        rw [slotIn?_declareAll_of_some hRest ha]
        rfl
      · exact hSame

/- One more declaration keeps the slots as they should be. -/
theorem LinkedSlots.declare
    {before : List Declaration}
    (hTabled : v.Tabled before)
    (hLinked : w.LinkedSlots name sig (d :: ds) v)
    (hDeclare : v.declare d = some v')
    (hRest : v'.declareAll ds = some w)
    (hFirst : ∀ e ∈ ds, d.Precedes w.classes e) :
    w.LinkedSlots name sig ds v' := by
  rcases declare_cases hDeclare with
    hBesides | ⟨n, name', sig', flags, body, k, rfl, hTable, hTakes⟩
  · exact hLinked.congr (fun _ => hBesides.slotIn?_eq)
  by_cases hMethod : name' = name ∧ sig' = sig
  case neg =>
    refine hLinked.congr (fun m => ?_)
    rw [hTakes.slotIn?_eq, if_neg (fun hAll => hMethod hAll.2),
      Option.or_none]
  rcases hMethod with ⟨rfl, rfl⟩
  cases hOld : v.slotIn? name' sig' n with
  | some i =>
      exact hLinked.congr (hTakes.slotIn?_eq_of_some hOld)
  | none =>
      have hAll :
          v.declareAll (.method n name' sig' flags body :: ds) =
            some w :=
        Option.bind_eq_some_iff.2 ⟨v', hDeclare, hRest⟩
      have hNew : w.NewSlot name' sig' v n k :=
        hTakes.newSlot hTabled
          (overridden?_settled hTable hAll hFirst)
      exact
        hLinked.takes hTable hTakes hOld hNew hDeclare hRest hFirst

theorem LinkedSlots.declareAll
    {before : List Declaration}
    (hTabled : v.Tabled before)
    (hLinked : w.LinkedSlots name sig ds v)
    (hAll : v.declareAll ds = some w)
    (hOrder : w.MethodsInOrder ds) :
    w.LinkedSlots name sig [] w := by
  induction ds generalizing v before with
  | nil =>
      cases hAll
      exact hLinked
  | cons d ds ih =>
      rcases Option.bind_eq_some_iff.1 hAll with
        ⟨v', hDeclare, hRest⟩
      rcases List.pairwise_cons.1 hOrder with ⟨hFirst, hLater⟩
      exact
        ih (hTabled.declare hDeclare)
          (hLinked.declare hTabled hDeclare hRest hFirst) hRest
          hLater

section InOrder

variable {T : ClassTable}
variable (hAll : (initial T).declareAll ds = some w)
variable (hOrder : w.MethodsInOrder ds)
variable (hn : w.slotIn? name sig n = some k)
variable (hm : w.slotIn? name sig m = some j)
include hAll hOrder hn hm

/- Two classes have one slot exactly if they are linked. -/
theorem slotIn?_eq_iff_linked :
    j = k ↔ w.Linked name sig n m := by
  have hLinked : w.LinkedSlots name sig [] w :=
    (linkedSlots_of_none rfl).declareAll (tabled_initial T) hAll
      hOrder
  constructor
  · rintro rfl
    exact hLinked.linked n m j hn hm
  · rintro ⟨r, hUp, hUp'⟩
    have hSame := hLinked.shared_up hn hUp
    rw [hLinked.shared_up hm hUp'] at hSame
    exact Option.some.inj hSame

/- If supertypes are in line, a class shares their slots. -/
theorem linked_of_inLine
    (hInLine : w.InLine name sig)
    (hReaches : w.classes.Reaches n m) :
    w.Linked name sig n m := by
  have hLinked : w.LinkedSlots name sig [] w :=
    (linkedSlots_of_none rfl).declareAll (tabled_initial T) hAll
      hOrder
  refine (slotIn?_eq_iff_linked hAll hOrder hn hm).1 ?_
  exact hLinked.level hInLine n m k j hn hm hReaches

end InOrder

end World

end Linkage
