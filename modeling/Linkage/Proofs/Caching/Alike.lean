import Linkage.CallSite
import Linkage.Proofs.Heap
import Linkage.Session.View
import Linkage.Value.Text
import Mathlib.Data.List.Forall2

/-
  Targets that are alike: two nodes of one signature, with
  stubs of one key and with one form, whose delegates are
  alike again.  Only the numbers of the nodes and of their
  stubs may differ.  Then heaps that are alike but for the
  targets of handles; nothing that is shown of a value tells
  them apart.

  Key definitions include:
    * `Form.Rel`
    * `Target.Alike`
    * `Target.Congruence`
    * `Heap.Alike`
    * `Tree.Alike`

  Key theorems include:
    * `Form.Rel.targets`
    * `Heap.Alike.alloc`
    * `Heap.Alike.setElement`
    * `Heap.Alike.view_eq`
    * `Target.Alike.tree`
-/

------------------------------------------------------------
-- Forms
------------------------------------------------------------

namespace Linkage

/-
  Two forms of one sort and with one content, whose delegates
  are related one by one.
-/
inductive Form.Rel
    {α : Type}
    (R : α → α → Prop) : Form α → Form α → Prop
| leaf {f : Form α} :
    f.targets = [] →
    Rel R f f
| bound {t u : α} (v : Value) :
    R t u →
    Rel R (.bound t v) (.bound u v)
| convertArguments {t u : α} (cs : List Conversion) :
    R t u →
    Rel R (.convertArguments t cs) (.convertArguments u cs)
| convertReturn {t u : α} (c : Conversion) :
    R t u →
    Rel R (.convertReturn t c) (.convertReturn u c)
| filterReturn {t u f g : α} :
    R t u →
    R f g →
    Rel R (.filterReturn t f) (.filterReturn u g)
| filterArguments
    {t u : α} {fs gs : List (Option α)} (pos : Nat) :
    R t u →
    List.Forall₂ (Option.Rel R) fs gs →
    Rel R (.filterArguments t pos fs) (.filterArguments u pos gs)
| collect {t u : α} (component : Ty) (count : Nat) :
    R t u →
    Rel R (.collect t component count) (.collect u component count)
| spread {t u : α} (count : Nat) :
    R t u →
    Rel R (.spread t count) (.spread u count)
| permute {t u : α} (order : List Nat) :
    R t u →
    Rel R (.permute t order) (.permute u order)
| insert {t u : α} (pos : Nat) (vs : List Value) :
    R t u →
    Rel R (.insert t pos vs) (.insert u pos vs)
| drop {t u : α} (pos count : Nat) :
    R t u →
    Rel R (.drop t pos count) (.drop u pos count)
| fold {t u c d : α} :
    R t u →
    R c d →
    Rel R (.fold t c) (.fold u d)
| guard {c d t u e f : α} :
    R c d →
    R t u →
    R e f →
    Rel R (.guard c t e) (.guard d u f)
| rescue {t u h k : α} (caught : ClassName) :
    R t u →
    R h k →
    Rel R (.rescue t caught h) (.rescue u caught k)
| varargs {t u : α} (array : Ty) :
    R t u →
    Rel R (.varargs t array) (.varargs u array)

namespace Form.Rel

variable {α : Type}
variable {R R' : α → α → Prop}
variable {f g : Form α}

/- Filters are related in another way if they are one by one. -/
theorem filters_imp
    {fs gs : List (Option α)}
    (hRel : List.Forall₂ (Option.Rel R) fs gs)
    (hImp :
      ∀ x y, some x ∈ fs → some y ∈ gs → R x y → R' x y) :
    List.Forall₂ (Option.Rel R') fs gs := by
  induction hRel with
  | nil => exact .nil
  | cons hop _ ih =>
      refine .cons ?_ (ih ?_)
      · cases hop with
        | some hxy =>
            apply Option.Rel.some
            exact hImp _ _ List.mem_cons_self List.mem_cons_self hxy
        | none => exact .none
      · intro x y hx hy hxy
        exact
          hImp x y (List.mem_cons_of_mem _ hx)
            (List.mem_cons_of_mem _ hy) hxy

/- Another relation need only follow for the delegates. -/
theorem imp_mem
    (hRel : f.Rel R g)
    (hImp :
      ∀ x y, x ∈ f.targets → y ∈ g.targets → R x y → R' x y) :
    f.Rel R' g := by
  cases hRel with
  | leaf hLeaf => exact .leaf hLeaf
  | bound v ht =>
      apply Rel.bound
      exact hImp _ _ (by simp [targets]) (by simp [targets]) ht
  | convertArguments cs ht =>
      apply Rel.convertArguments
      exact hImp _ _ (by simp [targets]) (by simp [targets]) ht
  | convertReturn c ht =>
      apply Rel.convertReturn
      exact hImp _ _ (by simp [targets]) (by simp [targets]) ht
  | filterReturn ht hf =>
      apply Rel.filterReturn
      · exact hImp _ _ (by simp [targets]) (by simp [targets]) ht
      · exact hImp _ _ (by simp [targets]) (by simp [targets]) hf
  | filterArguments pos ht hfs =>
      apply Rel.filterArguments
      · exact hImp _ _ (by simp [targets]) (by simp [targets]) ht
      · refine filters_imp hfs ?_
        intro x y hx hy hxy
        apply hImp x y _ _ hxy
        · simp [targets, hx]
        · simp [targets, hy]
  | collect component count ht =>
      apply Rel.collect
      exact hImp _ _ (by simp [targets]) (by simp [targets]) ht
  | spread count ht =>
      apply Rel.spread
      exact hImp _ _ (by simp [targets]) (by simp [targets]) ht
  | permute order ht =>
      apply Rel.permute
      exact hImp _ _ (by simp [targets]) (by simp [targets]) ht
  | insert pos vs ht =>
      apply Rel.insert
      exact hImp _ _ (by simp [targets]) (by simp [targets]) ht
  | drop pos count ht =>
      apply Rel.drop
      exact hImp _ _ (by simp [targets]) (by simp [targets]) ht
  | fold ht hc =>
      apply Rel.fold
      · exact hImp _ _ (by simp [targets]) (by simp [targets]) ht
      · exact hImp _ _ (by simp [targets]) (by simp [targets]) hc
  | guard hc ht he =>
      apply Rel.guard
      · exact hImp _ _ (by simp [targets]) (by simp [targets]) hc
      · exact hImp _ _ (by simp [targets]) (by simp [targets]) ht
      · exact hImp _ _ (by simp [targets]) (by simp [targets]) he
  | rescue caught ht hh =>
      apply Rel.rescue
      · exact hImp _ _ (by simp [targets]) (by simp [targets]) ht
      · exact hImp _ _ (by simp [targets]) (by simp [targets]) hh
  | varargs array ht =>
      apply Rel.varargs
      exact hImp _ _ (by simp [targets]) (by simp [targets]) ht

theorem imp
    (hRel : f.Rel R g)
    (hImp : ∀ x y, R x y → R' x y) :
    f.Rel R' g :=
  hRel.imp_mem (fun x y _ _ => hImp x y)

/- Filters are related to themselves if each is. -/
theorem filters_refl
    (fs : List (Option α))
    (hRefl : ∀ x, some x ∈ fs → R x x) :
    List.Forall₂ (Option.Rel R) fs fs := by
  induction fs with
  | nil => exact .nil
  | cons o fs ih =>
      refine .cons ?_ (ih ?_)
      · cases o with
        | none => exact .none
        | some x => exact .some (hRefl x List.mem_cons_self)
      · intro x hx
        exact hRefl x (List.mem_cons_of_mem _ hx)

/- A form is related to itself if its delegates are. -/
theorem refl
    (f : Form α)
    (hRefl : ∀ x ∈ f.targets, R x x) :
    f.Rel R f := by
  unfold Form.targets at hRefl
  cases f with
  | bound t v => exact .bound v (hRefl t (by simp))
  | convertArguments t cs =>
      exact .convertArguments cs (hRefl t (by simp))
  | convertReturn t c =>
      exact .convertReturn c (hRefl t (by simp))
  | filterReturn t f =>
      exact
        .filterReturn (hRefl t (by simp)) (hRefl f (by simp))
  | filterArguments t pos fs =>
      refine
        .filterArguments pos (hRefl t (by simp))
          (filters_refl fs ?_)
      intro x hx
      exact hRefl x (by simp [hx])
  | collect t component count =>
      exact .collect component count (hRefl t (by simp))
  | spread t count => exact .spread count (hRefl t (by simp))
  | permute t order => exact .permute order (hRefl t (by simp))
  | insert t pos vs => exact .insert pos vs (hRefl t (by simp))
  | drop t pos count => exact .drop pos count (hRefl t (by simp))
  | fold t c =>
      exact .fold (hRefl t (by simp)) (hRefl c (by simp))
  | guard c t e =>
      exact
        .guard (hRefl c (by simp)) (hRefl t (by simp))
          (hRefl e (by simp))
  | rescue t caught h =>
      exact .rescue caught (hRefl t (by simp)) (hRefl h (by simp))
  | varargs t array => exact .varargs array (hRefl t (by simp))
  | _ => exact .leaf rfl

/- The delegates are related one by one. -/
theorem targets
    (hRel : f.Rel R g) :
    List.Forall₂ R f.targets g.targets := by
  cases hRel with
  | leaf hLeaf =>
      rw [hLeaf]
      exact .nil
  | filterReturn ht hf => exact .cons ht (.cons hf .nil)
  | filterArguments pos ht hfs =>
      refine .cons ht ?_
      induction hfs with
      | nil => exact .nil
      | cons hop _ ih =>
          cases hop with
          | some hxy => exact .cons hxy ih
          | none => exact ih
  | fold ht hc => exact .cons hc (.cons ht .nil)
  | guard hc ht he => exact .cons hc (.cons ht (.cons he .nil))
  | rescue caught ht hh => exact .cons ht (.cons hh .nil)
  | bound v ht => exact .cons ht .nil
  | convertArguments cs ht => exact .cons ht .nil
  | convertReturn c ht => exact .cons ht .nil
  | collect component count ht => exact .cons ht .nil
  | spread count ht => exact .cons ht .nil
  | permute order ht => exact .cons ht .nil
  | insert pos vs ht => exact .cons ht .nil
  | drop pos count ht => exact .cons ht .nil
  | varargs array ht => exact .cons ht .nil

theorem kind_eq
    (hRel : f.Rel R g) :
    g.kind = f.kind := by
  cases hRel with
  | _ => rfl

end Form.Rel

------------------------------------------------------------
-- Targets
------------------------------------------------------------

/-
  Two targets of one signature, with stubs of one key and
  with forms that are related by the same.
-/
inductive Target.Alike : Target → Target → Prop
| node
    {i j : Nat} {sig : Signature} {c d : Stub}
    {f g : Form Target} :
    c.key = d.key →
    f.Rel Target.Alike g →
    Target.Alike (.node i sig c f) (.node j sig d g)

variable {t u : Target}

namespace Target.Alike

theorem of_parts
    (hSig : u.signature = t.signature)
    (hKey : u.stub.key = t.stub.key)
    (hForm : t.form.Rel Target.Alike u.form) :
    t.Alike u := by
  rcases t with ⟨i, sig, stub, f⟩
  rcases u with ⟨j, sig', stub', g⟩
  have hSame : sig' = sig := hSig
  subst hSame
  exact .node hKey.symm hForm

theorem refl (t : Target) :
    t.Alike t := by
  induction hSize : sizeOf t using Nat.strongRecOn
    generalizing t with
  | ind n ih =>
      apply of_parts rfl rfl
      apply Form.Rel.refl
      intro x hx
      have hSmaller : sizeOf x < n := by
        rw [← hSize]
        exact Target.sizeOf_lt_node hx
      exact ih _ hSmaller x rfl

theorem signature_eq
    (hAlike : t.Alike u) :
    u.signature = t.signature := by
  cases hAlike with
  | node _ _ => rfl

theorem params_eq
    (hAlike : t.Alike u) :
    u.params = t.params :=
  congrArg Signature.params hAlike.signature_eq

theorem ret_eq
    (hAlike : t.Alike u) :
    u.ret = t.ret :=
  congrArg Signature.ret hAlike.signature_eq

theorem count_eq
    (hAlike : t.Alike u) :
    u.count = t.count :=
  congrArg Signature.count hAlike.signature_eq

theorem key_eq
    (hAlike : t.Alike u) :
    u.stub.key = t.stub.key := by
  cases hAlike with
  | node hKey _ => exact hKey.symm

theorem form
    (hAlike : t.Alike u) :
    t.form.Rel Target.Alike u.form := by
  cases hAlike with
  | node _ hForm => exact hForm

theorem kind_eq
    (hAlike : t.Alike u) :
    u.kind = t.kind :=
  hAlike.form.kind_eq

theorem text_eq
    (hAlike : t.Alike u) :
    u.text = t.text := by
  unfold Target.text
  rw [hAlike.kind_eq, hAlike.signature_eq]

theorem wrapped
    (hAlike : t.Alike u) :
    List.Forall₂ Target.Alike t.wrapped u.wrapped :=
  hAlike.form.targets

/- Both collect trailing arguments, or neither does. -/
theorem isVarargs_eq
    (hAlike : t.Alike u) :
    u.isVarargs = t.isVarargs := by
  have hForm := hAlike.form
  unfold Target.isVarargs
  generalize t.form = f at hForm
  generalize u.form = g at hForm
  cases hForm with
  | _ => rfl

end Target.Alike

/-
  A relation of targets of one signature.  It relates all that
  are alike, and all nodes of one signature and of stubs of
  one key whose forms it relates.
-/
class Target.Congruence
    (R : Target → Target → Prop) : Prop where
  of_alike : ∀ {t u : Target}, t.Alike u → R t u
  signature_eq :
    ∀ {t u : Target}, R t u → u.signature = t.signature
  of_parts :
    ∀ {t u : Target},
      u.signature = t.signature →
        u.stub.key = t.stub.key → t.form.Rel R u.form → R t u

instance : Target.Congruence Target.Alike where
  of_alike := id
  signature_eq := Target.Alike.signature_eq
  of_parts := Target.Alike.of_parts

/- Trees of targets that are alike. -/
inductive Tree.Alike : Tree → Tree → Prop
| node {t u : Target} {xs ys : List Tree} :
    t.Alike u →
    List.Forall₂ Tree.Alike xs ys →
    Tree.Alike (.node t xs) (.node u ys)

theorem Target.tree_eq (t : Target) :
    t.tree = .node t (t.wrapped.map Target.tree) := by
  rw [Target.tree, List.attach_map_val]

/- The trees are alike down to the leaves. -/
theorem Target.Alike.tree
    (hAlike : t.Alike u) :
    t.tree.Alike u.tree := by
  induction hSize : sizeOf t using Nat.strongRecOn
    generalizing t u with
  | ind n ih =>
      rw [Target.tree_eq t, Target.tree_eq u]
      refine .node hAlike ?_
      rw [List.forall₂_map_left_iff, List.forall₂_map_right_iff]
      have hSmaller : ∀ x ∈ t.wrapped, sizeOf x < n := by
        intro x hx
        rw [← hSize]
        exact Target.sizeOf_lt_node hx
      have hWrapped := hAlike.wrapped
      generalize t.wrapped = xs at hSmaller hWrapped
      generalize u.wrapped = ys at hWrapped
      induction hWrapped with
      | nil => exact .nil
      | cons hxy _ ihRest =>
          refine .cons ?_ (ihRest ?_)
          · exact ih _ (hSmaller _ List.mem_cons_self) hxy rfl
          · intro x hx
            exact hSmaller x (List.mem_cons_of_mem _ hx)

------------------------------------------------------------
-- Heaps
------------------------------------------------------------

/- The same contents, or handles of targets that are alike. -/
inductive Contents.Alike : Contents → Contents → Prop
| fixed :
    Contents.Alike .fixed .fixed
| cells (cs : List Cell) :
    Contents.Alike (.cells cs) (.cells cs)
| elements (vs : List Value) :
    Contents.Alike (.elements vs) (.elements vs)
| target {t u : Target} :
    t.Alike u →
    Contents.Alike (.target t) (.target u)

/- As many objects, whose contents are alike one by one. -/
structure Heap.Alike (h k : Heap) : Prop where
  size_eq : k.size = h.size
  contents : ∀ i, Option.Rel Contents.Alike (h.at? i) (k.at? i)

theorem Heap.Alike.refl (h : Heap) :
    h.Alike h where
  size_eq := rfl
  contents := by
    intro i
    cases h.at? i with
    | none => exact .none
    | some c =>
        apply Option.Rel.some
        cases c with
        | fixed => exact .fixed
        | cells cs => exact .cells cs
        | elements vs => exact .elements vs
        | target t => exact .target (.refl t)

namespace Heap.Alike

variable {h k : Heap}
variable {s : Shape}
variable {c d : Contents}
variable {o : Obj}
variable {v : Value}
variable {r : CellRef}

theorem cells_eq
    (hAlike : h.Alike k)
    (i : Nat) :
    k.cells i = h.cells i := by
  have hAt := hAlike.contents i
  unfold Heap.cells
  generalize h.at? i = x at hAt
  generalize k.at? i = y at hAt
  cases hAt with
  | none => rfl
  | some hContents =>
      cases hContents with
      | _ => rfl

theorem cell?_eq
    (hAlike : h.Alike k)
    (r : CellRef) :
    k.cell? r = h.cell? r := by
  unfold Heap.cell?
  rw [hAlike.cells_eq]

theorem elements?_eq
    (hAlike : h.Alike k)
    (o : Obj) :
    k.elements? o = h.elements? o := by
  have hAt := hAlike.contents o.id
  unfold Heap.elements?
  generalize h.at? o.id = x at hAt
  generalize k.at? o.id = y at hAt
  cases hAt with
  | none => rfl
  | some hContents =>
      cases hContents with
      | _ => rfl

/- The targets of handles are alike. -/
theorem handle?
    (hAlike : h.Alike k)
    (o : Obj) :
    Option.Rel Target.Alike (h.handle? o) (k.handle? o) := by
  have hAt := hAlike.contents o.id
  unfold Heap.handle?
  generalize h.at? o.id = x at hAt
  generalize k.at? o.id = y at hAt
  cases o.shape with
  | handle =>
      cases hAt with
      | none => exact .none
      | some hContents =>
          cases hContents with
          | target ht => exact .some ht
          | _ => exact .none
  | _ => exact .none

/- New objects have the same number. -/
theorem alloc
    (hAlike : h.Alike k)
    (hContents : c.Alike d) :
    (k.alloc s d).1 = (h.alloc s c).1 ∧
      (h.alloc s c).2.Alike (k.alloc s d).2 := by
  refine ⟨?_, ?_, ?_⟩
  · unfold Heap.alloc
    rw [hAlike.size_eq]
  · change (k.contents.push d).size = (h.contents.push c).size
    rw [Array.size_push, Array.size_push]
    exact congrArg (· + 1) hAlike.size_eq
  · intro i
    rw [at?_alloc, at?_alloc, hAlike.size_eq]
    split
    · exact .some hContents
    · exact hAlike.contents i

theorem set
    (hAlike : h.Alike k)
    (i : Nat)
    (hContents : c.Alike d) :
    (h.set i c).Alike (k.set i d) := by
  constructor
  · change
      (k.contents.setIfInBounds i d).size =
        (h.contents.setIfInBounds i c).size
    rw [Array.size_setIfInBounds, Array.size_setIfInBounds]
    exact hAlike.size_eq
  · intro j
    rw [at?_set, at?_set, hAlike.size_eq]
    split
    · exact .some hContents
    · exact hAlike.contents j

theorem storeCell
    (hAlike : h.Alike k)
    (r : CellRef)
    (v : Value) :
    (h.storeCell r v).Alike (k.storeCell r v) := by
  unfold Heap.storeCell
  rw [hAlike.cells_eq]
  exact hAlike.set _ (.cells _)

theorem setElement
    (hAlike : h.Alike k)
    (o : Obj)
    (i : Nat)
    (v : Value) :
    (h.setElement o i v).Alike (k.setElement o i v) := by
  unfold Heap.setElement
  rw [hAlike.elements?_eq]
  split
  · exact hAlike.set _ (.elements _)
  · exact hAlike

------------------------------------------------------------
-- What is Shown of Values
------------------------------------------------------------

/- What is shown of a handle depends on what is alike. -/
theorem handle?_shown
    {β : Type}
    {f : Target → β}
    (hAlike : h.Alike k)
    (hShown : ∀ t u : Target, t.Alike u → f u = f t)
    (b : β)
    (o : Obj) :
    (k.handle? o).elim b f = (h.handle? o).elim b f := by
  have hRel := hAlike.handle? o
  generalize h.handle? o = x at hRel
  generalize k.handle? o = y at hRel
  cases hRel with
  | none => rfl
  | some ht => exact hShown _ _ ht

theorem viewTo_eq
    (hAlike : h.Alike k)
    (n : Nat)
    (v : Value) :
    v.viewTo k n = v.viewTo h n := by
  induction n generalizing v with
  | zero => cases v <;> rfl
  | succ n ih =>
      cases v with
      | ref o =>
          unfold Value.viewTo
          have hAll : Value.viewTo k n = Value.viewTo h n :=
            funext ih
          rw [hAll, hAlike.elements?_eq, hAlike.cells_eq]
          cases o.shape with
          | handle =>
              have hShown :=
                hAlike.handle?_shown
                  (f := fun t => View.handle t.signature t.kind)
                  (fun t u ht => by
                    rw [ht.signature_eq, ht.kind_eq])
                  (.object o.type []) o
              dsimp only
              generalize h.handle? o = x at hShown ⊢
              generalize k.handle? o = y at hShown ⊢
              cases x <;> cases y <;> exact hShown
          | throwable cls m => cases m <;> rfl
          | _ => rfl
      | _ => rfl

theorem view_eq
    (hAlike : h.Alike k)
    (v : Value) :
    v.view k = v.view h :=
  hAlike.viewTo_eq maxDepth v

theorem textTo_eq
    (hAlike : h.Alike k)
    (n : Nat)
    (v : Value) :
    v.textTo k n = v.textTo h n := by
  induction n generalizing v with
  | zero => cases v <;> rfl
  | succ n ih =>
      cases v with
      | ref o =>
          unfold Value.textTo
          have hAll : Value.textTo k n = Value.textTo h n :=
            funext ih
          rw [hAll, hAlike.elements?_eq]
          cases o.shape with
          | handle =>
              have hShown :=
                hAlike.handle?_shown
                  (f := fun t => "MethodHandle" ++ t.signature.text)
                  (fun t u ht => by rw [ht.signature_eq])
                  "MethodHandle" o
              dsimp only
              generalize h.handle? o = x at hShown ⊢
              generalize k.handle? o = y at hShown ⊢
              cases x <;> cases y <;> exact hShown
          | throwable cls m => cases m <;> rfl
          | _ => rfl
      | _ => rfl

theorem text_eq
    (hAlike : h.Alike k)
    (v : Value) :
    v.text k = v.text h := by
  unfold Value.text
  rw [hAlike.size_eq]
  exact hAlike.textTo_eq _ v

theorem cellText_eq
    (hAlike : h.Alike k)
    (c : Cell) :
    c.text k = c.text h := by
  unfold Cell.text
  rw [hAlike.text_eq]

end Heap.Alike

end Linkage
