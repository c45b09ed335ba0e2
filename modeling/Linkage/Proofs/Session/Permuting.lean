import Linkage.Proofs.Session.Casting

/-
  Permutations compose, and dropping arguments is one of them.
  An order picks items by their positions; it picks the types
  of parameters and the arguments of a call alike.  Picking by
  one order and then by another is picking by the composed
  one, and leaving items out is picking the others.

  Key definitions include:
    * `Picks`
    * `orderSkipping`
    * `Target.ActsAs`

  Key theorems include:
    * `Picks.trans`
    * `Picks.skipping`
    * `State.Sound.permuteArguments_ok`
    * `Target.enter_permute`
    * `Target.enter_handsOn`
    * `Target.enter_drop`
    * `Target.actsAsPermuted_composed`
    * `Target.actsAsPermuted_dropped`
    * `Session.permutations_compose`
-/

------------------------------------------------------------
-- Orders
------------------------------------------------------------

namespace Linkage

variable {α : Type}
variable {xs ys zs : List α}
variable {first second order : List Nat}

/- The items at the positions of an order, one by one. -/
def Picks
    (xs : List α)
    (order : List Nat)
    (ys : List α) : Prop :=
  List.Forall₂ (fun j y => xs[j]? = some y) order ys

/- The positions below a bound but for some of them. -/
def orderSkipping
    (bound pos count : Nat) : List Nat :=
  (List.range bound).take pos ++
    (List.range bound).drop (pos + count)

namespace Picks

theorem length_eq
    (hPicks : Picks xs order ys) :
    order.length = ys.length :=
  List.Forall₂.length_eq hPicks

/- As many items can be picked from a list of the same length. -/
theorem exists_of_length_eq
    {β : Type}
    {as : List β}
    (hPicks : Picks xs order ys)
    (hLength : as.length = xs.length) :
    ∃ bs, Picks as order bs := by
  unfold Picks at hPicks
  induction hPicks with
  | nil => exact ⟨[], .nil⟩
  | cons hHead _ ih =>
      rcases ih with ⟨bs, hRest⟩
      rcases List.getElem?_eq_some_iff.1 hHead with ⟨hj, _⟩
      rw [← hLength] at hj
      exact ⟨_, .cons (List.getElem?_eq_getElem hj) hRest⟩

theorem getElem?
    {i j : Nat}
    {y : α}
    (hPicks : Picks xs order ys)
    (hAt : order[j]? = some i)
    (hItem : ys[j]? = some y) :
    xs[i]? = some y := by
  rcases List.getElem?_eq_some_iff.1 hAt with ⟨hj, rfl⟩
  rcases List.getElem?_eq_some_iff.1 hItem with ⟨hj', rfl⟩
  exact List.Forall₂.get hPicks hj hj'

theorem trans
    (hOuter : Picks xs second ys)
    (hInner : Picks ys first zs)
    (hOrder : order.map some = first.map (fun j => second[j]?)) :
    Picks xs order zs := by
  unfold Picks at hInner ⊢
  induction hInner generalizing order with
  | nil =>
      rw [List.map_nil, List.map_eq_nil_iff] at hOrder
      rw [hOrder]
      exact .nil
  | @cons j z _ _ hHead _ ih =>
      rcases order with _ | ⟨i, order⟩
      · cases hOrder
      · rw [List.map_cons, List.map_cons, List.cons_eq_cons]
          at hOrder
        refine .cons ?_ (ih hOrder.2)
        exact hOuter.getElem? hOrder.1.symm hHead

/- The first order only asks for positions in the second one. -/
theorem exists_composed
    (hOuter : Picks xs second ys)
    (hInner : Picks ys first zs) :
    ∃ order : List Nat,
      order.map some = first.map (fun j => second[j]?) := by
  unfold Picks at hInner
  induction hInner with
  | nil => exact ⟨[], rfl⟩
  | @cons j z _ _ hHead _ ih =>
      rcases ih with ⟨order, hRest⟩
      rcases List.getElem?_eq_some_iff.1 hHead with ⟨hj, _⟩
      rw [← hOuter.length_eq] at hj
      refine ⟨second[j] :: order, ?_⟩
      rw [List.map_cons, List.map_cons, hRest,
        List.getElem?_eq_getElem hj]

theorem append
    {order' : List Nat}
    (hLeft : Picks xs order ys)
    (hRight : Picks xs order' zs) :
    Picks xs (order ++ order') (ys ++ zs) :=
  List.rel_append hLeft hRight

theorem range (xs : List α) :
    Picks xs (List.range xs.length) xs := by
  unfold Picks
  rw [List.forall₂_iff_get]
  refine ⟨List.length_range, ?_⟩
  intro i hi hi'
  rw [List.get_eq_getElem, List.get_eq_getElem, List.getElem_range,
    List.getElem?_eq_getElem]

theorem skipping
    (xs : List α)
    (pos count : Nat) :
    Picks xs (orderSkipping xs.length pos count)
      (xs.take pos ++ xs.drop (pos + count)) :=
  append (List.forall₂_take _ (range xs))
    (List.forall₂_drop _ (range xs))

theorem keeping
    (xs : List α)
    (pos : Nat) :
    Picks xs (orderSkipping xs.length pos 0) xs := by
  have hPicks := skipping xs pos 0
  rw [Nat.add_zero, List.take_append_drop] at hPicks
  exact hPicks

/- What was inserted is left out again. -/
theorem inserted
    {pos : Nat}
    (ys : List α)
    (hPos : pos ≤ xs.length) :
    Picks (xs.take pos ++ ys ++ xs.drop pos)
      (orderSkipping (xs.take pos ++ ys ++ xs.drop pos).length pos
        ys.length)
      xs := by
  have hTake := List.length_take_of_le hPos
  have hPicks :=
    skipping (xs.take pos ++ ys ++ xs.drop pos) pos ys.length
  rw [List.drop_left' (by rw [List.length_append, hTake]),
    List.append_assoc, List.take_left' hTake,
    List.take_append_drop, ← List.append_assoc] at hPicks
  exact hPicks

end Picks

------------------------------------------------------------
-- Making the Nodes
------------------------------------------------------------

variable {rt : Runtime}
variable {c : Catalog}
variable {s s' : State}
variable {sig : Signature}
variable {t u x : Target}
variable {pos : Nat}
variable {types ts : List Ty}

namespace Target

theorem checkOrder_ok
    (hPicks : Picks sig.params order ts)
    (i : Nat) :
    checkOrder sig i order ts = pure () := by
  unfold Picks at hPicks
  induction hPicks generalizing i with
  | nil => rfl
  | cons hHead _ ih =>
      unfold checkOrder
      rw [hHead]
      dsimp only
      rw [if_pos rfl]
      exact ih (i + 1)

/- Only an order that picks the parameters is accepted. -/
theorem picks_of_permuteArguments
    (hOk : t.permuteArguments rt sig order s = .ok x s') :
    Picks sig.params order t.params ∧ sig.ret = t.ret := by
  unfold permuteArguments at hOk
  split at hOk
  · cases hOk
  · rename_i hLength
    split at hOk
    · cases hOk
    · rename_i hRet
      have hOrder :=
        Makes.checkOrder_inspects sig 0 order t.params
          (not_not.1 hLength)
      rcases hOrder.of_bind_ok hOk with ⟨_, hPicks, _⟩
      exact ⟨hPicks, not_not.1 hRet⟩

/- Types that are dropped have a place in the signature. -/
theorem inserts_of_dropArguments
    (hOk : t.dropArguments rt pos types s = .ok u s')
    (hSome : types ≠ []) :
    ∃ sig,
      t.signature.insertParams pos types = .ok sig := by
  unfold dropArguments at hOk
  rw [if_neg (by simpa using hSome)] at hOk
  cases hSig : t.signature.insertParams pos types with
  | ok sig => exact ⟨sig, rfl⟩
  | error e =>
      rw [hSig] at hOk
      cases hOk

end Target

namespace State.Sound

theorem permuteArguments_ok
    (hSound : s.Sound rt c)
    (hChecking : rt.compile = .checking)
    (ht : t ∈ c.made)
    (hPicks : Picks sig.params order t.params)
    (hRet : sig.ret = t.ret) :
    ∃ x s',
      t.permuteArguments rt sig order s = .ok x s' ∧
        State.Grown rt c s (c.addNode x) s' ∧
        x.Is sig (.permute t order) := by
  have hLength : order.length = t.count := hPicks.length_eq
  unfold Target.permuteArguments
  rw [if_neg (not_not.2 hLength),
    if_neg (not_not.2 hRet), Target.checkOrder_ok hPicks]
  exact hSound.build_ok hChecking sig (Catalog.all_one ht)

theorem dropArguments_ok
    (hSound : s.Sound rt c)
    (hChecking : rt.compile = .checking)
    (ht : t ∈ c.made)
    (hSome : types ≠ [])
    (hSig : t.signature.insertParams pos types = .ok sig) :
    ∃ u s',
      t.dropArguments rt pos types s = .ok u s' ∧
        State.Grown rt c s (c.addNode u) s' ∧
        u.Is sig (.drop t pos types.length) := by
  unfold Target.dropArguments
  rw [if_neg (by simpa using hSome), hSig]
  exact hSound.build_ok hChecking sig (Catalog.all_one ht)

/- A permutation that was made. -/
theorem of_permuteArguments
    (hSound : s.Sound rt c)
    (hChecking : rt.compile = .checking)
    (ht : t ∈ c.made)
    (hOk : t.permuteArguments rt sig order s = .ok x s') :
    Picks sig.params order t.params ∧ sig.ret = t.ret ∧
      State.Grown rt c s (c.addNode x) s' ∧
      x.Is sig (.permute t order) := by
  rcases Target.picks_of_permuteArguments hOk with ⟨hPicks, hRet⟩
  rcases hSound.permuteArguments_ok hChecking ht hPicks hRet with
    ⟨y, r, hRun, hGrown, hIs⟩
  rw [hOk] at hRun
  cases hRun
  exact ⟨hPicks, hRet, hGrown, hIs⟩

/- Dropped arguments, for which a node was made. -/
theorem of_dropArguments
    (hSound : s.Sound rt c)
    (hChecking : rt.compile = .checking)
    (ht : t ∈ c.made)
    (hSome : types ≠ [])
    (hOk : t.dropArguments rt pos types s = .ok u s') :
    t.signature.insertParams pos types = .ok u.signature ∧
      State.Grown rt c s (c.addNode u) s' ∧
      u.form = .drop t pos types.length := by
  rcases Target.inserts_of_dropArguments hOk hSome with ⟨sig, hSig⟩
  rcases hSound.dropArguments_ok hChecking ht hSome hSig with
    ⟨y, r, hRun, hGrown, hIs⟩
  rw [hOk] at hRun
  cases hRun
  rw [hIs.signature_eq]
  exact ⟨hSig, hGrown, hIs.form_eq⟩

end State.Sound

------------------------------------------------------------
-- Entering the Nodes
------------------------------------------------------------

namespace Target

variable {args vs : List Value}

theorem permuteArgs_eq
    (hPicks : Picks args order vs) :
    permuteArgs sig args order = pure vs := by
  unfold Picks at hPicks
  induction hPicks with
  | nil => rfl
  | cons hHead _ ih =>
      unfold permuteArgs
      rw [hHead, ih]
      rfl

/-
  A node that moves arguments comes to what its target comes
  to with the arguments that are picked.
-/
theorem enter_permute
    (hChecking : rt.compile = .checking)
    (hHost : rt.host.MakesNoTargets)
    (hSound : s.Sound rt c)
    (hx : x ∈ c.made)
    (hForm : x.form = .permute t order)
    (hPicks : Picks args order vs)
    (hCount : args.length = x.count)
    (n : Nat) :
    Run.Same (enter rt (n + 1) x args s) (enter rt n t vs s) := by
  have hArity := (hSound.valid.serves x hx).arity_eq hChecking
  have ht : t ∈ c.made :=
    hSound.valid.delegate hx hForm List.mem_cons_self
  have hBehave :
      x.behave rt (enter rt n) args =
        Run.holding (rootsOf args) (enter rt n t vs) := by
    unfold behave
    rw [hForm]
    dsimp only
    rw [permuteArgs_eq hPicks]
    rfl
  rw [enter_succ (hCount.trans hArity.symm), hBehave,
    Run.bind_ok (pass_eq (some x) args s)]
  refine (Run.Same.holding ?_).symm
  have hPassed := (State.Same.refl s).logEntry x args
  exact
    enter_same hChecking hHost (hPassed.withHeld _) hSound
      ((sound_passed hSound (some x) args).withHeld _) ht ht n vs

/-
  A node that only hands arguments on comes to what its target
  comes to with what it is handed.
-/
theorem enter_handsOn
    (hChecking : rt.compile = .checking)
    (hHost : rt.host.MakesNoTargets)
    (hSound : s.Sound rt c)
    (hu : u ∈ c.made)
    (ht : t ∈ u.form.targets)
    (hBehave : ∀ e : Enter, u.behave rt e args = e t vs)
    (hCount : args.length = u.count)
    (n : Nat) :
    Run.Same (enter rt (n + 1) u args s) (enter rt n t vs s) := by
  have hArity := (hSound.valid.serves u hu).arity_eq hChecking
  have hMade : t ∈ c.made := hSound.valid.delegate hu rfl ht
  rw [enter_succ (hCount.trans hArity.symm), hBehave,
    Run.bind_ok (pass_eq (some u) args s)]
  have hPassed := (State.Same.refl s).logEntry u args
  exact
    (enter_same hChecking hHost hPassed hSound
      (sound_passed hSound (some u) args) hMade hMade n vs).symm

/- A node that ignores arguments hands on the others. -/
theorem enter_drop
    {count : Nat}
    (hChecking : rt.compile = .checking)
    (hHost : rt.host.MakesNoTargets)
    (hSound : s.Sound rt c)
    (hu : u ∈ c.made)
    (hForm : u.form = .drop t pos count)
    (hEnough : pos + count ≤ args.length)
    (hCount : args.length = u.count)
    (n : Nat) :
    Run.Same (enter rt (n + 1) u args s)
      (enter rt n t (args.take pos ++ args.drop (pos + count))
        s) := by
  refine enter_handsOn hChecking hHost hSound hu ?_ ?_ hCount n
  · rw [hForm]
    exact List.mem_cons_self
  · intro e
    unfold behave
    rw [hForm]
    dsimp only
    unfold dropArgs
    rw [if_pos hEnough]
    rfl

------------------------------------------------------------
-- Targets that Act Alike
------------------------------------------------------------

variable {v : Target}

/- Two permutations in a row are one by the composed order. -/
theorem matchedBy_composed
    (hChecking : rt.compile = .checking)
    (hHost : rt.host.MakesNoTargets)
    (hv : v.form = .permute u second)
    (hu : u.form = .permute t first)
    (hx : x.form = .permute t order)
    (hSig : x.signature = v.signature)
    (hOuter : Picks v.params second u.params)
    (hInner : Picks u.params first t.params)
    (hOrder : order.map some = first.map (fun j => second[j]?)) :
    v.MatchedBy True rt x := by
  refine ⟨hSig, 2, 1, ?_⟩
  rintro s args n ⟨c, hSound, hListed⟩ hCount
  have hvMade := hListed v (by simp)
  have hxMade := hListed x (by simp)
  have huMade : u ∈ c.made :=
    hSound.valid.delegate hvMade hv List.mem_cons_self
  rcases hOuter.exists_of_length_eq hCount with ⟨vs, hArgs⟩
  have hCount' : vs.length = u.count :=
    hArgs.length_eq.symm.trans hOuter.length_eq
  rcases hInner.exists_of_length_eq hCount' with ⟨ws, hLast⟩
  have hCount'' : args.length = x.count := by
    unfold count
    rw [hSig]
    exact hCount
  have hTwice :=
    (enter_permute hChecking hHost hSound hvMade hv hArgs hCount
      (n + 1)).trans
      (enter_permute hChecking hHost hSound huMade hu hLast hCount'
        n)
  have hOnce :=
    enter_permute hChecking hHost hSound hxMade hx
      (hArgs.trans hLast hOrder) hCount'' n
  exact .of_same (hTwice.trans hOnce.symm)

/- A permutation may keep all arguments. -/
theorem matchedBy_permuted
    (hChecking : rt.compile = .checking)
    (hHost : rt.host.MakesNoTargets)
    (hx : x.form = .permute t order)
    (hSig : x.signature = t.signature)
    (hKeep :
      ∀ args : List Value, args.length = t.count →
        Picks args order args) :
    t.MatchedBy True rt x := by
  refine ⟨hSig, 0, 1, ?_⟩
  rintro s args n ⟨c, hSound, hListed⟩ hCount
  have hCount' : args.length = x.count := by
    unfold count
    rw [hSig]
    exact hCount
  exact
    .of_same
      (enter_permute hChecking hHost hSound (hListed x (by simp)) hx
        (hKeep args hCount) hCount' n).symm

/- Ignoring arguments is to pick the others. -/
theorem matchedBy_skipping
    {count : Nat}
    (hChecking : rt.compile = .checking)
    (hHost : rt.host.MakesNoTargets)
    (hu : u.form = .drop t pos count)
    (hx : x.form = .permute t (orderSkipping u.count pos count))
    (hSig : x.signature = u.signature)
    (hEnough : pos + count ≤ u.count) :
    u.MatchedBy True rt x := by
  refine ⟨hSig, 1, 1, ?_⟩
  rintro s args n ⟨c, hSound, hListed⟩ hCount
  have hCount' : args.length = x.count := by
    unfold Target.count
    rw [hSig]
    exact hCount
  have hPicks := Picks.skipping args pos count
  rw [hCount] at hPicks
  have hDropped :=
    enter_drop hChecking hHost hSound (hListed u (by simp)) hu
      (Nat.le_trans hEnough (Nat.le_of_eq hCount.symm)) hCount n
  have hPermuted :=
    enter_permute hChecking hHost hSound (hListed x (by simp)) hx
      hPicks hCount' n
  exact .of_same (hDropped.trans hPermuted.symm)

/-
  Calls of the one target come to what calls of the other come
  to, whatever way both are called and with whatever
  arguments.  Neither gathers trailing arguments if the call
  is flexible.
-/
def ActsAs
    (rt : Runtime)
    (r : State)
    (u x : Target) : Prop :=
  ∀ (e e' : Entry) (args : List Value),
    e.Like e' → e.Plain u x → e.InLine u args →
      e'.InLine x args → e.Agrees rt u args r e' x args r

theorem MatchedBy.actsAs
    {r : State}
    (hMatched : u.MatchedBy True rt x)
    (hChecking : rt.compile = .checking)
    (hHost : rt.host.MakesNoTargets)
    (hLists : r.Lists rt [u, x]) :
    u.ActsAs rt r x := by
  intro e e' args hLike hPlain hInLine hInLine'
  rcases
    hMatched.run hChecking hHost hLists hLike hPlain hInLine
      hInLine'
    with ⟨j, k, hRun⟩
  exact
    Entry.comesTo_of_same (fun n => hRun n (fun _ _ _ => trivial))

/-
  A target acts as another one that is permuted to its
  signature: the permutation succeeds from any state in which
  both are listed.
-/
def ActsAsPermuted
    (rt : Runtime)
    (u t : Target)
    (order : List Nat) : Prop :=
  ∀ r : State, r.Lists rt [t, u] →
    ∃ x r',
      t.permuteArguments rt u.signature order r = .ok x r' ∧
        r'.Lists rt [u, x] ∧ x.signature = u.signature ∧
        x.isVarargs = false ∧
        ∀ q : State, q.Lists rt [u, x] → u.ActsAs rt q x

theorem isVarargs_of_is
    {form : Form Target}
    (hIs : x.Is sig form)
    (hForm : form.kind ≠ .varargsCollector) :
    x.isVarargs = false := by
  unfold isVarargs
  rw [hIs.form_eq]
  cases form with
  | varargs u a => exact absurd rfl hForm
  | _ => rfl

theorem actsAsPermuted
    (hChecking : rt.compile = .checking)
    (hHost : rt.host.MakesNoTargets)
    (hPicks : Picks u.params order t.params)
    (hRet : u.ret = t.ret)
    (hMatched :
      ∀ x : Target,
        x.signature = u.signature → x.form = .permute t order →
          u.MatchedBy True rt x) :
    u.ActsAsPermuted rt t order := by
  rintro r ⟨c, hSound, hListed⟩
  have ht := hListed t (by simp)
  have hu := hListed u (by simp)
  rcases hSound.permuteArguments_ok hChecking ht hPicks hRet with
    ⟨x, r', hRun, hGrown, hIs⟩
  refine
    ⟨x, r', hRun, hGrown.lists_new hu, hIs.signature_eq,
      isVarargs_of_is hIs nofun, ?_⟩
  intro q hLists
  exact
    (hMatched x hIs.signature_eq hIs.form_eq).actsAs hChecking hHost
      hLists

/- What was permuted twice acts as when it is permuted once. -/
theorem actsAsPermuted_composed
    {sig₁ sig₂ : Signature}
    (hChecking : rt.compile = .checking)
    (hHost : rt.host.MakesNoTargets)
    (hu : u.Is sig₁ (.permute t first))
    (hv : v.Is sig₂ (.permute u second))
    (hInner : Picks sig₁.params first t.params)
    (hRet : sig₁.ret = t.ret)
    (hOuter : Picks sig₂.params second u.params)
    (hRet' : sig₂.ret = u.ret) :
    ∃ order : List Nat,
      order.map some = first.map (fun j => second[j]?) ∧
        v.ActsAsPermuted rt t order := by
  have hParams : u.params = sig₁.params :=
    congrArg Signature.params hu.signature_eq
  have hParams' : v.params = sig₂.params :=
    congrArg Signature.params hv.signature_eq
  have hRets : u.ret = sig₁.ret :=
    congrArg Signature.ret hu.signature_eq
  have hRets' : v.ret = sig₂.ret :=
    congrArg Signature.ret hv.signature_eq
  rw [← hParams] at hInner
  rw [← hParams'] at hOuter
  rcases hOuter.exists_composed hInner with ⟨order, hOrder⟩
  refine ⟨order, hOrder, ?_⟩
  refine
    actsAsPermuted hChecking hHost (hOuter.trans hInner hOrder) ?_ ?_
  · exact hRets'.trans (hRet'.trans (hRets.trans hRet))
  · intro x hSig hx
    exact
      matchedBy_composed hChecking hHost hv.form_eq hu.form_eq hx
        hSig hOuter hInner hOrder

/- A target acts as when all of its arguments are picked. -/
theorem actsAsPermuted_keeping
    (hChecking : rt.compile = .checking)
    (hHost : rt.host.MakesNoTargets)
    (t : Target)
    (pos : Nat) :
    t.ActsAsPermuted rt t (orderSkipping t.count pos 0) := by
  refine
    actsAsPermuted hChecking hHost (.keeping t.params pos) rfl ?_
  intro x hSig hx
  refine matchedBy_permuted hChecking hHost hx hSig ?_
  intro args hCount
  rw [← hCount]
  exact .keeping args pos

/- What ignores arguments acts as when the others are picked. -/
theorem actsAsPermuted_dropped
    (hChecking : rt.compile = .checking)
    (hHost : rt.host.MakesNoTargets)
    (hForm : u.form = .drop t pos types.length)
    (hSig : t.signature.insertParams pos types = .ok u.signature) :
    u.ActsAsPermuted rt t
      (orderSkipping u.count pos types.length) := by
  rcases Signature.of_insertParams hSig with ⟨hPos, hParams, hRet⟩
  have hPicks := Picks.inserted types hPos
  rw [← hParams] at hPicks
  refine actsAsPermuted hChecking hHost hPicks hRet ?_
  intro x hSig' hx
  refine matchedBy_skipping hChecking hHost hForm hx hSig' ?_
  have hCount : u.signature.params.length = _ :=
    congrArg List.length hParams
  rw [List.length_append, List.length_append,
    List.length_take_of_le hPos] at hCount
  unfold count Signature.count
  omega

end Target

------------------------------------------------------------
-- Permutations of Named Targets
------------------------------------------------------------

namespace Session

variable {s : Session}

/-
  A target that is permuted twice acts as when it is permuted
  once, by the composed order; and a target that ignores some
  arguments acts as when the others are picked.  A target
  that ignores no arguments is the target itself, and gathers
  what that gathers.
-/
theorem permutations_compose
    (hFresh : s.IsFresh)
    (hChecking : s.context.runtime.compile = .checking)
    (hHost : s.context.runtime.host.MakesNoTargets)
    (xs : List Step)
    (hNamed : (s.after xs).context.Names t) :
    let rt := s.context.runtime
    let s₀ := (s.after xs).state
    (∀ sig₁ first u s₁,
      t.permuteArguments rt sig₁ first s₀ = .ok u s₁ →
        s₁.Lists rt [t, u] ∧
          ∀ sig₂ second v r r',
            r.Lists rt [t, u] →
              u.permuteArguments rt sig₂ second r = .ok v r' →
                r'.Lists rt [t, v] ∧ v.signature = sig₂ ∧
                  v.isVarargs = false ∧
                  ∃ order : List Nat,
                    order.map some =
                        first.map (fun j => second[j]?) ∧
                      v.ActsAsPermuted rt t order) ∧
      ∀ pos types u s₁,
        t.dropArguments rt pos types s₀ = .ok u s₁ →
          s₁.Lists rt [t, u] ∧
            (types = [] ∧ u = t ∨
              u.isVarargs = false ∧
                t.signature.insertParams pos types =
                  .ok u.signature) ∧
            u.ActsAsPermuted rt t
              (orderSkipping u.count pos types.length) := by
  intro rt s₀
  rcases listed_after hFresh hHost xs with ⟨c, hListed⟩
  have hSound : s₀.Sound rt c := by
    have hKnown := hListed.known.sound
    rw [runtime_after] at hKnown
    exact hKnown
  have ht := hListed.names t hNamed
  refine ⟨?_, ?_⟩
  · intro sig₁ first u s₁ hFirst
    rcases hSound.of_permuteArguments hChecking ht hFirst with
      ⟨hInner, hRet, hGrown, hu⟩
    refine ⟨hGrown.lists_new ht, ?_⟩
    rintro sig₂ second v r r' ⟨d, hNow, hMade⟩ hSecond
    have ht' := hMade t (by simp)
    have hu' := hMade u (by simp)
    rcases hNow.of_permuteArguments hChecking hu' hSecond with
      ⟨hOuter, hRet', hGrown', hv⟩
    rcases
      Target.actsAsPermuted_composed hChecking hHost hu hv hInner
        hRet hOuter hRet'
      with ⟨order, hOrder, hActs⟩
    exact
      ⟨hGrown'.lists_new ht', hv.signature_eq,
        Target.isVarargs_of_is hv nofun, order, hOrder, hActs⟩
  · intro pos types u s₁ hDrop
    by_cases hNone : types = []
    · subst hNone
      cases hDrop
      exact
        ⟨hSound.lists_two ht ht, Or.inl ⟨rfl, rfl⟩,
          Target.actsAsPermuted_keeping hChecking hHost t pos⟩
    · rcases hSound.of_dropArguments hChecking ht hNone hDrop with
        ⟨hSig, hGrown, hForm⟩
      refine
        ⟨hGrown.lists_new ht, Or.inr ⟨?_, hSig⟩,
          Target.actsAsPermuted_dropped hChecking hHost hForm hSig⟩
      unfold Target.isVarargs
      rw [hForm]

/- A target of a wide integer and an integer that it ignores. -/
def pairs : List Step :=
  [.make (.identity (.prim .long)) (some "same"),
   .make (.dropArguments "same" 1 [.int]) (some "pair")]

/- The two in the other order. -/
def swapped : Signature :=
  ⟨[.int, .prim .long], .prim .long, ⟨by decide, by decide⟩⟩

/- Something before the two. -/
def later : Signature :=
  ⟨[.prim .long, .int, .prim .long], .prim .long,
    ⟨by decide, by decide⟩⟩

def sevenAndTwo : List Value :=
  [.prim (.long 7), .prim (.int 2)]

def threeNumbers : List Value :=
  [.prim (.long 1), .prim (.int 2), .prim (.long 7)]

/-
  Whether a named target is permuted twice, and once by a
  given order, and gives seven when it is permuted twice.
-/
def permutesTwice
    (s : Session)
    (n : String)
    (order : List Nat) : Bool :=
  let rt := s.context.runtime
  match s.context.names.targets.lookup n with
  | none => false
  | some t =>
      match t.permuteArguments rt swapped [1, 0] s.state with
      | .error _ _ => false
      | .ok u s₁ =>
          match u.permuteArguments rt later [1, 2] s₁ with
          | .error _ _ => false
          | .ok v s₂ =>
              match t.permuteArguments rt v.signature order s₂ with
              | .error _ _ => false
              | .ok _ r =>
                  isSeven
                    ((Entry.way .exact).run rt 9 v threeNumbers r)

/- The last argument comes first after both, and so at once. -/
theorem permutations_compose_swapped :
    ∃ t u v x s₁ s₂ r q,
      (plain.after pairs).context.Names t ∧
        t.permuteArguments plain.context.runtime swapped [1, 0]
          (plain.after pairs).state = .ok u s₁ ∧
        u.permuteArguments plain.context.runtime later [1, 2] s₁ =
          .ok v s₂ ∧
        t.permuteArguments plain.context.runtime later [2, 1] s₂ =
          .ok x r ∧
        (Entry.way .exact).ComesTo plain.context.runtime x
          threeNumbers r (.ok (.prim (.long 7)) q) := by
  have hCheck :
      permutesTwice (plain.after pairs) "pair" [2, 1] = true := by
    decide +kernel
  unfold permutesTwice at hCheck
  rw [runtime_after] at hCheck
  dsimp only at hCheck
  split at hCheck
  · cases hCheck
  · rename_i t hLookup
    have hNamed := names_of_lookup hLookup
    split at hCheck
    · cases hCheck
    · rename_i u s₁ hFirst
      split at hCheck
      · cases hCheck
      · rename_i v s₂ hSecond
        have hHost := World.host_makesNoTargets (.initial .empty)
        rcases
          (permutations_compose plain_isFresh rfl hHost pairs
            hNamed).1 _ _ u s₁ hFirst
          with ⟨hLists, hTwice⟩
        rcases hTwice _ _ v s₁ s₂ hLists hSecond with
          ⟨hLists', hSig, hPlain, order, hOrder, hActs⟩
        have hEq : order = [2, 1] :=
          List.map_injective_iff.2 (fun _ _ => Option.some.inj)
            hOrder
        subst hEq
        rcases hActs s₂ hLists' with
          ⟨x, r, hOnce, hListed, _, _, hSame⟩
        rw [hOnce] at hCheck
        rcases exists_of_isSeven hCheck with ⟨q, hRun⟩
        rw [hSig] at hOnce
        have hComes :
            (Entry.way .exact).ComesTo plain.context.runtime v
              threeNumbers r (.ok (.prim (.long 7)) q) :=
          ⟨nofun, 9, hRun⟩
        rcases
          hSame r hListed (.way .exact) (.way .exact) threeNumbers
            (.way .exact) trivial trivial trivial
          with ⟨hEnds, hAlike⟩
        rcases hEnds.1 ⟨_, hComes⟩ with ⟨_, hOther⟩
        cases hAlike _ _ hComes hOther with
        | @ok _ _ q' _ =>
            exact
              ⟨t, u, v, x, s₁, s₂, r, q', hNamed, hFirst, hSecond,
                hOnce, hOther⟩

/- A target that gathers integers into an array. -/
def gatheringIntegers : List Step :=
  [.make (.identity (.array .int)) (some "same"),
   .make (.asVarargsCollector "same" (.array .int)) (some "all")]

/-
  Whether a named target that ignores no arguments gives a
  value when it is called with none, and fails when its
  arguments are picked in their order.
-/
def gathersUnlessPermuted
    (s : Session)
    (n : String) : Bool :=
  let rt := s.context.runtime
  match s.context.names.targets.lookup n with
  | none => false
  | some t =>
      match t.dropArguments rt 0 [] s.state with
      | .error _ _ => false
      | .ok u s₁ =>
          match
            t.permuteArguments rt u.signature
              (orderSkipping u.count 0 0) s₁
          with
          | .error _ _ => false
          | .ok x r =>
              isValue ((Entry.way .flexible).run rt 9 u [] r) =
                  some true &&
                isValue ((Entry.way .flexible).run rt 9 x [] r) =
                  some false

/-
  A target that ignores no arguments gathers what it gathered
  before; when it is permuted instead it gathers none.
-/
theorem permutations_compose_varargs :
    ∃ t u x s₁ r q q',
      (plain.after gatheringIntegers).context.Names t ∧
        t.dropArguments plain.context.runtime 0 []
          (plain.after gatheringIntegers).state = .ok u s₁ ∧
        t.permuteArguments plain.context.runtime u.signature
          (orderSkipping u.count 0 0) s₁ = .ok x r ∧
        (Entry.way .flexible).ComesTo plain.context.runtime u [] r
          q ∧
        (Entry.way .flexible).ComesTo plain.context.runtime x [] r
          q' ∧
        isValue q = some true ∧ isValue q' = some false ∧
        ¬Run.Same q q' := by
  have hCheck :
      gathersUnlessPermuted (plain.after gatheringIntegers) "all" =
        true := by
    decide +kernel
  unfold gathersUnlessPermuted at hCheck
  rw [runtime_after] at hCheck
  dsimp only at hCheck
  split at hCheck
  · cases hCheck
  · rename_i t hLookup
    split at hCheck
    · cases hCheck
    · rename_i u s₁ hDrop
      split at hCheck
      · cases hCheck
      · rename_i x r hPermute
        simp only [Bool.and_eq_true, decide_eq_true_eq] at hCheck
        refine
          ⟨t, u, x, s₁, r, _, _, names_of_lookup hLookup, hDrop,
            hPermute, ⟨ended_of_isValue hCheck.1, 9, rfl⟩,
            ⟨ended_of_isValue hCheck.2, 9, rfl⟩, hCheck.1, hCheck.2,
            ?_⟩
        intro hSame
        have hEq := isValue_eq hSame
        rw [hCheck.1, hCheck.2] at hEq
        cases hEq

end Session

end Linkage
