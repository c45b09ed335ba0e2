import Linkage.Proofs.Typing.Members

/-
  Typed edits of arguments.  An edit turns arguments of the
  parameter types of a node into arguments of those of its
  delegate.  What is new in the heap, a box or an array,
  comes into play.

  Key theorems include:
    * `Conversion.apply_fits`
    * `applyAll_fits`
    * `Filtered.pass`
    * `Safe.leadingArgs`
    * `Safe.collectArgs`
    * `Safe.spreadArgs`
    * `Safe.permuteArgs`
    * `Safe.insertArgs`
    * `Safe.dropArgs`
-/

------------------------------------------------------------
-- Conversions
------------------------------------------------------------

namespace Linkage

variable {T : ClassTable}
variable {L : Layout}
variable {S : Store}
variable {h : Heap}
variable {v : Value}
variable {s t : Ty}
variable {k : Conversion}
variable {f : Fault}
variable {how : Strength}

/- No conversion throws an object. -/
theorem Conversion.apply_not_thrown
    {o : Obj} :
    (k.apply T v h).1 ≠ .error (.thrown o) := by
  intro hApply
  cases apply_fails hApply

/- The heap after a conversion is typed again. -/
theorem Conversion.apply_typed
    (hTyped : h.Typed T L S) :
    ∃ U, S ≤ U ∧ (k.apply T v h).2.Typed T L U := by
  rcases Conversion.apply_heap T k v h with hEq | ⟨p, hEq⟩
  · rw [hEq]
    exact ⟨S, le_refl S, hTyped⟩
  · rw [hEq]
    rcases hTyped.alloc (s := .boxed p) (.fixed _) with
      ⟨hLe, hAfter⟩
    exact ⟨_, hLe, hAfter⟩

/-
  The conversion chosen for two types turns a value of the
  first into one of the second, or fails fairly.
-/
theorem Conversion.apply_fits
    (hRoots : T.PlainRoots)
    (hTyped : h.Typed T L S)
    (hClass : classify T s t how = some k)
    (hChecks : k.Checks)
    (hFits : v.Fits T S s) :
    ∃ U, S ≤ U ∧ (k.apply T v h).2.Typed T L U ∧
      Settles T U (fun w => w.Fits T U t) (k.apply T v h).1 := by
  cases hApply : k.apply T v h with
  | mk r h' =>
      cases r with
      | error f =>
          rcases
            Conversion.apply_typed (k := k) (v := v) hTyped
            with ⟨U, hLe, hAfter⟩
          rw [hApply] at hAfter
          refine ⟨U, hLe, hAfter, ?_⟩
          rintro o rfl
          have hThrown : (k.apply T v h).1 = .error (.thrown o) :=
            congrArg Prod.fst hApply
          exact absurd hThrown Conversion.apply_not_thrown
      | ok w =>
          have hConforms : w.conforms T t = true :=
            Conversion.apply_conforms hClass hChecks hFits.conforms
              (fun hAssign =>
                (hFits.up hRoots hAssign).conforms)
              hApply
          cases Conversion.apply_boxed hApply with
          | same hEq =>
              subst hEq
              exact
                ⟨S, le_refl S, hTyped, hConforms, hFits.inPlay⟩
          | plain hPlain =>
              exact
                ⟨S, le_refl S, hTyped, hConforms,
                  Value.in_of_plain hPlain⟩
          | box p hEq =>
              rcases hTyped.alloc (s := .boxed p) (.fixed _) with
                ⟨hLe, hAfter⟩
              refine ⟨_, hLe, hAfter, hConforms, ?_⟩
              intro o ho
              rw [hEq] at ho
              cases ho
              exact if_pos rfl

/- The conversions of a plan turn arguments into arguments. -/
theorem applyAll_fits
    {i : Nat}
    {ps qs : List Ty}
    {vs : List Value}
    {ks : List Conversion}
    (hRoots : T.PlainRoots)
    (hTyped : h.Typed T L S)
    (hPlan : planParams T how i ps qs = .ok ks)
    (hLength : ps.length = qs.length)
    (hChecks : ∀ k ∈ ks, k.Checks)
    (hArgs : ArgsFit T S vs ps) :
    ∃ U, S ≤ U ∧ (applyAll T ks vs h).2.Typed T L U ∧
      Settles T U (fun ws => ArgsFit T U ws qs)
        (applyAll T ks vs h).1 := by
  induction ps generalizing i qs vs ks h S with
  | nil =>
      cases hPlan
      rw [List.length_eq_zero_iff.1 hLength.symm]
      exact ⟨S, le_refl S, hTyped, .nil⟩
  | cons p ps ih =>
      cases qs with
      | nil => cases hLength
      | cons q qs =>
          unfold planParams at hPlan
          split at hPlan
          · cases hPlan
          · rename_i k hClass
            split at hPlan
            · cases hPlan
            · rename_i ks' hRest
              cases hPlan
              cases hArgs with
              | @cons v _ vs' _ hFirst hOthers =>
                  have hOne :=
                    Conversion.apply_fits hRoots hTyped hClass
                      (hChecks k List.mem_cons_self) hFirst
                  unfold applyAll
                  rcases hOne with ⟨U, hU, hAfter, hAnswer⟩
                  split
                  · rename_i e h' hApply
                    rw [hApply] at hAfter hAnswer
                    exact ⟨U, hU, hAfter, hAnswer⟩
                  · rename_i w h' hApply
                    rw [hApply] at hAfter hAnswer
                    have hAll :=
                      ih hAfter hRest (Nat.succ.inj hLength)
                        (fun k' hk' =>
                          hChecks k' (List.mem_cons_of_mem _ hk'))
                        (ArgsFit.later hOthers hU)
                    rcases hAll with ⟨V, hV, hAfter', hAnswer'⟩
                    split
                    · rename_i e h'' hApply'
                      rw [hApply'] at hAfter' hAnswer'
                      exact
                        ⟨V, le_trans hU hV, hAfter', hAnswer'⟩
                    · rename_i ws h'' hApply'
                      rw [hApply'] at hAfter' hAnswer'
                      exact
                        ⟨V, le_trans hU hV, hAfter',
                          .cons (hAnswer.later hV) hAnswer'⟩

------------------------------------------------------------
-- Parts of Argument Lists
------------------------------------------------------------

namespace ArgsFit

variable {vs ws : List Value}
variable {ps qs : List Ty}

theorem append
    (hLeft : ArgsFit T S vs ps)
    (hRight : ArgsFit T S ws qs) :
    ArgsFit T S (vs ++ ws) (ps ++ qs) :=
  List.rel_append hLeft hRight

/- The argument at a position fits the type there. -/
theorem get
    {i : Nat}
    (hFit : ArgsFit T S vs ps)
    (hGet : vs[i]? = some v) :
    ∃ p, ps[i]? = some p ∧ v.Fits T S p := by
  induction hFit generalizing i with
  | nil => cases hGet
  | cons hHead _ ih =>
      cases i with
      | zero =>
          cases hGet
          exact ⟨_, rfl, hHead⟩
      | succ i => exact ih hGet

/- An argument at the position of a type. -/
theorem exists_get
    {i : Nat}
    (hFit : ArgsFit T S vs ps)
    (hGet : ps[i]? = some t) :
    ∃ v, vs[i]? = some v ∧ v.Fits T S t := by
  induction hFit generalizing i with
  | nil => cases hGet
  | cons hHead _ ih =>
      cases i with
      | zero =>
          cases hGet
          exact ⟨_, rfl, hHead⟩
      | succ i => exact ih hGet

theorem set
    {i : Nat}
    (hFit : ArgsFit T S vs ps)
    (hFits : v.Fits T S t) :
    ArgsFit T S (vs.set i v) (ps.set i t) := by
  induction hFit generalizing i with
  | nil => exact .nil
  | cons hHead hTail ih =>
      cases i with
      | zero => exact .cons hFits hTail
      | succ i => exact .cons hHead ih

/- Constants of given types that are in play. -/
theorem of_conforms
    (hConforms :
      List.Forall₂ (fun v t => v.conforms T t = true) vs ps)
    (hIn : ∀ v ∈ vs, v.In S) :
    ArgsFit T S vs ps := by
  induction hConforms with
  | nil => exact .nil
  | cons hHead _ ih =>
      refine .cons ⟨hHead, hIn _ List.mem_cons_self⟩ (ih ?_)
      intro v hv
      exact hIn v (List.mem_cons_of_mem _ hv)

/- The arguments of a leading part of the parameters. -/
theorem leading
    (hFit : ArgsFit T S vs ps)
    (hPrefix : qs <+: ps) :
    ArgsFit T S (vs.take qs.length) qs := by
  rcases hPrefix with ⟨rest, rfl⟩
  have hTake := List.forall₂_take qs.length hFit
  rw [List.take_left] at hTake
  exact hTake

/- The last argument and those before it. -/
theorem split_last
    (hFit : ArgsFit T S vs (ps ++ [t])) :
    ∃ ws w, vs = ws ++ [w] ∧ ArgsFit T S ws ps ∧ w.Fits T S t := by
  have hTake := List.forall₂_take_append vs ps [t] hFit
  have hDrop := List.forall₂_drop_append vs ps [t] hFit
  rcases List.forall₂_cons_right_iff.1 hDrop with
    ⟨w, rest, hLast, hNil, hEq⟩
  cases hNil
  refine ⟨vs.take ps.length, w, ?_, hTake, hLast⟩
  rw [← hEq]
  exact (List.take_append_drop ps.length vs).symm

/- Arguments that all are of one type. -/
theorem of_forall
    (hAll : ∀ v ∈ vs, v.Fits T S t) :
    ArgsFit T S vs (List.replicate vs.length t) := by
  induction vs with
  | nil => exact .nil
  | cons v vs ih =>
      refine .cons (hAll v List.mem_cons_self) (ih ?_)
      intro w hw
      exact hAll w (List.mem_cons_of_mem v hw)

theorem forall_of_replicate
    {n : Nat}
    (hFit : ArgsFit T S vs (List.replicate n t)) :
    ∀ v ∈ vs, v.Fits T S t := by
  intro v hv
  rcases List.getElem?_of_mem hv with ⟨i, hi⟩
  rcases hFit.get hi with ⟨p, hp, hFits⟩
  have hEq : p = t :=
    List.eq_of_mem_replicate (List.mem_of_getElem? hp)
  rw [hEq] at hFits
  exact hFits

/- Arguments that fit are admitted. -/
theorem admits
    {sig : Signature}
    (hFit : ArgsFit T S vs sig.params) :
    Target.admits T sig vs = true := by
  apply Target.admits_iff.2
  exact hFit.imp (fun _ _ hFits => hFits.conforms)

/- Arguments that are admitted and in play fit. -/
theorem of_admits
    {sig : Signature}
    (hAdmits : Target.admits T sig vs = true)
    (hIn : ∀ v ∈ vs, v.In S) :
    ArgsFit T S vs sig.params := by
  have hMatch := Target.admits_iff.1 hAdmits
  rw [ArgsFit, List.forall₂_iff_zip]
  refine ⟨hMatch.length_eq, ?_⟩
  intro v p hMem
  exact
    ⟨List.forall₂_zip hMatch hMem, hIn v (List.of_mem_zip hMem).1⟩

theorem inPlay
    (hFit : ArgsFit T S vs ps) :
    ∀ v ∈ vs, v.In S := by
  intro v hv
  rcases List.getElem?_of_mem hv with ⟨i, hi⟩
  rcases hFit.get hi with ⟨p, _, hFits⟩
  exact hFits.inPlay

end ArgsFit

------------------------------------------------------------
-- Filters
------------------------------------------------------------

namespace Filtered

variable {i : Nat}
variable {g : Target}
variable {gs : List (Option Target)}
variable {o : Option Target}
variable {outer inner : List Ty}

/- When no filter is left, the types are the inner ones. -/
theorem done
    (hFiltered : Filtered i [] outer inner) :
    outer = inner := by
  apply List.ext_getElem?
  intro k
  apply hFiltered.kept k
  intro f _ hGet
  cases hGet

/-
  Behind the first filter: the type at its position is taken
  to be the one that the filter gives.
-/
theorem behind
    {mid : List Ty}
    (hFiltered : Filtered i (o :: gs) outer inner)
    (hLength : mid.length = outer.length)
    (hHere : mid[i]? = inner[i]?)
    (hOther : ∀ k, k ≠ i → mid[k]? = outer[k]?) :
    Filtered (i + 1) gs mid inner := by
  have hWithin := hFiltered.within
  rw [List.length_cons] at hWithin
  constructor
  · exact hLength.trans hFiltered.length_eq
  · omega
  · intro k hNone
    by_cases hk : k = i
    · rw [hk]
      exact hHere
    · rw [hOther k hk]
      apply hFiltered.kept k
      intro f hLe hGet
      have hNext : k - i = k - (i + 1) + 1 := by omega
      rw [hNext, List.getElem?_cons_succ] at hGet
      exact hNone f (by omega) hGet
  · intro j f hGet
    rcases hFiltered.filtered (j + 1) f hGet with
      ⟨p, hSingle, hOuter, hInner⟩
    have hIndex : i + 1 + j = i + (j + 1) := by omega
    refine ⟨p, hSingle, ?_, ?_⟩
    · rw [hIndex, hOther _ (by omega)]
      exact hOuter
    · rw [hIndex]
      exact hInner

/- Nothing changes where there is no filter. -/
theorem skip
    (hFiltered : Filtered i (none :: gs) outer inner) :
    Filtered (i + 1) gs outer inner := by
  apply hFiltered.behind rfl
  · apply hFiltered.kept i
    intro f _ hGet
    rw [Nat.sub_self] at hGet
    cases hGet
  · intro k _
    rfl

/- A filter changes the type at its own position. -/
theorem pass
    (hFiltered : Filtered i (some g :: gs) outer inner) :
    Filtered (i + 1) gs (outer.set i g.ret) inner := by
  rcases hFiltered.filtered 0 g rfl with
    ⟨p, _, hOuter, hInner⟩
  have hi : i < outer.length :=
    (List.getElem?_eq_some_iff.1 hOuter).1
  apply hFiltered.behind List.length_set
  · rw [List.getElem?_set_self hi]
    exact hInner.symm
  · intro k hk
    exact List.getElem?_set_ne (Ne.symm hk)

end Filtered

------------------------------------------------------------
-- Edits in Runs
------------------------------------------------------------

variable {rt : Runtime}
variable {w : Stage}
variable {sig : Signature}
variable {args : List Value}
variable {ps qs : List Ty}
variable {n : Nat}

namespace Safe

theorem convertValue
    {a : Value}
    (hRoots : rt.classes.PlainRoots)
    (hClass : classify rt.classes s t how = some k)
    (hChecks : k.Checks)
    (hFits : a.Fits rt.classes w.store s) :
    Safe rt L w (Run.onHeap (k.apply rt.classes a))
      (fun v b => b.Fits rt.classes v.store t) := by
  apply onHeap
  intro h hTyped
  rcases
    Conversion.apply_fits hRoots hTyped hClass hChecks hFits
    with ⟨U, hLe, hAfter, hAnswer⟩
  refine ⟨U, hLe, hAfter, ?_, hAnswer⟩
  intro i u hAt
  exact ⟨i, u, Conversion.apply_holds hAt, .refl u⟩

theorem convertArgs
    {ks : List Conversion}
    (hRoots : rt.classes.PlainRoots)
    (hPlan : planParams rt.classes how 0 ps qs = .ok ks)
    (hLength : ps.length = qs.length)
    (hChecks : ∀ k ∈ ks, k.Checks)
    (hArgs : ArgsFit rt.classes w.store args ps) :
    Safe rt L w (Run.onHeap (applyAll rt.classes ks args))
      (fun v vs => ArgsFit rt.classes v.store vs qs) := by
  apply onHeap
  intro h hTyped
  rcases
    applyAll_fits hRoots hTyped hPlan hLength hChecks hArgs
    with ⟨U, hLe, hAfter, hAnswer⟩
  refine ⟨U, hLe, hAfter, ?_, hAnswer⟩
  intro i u hAt
  exact ⟨i, u, applyAll_holds hAt, .refl u⟩

theorem leadingArgs
    (hArgs : ArgsFit rt.classes w.store args ps)
    (hPrefix : qs <+: ps)
    (hCount : n = qs.length) :
    Safe rt L w (leadingArgs sig n args)
      (fun v vs => v = w ∧ ArgsFit rt.classes w.store vs qs) := by
  unfold Linkage.leadingArgs
  split
  · apply pure
    rw [hCount]
    exact ⟨rfl, hArgs.leading hPrefix⟩
  · exact plainFault nofun

/- The new array is one of each type its own is assigned to. -/
theorem collectArgs
    {component last : Ty}
    (hArray :
      rt.classes.isAssignable (.array component) last = true)
    (hArgs :
      ArgsFit rt.classes w.store args
        (ps ++ List.replicate n component)) :
    Safe rt L w (collectArgs sig component n args)
      (fun v vs =>
        ArgsFit rt.classes v.store vs (ps ++ [last])) := by
  have hLength := hArgs.length_eq
  rw [List.length_append, List.length_replicate] at hLength
  have hStart : args.length - n = ps.length := by omega
  have hTake := List.forall₂_take_append args ps _ hArgs
  have hDrop := List.forall₂_drop_append args ps _ hArgs
  unfold Linkage.collectArgs
  split
  · exact plainFault nofun
  · dsimp only
    rw [hStart]
    refine Safe.bind
      (R := fun v o =>
        w ≤ v ∧ (Value.ref o).Fits rt.classes v.store last) ?_ ?_
    · apply onHeap
      intro h hTyped
      rcases
        hTyped.alloc
          (.elements component _ (ArgsFit.forall_of_replicate hDrop))
        with ⟨hLe, hAfter⟩
      refine ⟨_, hLe, hAfter, ?_, ⟨le_refl _, hLe⟩, hArray, ?_⟩
      · intro i u hAt
        have hNew :
            (h.allocArray component
              (args.drop ps.length)).2.at? i =
                some (.target u) :=
          hAt
        exact ⟨i, u, Heap.at?_allocArray_target hNew, .refl u⟩
      · intro o hEq
        cases hEq
        exact if_pos rfl
    · rintro v _ o ⟨hLe, hFits⟩
      apply pure
      exact
        (ArgsFit.later hTake hLe.2).append (.cons hFits .nil)

/- The elements of an array stand for single arguments. -/
theorem spreadArgs
    {component : Ty}
    (hRoots : rt.classes.PlainRoots)
    (hArgs :
      ArgsFit rt.classes w.store args (ps ++ [.array component])) :
    Safe rt L w (spreadArgs sig n args)
      (fun v vs =>
        ArgsFit rt.classes v.store vs
          (ps ++ List.replicate n component)) := by
  rcases hArgs.split_last with ⟨ws, a, rfl, hInit, hLast⟩
  unfold Linkage.spreadArgs
  rw [List.getLast?_concat, List.dropLast_concat]
  rcases Value.conforms_ref hLast.conforms rfl with
    rfl | ⟨o, rfl, _⟩
  · dsimp only
    split
    · rename_i hZero
      apply pure
      rw [hZero, List.replicate_zero, List.append_nil]
      exact hInit
    · exact plainFault nofun
  · apply reading
    intro s hStaged
    split
    · exact plainFault nofun
    · rename_i vs hElements
      have hAll :=
        hStaged.heap.elements_fit hRoots hLast hElements
      split
      · rename_i hCount
        apply pure
        rw [← hCount]
        exact hInit.append (ArgsFit.of_forall hAll)
      · exact plainFault nofun

theorem permuteArgs
    {order : List Nat}
    (hArgs : ArgsFit rt.classes w.store args ps)
    (hOrder :
      List.Forall₂ (fun j t => ps[j]? = some t) order qs) :
    Safe rt L w (permuteArgs sig args order)
      (fun v vs => v = w ∧ ArgsFit rt.classes w.store vs qs) := by
  induction hOrder with
  | nil => exact pure ⟨rfl, .nil⟩
  | cons hHead _ ih =>
      unfold Linkage.permuteArgs
      rcases hArgs.exists_get hHead with ⟨a, hGet, hFits⟩
      rw [hGet]
      refine Safe.bind ih ?_
      rintro v _ vs ⟨rfl, hRest⟩
      exact pure ⟨rfl, .cons hFits hRest⟩

theorem insertArgs
    {pos : Nat}
    {values : List Value}
    {types : List Ty}
    (hPos : pos ≤ ps.length)
    (hArgs : ArgsFit rt.classes w.store args ps)
    (hValues : ArgsFit rt.classes w.store values types) :
    Safe rt L w (insertArgs pos values args)
      (fun v vs =>
        v = w ∧
          ArgsFit rt.classes w.store vs
            (ps.take pos ++ types ++ ps.drop pos)) := by
  unfold Linkage.insertArgs
  rw [if_pos (le_of_le_of_eq hPos hArgs.length_eq.symm)]
  apply pure
  have hBefore := List.forall₂_take pos hArgs
  have hAfter := List.forall₂_drop pos hArgs
  exact ⟨rfl, (ArgsFit.append hBefore hValues).append hAfter⟩

theorem dropArgs
    {pos : Nat}
    {types : List Ty}
    (hPos : pos ≤ qs.length)
    (hArgs :
      ArgsFit rt.classes w.store args
        (qs.take pos ++ types ++ qs.drop pos)) :
    Safe rt L w (dropArgs pos types.length args)
      (fun v vs => v = w ∧ ArgsFit rt.classes w.store vs qs) := by
  have hLength := hArgs.length_eq
  have hTake := List.length_take_of_le hPos
  rw [List.length_append, List.length_append, hTake] at hLength
  unfold Linkage.dropArgs
  rw [if_pos (by omega)]
  apply pure
  refine ⟨rfl, ?_⟩
  have hBefore := List.forall₂_take pos hArgs
  have hAfter := List.forall₂_drop (pos + types.length) hArgs
  rw [List.append_assoc, List.take_left' hTake] at hBefore
  rw [List.drop_left'
    (by rw [List.length_append, hTake])] at hAfter
  have hBoth := ArgsFit.append hBefore hAfter
  rw [List.take_append_drop] at hBoth
  exact hBoth

end Safe

end Linkage
