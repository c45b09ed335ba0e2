import Linkage.Proofs.Session.Permuting
import Linkage.Proofs.Session.Tracking

/-
  Parameters that are fixed to constants.  Whether a value
  becomes a constant of a type does not depend on the heap,
  and what it becomes only does if it needs a box.  Constants
  in the place of arguments that are ignored make no
  difference; and a first parameter may be fixed by binding
  it or by inserting a constant before all arguments.

  Key definitions include:
    * `Target.fixFirst`

  Key theorems include:
    * `convertConstant_isSome`
    * `State.Sound.insertArguments_ok`
    * `Target.enter_bound`
    * `Target.enter_insert`
    * `Target.matchedBy_filled`
    * `Target.callsAlike_fixed`
    * `Session.constants_fill_and_bind`
-/

------------------------------------------------------------
-- Constants of Any Heap
------------------------------------------------------------

namespace Linkage

variable {T : ClassTable}
variable {v w : Value}
variable {p : Ty}

/- Whether a value is taken does not depend on the heap. -/
theorem Conversion.apply_isOk
    (c : Conversion)
    (v : Value)
    (h k : Heap) :
    (c.apply T v k).1.isOk = (c.apply T v h).1.isOk := by
  cases c with
  | box kind t =>
      unfold apply boxValue
      cases v with
      | prim q =>
          dsimp only
          by_cases hKind : q.kind = kind
          · rw [if_pos hKind, if_pos hKind]
            cases t with
            | none => rfl
            | some t =>
                -- The class of the new box is told by its value.
                change
                  (if T.isAssignable (Shape.boxed q).type t
                    then _ else _ : Except Fault Value).isOk =
                    (if T.isAssignable (Shape.boxed q).type t
                      then _ else _ : Except Fault Value).isOk
                split
                · rfl
                · rfl
          · rw [if_neg hKind, if_neg hKind]
      | _ => rfl
  | _ => rfl

/- What becomes of a value that needs no box. -/
theorem Conversion.apply_of_not_prim
    (hPlain : ∀ q, v ≠ .prim q)
    (c : Conversion)
    (h k : Heap) :
    (c.apply T v k).1 = (c.apply T v h).1 := by
  cases c with
  | box kind t =>
      unfold apply boxValue
      cases v with
      | prim q => exact absurd rfl (hPlain q)
      | _ => rfl
  | _ => rfl

/- A constant is what its conversion makes of the value. -/
theorem convertConstant_cases
    (T : ClassTable)
    (v : Value)
    (p : Ty) :
    (∃ o, ∀ h, (convertConstant T v p h).1 = o) ∨
      ∃ c : Conversion, ∀ h,
        (convertConstant T v p h).1 = (c.apply T v h).1.toOption := by
  unfold convertConstant
  split
  · exact .inl ⟨none, fun _ => rfl⟩
  · cases v with
    | void => exact .inl ⟨none, fun _ => rfl⟩
    | null => exact .inl ⟨_, fun _ => rfl⟩
    | prim _ | ref _ =>
        dsimp only
        split
        · exact .inl ⟨none, fun _ => rfl⟩
        · split
          · exact .inl ⟨none, fun _ => rfl⟩
          · rename_i c _
            refine .inr ⟨c, fun h => ?_⟩
            split
            · rename_i hApply
              rw [hApply]
              rfl
            · rename_i hApply
              rw [hApply]
              rfl

theorem convertConstant_isSome
    (T : ClassTable)
    (v : Value)
    (p : Ty)
    (h k : Heap) :
    (convertConstant T v p k).1.isSome =
      (convertConstant T v p h).1.isSome := by
  have hOption :
      ∀ r : Except Fault Value, r.toOption.isSome = r.isOk := by
    intro r
    cases r with
    | ok a => rfl
    | error e => rfl
  rcases convertConstant_cases T v p with ⟨o, hAll⟩ | ⟨c, hAll⟩
  · rw [hAll, hAll]
  · rw [hAll, hAll, hOption, hOption]
    exact c.apply_isOk v h k

theorem convertConstant_of_not_prim
    (hPlain : ∀ q, v ≠ .prim q)
    (h k : Heap) :
    (convertConstant T v p k).1 = (convertConstant T v p h).1 := by
  rcases convertConstant_cases T v p with ⟨o, hAll⟩ | ⟨c, hAll⟩
  · rw [hAll, hAll]
  · rw [hAll, hAll, c.apply_of_not_prim hPlain h k]

------------------------------------------------------------
-- Making Constants
------------------------------------------------------------

variable {rt : Runtime}
variable {c : Catalog}
variable {s s' : State}
variable {sig : Signature}
variable {t u x : Target}
variable {pos : Nat}
variable {vs : List Value}
variable {types ts : List Ty}

/- A constant leaves no handles behind. -/
theorem State.Sound.withConstant
    (hSound : s.Sound rt c)
    (v : Value)
    (p : Ty) :
    ({ s with
        heap := (convertConstant rt.classes v p s.heap).2 } :
      State).Sound rt c := by
  rcases convertConstant_heap rt.classes v p s.heap with
    hSame | ⟨q, hBox⟩
  · rw [hSame]
    exact hSound
  · rw [hBox]
    apply hSound.withHeap
    intro i t hAt
    exact hSound.handles i t (Heap.at?_allocBox_target hAt)

namespace Target

/- Values that become constants one by one, from any heap. -/
theorem convertConstants_ok
    {k : Heap}
    (hSound : s.Sound rt c)
    (hAll :
      List.Forall₂
        (fun v p =>
          (convertConstant rt.classes v p k).1.isSome = true)
        vs ts)
    (i : Nat)
    (rest : List Ty) :
    ∃ ws h,
      convertConstants rt i vs (ts ++ rest) s =
          .ok ws { s with heap := h } ∧
        ({ s with heap := h } : State).Sound rt c ∧
        ws.length = vs.length := by
  induction hAll generalizing s i with
  | nil => exact ⟨[], s.heap, rfl, hSound, rfl⟩
  | @cons v p vs ts hFirst _ ih =>
      rw [convertConstant_isSome rt.classes v p s.heap,
        Option.isSome_iff_exists] at hFirst
      rcases hFirst with ⟨w, hw⟩
      have hLater := hSound.withConstant v p
      rcases ih hLater (i + 1) with
        ⟨ws, h, hRest, hSound', hLength⟩
      refine ⟨w :: ws, h, ?_, hSound', congrArg (· + 1) hLength⟩
      have hHead :
          Link.onHeap (convertConstant rt.classes v p) s =
            .ok (some w)
              { s with
                heap :=
                  (convertConstant rt.classes v p s.heap).2 } := by
        unfold Link.onHeap
        dsimp only
        rw [hw]
      rw [List.cons_append]
      unfold convertConstants
      rw [Run.bind_ok hHead]
      dsimp only
      rw [Run.bind_ok hRest]
      rfl

end Target

/- Constants in the place of some of the parameters. -/
theorem State.Sound.insertArguments_ok
    {k : Heap}
    {before after : List Ty}
    (hSound : s.Sound rt c)
    (hChecking : rt.compile = .checking)
    (ht : t ∈ c.made)
    (hSome : vs ≠ [])
    (hParams : t.params = before ++ ts ++ after)
    (hPos : before.length = pos)
    (hAll :
      List.Forall₂
        (fun v p =>
          (convertConstant rt.classes v p k).1.isSome = true)
        vs ts) :
    ∃ ws x s',
      t.insertArguments rt pos vs s = .ok x s' ∧
        s'.Sound rt (c.addNode x) ∧
        x.form = .insert t pos ws ∧ ws.length = vs.length ∧
        x.params = before ++ after ∧ x.ret = t.ret := by
  subst hPos
  have hLength := hAll.length_eq
  have hCount :
      t.signature.count = before.length + ts.length + after.length := by
    change t.params.length = _
    rw [hParams, List.length_append, List.length_append]
  have hDrop : t.params.drop before.length = ts ++ after := by
    rw [hParams, List.append_assoc, List.drop_left]
  rcases
    Target.convertConstants_ok hSound hAll before.length after
    with ⟨ws, h, hRun, hSound', hEach⟩
  have hStop : before.length + ws.length ≤ t.signature.count := by
    omega
  rcases
    Signature.dropParams_ok
      (Nat.le_add_right before.length ws.length) hStop
    with ⟨sig, hSig, hLeft, hRet⟩
  have hTargets :
      ∀ u ∈ (Form.insert t before.length ws).targets, u ∈ c.made :=
    Catalog.all_one ht
  rcases hSound'.build_ok hChecking sig hTargets with
    ⟨x, s', hBuild, hGrown, hIs⟩
  refine
    ⟨ws, x, s', ?_, hGrown.sound, hIs.form_eq, hEach, ?_, ?_⟩
  · have hEnough : ¬t.count < before.length + vs.length := by
      change ¬t.signature.count < _
      omega
    unfold Target.insertArguments
    rw [if_neg hEnough, if_neg (by simpa using hSome), hDrop,
      Run.bind_ok hRun, hSig]
    exact hBuild
  · have hTake :
        t.params.take before.length = before := by
      rw [hParams, List.append_assoc, List.take_left]
    have hRest :
        t.params.drop (before.length + ws.length) = after := by
      rw [← List.drop_drop, hDrop, List.drop_left' (by omega)]
    have hOwn : x.params = sig.params :=
      congrArg Signature.params hIs.signature_eq
    rw [hOwn, hLeft]
    change
      t.params.take before.length ++
        t.params.drop (before.length + ws.length) = _
    rw [hTake, hRest]
  · exact (congrArg Signature.ret hIs.signature_eq).trans hRet

------------------------------------------------------------
-- Entering with Constants
------------------------------------------------------------

namespace Target

variable {args ws : List Value}

/- A bound node hands its value on before all arguments. -/
theorem enter_bound
    (hChecking : rt.compile = .checking)
    (hHost : rt.host.MakesNoTargets)
    (hSound : s.Sound rt c)
    (hu : u ∈ c.made)
    (hForm : u.form = .bound t v)
    (hCount : args.length = u.count)
    (n : Nat) :
    Run.Same (enter rt (n + 1) u args s)
      (enter rt n t (v :: args) s) := by
  refine enter_handsOn hChecking hHost hSound hu ?_ ?_ hCount n
  · rw [hForm]
    exact List.mem_cons_self
  · intro e
    unfold behave
    rw [hForm]

/- A node of constants hands them on at their position. -/
theorem enter_insert
    (hChecking : rt.compile = .checking)
    (hHost : rt.host.MakesNoTargets)
    (hSound : s.Sound rt c)
    (hx : x ∈ c.made)
    (hForm : x.form = .insert t pos ws)
    (hPos : pos ≤ args.length)
    (hCount : args.length = x.count)
    (n : Nat) :
    Run.Same (enter rt (n + 1) x args s)
      (enter rt n t (args.take pos ++ ws ++ args.drop pos) s) := by
  refine enter_handsOn hChecking hHost hSound hx ?_ ?_ hCount n
  · rw [hForm]
    exact List.mem_cons_self
  · intro e
    unfold behave
    rw [hForm]
    dsimp only
    unfold insertArgs
    rw [if_pos hPos]
    rfl

/-
  Constants that stand where arguments are ignored make no
  difference.
-/
theorem matchedBy_filled
    {count : Nat}
    (hChecking : rt.compile = .checking)
    (hHost : rt.host.MakesNoTargets)
    (hu : u.form = .drop t pos count)
    (hx : x.form = .insert u pos ws)
    (hSig : x.signature = t.signature)
    (hPos : pos ≤ t.count)
    (hMore : u.count = t.count + count)
    (hLength : ws.length = count) :
    t.MatchedBy True rt x := by
  refine ⟨hSig, 0, 2, ?_⟩
  rintro s args n ⟨c, hSound, hListed⟩ hCount
  have hxMade := hListed x (by simp)
  have huMade : u ∈ c.made :=
    hSound.valid.delegate hxMade hx List.mem_cons_self
  have hCount' : args.length = x.count := by
    unfold Target.count
    rw [hSig]
    exact hCount
  have hWithin : pos ≤ args.length := hCount ▸ hPos
  have hTake : (args.take pos).length = pos :=
    List.length_take_of_le hWithin
  have hAll :
      (args.take pos ++ ws ++ args.drop pos).length = u.count := by
    simp only [List.length_append, List.length_drop]
    omega
  have hInserted :=
    enter_insert hChecking hHost hSound hxMade hx hWithin hCount'
      (n + 1)
  have hDropped :=
    enter_drop hChecking hHost hSound huMade hu (by omega) hAll n
  have hBack :
      (args.take pos ++ ws ++ args.drop pos).take pos ++
          (args.take pos ++ ws ++ args.drop pos).drop
            (pos + count) =
        args := by
    rw [List.drop_left' (by rw [List.length_append, hTake, hLength]),
      List.append_assoc, List.take_left' hTake,
      List.take_append_drop]
  rw [hBack] at hDropped
  exact .of_same (hInserted.trans hDropped).symm

------------------------------------------------------------
-- Fixing the First Parameter
------------------------------------------------------------

/-
  A node of a form in which a value stands for the first
  parameter, if the value becomes a constant of its type.
-/
def fixFirst
    (rt : Runtime)
    (v : Value)
    (first : Ty)
    (sig : Signature)
    (refused : Misuse)
    (form : Value → Form Target) : Link Target := do
  match ← Link.onHeap (convertConstant rt.classes v first) with
  | none => Link.misuse refused
  | some w => build rt sig (form w)

variable {first : Ty}
variable {rest : List Ty}
variable {refused : Misuse}
variable {form : Value → Form Target}

theorem bindTo_eq
    (hParams : t.params = first :: rest)
    (hRef : first.IsRef = true)
    (hSig : t.signature.dropParams 0 1 = .ok sig)
    (v : Value) :
    t.bindTo rt v =
      fixFirst rt v first sig (.bindMismatch v.typeText first)
        (.bound t) := by
  have hPrim : ¬first.IsPrim = true := by
    simpa [Ty.IsRef] using hRef
  unfold bindTo
  rw [hParams, hSig]
  dsimp only [List.head?_cons]
  rw [if_neg hPrim]
  rfl

theorem insertArguments_eq
    (hParams : t.params = first :: rest)
    (hSig : t.signature.dropParams 0 1 = .ok sig)
    (v : Value) :
    t.insertArguments rt 0 [v] =
      fixFirst rt v first sig (.insertMismatch v.typeText 0 first)
        (fun w => .insert t 0 [w]) := by
  have hEnough : ¬t.count < 0 + [v].length := by
    change ¬t.params.length < 1
    rw [hParams, List.length_cons]
    omega
  unfold insertArguments
  rw [if_neg hEnough, List.drop_zero, hParams]
  unfold convertConstants fixFirst
  dsimp only [List.isEmpty_cons, Bool.false_eq_true, if_false]
  rw [bind_assoc]
  refine bind_congr fun o => ?_
  cases o with
  | none => rfl
  | some w =>
      unfold convertConstants
      dsimp only
      rw [pure_bind, pure_bind]
      change
        (Link.ofSignature (t.signature.dropParams 0 1) >>= _) = _
      rw [hSig]
      rfl

/- It succeeds just if the value becomes a constant. -/
theorem fixFirst_ok
    {o : Value}
    (hSound : s.Sound rt c)
    (hChecking : rt.compile = .checking)
    (sig : Signature)
    (refused : Misuse)
    (hTargets : ∀ x ∈ (form o).targets, x ∈ c.made)
    (hSome : (convertConstant rt.classes v first s.heap).1 = some o) :
    ∃ u s',
      fixFirst rt v first sig refused form s = .ok u s' ∧
        State.Grown rt c
          { s with
            heap := (convertConstant rt.classes v first s.heap).2 }
          (c.addNode u) s' ∧
        u.Is sig (form o) := by
  rcases
    (hSound.withConstant v first).build_ok hChecking sig hTargets
    with ⟨u, s', hBuild, hGrown, hIs⟩
  refine ⟨u, s', ?_, hGrown, hIs⟩
  have hHead :
      Link.onHeap (convertConstant rt.classes v first) s =
        .ok (some o)
          { s with
            heap :=
              (convertConstant rt.classes v first s.heap).2 } := by
    unfold Link.onHeap
    dsimp only
    rw [hSome]
  unfold fixFirst
  rw [Run.bind_ok hHead]
  exact hBuild

theorem of_fixFirst
    (hSound : s.Sound rt c)
    (hChecking : rt.compile = .checking)
    (hTargets : ∀ o, ∀ x ∈ (form o).targets, x ∈ c.made)
    (hOk : fixFirst rt v first sig refused form s = .ok u s') :
    ∃ o,
      (convertConstant rt.classes v first s.heap).1 = some o ∧
        State.Grown rt c
          { s with
            heap := (convertConstant rt.classes v first s.heap).2 }
          (c.addNode u) s' ∧
        u.Is sig (form o) := by
  cases hCase : (convertConstant rt.classes v first s.heap).1 with
  | some o =>
      rcases
        fixFirst_ok hSound hChecking sig refused (hTargets o) hCase
        with ⟨x, r, hRun, hGrown, hIs⟩
      rw [hOk] at hRun
      cases hRun
      exact ⟨o, rfl, hGrown, hIs⟩
  | none =>
      have hHead :
          Link.onHeap (convertConstant rt.classes v first) s =
            .ok none
              { s with
                heap :=
                  (convertConstant rt.classes v first
                    s.heap).2 } := by
        unfold Link.onHeap
        dsimp only
        rw [hCase]
      unfold fixFirst at hOk
      rw [Run.bind_ok hHead] at hOk
      cases hOk

theorem fixFirst_succeeds_iff
    (hSound : s.Sound rt c)
    (hChecking : rt.compile = .checking)
    (hTargets : ∀ o, ∀ x ∈ (form o).targets, x ∈ c.made) :
    (∃ u s', fixFirst rt v first sig refused form s = .ok u s') ↔
      (convertConstant rt.classes v first s.heap).1.isSome =
        true := by
  rw [Option.isSome_iff_exists]
  constructor
  · rintro ⟨u, s', hOk⟩
    rcases of_fixFirst hSound hChecking hTargets hOk with ⟨o, ho, _⟩
    exact ⟨o, ho⟩
  · rintro ⟨o, ho⟩
    rcases
      fixFirst_ok hSound hChecking sig refused (hTargets o) ho
      with ⟨u, s', hRun, _⟩
    exact ⟨u, s', hRun⟩

/- Binding a value does what inserting it before all does. -/
theorem callsAlike_fixed
    (hChecking : rt.compile = .checking)
    (hHost : rt.host.MakesNoTargets)
    (hu : u.Is sig (.bound t w))
    (hx : x.Is sig (.insert t 0 [w]))
    (hSame : s.Same s')
    (hLists : s.Lists rt [u])
    (hLists' : s'.Lists rt [x]) :
    u.CallsAlike rt s x s' := by
  have hSig := hx.signature_eq.trans hu.signature_eq.symm
  have hMatched :
      u.MatchedFrom (fun _ => True) rt [u] [x] x := by
    refine ⟨by simp, by simp, hSig, 1, 1, ?_⟩
    rintro r r' args n hr ⟨c, hSound, hListed⟩
      ⟨d, hSound', hListed'⟩ hCount
    have huMade := hListed u (by simp)
    have hxMade := hListed' x (by simp)
    have hCount' : args.length = x.count := by
      unfold Target.count
      rw [hSig]
      exact hCount
    have hBound :=
      enter_bound hChecking hHost hSound huMade hu.form_eq hCount n
    have hInserted :=
      enter_insert hChecking hHost hSound' hxMade hx.form_eq
        (Nat.zero_le _) hCount' n
    have hEntered :=
      enter_same hChecking hHost hr hSound hSound'
        (hSound.valid.delegate huMade hu.form_eq List.mem_cons_self)
        (hSound'.valid.delegate hxMade hx.form_eq
          List.mem_cons_self)
        n (w :: args)
    exact
      .of_same (hBound.trans (hEntered.trans hInserted.symm))
  exact
    callsAlike_of_matched (hMatched.imp fun _ _ => trivial)
      (hMatched.symm.imp fun _ _ => trivial) hChecking
      (isVarargs_of_is hu nofun) (isVarargs_of_is hx nofun) hSame
      hLists hLists'

end Target

/- The states after nodes were made from one heap. -/
theorem State.Grown.same
    {c' d d' : Catalog}
    {r r' : State}
    (hGrown : State.Grown rt c s d r)
    (hGrown' : State.Grown rt c' s' d' r')
    (hSame : s.Same s') :
    r.Same r' := by
  refine
    ⟨hGrown'.heap_eq.trans (hSame.heap_eq.trans hGrown.heap_eq.symm),
      hGrown'.sites_eq.trans
        (hSame.sites_eq.trans hGrown.sites_eq.symm), ?_⟩
  rw [hGrown'.trace_eq, hGrown.trace_eq]
  exact hSame.calls_eq

namespace State.Lists

variable {r r' : State}

/- Constants for all the arguments that a node ignores. -/
theorem filled
    {k : Heap}
    (hLists : r.Lists rt [t, u])
    (hChecking : rt.compile = .checking)
    (hHost : rt.host.MakesNoTargets)
    (hForm : u.form = .drop t pos types.length)
    (hSig : t.signature.insertParams pos types = .ok u.signature)
    (hSome : types ≠ [])
    (hAll :
      List.Forall₂
        (fun v p =>
          (convertConstant rt.classes v p k).1.isSome = true)
        vs types) :
    ∃ x r',
      u.insertArguments rt pos vs r = .ok x r' ∧
        r'.Lists rt [t, x] ∧ x.signature = t.signature ∧
        x.isVarargs = false ∧
        ∀ q : State, q.Lists rt [t, x] → t.ActsAs rt q x := by
  rcases hLists with ⟨c, hSound, hMade⟩
  have ht := hMade t (by simp)
  have hSome' : vs ≠ [] := by
    rintro rfl
    cases hAll
    exact hSome rfl
  rcases Signature.of_insertParams hSig with ⟨hPos, hParams, hRet⟩
  have hTake := List.length_take_of_le hPos
  have hMore : u.count = t.count + types.length := by
    change u.signature.params.length = t.signature.params.length + _
    rw [hParams, List.length_append, List.length_append, hTake,
      List.length_drop]
    unfold Signature.count at hPos
    omega
  rcases
    hSound.insertArguments_ok hChecking (hMade u (by simp)) hSome'
      hParams hTake hAll
    with ⟨ws, x, r', hRun, hSound', hx, hEach, hLeft, hRet'⟩
  have hOwn : x.signature = t.signature :=
    Signature.eq_of_parts
      (hLeft.trans (List.take_append_drop pos t.params))
      (hRet'.trans hRet)
  refine ⟨x, r', hRun, ?_, hOwn, ?_, ?_⟩
  · exact
      hSound'.lists_two
        (Catalog.mem_of_le (Catalog.le_addNode c x) ht)
        (Catalog.mem_addNode.2 (Or.inr rfl))
  · unfold Target.isVarargs
    rw [hx]
  · intro q hNow
    exact
      (Target.matchedBy_filled hChecking hHost hForm hx hOwn hPos
        hMore (hEach.trans hAll.length_eq)).actsAs hChecking hHost
        hNow

/- Two ways to fix the first parameter, a reference. -/
theorem fixed
    {first : Ty}
    {rest : List Ty}
    (hLists : r.Lists rt [t])
    (hLists' : r'.Lists rt [t])
    (hChecking : rt.compile = .checking)
    (hHost : rt.host.MakesNoTargets)
    (hParams : t.params = first :: rest)
    (hRef : first.IsRef = true)
    (v : Value) :
    ((∃ u q, t.bindTo rt v r = .ok u q) ↔
      ∃ x q', t.insertArguments rt 0 [v] r' = .ok x q') ∧
    ∀ u q x q',
      t.bindTo rt v r = .ok u q →
        t.insertArguments rt 0 [v] r' = .ok x q' →
          q.Lists rt [t, u] ∧ q'.Lists rt [t, x] ∧
            x.signature = u.signature ∧
            u.params = rest ∧ u.ret = t.ret ∧
            (r.Same r' → q.Same q') ∧
            (r'.heap = r.heap ∨ (∀ p, v ≠ .prim p) →
              ∀ z z' : State,
                z.Same z' → z.Lists rt [u] → z'.Lists rt [x] →
                  u.CallsAlike rt z x z') := by
  rcases hLists with ⟨c, hSound, hMade⟩
  rcases hLists' with ⟨d, hSound', hMade'⟩
  have ht := hMade t (by simp)
  have ht' := hMade' t (by simp)
  have hOne : 1 ≤ t.signature.count := by
    change 1 ≤ t.params.length
    rw [hParams, List.length_cons]
    omega
  rcases Signature.dropParams_ok (Nat.zero_le 1) hOne with
    ⟨sig, hSig, hRest, hRet⟩
  rw [Target.bindTo_eq hParams hRef hSig,
    Target.insertArguments_eq hParams hSig]
  have hBounds :
      ∀ o, ∀ x ∈ (Form.bound t o).targets, x ∈ c.made :=
    fun _ => Catalog.all_one ht
  have hInserts :
      ∀ o, ∀ x ∈ (Form.insert t 0 [o]).targets, x ∈ d.made :=
    fun _ => Catalog.all_one ht'
  refine ⟨?_, ?_⟩
  · rw [Target.fixFirst_succeeds_iff hSound hChecking hBounds,
      Target.fixFirst_succeeds_iff hSound' hChecking hInserts,
      convertConstant_isSome rt.classes v first r.heap r'.heap]
  · intro u q x q' hBind hInsert
    rcases Target.of_fixFirst hSound hChecking hBounds hBind with
      ⟨o, ho, hGrown, hu⟩
    rcases Target.of_fixFirst hSound' hChecking hInserts hInsert with
      ⟨o', ho', hGrown', hx⟩
    have hOwn := hu.signature_eq
    refine
      ⟨hGrown.lists_new ht, hGrown'.lists_new ht',
        hx.signature_eq.trans hOwn.symm, ?_, ?_, ?_, ?_⟩
    · rw [Target.params, hOwn, hRest]
      change ([] : List Ty) ++ t.params.drop 1 = rest
      rw [hParams]
      rfl
    · exact (congrArg Signature.ret hOwn).trans hRet
    · intro hSame
      apply hGrown.same hGrown'
      refine ⟨?_, hSame.sites_eq, hSame.calls_eq⟩
      dsimp only
      rw [hSame.heap_eq]
    · intro hCase z z' hz hNow hNow'
      have hHeaps :
          (convertConstant rt.classes v first r'.heap).1 =
            (convertConstant rt.classes v first r.heap).1 := by
        rcases hCase with hHeap | hPlain
        · rw [hHeap]
        · exact convertConstant_of_not_prim hPlain _ _
      rw [ho, ho'] at hHeaps
      cases hHeaps
      exact
        Target.callsAlike_fixed hChecking hHost hu hx hz hNow hNow'

end State.Lists

------------------------------------------------------------
-- Constants of Named Targets
------------------------------------------------------------

namespace Session

variable {s : Session}

/-
  Constants that take the places of ignored arguments leave a
  target as it was, except that none but the target itself
  gathers what it gathers.  Where the first parameter is a
  reference, binding a value to it succeeds just if inserting
  the value before all arguments does, whatever was done
  before the one or the other; and they come to targets that
  are called alike, if the value needs no box or is put into
  one from equal heaps.
-/
theorem constants_fill_and_bind
    (hFresh : s.IsFresh)
    (hChecking : s.context.runtime.compile = .checking)
    (hHost : s.context.runtime.host.MakesNoTargets)
    (xs : List Step)
    (hNamed : (s.after xs).context.Names t) :
    let rt := s.context.runtime
    let s₀ := (s.after xs).state
    s₀.Lists rt [t] ∧
      (∀ pos types u s₁,
        pos ≤ t.count →
          t.dropArguments rt pos types s₀ = .ok u s₁ →
            s₁.Lists rt [t, u] ∧
              ∀ vs r,
                r.Lists rt [t, u] →
                  List.Forall₂
                      (fun v p =>
                        (convertConstant rt.classes v p
                            r.heap).1.isSome = true)
                      vs types →
                    ∃ x r',
                      u.insertArguments rt pos vs r = .ok x r' ∧
                        r'.Lists rt [t, x] ∧
                        x.signature = t.signature ∧
                        (types = [] ∧ x = t ∨
                          x.isVarargs = false) ∧
                        ∀ q : State, q.Lists rt [t, x] →
                          t.ActsAs rt q x) ∧
      ∀ first rest v r r',
        t.params = first :: rest → first.IsRef = true →
          r.Lists rt [t] → r'.Lists rt [t] →
            ((∃ u q, t.bindTo rt v r = .ok u q) ↔
              ∃ x q', t.insertArguments rt 0 [v] r' = .ok x q') ∧
            ∀ u q x q',
              t.bindTo rt v r = .ok u q →
                t.insertArguments rt 0 [v] r' = .ok x q' →
                  q.Lists rt [t, u] ∧ q'.Lists rt [t, x] ∧
                    x.signature = u.signature ∧
                    u.params = rest ∧ u.ret = t.ret ∧
                    (r.Same r' → q.Same q') ∧
                    (r'.heap = r.heap ∨ (∀ p, v ≠ .prim p) →
                      ∀ z z' : State,
                        z.Same z' → z.Lists rt [u] →
                          z'.Lists rt [x] →
                            u.CallsAlike rt z x z') := by
  intro rt s₀
  rcases named_after hFresh hHost xs with ⟨c, _, hSound, hMade⟩
  have ht := hMade t hNamed
  refine ⟨⟨c, hSound, List.forall_mem_singleton.2 ht⟩, ?_, ?_⟩
  · intro pos types u s₁ hPos hDrop
    by_cases hNone : types = []
    · subst hNone
      cases hDrop
      refine ⟨hSound.lists_two ht ht, ?_⟩
      intro vs r hLists hAll
      cases hAll
      have hEnough : ¬t.count < pos + ([] : List Value).length :=
        Nat.not_lt.2 hPos
      refine ⟨t, r, ?_, hLists, rfl, Or.inl ⟨rfl, rfl⟩, ?_⟩
      · unfold Target.insertArguments
        rw [if_neg hEnough]
        rfl
      · intro q hNow
        have hSelf : t.MatchedBy True rt t := .refl t
        exact hSelf.actsAs hChecking hHost hNow
    · rcases hSound.of_dropArguments hChecking ht hNone hDrop with
        ⟨hSig, hGrown, hForm⟩
      refine ⟨hGrown.lists_new ht, ?_⟩
      intro vs r hLists hAll
      rcases hLists.filled hChecking hHost hForm hSig hNone hAll with
        ⟨x, r', hRun, hLists', hOwn, hPlain, hActs⟩
      exact
        ⟨x, r', hRun, hLists', hOwn, Or.inr hPlain, hActs⟩
  · intro first rest v r r' hParams hRef hLists hLists'
    exact
      hLists.fixed hLists' hChecking hHost hParams hRef v

/- A target that returns any object. -/
def passing : List Step :=
  [.make (.identity .object) (some "same")]

/- An integer, of which a box is an object. -/
def five : Value :=
  .prim (.int 5)

/-
  Whether a named target of one object gives a value where an
  ignored integer is fixed, and one where the object itself
  is bound to an integer.
-/
def fillsAndBinds
    (s : Session)
    (n : String) : Bool :=
  let rt := s.context.runtime
  match s.context.names.targets.lookup n with
  | none => false
  | some t =>
      t.params = [.object] &&
        match t.dropArguments rt 1 [.int] s.state with
        | .error _ _ => false
        | .ok u s₁ =>
            match u.insertArguments rt 1 [five] s₁ with
            | .error _ _ => false
            | .ok _ r =>
                isValue ((Entry.way .exact).run rt 9 t [.null] r) =
                  some true &&
                match t.bindTo rt five s.state with
                | .error _ _ => false
                | .ok x z =>
                    isValue ((Entry.way .exact).run rt 9 x [] z) =
                      some true

/- Both do what their counterparts do. -/
theorem constants_fill_and_bind_boxes :
    ∃ t u x y z s₁ r q q' o o',
      (plain.after passing).context.Names t ∧
        t.dropArguments plain.context.runtime 1 [.int]
          (plain.after passing).state = .ok u s₁ ∧
        u.insertArguments plain.context.runtime 1 [five] s₁ =
          .ok x r ∧
        (Entry.way .exact).ComesTo plain.context.runtime x [.null] r
          o ∧
        isValue o = some true ∧
        t.bindTo plain.context.runtime five
          (plain.after passing).state = .ok y q ∧
        t.insertArguments plain.context.runtime 0 [five]
          (plain.after passing).state = .ok z q' ∧
        (Entry.way .exact).ComesTo plain.context.runtime z [] q'
          o' ∧
        isValue o' = some true := by
  have hCheck :
      fillsAndBinds (plain.after passing) "same" = true := by
    decide +kernel
  unfold fillsAndBinds at hCheck
  rw [runtime_after] at hCheck
  dsimp only at hCheck
  split at hCheck
  · cases hCheck
  · rename_i t hLookup
    have hNamed := names_of_lookup hLookup
    have hHost := World.host_makesNoTargets (.initial .empty)
    rcases
      constants_fill_and_bind plain_isFresh rfl hHost passing hNamed
      with ⟨hLists, hFills, hBinds⟩
    rw [Bool.and_eq_true, decide_eq_true_eq] at hCheck
    rcases hCheck with ⟨hParams, hCheck⟩
    split at hCheck
    · cases hCheck
    · rename_i u s₁ hDrop
      split at hCheck
      · cases hCheck
      · rename_i x r hInsert
        rw [Bool.and_eq_true, decide_eq_true_eq] at hCheck
        rcases hCheck with ⟨hValue, hCheck⟩
        split at hCheck
        · cases hCheck
        · rename_i y q hBind
          rw [decide_eq_true_eq] at hCheck
          have hOne : 1 ≤ t.count := by
            change 1 ≤ t.params.length
            rw [hParams]
            decide
          rcases hFills 1 [.int] u s₁ hOne hDrop with
            ⟨hLists₁, hFilled⟩
          rcases hFilled [five] s₁ hLists₁ (.cons rfl .nil) with
            ⟨x', r', hInsert', hLists', _, _, hActs⟩
          rw [hInsert] at hInsert'
          cases hInsert'
          rcases
            hActs r hLists' (.way .exact) (.way .exact) [.null]
              (.way .exact) trivial trivial trivial
            with ⟨hEnds, hAlike⟩
          have hComes :
              (Entry.way .exact).ComesTo plain.context.runtime t
                [.null] r _ :=
            ⟨ended_of_isValue hValue, 9, rfl⟩
          rcases hEnds.1 ⟨_, hComes⟩ with ⟨o, hOther⟩
          rcases
            hBinds .object [] five _ _ hParams rfl hLists hLists
            with ⟨hBoth, hFixed⟩
          rcases hBoth.1 ⟨y, q, hBind⟩ with ⟨z, q', hInsert'⟩
          rcases hFixed y q z q' hBind hInsert' with
            ⟨hListed, hListed', _, _, _, hSame, hCalls⟩
          have hFixedAlike :=
            hCalls (Or.inl rfl) q q' (hSame (.refl _)) hListed.tail
              hListed'.tail
          have hComes' :
              (Entry.way .exact).ComesTo plain.context.runtime y []
                q _ :=
            ⟨ended_of_isValue hCheck, 9, rfl⟩
          rcases hFixedAlike.exact hComes' with
            ⟨o', hOther', hSame'⟩
          exact
            ⟨t, u, x, y, z, s₁, r, q, q', o, o', hNamed, hDrop,
              hInsert, hOther,
              (isValue_eq (hAlike _ _ hComes hOther)).trans hValue,
              hBind, hInsert', hOther',
              (isValue_eq hSame').trans hCheck⟩

/-
  Whether a named target gives a value when it is called with
  no arguments, and fails when an ignored integer is fixed in
  it.
-/
def gathersUnlessFilled
    (s : Session)
    (n : String) : Bool :=
  let rt := s.context.runtime
  match s.context.names.targets.lookup n with
  | none => false
  | some t =>
      match t.dropArguments rt 0 [.int] s.state with
      | .error _ _ => false
      | .ok u s₁ =>
          match u.insertArguments rt 0 [five] s₁ with
          | .error _ _ => false
          | .ok x r =>
              isValue ((Entry.way .flexible).run rt 9 t [] r) =
                  some true &&
                isValue ((Entry.way .flexible).run rt 9 x [] r) =
                  some false

/-
  A target that gathers its arguments gathers none any more
  once an argument that it ignores is fixed.
-/
theorem constants_fill_and_bind_varargs :
    ∃ t u x s₁ r q q',
      (plain.after gatheringIntegers).context.Names t ∧
        t.dropArguments plain.context.runtime 0 [.int]
          (plain.after gatheringIntegers).state = .ok u s₁ ∧
        u.insertArguments plain.context.runtime 0 [five] s₁ =
          .ok x r ∧
        (Entry.way .flexible).ComesTo plain.context.runtime t [] r
          q ∧
        (Entry.way .flexible).ComesTo plain.context.runtime x [] r
          q' ∧
        isValue q = some true ∧ isValue q' = some false ∧
        ¬Run.Same q q' := by
  have hCheck :
      gathersUnlessFilled (plain.after gatheringIntegers) "all" =
        true := by
    decide +kernel
  unfold gathersUnlessFilled at hCheck
  rw [runtime_after] at hCheck
  dsimp only at hCheck
  split at hCheck
  · cases hCheck
  · rename_i t hLookup
    split at hCheck
    · cases hCheck
    · rename_i u s₁ hDrop
      split at hCheck
      · cases hCheck
      · rename_i x r hInsert
        simp only [Bool.and_eq_true, decide_eq_true_eq] at hCheck
        refine
          ⟨t, u, x, s₁, r, _, _, names_of_lookup hLookup, hDrop,
            hInsert, ⟨ended_of_isValue hCheck.1, 9, rfl⟩,
            ⟨ended_of_isValue hCheck.2, 9, rfl⟩, hCheck.1, hCheck.2,
            ?_⟩
        intro hSame
        have hEq := isValue_eq hSame
        rw [hCheck.1, hCheck.2] at hEq
        cases hEq

end Session

end Linkage
