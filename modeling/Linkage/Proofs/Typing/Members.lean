import Linkage.Proofs.Typing.Host

/-
  Typed behaviours that enter nothing: members of the host,
  fields, arrays and throwing.  Each gives a value of its
  result type when its arguments fit its parameters.

  Key theorems include:
    * `Safe.runMethod`
    * `Safe.runConstructor`
    * `Safe.runFieldGet`
    * `Safe.runFieldSet`
    * `Safe.runArrayGet`
    * `Safe.runArraySet`
    * `Safe.runThrow`
    * `Safe.throwable`
-/

------------------------------------------------------------
-- Receivers
------------------------------------------------------------

namespace Linkage

variable {rt : Runtime}
variable {L : Layout}
variable {S : Store}
variable {w : Stage}
variable {args : List Value}
variable {ps : List Ty}
variable {n : ClassName}

namespace Safe

/- The first argument of a method, if it is no null. -/
theorem receiverOf
    {m : Method}
    (hArgs : ArgsFit rt.classes w.store args (.cls n :: ps)) :
    Safe rt L w (receiverOf m args)
      (fun v o =>
        v = w ∧
          Received rt.classes w.store (fun t => t = o.type) ps
            args ∧
          rt.classes.isAssignable o.type (.cls n) = true) := by
  cases hArgs with
  | @cons v _ rest _ hFirst hRest =>
      unfold Linkage.receiverOf
      rcases Value.conforms_ref hFirst.conforms rfl with
        rfl | ⟨o, rfl, hAssign⟩
      · exact plainFault nofun
      · apply pure
        exact
          ⟨rfl, ⟨o, rest, rfl, rfl, hFirst.inPlay, hRest⟩, hAssign⟩

/- The object of a field, if it is no null. -/
theorem fieldReceiver
    {f : Field}
    (hArgs : ArgsFit rt.classes w.store args (.cls n :: ps)) :
    Safe rt L w (fieldReceiver f args)
      (fun v o =>
        v = w ∧ (Value.ref o).In w.store ∧
          rt.classes.isAssignable o.type (.cls n) = true) := by
  cases hArgs with
  | @cons v _ rest _ hFirst hRest =>
      unfold Linkage.fieldReceiver
      rcases Value.conforms_ref hFirst.conforms rfl with
        rfl | ⟨o, rfl, hAssign⟩
      · exact plainFault nofun
      · exact pure ⟨rfl, hFirst.inPlay, hAssign⟩

------------------------------------------------------------
-- Methods
------------------------------------------------------------

theorem runConstructor
    {owner caller : ClassName}
    {asked : Signature}
    {m : Method}
    {entry : Code}
    (hHost : rt.host.MakesNoTargets)
    (hHonors : rt.host.Honors rt.classes L S)
    (hLe : S ≤ w.store)
    (hResolve :
      rt.host.resolveMethod owner constructorName asked
        .isConstructor caller = .ok m)
    (hSlot : m.slot = .address entry)
    (hArgs :
      ArgsFit rt.classes w.store args m.signature.params) :
    Safe rt L w (runDirect rt m .isConstructor entry args)
      (fun v a => a.Fits rt.classes v.store (.cls owner)) := by
  rcases
    hHonors.constructor owner asked caller m entry hResolve hSlot
    with ⟨hOwner, hAnswers⟩
  subst hOwner
  unfold runDirect
  refine Safe.bind (allocate hHost hHonors hLe) ?_
  intro v hv o ho
  have hReceived :
      Received rt.classes v.store
        (fun t =>
          rt.classes.isAssignable t (.cls m.declaring) = true)
        m.signature.params (.ref o :: args) :=
    ⟨o, args, rfl, ho.conforms, ho.inPlay, hArgs.later hv.2⟩
  refine Safe.bind
    (call hHost hAnswers (le_trans hLe hv.2) hReceived) ?_
  intro u hu _ _
  exact pure (ho.later hu.2)

/- A method of a receiver, at an address or in a table. -/
theorem runMethod
    {owner caller receiver : ClassName}
    {name : String}
    {asked : Signature}
    {how : MethodKind}
    {m : Method}
    {form : Form Target}
    {t : Target}
    {enter : Enter}
    (hRoots : rt.classes.PlainRoots)
    (hHost : rt.host.MakesNoTargets)
    (hHonors : rt.host.Honors rt.classes L S)
    (hLe : S ≤ w.store)
    (hHow : how = .isVirtual ∨ how = .isInterface)
    (hResolve :
      rt.host.resolveMethod owner name asked how caller = .ok m)
    (hReceiver : rt.classes.isSubclass receiver owner = true)
    (hCalls : form.Calls m how)
    (hForm : t.form = form)
    (hArgs :
      ArgsFit rt.classes w.store args
        (.cls receiver :: m.signature.params)) :
    Safe rt L w (t.behave rt enter args)
      (fun v a => a.Fits rt.classes v.store m.signature.ret) := by
  have hRun :
      ∀ (v : Stage) (o : Obj) (code : Code), v = w →
        Received rt.classes w.store (fun t => t = o.type)
          m.signature.params args →
        rt.classes.isAssignable o.type (.cls receiver) = true →
        rt.host.Selects m o.type code →
        Safe rt L v (Run.call rt code args)
          (fun v a => a.Fits rt.classes v.store m.signature.ret) := by
    intro v o code hEq hReceived hAssign hSelects
    subst hEq
    have hOwner :
        rt.classes.isAssignable o.type (.cls owner) = true :=
      ClassTable.isAssignable_trans hRoots hAssign hReceiver
    exact
      call hHost
        (hHonors.method owner name asked how caller m o.type code
          hHow hResolve hOwner hSelects)
        hLe hReceived
  unfold Target.behave
  rw [hForm]
  cases hCalls with
  | direct entry hSlot =>
      have hDirect :
          runDirect rt m how entry args =
            (do
              let _ ← Linkage.receiverOf m args
              Run.call rt entry args) := by
        rcases hHow with rfl | rfl
        · rfl
        · rfl
      change Safe rt L w (runDirect rt m how entry args) _
      rw [hDirect]
      refine Safe.bind (receiverOf hArgs) ?_
      rintro v _ o ⟨hEq, hReceived, hAssign⟩
      exact hRun v o entry hEq hReceived hAssign (.address hSlot)
  | virtual slot hSlot =>
      refine Safe.bind (receiverOf hArgs) ?_
      rintro v _ o ⟨hEq, hReceived, hAssign⟩
      split
      · rename_i code hEntry
        exact
          hRun v o code hEq hReceived hAssign
            (.virtualTable slot hSlot hEntry)
      · exact plainFault nofun
  | interface slot hSlot =>
      refine Safe.bind (receiverOf hArgs) ?_
      rintro v _ o ⟨hEq, hReceived, hAssign⟩
      split
      · split
        · rename_i code hEntry
          exact
            hRun v o code hEq hReceived hAssign
              (.interfaceTable slot hSlot hEntry)
        · exact plainFault nofun
      · exact plainFault nofun

theorem runSpecial
    {owner caller receiver : ClassName}
    {name : String}
    {asked : Signature}
    {m : Method}
    {entry : Code}
    (hRoots : rt.classes.PlainRoots)
    (hHost : rt.host.MakesNoTargets)
    (hHonors : rt.host.Honors rt.classes L S)
    (hLe : S ≤ w.store)
    (hResolve :
      rt.host.resolveMethod owner name asked .isSpecial caller =
        .ok m)
    (hSelects : rt.host.Selects m (.cls m.declaring) entry)
    (hReceiver : rt.classes.isSubclass receiver owner = true)
    (hArgs :
      ArgsFit rt.classes w.store args
        (.cls receiver :: m.signature.params)) :
    Safe rt L w (runDirect rt m .isSpecial entry args)
      (fun v a => a.Fits rt.classes v.store m.signature.ret) := by
  unfold runDirect
  refine Safe.bind (receiverOf hArgs) ?_
  rintro v _ o ⟨hEq, ⟨o', rest, rfl, hType, hIn, hRest⟩, hAssign⟩
  subst hEq
  have hOwner :
      rt.classes.isAssignable o'.type (.cls owner) = true := by
    rw [hType]
    exact ClassTable.isAssignable_trans hRoots hAssign hReceiver
  exact
    call hHost
      (hHonors.special owner name asked caller m entry hResolve
        hSelects)
      hLe ⟨o', rest, rfl, hOwner, hIn, hRest⟩

end Safe

------------------------------------------------------------
-- Places of Fields
------------------------------------------------------------

/-
  A place is declared for values of a type: it is that of a
  static field, or one of an instance in play.
-/
inductive CellRef.Declared
    (L : Layout)
    (S : Store)
    (t : Ty)
    (r : CellRef) : Prop
| static :
    L.static r = some t →
    Declared L S t r
| field (n : ClassName) :
    S.shape r.object = some (.plain n) →
    (∀ p, L.field n r.index = some p → p = t) →
    Declared L S t r

variable {T : ClassTable}
variable {h : Heap}
variable {r : CellRef}
variable {t : Ty}

theorem CellRef.Declared.holds
    {cell : Cell}
    (hDeclared : r.Declared L S t)
    (hTyped : h.Typed T L S)
    (hCell : h.cell? r = some cell) :
    cell.Holds T S t := by
  cases hDeclared with
  | static hStatic => exact hTyped.statics r t cell hStatic hCell
  | field n hShape hType =>
      rcases hTyped.fields r n cell hShape hCell with
        ⟨p, hField, hHolds⟩
      rw [← hType p hField]
      exact hHolds

/- Instances are apart from static fields. -/
theorem CellRef.Declared.storeCell
    {v : Value}
    (hDeclared : r.Declared L S t)
    (hTyped : h.Typed T L S)
    (hFits : v.Fits T S t) :
    (h.storeCell r v).Typed T L S := by
  apply hTyped.storeCell
  · intro n p hShape hField
    cases hDeclared with
    | static hStatic =>
        rw [(hTyped.apart r t hStatic).2] at hShape
        cases hShape
    | field m hShape' hType =>
        rw [hShape] at hShape'
        cases hShape'
        rw [hType p hField]
        exact hFits
  · intro p hStatic
    cases hDeclared with
    | static hStatic' =>
        rw [hStatic] at hStatic'
        cases hStatic'
        exact hFits
    | field m hShape _ =>
        rw [(hTyped.apart r p hStatic).2] at hShape
        cases hShape

/- The parameters and the result of a field's signature. -/
theorem Lookup.of_fieldSignature
    {sig : Signature}
    {isStatic setter : Bool}
    (hSig : fieldSignature n t isStatic setter = .ok sig) :
    sig.params =
        (if isStatic then [] else [.cls n]) ++
          (if setter then [t] else []) ∧
      sig.ret = if setter then .void else t := by
  cases isStatic with
  | false =>
      cases setter with
      | false => exact Signature.params_of_build hSig
      | true => exact Signature.params_of_build hSig
  | true =>
      cases setter with
      | false => exact Signature.params_of_build hSig
      | true => exact Signature.params_of_build hSig

namespace Safe

variable {owner caller : ClassName}
variable {name : String}
variable {f : Field}
variable {offset : Nat}

/-
  The place of a field, if there is one, is declared for its
  type.
-/
theorem fieldPlace
    (hHonors : rt.host.Honors rt.classes L S)
    (hLe : S ≤ w.store)
    (hResolve :
      rt.host.resolveField owner name t caller = .ok f)
    (hSlot : f.slot = .fieldOffset offset)
    (hArgs :
      f.flags.has .isStatic = false →
        ArgsFit rt.classes w.store args [.cls owner]) :
    Safe rt L w (fieldPlace rt f offset args)
      (fun v place =>
        v = w ∧
          ∀ r, place = some r → r.Declared L w.store f.type) := by
  unfold Linkage.fieldPlace
  split
  · rename_i hStatic
    apply pure
    refine ⟨rfl, ?_⟩
    intro r hr
    exact
      .static
        (hHonors.staticField owner name t caller f offset r
          hResolve hSlot hStatic hr)
  · rename_i hStatic
    have hInstance : f.flags.has .isStatic = false :=
      Bool.eq_false_iff.2 hStatic
    refine Safe.bind (fieldReceiver (hArgs hInstance)) ?_
    rintro v _ o ⟨rfl, hIn, hAssign⟩
    apply pure
    refine ⟨rfl, ?_⟩
    intro r hr
    unfold Heap.fieldRef at hr
    split at hr
    · rename_i n hShape
      cases hr
      apply CellRef.Declared.field n
      · rw [← hShape]
        exact hIn o rfl
      · intro p hField
        apply
          hHonors.field owner name t caller f offset n p hResolve
            hSlot hInstance _ hField
        unfold Obj.type at hAssign
        rw [hShape] at hAssign
        exact hAssign
    · cases hr

theorem runFieldGet
    {sig : Signature}
    (hHonors : rt.host.Honors rt.classes L S)
    (hLe : S ≤ w.store)
    (hResolve :
      rt.host.resolveField owner name t caller = .ok f)
    (hSlot : f.slot = .fieldOffset offset)
    (hSig :
      Lookup.fieldSignature owner f.type (f.flags.has .isStatic)
        false = .ok sig)
    (hArgs : ArgsFit rt.classes w.store args sig.params) :
    Safe rt L w (runFieldGet rt f offset args)
      (fun v a => a.Fits rt.classes v.store sig.ret) := by
  rcases Lookup.of_fieldSignature hSig with ⟨hParams, hRet⟩
  refine Safe.bind
    (fieldPlace hHonors hLe hResolve hSlot ?_) ?_
  · intro hInstance
    rw [hParams, hInstance] at hArgs
    exact hArgs
  · rintro v _ place ⟨rfl, hDeclared⟩
    apply reading
    intro s hStaged
    cases place with
    | none => exact plainFault nofun
    | some r =>
        dsimp only [Option.bind]
        split
        · rename_i cell hCell
          apply pure
          rw [hRet]
          exact
            ((hDeclared r rfl).holds hStaged.heap hCell).load
        · exact plainFault nofun

theorem runFieldSet
    {sig : Signature}
    (hHonors : rt.host.Honors rt.classes L S)
    (hLe : S ≤ w.store)
    (hResolve :
      rt.host.resolveField owner name t caller = .ok f)
    (hSlot : f.slot = .fieldOffset offset)
    (hSig :
      Lookup.fieldSignature owner f.type (f.flags.has .isStatic)
        true = .ok sig)
    (hArgs : ArgsFit rt.classes w.store args sig.params) :
    Safe rt L w (runFieldSet rt f offset args)
      (fun v a => a.Fits rt.classes v.store sig.ret) := by
  rcases Lookup.of_fieldSignature hSig with ⟨hParams, hRet⟩
  have hSplit :
      (splitLast args).1.Fits rt.classes w.store f.type ∧
        (f.flags.has .isStatic = false →
          ArgsFit rt.classes w.store (splitLast args).2
            [.cls owner]) := by
    rw [hParams] at hArgs
    cases hStatic : f.flags.has .isStatic with
    | true =>
        rw [hStatic] at hArgs
        cases hArgs with
        | cons hFirst hRest =>
            cases hRest
            exact ⟨hFirst, nofun⟩
    | false =>
        rw [hStatic] at hArgs
        cases hArgs with
        | cons hFirst hRest =>
            cases hRest with
            | cons hSecond hNil =>
                cases hNil
                exact ⟨hSecond, fun _ => .cons hFirst .nil⟩
  unfold Linkage.runFieldSet
  refine Safe.bind
    (fieldPlace hHonors hLe hResolve hSlot hSplit.2) ?_
  rintro v _ place ⟨rfl, hDeclared⟩
  cases place with
  | none => exact plainFault nofun
  | some r =>
      apply reading
      intro s hStaged
      split
      · exact plainFault nofun
      · refine Safe.bind (R := fun _ _ => True) ?_ ?_
        · apply changeHeap
            (fun h => h.storeCell r (splitLast args).1)
          · intro h hTyped
            exact (hDeclared r rfl).storeCell hTyped hSplit.1
          · intro h i u hAt
            exact Heap.at?_storeCell_target hAt
          · trivial
        · intro u _ _ _
          apply pure
          rw [hRet]
          exact ⟨rfl, Value.in_of_plain rfl⟩

end Safe

------------------------------------------------------------
-- Arrays
------------------------------------------------------------

/-
  The elements of an array are values of its component type
  at run time, and so of every wider one.
-/
theorem Heap.Typed.elements_fit
    {o : Obj}
    {p : Ty}
    {vs : List Value}
    (hTyped : h.Typed T L S)
    (hRoots : T.PlainRoots)
    (hFits : (Value.ref o).Fits T S (.array p))
    (hElements : h.elements? o = some vs) :
    ∀ v ∈ vs, v.Fits T S p := by
  intro v hv
  rcases ClassTable.eq_array_of_isAssignable hFits.conforms with
    ⟨q, hType, _⟩
  have hShape := Obj.shape_of_type hType
  have hAssign : T.isAssignable q p = true := by
    apply ClassTable.isAssignable_component
    rw [← hType]
    exact hFits.conforms
  have hIn := hFits.inPlay o rfl
  unfold Heap.elements? at hElements
  rw [hShape] at hElements hIn
  dsimp only at hElements
  split at hElements
  · rename_i hAt
    cases hElements
    exact (hTyped.elements o.id q _ hIn hAt v hv).up hRoots hAssign
  · cases hElements
    cases hv

namespace Safe

variable {p : Ty}

/- The array that is the first argument, if it is no null. -/
theorem arrayOf
    (hRoots : rt.classes.PlainRoots)
    (hArgs : ArgsFit rt.classes w.store args (.array p :: ps)) :
    Safe rt L w (arrayOf args)
      (fun v x =>
        v = w ∧ (Value.ref x.1).Fits rt.classes w.store (.array p) ∧
          ∀ y ∈ x.2, y.Fits rt.classes w.store p) := by
  cases hArgs with
  | cons hFirst _ =>
      unfold Linkage.arrayOf
      rcases Value.conforms_ref hFirst.conforms rfl with
        rfl | ⟨o, rfl, _⟩
      · exact plainFault nofun
      · apply reading
        intro s hStaged
        split
        · rename_i vs hElements
          apply pure
          exact
            ⟨rfl, hFirst,
              hStaged.heap.elements_fit hRoots hFirst hElements⟩
        · exact plainFault nofun

theorem elementOf
    (hRoots : rt.classes.PlainRoots)
    (hArgs : ArgsFit rt.classes w.store args (.array p :: ps)) :
    Safe rt L w (elementOf args)
      (fun v x =>
        v = w ∧ (Value.ref x.1).Fits rt.classes w.store (.array p) ∧
          ∀ y ∈ x.2.1, y.Fits rt.classes w.store p) := by
  unfold Linkage.elementOf
  refine Safe.bind (arrayOf hRoots hArgs) ?_
  rintro v _ ⟨o, vs⟩ ⟨rfl, hArray, hElements⟩
  dsimp only
  split
  · split
    · exact pure ⟨rfl, hArray, hElements⟩
    · exact plainFault nofun
  · exact plainFault nofun
  · exact plainFault nofun

theorem runArrayGet
    (hRoots : rt.classes.PlainRoots)
    (hArgs : ArgsFit rt.classes w.store args (.array p :: ps)) :
    Safe rt L w (runArrayGet args)
      (fun v a => a.Fits rt.classes v.store p) := by
  unfold Linkage.runArrayGet
  refine Safe.bind (elementOf hRoots hArgs) ?_
  rintro v _ ⟨o, vs, i⟩ ⟨rfl, _, hElements⟩
  dsimp only
  split
  · rename_i a hGet
    exact pure (hElements a (List.mem_of_getElem? hGet))
  · apply plainFault
    intro _ hEq
    cases hEq

/-
  The array may be one of a narrower component type; then the
  value is checked against this one.
-/
theorem runArraySet
    (hRoots : rt.classes.PlainRoots)
    (hArgs :
      ArgsFit rt.classes w.store args [.array p, .int, p]) :
    Safe rt L w (runArraySet rt args)
      (fun v a => a.Fits rt.classes v.store .void) := by
  have hSplit :
      (splitLast args).1.Fits rt.classes w.store p ∧
        ArgsFit rt.classes w.store (splitLast args).2
          [.array p, .int] := by
    cases hArgs with
    | cons hFirst hRest =>
        cases hRest with
        | cons hSecond hRest =>
            cases hRest with
            | cons hThird hNil =>
                cases hNil
                exact ⟨hThird, .cons hFirst (.cons hSecond .nil)⟩
  unfold Linkage.runArraySet
  refine Safe.bind (elementOf hRoots hSplit.2) ?_
  rintro v _ ⟨o, vs, i⟩ ⟨rfl, hArray, _⟩
  dsimp only
  split
  · rename_i hConforms
    refine Safe.bind (R := fun _ _ => True) ?_ ?_
    · apply changeHeap
        (fun h => h.setElement o i (splitLast args).1)
      · intro h hTyped
        apply hTyped.setElement (hArray.inPlay o rfl)
        intro q hShape
        unfold Obj.component? at hConforms
        rw [hShape] at hConforms
        exact ⟨hConforms, hSplit.1.inPlay⟩
      · intro h j t hAt
        exact Heap.at?_setElement_target hAt
      · trivial
    · intro u _ _ _
      exact pure ⟨rfl, Value.in_of_plain rfl⟩
  · exact plainFault nofun

theorem runArrayLength
    (hRoots : rt.classes.PlainRoots)
    (hArgs : ArgsFit rt.classes w.store args (.array p :: ps)) :
    Safe rt L w (runArrayLength args)
      (fun v a => a.Fits rt.classes v.store .int) := by
  unfold Linkage.runArrayLength
  refine Safe.bind (arrayOf hRoots hArgs) ?_
  rintro v _ ⟨o, vs⟩ ⟨rfl, _, _⟩
  exact pure ⟨rfl, Value.in_of_plain rfl⟩

------------------------------------------------------------
-- Throwing
------------------------------------------------------------

/- What is thrown can be thrown. -/
theorem runThrow
    {Q : Stage → Value → Prop}
    (hRoots : rt.classes.PlainRoots)
    (hThrown : rt.classes.isThrowable n = true)
    (hArgs : ArgsFit rt.classes w.store args (.cls n :: ps)) :
    Safe rt L w (runThrow args) Q := by
  cases hArgs with
  | cons hFirst _ =>
      unfold Linkage.runThrow
      rcases Value.conforms_ref hFirst.conforms rfl with
        rfl | ⟨o, rfl, _⟩
      · exact plainFault nofun
      · apply fault
        intro o' hEq
        cases hEq
        exact hFirst.up hRoots hThrown

/-
  The throwable object of a fair fault is one of each class
  that catches the fault.
-/
theorem throwable
    {f : Fault}
    (hFair : f.Fair rt.classes w.store)
    (hCaught : f.isInstance rt.classes n = true) :
    Safe rt L w (Run.throwable f)
      (fun v o => (Value.ref o).Fits rt.classes v.store (.cls n)) := by
  unfold Run.throwable
  split
  · rename_i o
    apply pure
    have hFits := hFair o rfl
    refine ⟨?_, hFits.inPlay⟩
    have hThrowable :
        rt.classes.isAssignable o.type (.cls .throwable) = true :=
      hFits.conforms
    unfold Fault.isInstance Fault.exceptionClass at hCaught
    change rt.classes.isAssignable o.type (.cls n) = true
    cases hType : o.type with
    | cls m =>
        simp only [hType] at hCaught
        exact hCaught
    | prim k =>
        rw [hType] at hThrowable
        cases hThrowable
    | array q =>
        rw [hType] at hThrowable
        have hRoot :
            ClassTable.isArraySupertype .throwable = true :=
          hThrowable
        exact absurd hRoot (by decide)
  · rename_i hPlain
    apply onHeap
    intro h hTyped
    rcases
      hTyped.alloc
        (s := .throwable f.exceptionClass (some f.message))
        (.fixed _)
      with ⟨hLe, hAfter⟩
    refine ⟨_, hLe, hAfter, ?_, hCaught, ?_⟩
    · intro i t hAt
      have hNew :
          (h.allocThrowable f.exceptionClass
            (some f.message)).2.at? i = some (.target t) :=
        hAt
      exact ⟨i, t, Heap.at?_allocThrowable_target hNew, .refl t⟩
    · intro o hEq
      cases hEq
      exact if_pos rfl

end Safe

end Linkage
