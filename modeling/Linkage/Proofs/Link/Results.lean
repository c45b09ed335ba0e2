import Linkage.Proofs.Caching.Retyping
import Linkage.Proofs.Link.Adapters

/-
  The results of link operations, apart from the state that
  they leave.  One lemma bounds what an operation may come
  to, another says that it does come to something, whatever
  the state.  With the checking compiler no stub is missing,
  so a node is always made.

  Key definitions include:
    * `Link.Yields`
    * `Link.Succeeds`

  Key theorems include:
    * `Target.build_yields`
    * `Target.build_succeeds`
    * `Target.bindTo_yields`
-/

------------------------------------------------------------
-- Results of Operations
------------------------------------------------------------

namespace Linkage

namespace Link

variable {α β : Type}
variable {P : β → Prop}
variable {Q : α → Prop}

/- Whatever an operation comes to is as promised. -/
def Yields
    (m : Link α)
    (Q : α → Prop) : Prop :=
  ∀ s a s', m s = .ok a s' → Q a

namespace Yields

theorem pure
    {a : α}
    (hPost : Q a) :
    Yields (Pure.pure a : Link α) Q := by
  intro s b s' hRun
  cases hRun
  exact hPost

theorem throw
    (e : LinkError) :
    Yields (MonadExcept.throw e : Link α) Q := by
  intro s a s' hRun
  cases hRun

theorem bind
    {m : Link β}
    {f : β → Link α}
    (hFirst : m.Yields P)
    (hSecond : ∀ b, P b → (f b).Yields Q) :
    Yields (m >>= f) Q := by
  intro s a s' hRun
  change EStateM.bind m f s = .ok a s' at hRun
  unfold EStateM.bind at hRun
  split at hRun
  · rename_i b s₁ hFirstRun
    exact hSecond b (hFirst s b s₁ hFirstRun) s₁ a s' hRun
  · cases hRun

theorem imp
    {Q' : α → Prop}
    {m : Link α}
    (hYields : m.Yields Q)
    (hPost : ∀ a, Q a → Q' a) :
    m.Yields Q' :=
  fun s a s' hRun => hPost a (hYields s a s' hRun)

theorem and
    {Q' : α → Prop}
    {m : Link α}
    (hLeft : m.Yields Q)
    (hRight : m.Yields Q') :
    m.Yields (fun a => Q a ∧ Q' a) :=
  fun s a s' hRun => ⟨hLeft s a s' hRun, hRight s a s' hRun⟩

end Yields

theorem Inspects.yields
    {m : Link α}
    (hInspects : m.Inspects Q) :
    m.Yields Q := by
  rcases hInspects with ⟨x, hx, hOk⟩
  intro s a s' hRun
  rw [hx] at hRun
  cases x with
  | ok b =>
      cases hRun
      exact hOk _ rfl
  | error e => cases hRun

/- From every state an operation comes to what is promised. -/
def Succeeds
    (m : Link α)
    (Q : α → Prop) : Prop :=
  ∀ s, ∃ a s', m s = .ok a s' ∧ Q a

namespace Succeeds

theorem pure
    {a : α}
    (hPost : Q a) :
    Succeeds (Pure.pure a : Link α) Q :=
  fun s => ⟨a, s, rfl, hPost⟩

theorem imp
    {Q' : α → Prop}
    {m : Link α}
    (hSucceeds : m.Succeeds Q)
    (hPost : ∀ a, Q a → Q' a) :
    m.Succeeds Q' := by
  intro s
  rcases hSucceeds s with ⟨a, s', hRun, ha⟩
  exact ⟨a, s', hRun, hPost a ha⟩

/- What comes of an operation is the one thing it comes to. -/
theorem yields
    {m : Link α}
    (hSucceeds : m.Succeeds Q) :
    m.Yields Q := by
  intro s a s' hRun
  rcases hSucceeds s with ⟨b, s₁, hOther, hb⟩
  rw [hRun] at hOther
  cases hOther
  exact hb

end Succeeds

end Link

------------------------------------------------------------
-- Making Nodes
------------------------------------------------------------

variable {rt : Runtime}
variable {t : Target}

namespace Target

theorem build_yields
    (rt : Runtime)
    (sig : Signature)
    (form : Form Target) :
    (build rt sig form).Yields
      (fun t => t.signature = sig ∧ t.form = form) := by
  intro s t s' hRun
  unfold build buildKeyed at hRun
  dsimp only at hRun
  split at hRun
  · cases hRun
  · cases hRun
    exact ⟨rfl, rfl⟩

/- No stub is missing. -/
theorem build_succeeds
    (hChecking : rt.compile = .checking)
    (sig : Signature)
    (form : Form Target) :
    (build rt sig form).Succeeds
      (fun t => t.signature = sig ∧ t.form = form) := by
  intro s
  have hCompile :
      ∀ n, rt.compile n (.ofSignature sig .none none) =
        .ok sig.count := by
    intro n
    rw [hChecking]
    exact
      Stub.Compiler.checking_ofSignature none n (Or.inl rfl)
  rcases Stub.Cache.get_ok (x := s.cache) hCompile with
    ⟨stub, y, hGet⟩
  refine
    ⟨.node s.nextId sig stub form,
      { s with cache := y, nextId := s.nextId + 1 }, ?_, rfl, rfl⟩
  unfold build buildKeyed
  dsimp only
  rw [hGet]

/- Collecting is added to a target or taken over from it. -/
theorem asVarargsCollector_yields
    (rt : Runtime)
    (t : Target)
    (array : Ty) :
    (t.asVarargsCollector rt array).Yields
      (fun u => u.signature = t.signature) := by
  unfold asVarargsCollector
  refine .bind (checkTrailingArray_inspects rt t array).yields ?_
  intro _ _
  split
  · split
    · exact .pure rfl
    · exact (build_yields rt _ _).imp (fun _ hu => hu.1)
  · exact (build_yields rt _ _).imp (fun _ hu => hu.1)

/- Classes convert to their superclasses only. -/
theorem isSubclass_of_classify
    {T : ClassTable}
    {c n : ClassName}
    {conversion : Conversion}
    (hClassify :
      classify T (.cls c) (.cls n) .implicit = some conversion) :
    T.isSubclass c n = true := by
  unfold classify at hClassify
  split at hClassify
  · rename_i hEq
    cases hEq
    exact T.isSubclass_refl c
  · simp only [classifyCast] at hClassify
    split at hClassify
    · assumption
    · cases hClassify

/- An object that is made a constant of a class is of it. -/
theorem isSubclass_of_convertConstant
    {T : ClassTable}
    {v : Value}
    {c n : ClassName}
    {h : Heap}
    (hType : v.type? = some (.cls c))
    (hSome : (convertConstant T v (.cls n) h).1.isSome = true) :
    T.isSubclass c n = true := by
  cases hClass : classify T (.cls c) (.cls n) .implicit with
  | some conv => exact isSubclass_of_classify hClass
  | none =>
      cases v with
      | void => cases hType
      | null => cases hType
      | prim p => cases hType
      | ref o =>
          simp [convertConstant, hType, hClass, Ty.IsVoid] at hSome

/-
  A target without its first parameter.  The receiver was of
  the type of that parameter.
-/
theorem bindTo_yields
    {receiver : Value}
    {c n : ClassName}
    {rest : List Ty}
    (hReceiver : receiver.type? = some (.cls c))
    (hParams : t.params = .cls n :: rest) :
    (t.bindTo rt receiver).Yields
      (fun u =>
        rt.classes.isSubclass c n = true ∧
          u.params = rest ∧ u.ret = t.ret) := by
  unfold bindTo
  rw [hParams]
  dsimp only [List.head?_cons]
  refine .bind (P := fun v => v.isSome = true →
    rt.classes.isSubclass c n = true) ?_ ?_
  · intro s v s' hRun hSome
    unfold Link.onHeap at hRun
    cases hRun
    exact isSubclass_of_convertConstant hReceiver hSome
  · intro v hv
    cases v with
    | none => exact .throw _
    | some w =>
        refine .bind (Link.Inspects.ofSignature _).yields ?_
        intro sig hSig
        rcases Signature.of_dropFirst hSig with ⟨p, hAll, hRet⟩
        refine (build_yields rt _ _).imp ?_
        rintro u ⟨hu, _⟩
        have hRest : sig.params = rest := by
          have hEq := hParams.symm.trans hAll
          cases hEq
          rfl
        refine ⟨hv rfl, ?_, ?_⟩
        · rw [params, hu, hRest]
        · rw [ret, hu, hRet]
          rfl

end Target

end Linkage
