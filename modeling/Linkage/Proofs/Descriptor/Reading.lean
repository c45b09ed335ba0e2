import Linkage.Proofs.Descriptor.Slices
import Linkage.Proofs.Signature

/-
  What the reader of descriptors accepts.  Each function of
  the reader takes the text of a derivation off its input and
  gives the type that the derivation has; what it gives comes
  from such a text; and where it fails, the descriptor is
  invalid.  A method is read exactly if the grammar derives
  it, and then only its slots can refuse it.

  Key theorems include:
    * `Grammar.readType_text`
    * `Grammar.exists_of_readType`
    * `Grammar.readParams_text`
    * `Grammar.exists_of_readParams`
    * `Grammar.ofDescriptor_text`
    * `Grammar.derived_or_invalid`
    * `Grammar.verdict`
    * `Signature.ofDescriptor_accepts_grammar`
-/

------------------------------------------------------------
-- Types of Derivations
------------------------------------------------------------

namespace Linkage

namespace Grammar

variable {cs rest : List Char}
variable {t : Ty}

theorem Element.isVoid_type (e : Element) :
    e.type.IsVoid = false := by
  cases e with
  | letter k hk => cases k <;> first | rfl | exact absurd rfl hk
  | name cs _ _ => rfl

theorem Field.isVoid_type (f : Field) :
    f.type.IsVoid = false := by
  rcases f with ⟨n, e, hn⟩
  cases n with
  | zero => exact e.isVoid_type
  | succ n => rfl

/- A derivation counts the slots that its type takes. -/
theorem Field.slots_type (f : Field) :
    f.type.slots = f.slots := by
  rcases f with ⟨n, e, hn⟩
  cases n with
  | zero =>
      cases e with
      | letter k hk =>
          cases k <;> first | rfl | exact absurd rfl hk
      | name cs _ _ => rfl
  | succ n => rfl

theorem Method.isVoid_types
    (m : Method) :
    ∀ p ∈ m.types, p.IsVoid = false := by
  intro p hp
  rcases List.mem_map.1 hp with ⟨f, _, rfl⟩
  exact f.isVoid_type

theorem Method.slotCount_types (m : Method) :
    slotCount m.types = m.slots := by
  unfold slotCount types slots
  rw [List.map_map]
  congr 1
  apply List.map_congr_left
  intro f _
  exact f.slots_type

------------------------------------------------------------
-- Derived Texts Are Read
------------------------------------------------------------

theorem readElement_text
    (e : Element)
    (rest : List Char) :
    readElement (e.text ++ rest) = .ok (e.type, rest) := by
  cases e with
  | letter k hk =>
      change readElement (k.code :: rest) = _
      unfold readElement
      dsimp only
      rw [Kind.ofCode?_code]
      rfl
  | name cs hs hClosed =>
      have hCode : Kind.ofCode? 'L' = none := by decide
      have hText :
          (Element.name cs hs hClosed).text ++ rest =
            'L' :: (cs ++ ';' :: rest) := by
        simp [Element.text]
      rw [hText]
      unfold readElement
      dsimp only
      rw [hCode]
      dsimp only
      rw [if_pos rfl, dropWhile_closed hClosed]
      dsimp only
      rw [takeWhile_closed hClosed, if_neg hs]
      rfl

theorem readType_text
    (f : Field)
    (rest : List Char) :
    readType (f.text ++ rest) = .ok (f.type, rest) := by
  have hShallow := Nat.not_lt_of_le f.shallow
  unfold readType
  rw [Field.openBrackets_text, Field.dropWhile_text,
    readElement_text, if_neg hShallow]
  by_cases hBare : f.dimensions = 0
  · rw [if_pos hBare]
    have hText : f.text = f.element.text := by
      simp [Field.text, hBare]
    have hType : f.type = f.element.type := by
      simp [Field.type, hBare, Ty.nested]
    rw [hText, hType, readElement_text]
  · rw [if_neg hBare]
    dsimp only
    rw [Element.isVoid_type]
    rfl

theorem readType_result (r : Result) :
    readType r.text = .ok (r.type, []) := by
  cases r with
  | field f =>
      have hRead := readType_text f []
      rw [List.append_nil] at hRead
      exact hRead
  | void => rfl

/- One more parameter is read, if a type comes next. -/
theorem readParams_type
    {after : List Char}
    (whole : List Char)
    (hRead : readType cs = .ok (t, after))
    (hNotVoid : t.IsVoid = false)
    (hOpen : cs.head? ≠ some ')') :
    readParams whole cs =
      match readParams whole after with
      | .error e => .error e
      | .ok (ts, final) => .ok (t :: ts, final) := by
  cases cs with
  | nil => cases hRead
  | cons c cs =>
      have hNe : c ≠ ')' := by simpa using hOpen
      rw [readParams, if_neg hNe]
      split
      · rename_i hFail
        rw [hRead] at hFail
        cases hFail
      · rename_i u after' hOk
        rw [hRead] at hOk
        cases hOk
        rw [hNotVoid]
        rfl

/- Parameters are read up to the closing parenthesis. -/
theorem readParams_text
    (whole rest : List Char)
    (fs : List Field) :
    readParams whole (fs.flatMap Field.text ++ ')' :: rest) =
      .ok (fs.map Field.type, rest) := by
  induction fs with
  | nil =>
      rw [List.flatMap_nil, List.nil_append, readParams]
      rfl
  | cons f fs ih =>
      have hOpen :
          (f.text ++
              (fs.flatMap Field.text ++ ')' :: rest)).head? ≠
            some ')' := by
        rcases f.exists_text with ⟨c, cs, hText, hNe, _⟩
        simp [hText, hNe]
      rw [List.flatMap_cons, List.append_assoc,
        readParams_type whole (readType_text f _) f.isVoid_type
          hOpen,
        ih]
      rfl

/- A derived method is read up to the check of its slots. -/
theorem ofDescriptor_text (m : Method) :
    Signature.ofDescriptor m.text =
      Signature.build m.result.type m.types := by
  have hRead := readType_result m.result
  rw [Method.text, Signature.ofDescriptor, readParams_text]
  cases hText : m.result.text with
  | nil =>
      rw [hText] at hRead
      cases hRead
  | cons c cs =>
      rw [hText] at hRead
      dsimp only
      rw [hRead]
      rfl

------------------------------------------------------------
-- Texts That Are Read Are Derived
------------------------------------------------------------

theorem exists_of_readElement
    (hRead : readElement cs = .ok (t, rest)) :
    (cs = 'V' :: rest ∧ t = .void) ∨
      ∃ e : Element, cs = e.text ++ rest ∧ t = e.type := by
  unfold readElement at hRead
  split at hRead
  · cases hRead
  · rename_i c tail
    split at hRead
    · rename_i k hCode
      cases hRead
      have hLetter : k.code = c := Kind.code_of_ofCode? hCode
      subst hLetter
      by_cases hk : k = .void
      · subst hk
        exact Or.inl ⟨rfl, rfl⟩
      · exact Or.inr ⟨.letter k hk, rfl, rfl⟩
    · split at hRead
      · rename_i hClass
        subst hClass
        by_cases hMem : ';' ∈ tail
        · rcases List.eq_append_cons_of_mem hMem with
            ⟨name, after, rfl, hClosed⟩
          rw [dropWhile_closed hClosed,
            takeWhile_closed hClosed] at hRead
          dsimp only at hRead
          split at hRead
          · cases hRead
          · rename_i hName
            cases hRead
            refine Or.inr ⟨.name name hName hClosed, ?_, rfl⟩
            simp [Element.text]
        · rw [dropWhile_unclosed hMem] at hRead
          cases hRead
      · cases hRead

/- What is read is a field or the letter of `void`. -/
theorem exists_of_readType
    (hRead : readType cs = .ok (t, rest)) :
    ∃ r : Result, cs = r.text ++ rest ∧ t = r.type := by
  unfold readType at hRead
  split at hRead
  · rcases exists_of_readElement hRead with
      ⟨rfl, rfl⟩ | ⟨e, rfl, rfl⟩
    · exact ⟨.void, rfl, rfl⟩
    · exact
        ⟨.field ⟨0, e, Nat.zero_le _⟩, rfl, rfl⟩
  · split at hRead
    · cases hRead
    · rename_i hDeep
      split at hRead
      · cases hRead
      · rename_i u after hElement
        split at hRead
        · cases hRead
        · rename_i hNotVoid
          cases hRead
          have hParts := eq_brackets_append cs
          rcases exists_of_readElement hElement with
            ⟨_, rfl⟩ | ⟨e, hText, rfl⟩
          · exact absurd rfl hNotVoid
          · have hShallow := Nat.le_of_not_lt hDeep
            refine
              ⟨.field ⟨openBrackets cs, e, hShallow⟩, ?_, rfl⟩
            rw [hText, ← List.append_assoc] at hParts
            exact hParts

theorem exists_of_readParams
    {whole : List Char}
    {ts : List Ty}
    (hRead : readParams whole cs = .ok (ts, rest)) :
    ∃ fs : List Field,
      cs = fs.flatMap Field.text ++ ')' :: rest ∧
        ts = fs.map Field.type := by
  -- Each turn of the reader puts one field before the others.
  fun_induction readParams whole cs generalizing ts with
  | case1 => cases hRead
  | case2 tail =>
      cases hRead
      exact ⟨[], rfl, rfl⟩
  | case3 c tail hNe e hFail => cases hRead
  | case4 c tail hNe u after hVoid hOk => cases hRead
  | case5 c tail hNe u after hOk hNotVoid e hFail ih =>
      cases hRead
  | case6 c tail hNe u after hOk hNotVoid us final hTail ih =>
      cases hRead
      rcases ih hTail with ⟨fs, rfl, rfl⟩
      rcases exists_of_readType hOk with ⟨r, hText, rfl⟩
      cases r with
      | field f =>
          refine ⟨f :: fs, ?_, rfl⟩
          rw [hText, List.flatMap_cons, List.append_assoc]
          rfl
      | void => exact absurd rfl hNotVoid

------------------------------------------------------------
-- Refusals
------------------------------------------------------------

variable {e : SignatureError}

theorem invalid_of_readElement
    (hRead : readElement cs = .error e) :
    ∃ what, e = .invalidDescriptor what := by
  unfold readElement at hRead
  split at hRead
  · cases hRead
    exact ⟨_, rfl⟩
  · split at hRead
    · cases hRead
    · split at hRead
      · split at hRead
        · cases hRead
          exact ⟨_, rfl⟩
        · dsimp only at hRead
          split at hRead
          · cases hRead
            exact ⟨_, rfl⟩
          · cases hRead
      · cases hRead
        exact ⟨_, rfl⟩

theorem invalid_of_readType
    (hRead : readType cs = .error e) :
    ∃ what, e = .invalidDescriptor what := by
  unfold readType at hRead
  split at hRead
  · exact invalid_of_readElement hRead
  · split at hRead
    · cases hRead
      exact ⟨_, rfl⟩
    · split at hRead
      · rename_i hElement
        cases hRead
        exact invalid_of_readElement hElement
      · split at hRead
        · cases hRead
          exact ⟨_, rfl⟩
        · cases hRead

theorem invalid_of_readParams
    {whole : List Char}
    (hRead : readParams whole cs = .error e) :
    ∃ what, e = .invalidDescriptor what := by
  fun_induction readParams whole cs with
  | case1 =>
      cases hRead
      exact ⟨_, rfl⟩
  | case2 tail => cases hRead
  | case3 c tail hNe e' hFail =>
      cases hRead
      exact invalid_of_readType hFail
  | case4 c tail hNe u after hVoid hOk =>
      cases hRead
      exact ⟨_, rfl⟩
  | case5 c tail hNe u after hOk hNotVoid e' hFail ih =>
      cases hRead
      exact ih hFail
  | case6 c tail hNe u after hOk hNotVoid us final hTail ih =>
      cases hRead

/- A text that no derivation has is an invalid descriptor. -/
theorem derived_or_invalid (cs : List Char) :
    (∃ m : Method, m.text = cs) ∨
      ∃ what,
        Signature.ofDescriptor cs =
          .error (.invalidDescriptor what) := by
  unfold Signature.ofDescriptor
  split
  · rename_i inside
    split
    · rename_i e hParams
      rcases invalid_of_readParams hParams with ⟨what, rfl⟩
      exact Or.inr ⟨what, rfl⟩
    · exact Or.inr ⟨_, rfl⟩
    · rename_i ps after hOpen hParams
      split
      · rename_i e hResult
        rcases invalid_of_readType hResult with ⟨what, rfl⟩
        exact Or.inr ⟨what, rfl⟩
      · -- Nothing is left of the text, so all of it is derived.
        rename_i ret hResult
        rcases exists_of_readParams hParams with ⟨fs, rfl, rfl⟩
        rcases exists_of_readType hResult with ⟨r, rfl, rfl⟩
        refine Or.inl ⟨⟨fs, r⟩, ?_⟩
        simp [Method.text]
      · exact Or.inr ⟨_, rfl⟩
  · exact Or.inr ⟨_, rfl⟩

------------------------------------------------------------
-- The Accepted Language
------------------------------------------------------------

/- Few slots make a signature of a derivation. -/
theorem Method.accepted
    (m : Method)
    (hSlots : m.slots ≤ maxSlots) :
    ∃ h : Admissible m.types,
      Signature.ofDescriptor m.text =
        .ok ⟨m.types, m.result.type, h⟩ := by
  rw [← m.slotCount_types] at hSlots
  refine ⟨⟨m.isVoid_types, hSlots⟩, ?_⟩
  rw [ofDescriptor_text]
  exact Signature.build_of_admissible _ ⟨m.isVoid_types, hSlots⟩

theorem Method.refused
    (m : Method)
    (hSlots : maxSlots < m.slots) :
    Signature.ofDescriptor m.text =
      .error (.tooManyParameters m.slots) := by
  rw [← m.slotCount_types] at hSlots ⊢
  rw [ofDescriptor_text]
  exact Signature.build_of_slots_lt _ m.isVoid_types hSlots

/- What the reader says of a text, and when. -/
inductive Verdict (cs : List Char) : Prop where
| accepted
    (m : Method)
    (hText : m.text = cs)
    (hSlots : m.slots ≤ maxSlots)
    (h : Admissible m.types)
    (hRead :
      Signature.ofDescriptor cs =
        .ok ⟨m.types, m.result.type, h⟩)
| tooMany
    (m : Method)
    (hText : m.text = cs)
    (hSlots : maxSlots < m.slots)
    (hRead :
      Signature.ofDescriptor cs =
        .error (.tooManyParameters m.slots))
| invalid
    (hText : ∀ m : Method, m.text ≠ cs)
    (what : String)
    (hRead :
      Signature.ofDescriptor cs =
        .error (.invalidDescriptor what))

theorem verdict_of_text (m : Method) : Verdict m.text := by
  by_cases hSlots : m.slots ≤ maxSlots
  · rcases m.accepted hSlots with ⟨h, hRead⟩
    exact .accepted m rfl hSlots h hRead
  · have hMany := Nat.lt_of_not_le hSlots
    exact .tooMany m rfl hMany (m.refused hMany)

theorem verdict (cs : List Char) : Verdict cs := by
  by_cases hDerived : ∃ m : Method, m.text = cs
  · rcases hDerived with ⟨m, rfl⟩
    exact verdict_of_text m
  · rcases derived_or_invalid cs with hText | ⟨what, hRead⟩
    · exact absurd hText hDerived
    · exact
        .invalid (fun m hText => hDerived ⟨m, hText⟩) what hRead

theorem ofDescriptor_eq_ok_iff
    {ps : List Ty}
    {ret : Ty} :
    (∃ h : Admissible ps,
      Signature.ofDescriptor cs = .ok ⟨ps, ret, h⟩) ↔
      ∃ m : Method,
        m.text = cs ∧ m.slots ≤ maxSlots ∧
          m.types = ps ∧ m.result.type = ret := by
  constructor
  · rintro ⟨h, hOk⟩
    cases verdict cs with
    | accepted m hText hSlots _ hRead =>
        rw [hRead] at hOk
        cases hOk
        exact ⟨m, hText, hSlots, rfl, rfl⟩
    | tooMany m hText hSlots hRead =>
        simp [hRead] at hOk
    | invalid hText what hRead =>
        simp [hRead] at hOk
  · rintro ⟨m, rfl, hSlots, rfl, rfl⟩
    exact m.accepted hSlots

theorem ofDescriptor_eq_tooMany_iff
    {n : Nat} :
    Signature.ofDescriptor cs = .error (.tooManyParameters n) ↔
      ∃ m : Method,
        m.text = cs ∧ m.slots = n ∧ maxSlots < n := by
  constructor
  · intro hError
    cases verdict cs with
    | accepted m hText hSlots _ hRead =>
        simp [hRead] at hError
    | tooMany m hText hSlots hRead =>
        rw [hRead] at hError
        cases hError
        exact ⟨m, hText, rfl, hSlots⟩
    | invalid hText what hRead =>
        simp [hRead] at hError
  · rintro ⟨m, rfl, rfl, hSlots⟩
    exact m.refused hSlots

theorem ofDescriptor_eq_invalid_iff :
    (∃ what,
      Signature.ofDescriptor cs =
        .error (.invalidDescriptor what)) ↔
      ∀ m : Method, m.text ≠ cs := by
  constructor
  · rintro ⟨what, hError⟩
    cases verdict cs with
    | accepted m hText hSlots _ hRead =>
        simp [hRead] at hError
    | tooMany m hText hSlots hRead =>
        simp [hRead] at hError
    | invalid hText what hRead => exact hText
  · intro hText
    rcases derived_or_invalid cs with ⟨m, hDerived⟩ | hInvalid
    · exact absurd hDerived (hText m)
    · exact hInvalid

/- No derivation has a `void` parameter. -/
theorem ofDescriptor_ne_voidParameter
    (cs : List Char)
    (i : Nat) :
    Signature.ofDescriptor cs ≠ .error (.voidParameter i) := by
  intro hError
  cases verdict cs with
  | accepted m hText hSlots _ hRead =>
      simp [hRead] at hError
  | tooMany m hText hSlots hRead =>
      simp [hRead] at hError
  | invalid hText what hRead =>
      simp [hRead] at hError

end Grammar

/-
  A text is read exactly if the grammar derives it with slots
  enough, as the types of its one derivation; with too many
  slots it is refused for their number, and any other text is
  an invalid descriptor.  The reader never cuts its text out
  of range.
-/
theorem Signature.ofDescriptor_accepts_grammar
    (cs : List Char) :
    (∀ m m' : Grammar.Method,
      m.text = cs → m'.text = cs → m = m') ∧
      (∀ ps ret,
        (∃ h : Admissible ps,
          ofDescriptor cs = .ok ⟨ps, ret, h⟩) ↔
          ∃ m : Grammar.Method,
            m.text = cs ∧ m.slots ≤ maxSlots ∧
              m.types = ps ∧ m.result.type = ret) ∧
      (∀ n,
        ofDescriptor cs = .error (.tooManyParameters n) ↔
          ∃ m : Grammar.Method,
            m.text = cs ∧ m.slots = n ∧ maxSlots < n) ∧
      ((∃ what,
        ofDescriptor cs = .error (.invalidDescriptor what)) ↔
          ∀ m : Grammar.Method, m.text ≠ cs) ∧
      (∀ i, ofDescriptor cs ≠ .error (.voidParameter i)) ∧
      ∀ part, readTypeByCuts part = some (readType part) := by
  refine ⟨?unique, ?accepted, ?tooMany, ?invalid, ?void, ?cuts⟩
  case unique =>
    intro m m' hText hText'
    exact Grammar.Method.text_injective (hText.trans hText'.symm)
  case accepted => exact fun _ _ => Grammar.ofDescriptor_eq_ok_iff
  case tooMany =>
    exact fun _ => Grammar.ofDescriptor_eq_tooMany_iff
  case invalid => exact Grammar.ofDescriptor_eq_invalid_iff
  case void => exact Grammar.ofDescriptor_ne_voidParameter cs
  case cuts => exact readTypeByCuts_eq

end Linkage
