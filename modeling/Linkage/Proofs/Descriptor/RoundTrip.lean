import Linkage.Proofs.Descriptor.Reading

/-
  Writing descriptors and reading them back.  A type whose
  class name can be told from what follows it is written as
  a field of the grammar writes it, so what is written is
  read back as it was.  A text that is read has dots in its
  names spelled as slashes when it is written again.

  Key definitions include:
    * `ClassName.Spellable`
    * `Ty.Flat`
    * `Ty.Spellable`
    * `Signature.Spellable`

  Key theorems include:
    * `Ty.Spellable.exists_field`
    * `Signature.ofDescriptor_spelled`
    * `Grammar.Field.descriptor_type`
    * `Grammar.Method.spellable_types`
    * `Signature.ofDescriptor_inverts`
-/

------------------------------------------------------------
-- Names
------------------------------------------------------------

namespace Linkage

/- A name that can be told from what follows it. -/
structure ClassName.Spellable (n : ClassName) : Prop where
  nonempty : n.text.toList ≠ []
  noSemicolon : ';' ∉ n.text.toList
  noSlash : '/' ∉ n.text.toList

namespace ClassName

variable {a b : Char}
variable {cs : List Char}

theorem mem_swapChar
    {c : Char}
    (hNe : c ≠ b)
    (hMem : c ∈ swapChar a b cs) :
    c ∈ cs := by
  rcases List.mem_map.1 hMem with ⟨d, hd, hEq⟩
  split at hEq
  · exact absurd hEq.symm hNe
  · rw [← hEq]
    exact hd

theorem not_mem_swapChar
    (hNe : a ≠ b) :
    a ∉ swapChar a b cs := by
  intro hMem
  rcases List.mem_map.1 hMem with ⟨d, _, hEq⟩
  split at hEq
  · exact hNe hEq.symm
  · rename_i hd
    exact hd hEq

/- Swapping back leaves what swapping at once gives. -/
theorem swapChar_swapChar
    (a b : Char)
    (cs : List Char) :
    swapChar b a (swapChar a b cs) = swapChar b a cs := by
  unfold swapChar
  rw [List.map_map]
  apply List.map_congr_left
  intro c _
  by_cases hc : c = a
  · by_cases hb : a = b
    · simp [hc, hb]
    · simp [hc, hb]
  · simp [hc]

theorem swapChar_absent
    (hAbsent : a ∉ cs) :
    swapChar a b cs = cs := by
  calc
    swapChar a b cs = cs.map id := by
      apply List.map_congr_left
      intro c hc
      have hNe : c ≠ a := fun hEq => hAbsent (hEq ▸ hc)
      exact if_neg hNe
    _ = cs := List.map_id cs

theorem ofInternal_internal
    {n : ClassName}
    (hName : n.Spellable) :
    ofInternal n.internal = n := by
  unfold ofInternal internal
  rw [swapChar_swapChar, swapChar_absent hName.noSlash,
    String.ofList_toList]

theorem internal_ofInternal (cs : List Char) :
    (ofInternal cs).internal = swapChar '.' '/' cs := by
  unfold ofInternal internal
  rw [String.toList_ofList, swapChar_swapChar]

/- A name of the grammar is the spelling of a name. -/
theorem spellable_ofInternal
    (hNonempty : cs ≠ [])
    (hClosed : ';' ∉ cs) :
    (ofInternal cs).Spellable where
  nonempty := by
    simpa [ofInternal, swapChar] using hNonempty
  noSemicolon := by
    unfold ofInternal
    rw [String.toList_ofList]
    exact fun hMem => hClosed (mem_swapChar (by decide) hMem)
  noSlash := by
    unfold ofInternal
    rw [String.toList_ofList]
    exact not_mem_swapChar (by decide)

end ClassName

------------------------------------------------------------
-- Elements and Dimensions
------------------------------------------------------------

namespace Ty

/- A type that is no array, of a class that can be spelled. -/
def Flat : Ty → Prop
| prim _ => True
| cls n => n.Spellable
| array _ => False

/- What an array type is an array of, in the end. -/
def element : Ty → Ty
| array c => c.element
| t => t

def dimensions : Ty → Nat
| array c => c.dimensions + 1
| _ => 0

/- A type that is read back from its descriptor. -/
structure Spellable (t : Ty) : Prop where
  element : t.element.Flat
  shallow : t.dimensions ≤ maxDimensions
  notVoid : 0 < t.dimensions → t.element.IsVoid = false

variable {t : Ty}

theorem nested_element (t : Ty) :
    t.element.nested t.dimensions = t := by
  induction t with
  | prim k => rfl
  | cls n => rfl
  | array c ih =>
      change array (c.element.nested c.dimensions) = array c
      rw [ih]

theorem descriptor_nested
    (t : Ty)
    (n : Nat) :
    (t.nested n).descriptor =
      List.replicate n '[' ++ t.descriptor := by
  induction n with
  | zero => rfl
  | succ n ih =>
      rw [List.replicate_succ, List.cons_append, ← ih]
      rfl

theorem Flat.element_eq
    (hFlat : t.Flat) :
    t.element = t := by
  cases t with
  | prim k => rfl
  | cls n => rfl
  | array c => exact absurd hFlat id

theorem Flat.dimensions_eq
    (hFlat : t.Flat) :
    t.dimensions = 0 := by
  cases t with
  | prim k => rfl
  | cls n => rfl
  | array c => exact absurd hFlat id

theorem Flat.spellable
    (hFlat : t.Flat) :
    t.Spellable where
  element := by
    rw [hFlat.element_eq]
    exact hFlat
  shallow := by
    rw [hFlat.dimensions_eq]
    exact Nat.zero_le _
  notVoid := by
    intro hPos
    rw [hFlat.dimensions_eq] at hPos
    cases hPos

theorem element_nested
    (t : Ty)
    (n : Nat) :
    (t.nested n).element = t.element := by
  induction n with
  | zero => rfl
  | succ n ih => exact ih

theorem dimensions_nested
    (t : Ty)
    (n : Nat) :
    (t.nested n).dimensions = t.dimensions + n := by
  induction n with
  | zero => rfl
  | succ n ih => exact congrArg (· + 1) ih

end Ty

------------------------------------------------------------
-- Written Texts Are Derived
------------------------------------------------------------

/- A flat type that is not `void` is written as an element. -/
theorem Ty.Flat.exists_element
    {t : Ty}
    (hFlat : t.Flat)
    (hNotVoid : t.IsVoid = false) :
    ∃ e : Grammar.Element,
      e.text = t.descriptor ∧ e.type = t := by
  cases t with
  | prim k =>
      have hk : k ≠ .void := by
        rintro rfl
        cases hNotVoid
      exact ⟨.letter k hk, rfl, rfl⟩
  | cls n =>
      have hNonempty : n.internal ≠ [] := by
        intro hEmpty
        exact hFlat.nonempty (List.map_eq_nil_iff.1 hEmpty)
      have hClosed : ';' ∉ n.internal := by
        intro hMem
        exact
          hFlat.noSemicolon
            (ClassName.mem_swapChar (by decide) hMem)
      refine ⟨.name n.internal hNonempty hClosed, rfl, ?_⟩
      exact congrArg Ty.cls (ClassName.ofInternal_internal hFlat)
  | array c => exact absurd hFlat id

namespace Ty.Spellable

variable {t : Ty}

theorem isVoid_element
    (hSpell : t.Spellable)
    (hNotVoid : t.IsVoid = false) :
    t.element.IsVoid = false := by
  cases t with
  | prim k => exact hNotVoid
  | cls n => rfl
  | array c => exact hSpell.notVoid (Nat.succ_pos _)

theorem exists_field
    (hSpell : t.Spellable)
    (hNotVoid : t.IsVoid = false) :
    ∃ f : Grammar.Field,
      f.text = t.descriptor ∧ f.type = t := by
  rcases hSpell.element.exists_element
      (hSpell.isVoid_element hNotVoid) with
    ⟨e, hText, hType⟩
  have hNested := t.nested_element
  refine ⟨⟨t.dimensions, e, hSpell.shallow⟩, ?_, ?_⟩
  · rw [Grammar.Field.text, hText, ← descriptor_nested, hNested]
  · rw [Grammar.Field.type, hType, hNested]

theorem exists_result
    (hSpell : t.Spellable) :
    ∃ r : Grammar.Result,
      r.text = t.descriptor ∧ r.type = t := by
  by_cases hVoid : t.IsVoid = true
  · rw [t.isVoid_iff] at hVoid
    subst hVoid
    exact ⟨.void, rfl, rfl⟩
  · rcases hSpell.exists_field (by simpa using hVoid) with
      ⟨f, hText, hType⟩
    exact ⟨.field f, hText, hType⟩

end Ty.Spellable

theorem Grammar.exists_fields
    {ts : List Ty}
    (hSpell : ∀ t ∈ ts, t.Spellable ∧ t.IsVoid = false) :
    ∃ fs : List Grammar.Field,
      fs.flatMap Grammar.Field.text = ts.flatMap Ty.descriptor ∧
        fs.map Grammar.Field.type = ts := by
  induction ts with
  | nil => exact ⟨[], rfl, rfl⟩
  | cons t ts ih =>
      rcases hSpell t List.mem_cons_self with
        ⟨hHead, hNotVoid⟩
      rcases hHead.exists_field hNotVoid with
        ⟨f, hText, hType⟩
      rcases ih (fun u hu =>
          hSpell u (List.mem_cons_of_mem t hu)) with
        ⟨fs, hTexts, hTypes⟩
      refine ⟨f :: fs, ?_, ?_⟩
      · rw [List.flatMap_cons, List.flatMap_cons, hText, hTexts]
      · rw [List.map_cons, hType, hTypes]

/- Spelled types are read back as a signature. -/
theorem Signature.ofDescriptor_spelled
    {ps : List Ty}
    {ret : Ty}
    (hParams : ∀ p ∈ ps, p.Spellable)
    (hRet : ret.Spellable)
    (h : Admissible ps) :
    ofDescriptor
        ('(' :: (ps.flatMap Ty.descriptor ++
          ')' :: ret.descriptor)) =
      .ok ⟨ps, ret, h⟩ := by
  rcases Grammar.exists_fields
      (fun p hp => ⟨hParams p hp, h.noVoid p hp⟩) with
    ⟨fs, hTexts, hTypes⟩
  rcases hRet.exists_result with ⟨r, hText, hType⟩
  have hRead := Grammar.ofDescriptor_text ⟨fs, r⟩
  unfold Grammar.Method.text Grammar.Method.types at hRead
  dsimp only at hRead
  rw [hTexts, hTypes, hText, hType] at hRead
  rw [hRead]
  exact build_of_admissible ret h

------------------------------------------------------------
-- Derived Texts Are Written
------------------------------------------------------------

namespace Grammar

open ClassName

theorem Element.descriptor_type (e : Element) :
    e.type.descriptor = swapChar '.' '/' e.text := by
  cases e with
  | letter k hk => cases k <;> rfl
  | name cs hs hClosed =>
      unfold Element.type Element.text Ty.descriptor
      rw [internal_ofInternal]
      simp [swapChar]

theorem Element.flat_type (e : Element) :
    e.type.Flat := by
  cases e with
  | letter k hk => trivial
  | name cs hs hClosed => exact spellable_ofInternal hs hClosed

/- A field is written with slashes for the dots in its name. -/
theorem Field.descriptor_type (f : Field) :
    f.type.descriptor = swapChar '.' '/' f.text := by
  unfold Field.type Field.text
  rw [Ty.descriptor_nested, Element.descriptor_type]
  simp [swapChar]

theorem Field.spellable_type (f : Field) :
    f.type.Spellable where
  element := by
    rw [Field.type, Ty.element_nested,
      f.element.flat_type.element_eq]
    exact f.element.flat_type
  shallow := by
    rw [Field.type, Ty.dimensions_nested,
      f.element.flat_type.dimensions_eq, Nat.zero_add]
    exact f.shallow
  notVoid := by
    intro _
    rw [Field.type, Ty.element_nested,
      f.element.flat_type.element_eq]
    exact f.element.isVoid_type

theorem Result.descriptor_type (r : Result) :
    r.type.descriptor = swapChar '.' '/' r.text := by
  cases r with
  | field f => exact f.descriptor_type
  | void => rfl

theorem Result.spellable_type (r : Result) :
    r.type.Spellable := by
  cases r with
  | field f => exact f.spellable_type
  | void => exact Ty.Flat.spellable trivial

theorem Method.spellable_types
    (m : Method) :
    ∀ p ∈ m.types, p.Spellable := by
  intro p hp
  rcases List.mem_map.1 hp with ⟨f, _, rfl⟩
  exact f.spellable_type

theorem Method.descriptor_types (m : Method) :
    m.types.flatMap Ty.descriptor =
      swapChar '.' '/' (m.params.flatMap Field.text) := by
  unfold Method.types swapChar
  rw [List.flatMap_map, List.map_flatMap]
  congr 1
  funext f
  exact f.descriptor_type

end Grammar

------------------------------------------------------------
-- Round Trips
------------------------------------------------------------

/- A signature that is read back from its descriptor. -/
structure Signature.Spellable (s : Signature) : Prop where
  params : ∀ p ∈ s.params, p.Spellable
  ret : s.ret.Spellable

theorem Signature.Spellable.ofDescriptor_descriptor
    {s : Signature}
    (hSpell : s.Spellable) :
    Signature.ofDescriptor s.descriptor = .ok s :=
  Signature.ofDescriptor_spelled hSpell.params hSpell.ret
    s.admissible

theorem Ty.Spellable.ofDescriptor_descriptor
    {t : Ty}
    (hSpell : t.Spellable)
    (hNotVoid : t.IsVoid = false) :
    Ty.ofDescriptor t.descriptor = .ok t := by
  rcases hSpell.exists_field hNotVoid with ⟨f, hText, hType⟩
  have hRead := Grammar.readType_text f []
  rw [List.append_nil, hText, hType] at hRead
  unfold Ty.ofDescriptor
  rw [hRead]
  exact if_pos ⟨rfl, hNotVoid⟩

/- What is read can be spelled, and says its text again. -/
theorem Signature.descriptor_of_ofDescriptor
    {cs : List Char}
    {s : Signature}
    (hRead : ofDescriptor cs = .ok s) :
    s.Spellable ∧
      s.descriptor = ClassName.swapChar '.' '/' cs := by
  rcases s with ⟨ps, ret, h⟩
  rcases Grammar.ofDescriptor_eq_ok_iff.1 ⟨h, hRead⟩ with
    ⟨m, rfl, _, rfl, rfl⟩
  refine ⟨⟨m.spellable_types, m.result.spellable_type⟩, ?_⟩
  unfold Signature.descriptor
  dsimp only
  rw [m.descriptor_types, m.result.descriptor_type]
  simp [Grammar.Method.text, ClassName.swapChar]

/-
  Reading undoes writing, and writing undoes reading but for
  the dots of names, which become slashes.
-/
theorem Signature.ofDescriptor_inverts :
    (∀ s : Signature,
      s.Spellable → ofDescriptor s.descriptor = .ok s) ∧
      (∀ t : Ty,
        t.Spellable → t.IsVoid = false →
          Ty.ofDescriptor t.descriptor = .ok t) ∧
      ∀ cs s,
        ofDescriptor cs = .ok s →
          s.descriptor = ClassName.swapChar '.' '/' cs ∧
            ofDescriptor s.descriptor = .ok s := by
  refine ⟨?signatures, ?types, ?texts⟩
  case signatures =>
    intro s hSpell
    exact hSpell.ofDescriptor_descriptor
  case types =>
    intro t hSpell hNotVoid
    exact hSpell.ofDescriptor_descriptor hNotVoid
  case texts =>
    intro cs s hRead
    rcases descriptor_of_ofDescriptor hRead with
      ⟨hSpell, hText⟩
    exact ⟨hText, hSpell.ofDescriptor_descriptor⟩

theorem Signature.ofDescriptor_inverts_dotted :
    ∃ s : Signature,
      s.params = [.array .int, .cls ⟨"a.B"⟩] ∧
        s.Spellable ∧
        ofDescriptor "([ILa.B;)V".toList = .ok s ∧
        s.descriptor = "([ILa/B;)V".toList ∧
        ofDescriptor s.descriptor = .ok s ∧
        Ty.ofDescriptor (Ty.array .int).descriptor =
          .ok (.array .int) := by
  have hDerived :
      ∃ m : Grammar.Method,
        m.text = "([ILa.B;)V".toList ∧ m.slots ≤ maxSlots ∧
          m.types = [.array .int, .cls ⟨"a.B"⟩] ∧
          m.result.type = .void :=
    ⟨⟨[⟨1, .letter .int (by decide), by decide⟩,
        ⟨0, .name "a.B".toList (by decide) (by decide),
          by decide⟩],
        .void⟩,
      rfl, by decide, rfl, rfl⟩
  have hInt : (Ty.array .int).Spellable :=
    ⟨trivial, by decide, fun _ => rfl⟩
  rcases Grammar.ofDescriptor_eq_ok_iff.2 hDerived with
    ⟨h, hRead⟩
  rcases descriptor_of_ofDescriptor hRead with ⟨hSpell, _⟩
  exact
    ⟨_, rfl, hSpell, hRead,
      (ofDescriptor_inverts.2.2 _ _ hRead).1,
      ofDescriptor_inverts.1 _ hSpell,
      ofDescriptor_inverts.2.1 _ hInt rfl⟩

end Linkage
