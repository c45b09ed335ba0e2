import Linkage.Proofs.Session.Flexible

/-
  Arguments that are gathered.  The slots for a number of
  arguments are those of the fixed parameters, and one for
  each further argument.  There are conversions into them
  just if the slots make a signature, the types that the
  arguments have at run time make another, and there is a
  plan from these to those; then a collector is made, with
  the slots as its parameters.

  Key definitions include:
    * `Target.slotsFor`
    * `Target.Gathers`
    * `Target.Brings`

  Key theorems include:
    * `Target.gathers_iff`
    * `Target.brings_of_plan`
    * `Target.asCollector_eq`
    * `Target.asCollector_made`
    * `Target.callType_refused`
-/

------------------------------------------------------------
-- Slots and Conversions
------------------------------------------------------------

namespace Linkage

variable {rt : Runtime}
variable {T : ClassTable}
variable {c : Catalog}
variable {s : State}
variable {t : Target}
variable {component element : Ty}
variable {fixed slots : List Ty}
variable {args : List Value}
variable {cs : List Conversion}
variable {a : Value}
variable {b : Ty}

namespace Target

/-
  The slots of a number of arguments: those of the fixed
  parameters, and one for each argument that is gathered.
-/
def slotsFor
    (fixed : List Ty)
    (component : Ty)
    (count : Nat) : List Ty :=
  fixed ++ List.replicate (count - fixed.length) component

/-
  Arguments can be gathered: the slots are parameters of some
  signature, and the types that the arguments have are few
  enough for another one.  No signature has `void` parameters,
  so no element is gathered into an array of `void`.
-/
structure Gathers
    (T : ClassTable)
    (slots : List Ty)
    (args : List Value) : Prop where
  noVoid : .void ∉ args
  converts :
    ∀ (i : Nat) (v : Value) (a b : Ty),
      args[i]? = some v → v.type? = some a →
        slots[i]? = some b → a.ConvertsTo T .implicit b
  collected : Admissible slots
  called :
    slotCount (List.zipWith slotType args slots) ≤ maxSlots

/-
  Conversions bring arguments into slots: by the types that
  they have, and null as it is, but not as a primitive value.
-/
structure Brings
    (T : ClassTable)
    (slots : List Ty)
    (args : List Value)
    (cs : List Conversion) : Prop where
  length_eq : cs.length = args.length
  typed :
    ∀ (i : Nat) (v : Value) (a b : Ty),
      args[i]? = some v → v.type? = some a →
        slots[i]? = some b →
          ∃ c, cs[i]? = some c ∧ classify T a b .implicit = some c
  null :
    ∀ (i : Nat) (b : Ty),
      args[i]? = some .null → slots[i]? = some b →
        b.IsRef = true → cs[i]? = some .identity
  missing :
    ∀ (i : Nat) (k : Kind),
      args[i]? = some .null → slots[i]? = some (.prim k) →
        ∃ c, cs[i]? = some c ∧
          ∀ h,
            c.apply T .null h =
              (.error
                (.nullReference
                  ("cannot unbox null to " ++ k.name)),
                h)

------------------------------------------------------------
-- Plans for Gathered Arguments
------------------------------------------------------------

theorem length_slotsFor
    {n : Nat}
    (hEnough : fixed.length ≤ n) :
    (slotsFor fixed component n).length = n := by
  unfold slotsFor
  rw [List.length_append, List.length_replicate]
  omega

/- Only `void` gives the type `void`. -/
theorem isVoid_slotType
    (hVoid : a ≠ .void) :
    (slotType a b).IsVoid = false := by
  cases a with
  | void => exact absurd rfl hVoid
  | null =>
      change (if b.IsRef = true then b else .object).IsVoid = false
      split
      · rename_i hRef
        exact (Ty.slots_of_isRef hRef).2
      · rfl
  | prim p =>
      cases p with
      | _ => rfl
  | ref o =>
      exact (Ty.slots_of_isRef o.shape.isRef_type).2

theorem slotType_of_type?
    (hType : a.type? = some b)
    (q : Ty) :
    slotType a q = b := by
  unfold slotType
  rw [hType]

/- Null is kept where it is a value, and unboxed elsewhere. -/
theorem classify_null_ref
    (T : ClassTable)
    (hRef : b.IsRef = true) :
    classify T (slotType .null b) b .implicit = some .identity := by
  have hSlot : slotType .null b = b := if_pos hRef
  rw [hSlot]
  exact classify_self T b .implicit

theorem classify_null_prim
    (T : ClassTable)
    {k : Kind}
    (hVoid : (Ty.prim k).IsVoid = false) :
    classify T (slotType .null (.prim k)) (.prim k) .implicit =
      some (.unbox .dynamic k .implicit) := by
  cases k with
  | void => cases hVoid
  | _ => rfl

/- Only the types of arguments other than null matter. -/
theorem convertsTo_of_slotType
    (hVoid : b.IsVoid = false)
    (hTyped :
      ∀ q, a.type? = some q → q.ConvertsTo T .implicit b) :
    (slotType a b).ConvertsTo T .implicit b := by
  cases hType : a.type? with
  | some q =>
      rw [slotType_of_type? hType]
      exact hTyped q hType
  | none =>
      have hNull : a = .null := by
        cases a with
        | null => rfl
        | _ => cases hType
      subst hNull
      cases b with
      | prim k => exact ⟨_, classify_null_prim T hVoid⟩
      | _ => exact ⟨_, classify_null_ref T rfl⟩

/-
  Arguments can be gathered if the slots are parameters of a
  signature, the types that the arguments give to them are
  parameters of another one, and there is a plan from these
  to those.
-/
theorem gathers_iff
    (hLength : args.length = slots.length) :
    Gathers T slots args ↔
      Admissible slots ∧
        Admissible (List.zipWith slotType args slots) ∧
        ParamsConvert T .implicit
          (List.zipWith slotType args slots) slots := by
  constructor
  · intro hGathers
    refine
      ⟨hGathers.collected, ⟨?_, hGathers.called⟩, ?_⟩
    · intro q hq
      rcases List.getElem?_of_mem hq with ⟨i, hi⟩
      rcases List.getElem?_zipWith_eq_some.1 hi with
        ⟨a, b, ha, _, rfl⟩
      apply isVoid_slotType
      rintro rfl
      exact hGathers.noVoid (List.mem_of_getElem? ha)
    · intro i q b hq hb
      rcases List.getElem?_zipWith_eq_some.1 hq with
        ⟨a, b', ha, hb', rfl⟩
      rw [hb] at hb'
      cases hb'
      apply convertsTo_of_slotType
      · exact
          hGathers.collected.noVoid b (List.mem_of_getElem? hb)
      · intro q hType
        exact hGathers.converts i a q b ha hType hb
  · rintro ⟨hSlots, hTypes, hConvert⟩
    refine ⟨?_, ?_, hSlots, hTypes.slots_le⟩
    · intro hMem
      rcases List.getElem?_of_mem hMem with ⟨i, hi⟩
      have hLt : i < slots.length := by
        rw [← hLength]
        exact (List.getElem?_eq_some_iff.1 hi).1
      have hType :
          (List.zipWith slotType args slots)[i]? = some .void :=
        List.getElem?_zipWith_eq_some.2
          ⟨.void, slots[i], hi, List.getElem?_eq_getElem hLt, rfl⟩
      have hNoVoid :=
        hTypes.noVoid .void (List.mem_of_getElem? hType)
      cases hNoVoid
    · intro i a q b ha hType hb
      apply hConvert i q b _ hb
      exact
        List.getElem?_zipWith_eq_some.2
          ⟨a, b, ha, hb, slotType_of_type? hType b⟩

/- The conversions of such a plan bring arguments into slots. -/
theorem brings_of_plan
    (hLength : args.length = slots.length)
    (hSlots : Admissible slots)
    (hPlan :
      List.Forall₂
        (fun (q : Ty × Ty) c =>
          classify T q.1 q.2 .implicit = some c)
        ((List.zipWith slotType args slots).zip slots) cs) :
    Brings T slots args cs := by
  have hAt :
      ∀ (i : Nat) (a : Value) (b : Ty),
        args[i]? = some a → slots[i]? = some b →
          ∃ c, cs[i]? = some c ∧
            classify T (slotType a b) b .implicit = some c := by
    intro i a b ha hb
    have hType :
        (List.zipWith slotType args slots)[i]? =
          some (slotType a b) :=
      List.getElem?_zipWith_eq_some.2 ⟨a, b, ha, hb, rfl⟩
    have hPair :
        ((List.zipWith slotType args slots).zip slots)[i]? =
          some (slotType a b, b) :=
      List.getElem?_zip_eq_some.2 ⟨hType, hb⟩
    have hRel := getElem?_forall₂ hPlan i
    rw [hPair] at hRel
    generalize hc : cs[i]? = o at hRel
    cases hRel with
    | some hClass => exact ⟨_, rfl, hClass⟩
  refine ⟨?_, ?_, ?_, ?_⟩
  · have hZip := hPlan.length_eq
    rw [List.length_zip, List.length_zipWith, ← hLength,
      Nat.min_self, Nat.min_self] at hZip
    exact hZip.symm
  · intro i a q b ha hType hb
    rcases hAt i a b ha hb with ⟨c, hc, hClass⟩
    rw [slotType_of_type? hType] at hClass
    exact ⟨c, hc, hClass⟩
  · intro i b ha hb hRef
    rcases hAt i .null b ha hb with ⟨c, hc, hClass⟩
    rw [classify_null_ref T hRef] at hClass
    rw [hc, hClass]
  · intro i k ha hb
    rcases hAt i .null (.prim k) ha hb with ⟨c, hc, hClass⟩
    have hVoid := hSlots.noVoid _ (List.mem_of_getElem? hb)
    rw [classify_null_prim T hVoid] at hClass
    cases hClass
    exact ⟨_, hc, fun h => rfl⟩

------------------------------------------------------------
-- Collectors and Call Types
------------------------------------------------------------

/- The checks of a collector leave only its signature. -/
theorem asCollector_eq
    (hParams : t.params = fixed ++ [.array element])
    (hArray :
      rt.classes.isAssignable (.array component)
        (.array element) = true)
    (count : Nat) :
    t.asCollector rt (.array component) count =
      (do
        let sig ←
          Link.ofSignature
            (Signature.build t.ret
              (fixed ++ List.replicate count component))
        build rt sig (.collect t component count)) := by
  have hCheck :
      t.checkTrailingArray rt (.array component) = pure () := by
    unfold checkTrailingArray
    rw [hParams, List.getLast?_concat]
    dsimp only [Ty.IsArray]
    rw [hArray]
    rfl
  rcases Signature.dropParams_last hParams with
    ⟨shorter, hDrop, hShorter, hRet⟩
  unfold asCollector componentOf
  rw [hCheck, pure_bind]
  change
    (do
      let shorter ←
        Link.ofSignature
          (t.signature.dropParams (t.signature.count - 1)
            t.signature.count)
      let sig ←
        Link.ofSignature
          (shorter.appendParams (List.replicate count component))
      build rt sig (.collect t component count)) = _
  rw [hDrop]
  change
    (do
      let sig ←
        Link.ofSignature
          (shorter.appendParams (List.replicate count component))
      build rt sig (.collect t component count)) = _
  rw [Signature.appendParams_eq, hShorter, hRet]
  rfl

/- Without a signature nothing is made. -/
theorem asCollector_refused
    (hParams : t.params = fixed ++ [.array element])
    (hArray :
      rt.classes.isAssignable (.array component)
        (.array element) = true)
    {count : Nat}
    (hSlots :
      ¬Admissible (fixed ++ List.replicate count component))
    (s : State) :
    ∃ e, t.asCollector rt (.array component) count s =
      .error e s := by
  rw [asCollector_eq hParams hArray]
  cases hBuild :
      Signature.build t.ret
        (fixed ++ List.replicate count component) with
  | ok sig =>
      have hAdmissible := sig.admissible
      rw [(Signature.params_of_build hBuild).1] at hAdmissible
      exact absurd hAdmissible hSlots
  | error e => exact ⟨_, rfl⟩

theorem asCollector_made
    (hChecking : rt.compile = .checking)
    (hSound : s.Sound rt c)
    (ht : t ∈ c.made)
    (hParams : t.params = fixed ++ [.array element])
    (hArray :
      rt.classes.isAssignable (.array component)
        (.array element) = true)
    {count : Nat}
    (hSlots :
      Admissible (fixed ++ List.replicate count component)) :
    ∃ x s',
      t.asCollector rt (.array component) count s = .ok x s' ∧
        State.Grown rt c s (c.addNode x) s' ∧
        x.Is ⟨_, t.ret, hSlots⟩ (.collect t component count) := by
  rw [asCollector_eq hParams hArray,
    Signature.build_of_admissible t.ret hSlots]
  exact hSound.build_ok hChecking _ (Catalog.all_one ht)

/- Without a signature there is no call type. -/
theorem callType_refused
    (hTypes :
      ¬Admissible (List.zipWith slotType args t.params)) :
    t.callType args = Run.fault (.arguments t.signature args) := by
  unfold callType
  split
  · rfl
  · cases hBuild :
        Signature.build t.ret (List.zipWith slotType args t.params)
      with
    | ok sig =>
        have hAdmissible := sig.admissible
        rw [(Signature.params_of_build hBuild).1] at hAdmissible
        exact absurd hAdmissible hTypes
    | error e => rfl

end Target

end Linkage
