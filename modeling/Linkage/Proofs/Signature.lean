import Linkage.Signature

/-
  What the derivations of signatures give.  A derivation that
  succeeds gives the parameters it is named for, and leaves
  the result type as it is.  Without a `void` parameter only
  the slots decide if there is a signature.

  Key theorems include:
    * `paramsError?_eq_none_iff`
    * `Signature.build_of_admissible`
    * `Signature.build_of_slots_lt`
    * `Signature.of_setParam`
    * `Signature.of_insertParams`
    * `Signature.appendParams_eq`
    * `Signature.of_appendParams`
    * `Signature.of_dropParams`
    * `Signature.dropParams_ok`
-/

------------------------------------------------------------
-- Derivations
------------------------------------------------------------

namespace Linkage

theorem slotCount_append (ps qs : List Ty) :
    slotCount (ps ++ qs) = slotCount ps + slotCount qs := by
  simp [slotCount]

theorem admissible_object : Admissible [.object] :=
  ⟨by decide, by decide⟩

/- Without a `void` parameter only the slots are checked. -/
theorem paramsError?_of_noVoid
    {ps : List Ty}
    (hNoVoid : ∀ p ∈ ps, p.IsVoid = false) :
    paramsError? ps =
      if slotCount ps ≤ maxSlots
      then none
      else some (.tooManyParameters (slotCount ps)) := by
  have hVoid : firstVoid? ps = none :=
    List.findIdx?_eq_none_iff.2 hNoVoid
  unfold paramsError?
  rw [hVoid]

/- The check passes the parameters that are admissible. -/
theorem paramsError?_eq_none_iff
    {ps : List Ty} :
    paramsError? ps = none ↔ Admissible ps := by
  constructor
  · exact admissible_of_paramsError?
  · intro hAdmissible
    rw [paramsError?_of_noVoid hAdmissible.noVoid]
    exact if_pos hAdmissible.slots_le

namespace Signature

variable {s s' : Signature}

/- A signature is told by its parameters and its result. -/
theorem eq_of_parts
    (hParams : s.params = s'.params)
    (hRet : s.ret = s'.ret) :
    s = s' := by
  cases s
  cases s'
  cases hParams
  cases hRet
  rfl

/- Admissible parameters make a signature. -/
theorem build_of_admissible
    {ps : List Ty}
    (ret : Ty)
    (h : Admissible ps) :
    build ret ps = .ok ⟨ps, ret, h⟩ := by
  cases hBuild : build ret ps with
  | ok s =>
      rcases params_of_build hBuild with ⟨hParams, hRet⟩
      exact congrArg Except.ok (eq_of_parts hParams hRet)
  | error e =>
      have hError := build_eq_error_iff.1 hBuild
      rw [paramsError?_eq_none_iff.2 h] at hError
      cases hError

theorem build_of_slots_lt
    {ps : List Ty}
    (ret : Ty)
    (hNoVoid : ∀ p ∈ ps, p.IsVoid = false)
    (hSlots : maxSlots < slotCount ps) :
    build ret ps = .error (.tooManyParameters (slotCount ps)) := by
  apply build_eq_error_iff.2
  rw [paramsError?_of_noVoid hNoVoid]
  exact if_neg (Nat.not_le_of_lt hSlots)

theorem of_setParam
    {i : Nat}
    {t : Ty}
    (h : s.setParam i t = .ok s') :
    i < s.count ∧ s'.params = s.params.set i t ∧
      s'.ret = s.ret := by
  unfold setParam at h
  split at h
  · rename_i hi
    have hBuild := params_of_build h
    exact ⟨hi, hBuild.1, hBuild.2⟩
  · cases h

theorem of_insertParams
    {pos : Nat}
    {ts : List Ty}
    (h : s.insertParams pos ts = .ok s') :
    pos ≤ s.count ∧
      s'.params =
        s.params.take pos ++ ts ++ s.params.drop pos ∧
      s'.ret = s.ret := by
  unfold insertParams at h
  split at h
  · rename_i hPos
    have hBuild := params_of_build h
    exact ⟨hPos, hBuild.1, hBuild.2⟩
  · cases h

/- Appending makes a signature of all the parameters. -/
theorem appendParams_eq
    (s : Signature)
    (ts : List Ty) :
    s.appendParams ts = build s.ret (s.params ++ ts) := by
  unfold appendParams insertParams
  rw [if_pos (Nat.le_refl _), count, List.take_length,
    List.drop_length, List.append_nil]

theorem of_appendParams
    {ts : List Ty}
    (h : s.appendParams ts = .ok s') :
    s'.params = s.params ++ ts ∧ s'.ret = s.ret := by
  rw [appendParams_eq] at h
  exact params_of_build h

theorem of_dropParams
    {start stop : Nat}
    (h : s.dropParams start stop = .ok s') :
    start ≤ stop ∧ stop ≤ s.count ∧
      s'.params = s.params.take start ++ s.params.drop stop ∧
      s'.ret = s.ret := by
  unfold dropParams at h
  split at h
  · cases h
  · rename_i hStop
    split at h
    · cases h
    · rename_i hStart
      have hBuild := params_of_build h
      exact
        ⟨Nat.le_of_not_lt hStart, Nat.le_of_not_lt hStop,
          hBuild.1, hBuild.2⟩

/- Without its first parameter a signature is the rest. -/
theorem of_dropFirst
    (h : s.dropParams 0 1 = .ok s') :
    ∃ p, s.params = p :: s'.params ∧ s'.ret = s.ret := by
  rcases of_dropParams h with ⟨_, hStop, hParams, hRet⟩
  unfold count at hStop
  cases hs : s.params with
  | nil =>
      rw [hs] at hStop
      cases hStop
  | cons p ps =>
      rw [hs] at hParams
      refine ⟨p, ?_, hRet⟩
      rw [hParams]
      rfl

/- A signature can do without any of its parameters. -/
theorem dropParams_ok
    {start stop : Nat}
    (hStart : start ≤ stop)
    (hStop : stop ≤ s.count) :
    ∃ s',
      s.dropParams start stop = .ok s' ∧
        s'.params = s.params.take start ++ s.params.drop stop ∧
        s'.ret = s.ret := by
  have hAfter :
      (s.params.drop start).drop (stop - start) =
        s.params.drop stop := by
    rw [List.drop_drop, Nat.add_sub_cancel' hStart]
  have hSplit :
      s.params.take start ++
          ((s.params.drop start).take (stop - start) ++
            s.params.drop stop) =
        s.params := by
    rw [← hAfter, List.take_append_drop, List.take_append_drop]
  have hAdmissible :
      Admissible (s.params.take start ++ s.params.drop stop) := by
    refine ⟨?_, ?_⟩
    · intro q hq
      apply s.admissible.noVoid
      rcases List.mem_append.1 hq with hBefore | hRest
      · exact List.mem_of_mem_take hBefore
      · exact List.mem_of_mem_drop hRest
    · have hSlots := s.admissible.slots_le
      rw [← hSplit, slotCount_append, slotCount_append] at hSlots
      rw [slotCount_append]
      omega
  refine ⟨⟨_, s.ret, hAdmissible⟩, ?_, rfl, rfl⟩
  unfold dropParams
  rw [if_neg (Nat.not_lt.2 hStop), if_neg (Nat.not_lt.2 hStart)]
  exact build_of_admissible s.ret hAdmissible

/- The last parameter is one of them. -/
theorem dropParams_last
    {ps : List Ty}
    {p : Ty}
    (hParams : s.params = ps ++ [p]) :
    ∃ s',
      s.dropParams (s.count - 1) s.count = .ok s' ∧
        s'.params = ps ∧ s'.ret = s.ret := by
  have hCount : s.count = ps.length + 1 := by
    rw [count, hParams, List.length_append]
    rfl
  have hRest :
      s.params.take (s.count - 1) ++ s.params.drop s.count = ps := by
    rw [hCount, hParams, Nat.add_sub_cancel, List.take_left,
      List.drop_eq_nil_of_le (by simp), List.append_nil]
  rcases dropParams_ok (Nat.sub_le s.count 1) (Nat.le_refl _) with
    ⟨s', hOk, hParams', hRet⟩
  exact ⟨s', hOk, hParams'.trans hRest, hRet⟩

end Signature

end Linkage
