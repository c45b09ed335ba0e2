import Linkage.Proofs.Link.Adapters
import Linkage.Proofs.Stub.Arity

/-
  Counting arguments.  A form that fits a signature edits
  within an argument list that is as long as the signature
  has parameters.  Types play no role.  A host takes part by
  making no targets of its own; a fault that complains of too
  few arguments is told from all others by its text.

  Key definitions include:
    * `Form.InRange`
    * `Target.Counted`
    * `Host.MakesNoTargets`
    * `Fault.IsShortage`

  Key theorems include:
    * `Form.Fits.inRange`
    * `State.Sound.holds`
    * `Conversion.apply_not_isShortage`
    * `length_applyAll`
-/

------------------------------------------------------------
-- Arguments that Match
------------------------------------------------------------

namespace Linkage

/- Arguments match a signature one by one. -/
theorem Target.admits_iff
    {T : ClassTable}
    {sig : Signature}
    {args : List Value} :
    Target.admits T sig args = true ↔
      List.Forall₂ (fun v p => v.conforms T p = true) args
        sig.params := by
  unfold Target.admits
  simp only [Bool.and_eq_true, decide_eq_true_eq,
    List.all_eq_true]
  rw [List.forall₂_iff_zip]
  apply and_congr_right
  intro _
  constructor
  · intro hAll v p hMem
    exact hAll (v, p) hMem
  · rintro hAll ⟨v, p⟩ hMem
    exact hAll hMem

theorem Target.length_of_admits
    {T : ClassTable}
    {sig : Signature}
    {args : List Value}
    (hAdmits : Target.admits T sig args = true) :
    args.length = sig.count :=
  (Target.admits_iff.1 hAdmits).length_eq

------------------------------------------------------------
-- Argument Lists in Range
------------------------------------------------------------

/-
  What a form does to an argument list stays within the list.
  These are the conditions under which a behaviour does not
  complain of too few arguments, and no edit falls outside.
-/
def Form.InRange : Form Target → List Value → Prop
| .filterArguments _ pos fs, as => pos + fs.length ≤ as.length
| .collect _ _ count, as => count ≤ as.length
| .spread _ _, as => 0 < as.length
| .permute _ order, as => ∀ j ∈ order, j < as.length
| .insert _ pos _, as => pos ≤ as.length
| .drop _ pos count, as => pos + count ≤ as.length
| .fold _ combiner, as => combiner.count ≤ as.length
| .guard test _ _, as => test.count ≤ as.length
| .rescue _ _ handler, as => handler.count - 1 ≤ as.length
| .identity, as => 0 < as.length
| .invoker _ _, as => 0 < as.length
| _, _ => True

/-
  A target is entered with as many arguments as it has
  parameters, through a stub that takes as many, and its
  edits are in range.
-/
structure Target.Counted
    (t : Target)
    (args : List Value) : Prop where
  count : args.length = t.count
  arity : t.stub.arity = t.count
  inRange : t.form.InRange args

variable {rt : Runtime}
variable {sites : List Signature}
variable {sig : Signature}
variable {form : Form Target}
variable {args : List Value}

/- The sources of an order are parameters. -/
theorem lt_of_mem_order
    {ps ts : List Ty}
    {order : List Nat}
    {j : Nat}
    (hOrder :
      List.Forall₂ (fun j t => ps[j]? = some t) order ts)
    (hj : j ∈ order) :
    j < ps.length := by
  induction hOrder with
  | nil => cases hj
  | cons hHead _ ih =>
      rcases List.mem_cons.1 hj with rfl | hTail
      · exact (List.getElem?_eq_some_iff.1 hHead).1
      · exact ih hTail

/-
  A form that fits stays in range on as many arguments as its
  signature has parameters.
-/
theorem Form.Fits.inRange
    (hFits : form.Fits rt sites sig)
    (hCount : args.length = sig.count) :
    form.InRange args := by
  unfold Signature.count at hCount
  cases hFits with
  | method _ _ _ _ _ hCalls =>
      cases hCalls with
      | _ => trivial
  | filterArguments hFiltered _ =>
      change _ ≤ args.length
      rw [hCount, hFiltered.length_eq]
      exact hFiltered.within
  | collect _ hSig _ _ =>
      change _ ≤ args.length
      rw [hCount, hSig, List.length_append,
        List.length_replicate]
      exact Nat.le_add_left _ _
  | spread _ hSig _ =>
      change 0 < args.length
      rw [hCount, hSig, List.length_append]
      exact Nat.succ_pos _
  | permute hOrder _ =>
      intro j hj
      rw [hCount]
      exact lt_of_mem_order hOrder hj
  | insert hPos _ _ _ =>
      change _ ≤ args.length
      rw [hCount]
      exact hPos
  | drop hPos hParams hTypes _ =>
      change _ ≤ args.length
      have hTake := List.length_take_of_le hPos
      unfold Target.params at hParams
      rw [hCount, hParams, List.append_assoc,
        List.length_append, List.length_append, hTypes, hTake]
      omega
  | fold _ hLeading _ =>
      change _ ≤ args.length
      rw [hCount]
      exact hLeading.length_le
  | guard _ hLeading _ _ =>
      change _ ≤ args.length
      rw [hCount]
      exact hLeading.length_le
  | rescue _ _ hHandler hLeading _ =>
      change _ - 1 ≤ args.length
      unfold Target.count Signature.count
      change List.length (Target.params _) - 1 ≤ _
      rw [hCount, hHandler, List.length_cons,
        Nat.add_sub_cancel]
      exact hLeading.length_le
  | identity hParams =>
      change 0 < args.length
      rw [hCount, hParams]
      exact Nat.succ_pos _
  | invoker hParams _ =>
      change 0 < args.length
      rw [hCount, hParams]
      exact Nat.succ_pos _
  | _ => trivial

------------------------------------------------------------
-- Hosts
------------------------------------------------------------

/- A target is one that another delegates to, or itself. -/
inductive Target.Within : Target → Target → Prop
| refl (t : Target) : Within t t
| step {t u v : Target} :
    t.Within u →
    u ∈ v.wrapped →
    t.Within v

/- A heap has a handle of a target or of one around it. -/
def Heap.Holds
    (h : Heap)
    (t : Target) : Prop :=
  ∃ i u, h.at? i = some (.target u) ∧ t.Within u

/-
  The host makes no targets of its own: what it makes handles
  of are targets that it can reach through given handles.
-/
structure Host.MakesNoTargets (H : Host) : Prop where
  call :
    ∀ code args h i t,
      (H.call code args h).2.at? i = some (.target t) →
        h.Holds t
  allocate :
    ∀ n h r h' i t,
      H.allocate n h = some (r, h') →
        h'.at? i = some (.target t) → h.Holds t

/- A fault that says that there are too few arguments. -/
def Fault.IsShortage (f : Fault) : Prop :=
  ∃ sig n, f = .tooFew sig n

/- The host never answers that there are too few arguments. -/
structure Host.NeverShort (H : Host) : Prop where
  call :
    ∀ code args h f,
      (H.call code args h).1 = .error f → ¬f.IsShortage
  allocate :
    ∀ n h f h',
      H.allocate n h = some (.error f, h') → ¬f.IsShortage

/- What a listed target delegates to is listed. -/
theorem Catalog.Valid.within
    {c : Catalog}
    {t u : Target}
    (hValid : c.Valid rt)
    (hWithin : t.Within u)
    (hu : u ∈ c.made) :
    t ∈ c.made := by
  induction hWithin with
  | refl => exact hu
  | step _ hMem ih => exact ih (hValid.closed _ hu _ hMem)

theorem State.Sound.holds
    {c : Catalog}
    {s : State}
    {t : Target}
    (hSound : s.Sound rt c)
    (hHolds : s.heap.Holds t) :
    t ∈ c.made := by
  rcases hHolds with ⟨i, u, hAt, hWithin⟩
  exact hSound.valid.within hWithin (hSound.handles i u hAt)

------------------------------------------------------------
-- Faults that are no Shortages
------------------------------------------------------------

namespace Fault

variable {e f : String}

/- A mismatch against a name that is no signature. -/
theorem not_isShortage_of_expected
    (hExpected : e.toList.head? ≠ some '(') :
    ¬(Fault.typeMismatch e f).IsShortage := by
  rintro ⟨sig, n, hEq⟩
  cases hEq
  apply hExpected
  simp [Signature.text]

/- A mismatch that does not speak of fewer arguments. -/
theorem not_isShortage_of_found
    (hFound : f.toList.take 3 ≠ ['f', 'e', 'w']) :
    ¬(Fault.typeMismatch e f).IsShortage := by
  rintro ⟨sig, n, hEq⟩
  cases hEq
  apply hFound
  simp

theorem arguments_not_isShortage
    (sig : Signature)
    (vs : List Value) :
    ¬(Fault.arguments sig vs).IsShortage := by
  apply not_isShortage_of_found
  simp [argumentsText]

theorem callType_not_isShortage
    (wanted found : Signature) :
    ¬(Fault.callType wanted found).IsShortage := by
  apply not_isShortage_of_found
  simp [Signature.text]

/- The type of a value that is no object is a kind, or null. -/
theorem typeText_not_isShortage
    {v : Value}
    (hPlain : v.object? = none) :
    ¬(Fault.typeMismatch e v.typeText).IsShortage := by
  apply not_isShortage_of_found
  cases v with
  | void => decide
  | null => decide
  | prim p =>
      change p.kind.name.toList.take 3 ≠ _
      cases p.kind <;> decide
  | ref o => cases hPlain

/- Only mismatches are shortages. -/
theorem not_isShortage_of_ne
    {f : Fault}
    (hNe : ∀ e g, f ≠ .typeMismatch e g) :
    ¬f.IsShortage := by
  rintro ⟨sig, n, hEq⟩
  exact hNe _ _ hEq

theorem kind_not_isShortage
    (k : Kind) :
    ¬(Fault.typeMismatch k.name f).IsShortage := by
  apply not_isShortage_of_expected
  cases k <;> decide

end Fault

/- No conversion complains of too few arguments. -/
theorem Conversion.apply_not_isShortage
    {T : ClassTable}
    {c : Conversion}
    {v : Value}
    {h : Heap}
    {f : Fault}
    (hApply : (c.apply T v h).1 = .error f) :
    ¬f.IsShortage := by
  cases apply_fails hApply with
  | kind k _ => exact Fault.kind_not_isShortage k
  | unboxed _ =>
      exact Fault.not_isShortage_of_expected (by decide)
  | plain _ hPlain => exact Fault.typeText_not_isShortage hPlain
  | null _ => exact Fault.not_isShortage_of_ne nofun
  | cast _ _ => exact Fault.not_isShortage_of_ne nofun

/- Conversions of arguments add no handles to the heap. -/
theorem Conversion.apply_holds
    {T : ClassTable}
    {c : Conversion}
    {v : Value}
    {h : Heap}
    {i : Nat}
    {t : Target}
    (hAt : (c.apply T v h).2.at? i = some (.target t)) :
    h.at? i = some (.target t) := by
  rcases Conversion.apply_heap T c v h with hEq | ⟨p, hEq⟩
  · rw [hEq] at hAt
    exact hAt
  · rw [hEq] at hAt
    exact Heap.at?_allocBox_target hAt

theorem applyAll_holds
    {T : ClassTable}
    {cs : List Conversion}
    {vs : List Value}
    {h : Heap}
    {i : Nat}
    {t : Target}
    (hAt : (applyAll T cs vs h).2.at? i = some (.target t)) :
    h.at? i = some (.target t) := by
  induction cs generalizing vs h with
  | nil => exact hAt
  | cons c cs ih =>
      cases vs with
      | nil => exact hAt
      | cons v vs =>
          unfold applyAll at hAt
          split at hAt
          · rename_i hApply
            apply Conversion.apply_holds (T := T)
            rw [hApply]
            exact hAt
          · rename_i w h' hApply
            have hRest :
                (applyAll T cs vs h').2.at? i =
                  some (.target t) := by
              split at hAt
              · rename_i hAll
                rw [hAll]
                exact hAt
              · rename_i hAll
                rw [hAll]
                exact hAt
            have hFirst := ih hRest
            apply Conversion.apply_holds (T := T)
            rw [hApply]
            exact hFirst

theorem applyAll_not_isShortage
    {T : ClassTable}
    {cs : List Conversion}
    {vs : List Value}
    {h : Heap}
    {f : Fault}
    (hApply : (applyAll T cs vs h).1 = .error f) :
    ¬f.IsShortage := by
  induction cs generalizing vs h with
  | nil => cases hApply
  | cons c cs ih =>
      cases vs with
      | nil => cases hApply
      | cons v vs =>
          unfold applyAll at hApply
          split at hApply
          · rename_i hFirst
            cases hApply
            apply Conversion.apply_not_isShortage (T := T)
            rw [hFirst]
          · split at hApply
            · rename_i hRest
              cases hApply
              apply ih
              rw [hRest]
            · cases hApply

/- As many values as there are pairs come out. -/
theorem length_applyAll
    {T : ClassTable}
    {cs : List Conversion}
    {vs ws : List Value}
    {h : Heap}
    (hApply : (applyAll T cs vs h).1 = .ok ws) :
    ws.length = min cs.length vs.length := by
  induction cs generalizing vs ws h with
  | nil =>
      cases hApply
      simp
  | cons c cs ih =>
      cases vs with
      | nil =>
          cases hApply
          simp
      | cons v vs =>
          unfold applyAll at hApply
          split at hApply
          · cases hApply
          · split at hApply
            · cases hApply
            · rename_i hRest
              cases hApply
              rw [List.length_cons, List.length_cons,
                List.length_cons, Nat.add_min_add_right]
              congr 1
              apply ih
              rw [hRest]

end Linkage
