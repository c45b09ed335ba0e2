import Linkage.Proofs.Invoke.Moments

/-
  Receivers of host code.  When a node for an instance method
  is entered, the next moment of the run is the call of the
  host, on a receiver that is an object, or the refusal of
  the receiver.  Only a node that calls through an interface
  looks at the class of the receiver; the others pass on what
  they are entered with.

  Key definitions include:
    * `Form.method?`
    * `Fault.Refuses`
    * `Attended`

  Key theorems include:
    * `Course.attended`
    * `Entry.attended`
-/

------------------------------------------------------------
-- Nodes for Instance Methods
------------------------------------------------------------

namespace Linkage

open Moment

/- The instance method that a form calls. -/
def Form.method?
    {α : Type} : Form α → Option Method
| .direct m .isVirtual _ => some m
| .direct m .isInterface _ => some m
| .direct m .isSpecial _ => some m
| .virtual m _ => some m
| .interface m _ => some m
| _ => none

/- A fault that says what is wrong with a receiver. -/
inductive Fault.Refuses : Fault → Prop
| null (text : String) : Refuses (.nullReference text)
| mismatch (expected found : String) :
    Refuses (.typeMismatch expected found)
| cast (found : String) (target : Ty) :
    Refuses (.castError found target)

/-
  What comes next when a node for an instance method is
  entered: the host is called on a receiver, which has the
  class of the method if the node calls through an interface;
  the receiver is refused; or there is no code for it.
-/
inductive Attends
    (rt : Runtime)
    (t : Target)
    (m : Method)
    (args : List Value) : List Moment → Prop
| called
    {o : Obj} {rest : List Value} {code : Code} {h : Heap}
    {ms : List Moment}
    (hArgs : args = .ref o :: rest)
    (hClass :
      t.kind = .interfaceCall →
        rt.classes.isAssignable o.type (.cls m.declaring) = true) :
    Attends rt t m args (event (.called code args h) :: ms)
| refused
    {f : Fault} {ms : List Moment}
    (hRefuses : f.Refuses) :
    Attends rt t m args (failed (.fault f) :: ms)
| missing
    {o : Obj} {rest : List Value} {ms : List Moment}
    (hArgs : args = .ref o :: rest) :
    Attends rt t m args
      (failed (.fault (missingCode m o.type)) :: ms)

/- Every entry of a node for an instance method is attended to. -/
def Attended
    (rt : Runtime)
    (ms : List Moment) : Prop :=
  ∀ before t args after m,
    ms = before ++ event (.entered t args) :: after →
      t.form.method? = some m → Attends rt t m args after

variable {α : Type}
variable {rt : Runtime}
variable {t : Target}
variable {m : Method}
variable {args : List Value}
variable {ms ns : List Moment}
variable {enter : Enter}
variable {telling : Telling}
variable {s : State}

theorem Attends.append
    (hAttends : Attends rt t m args ms)
    (ns : List Moment) :
    Attends rt t m args (ms ++ ns) := by
  cases hAttends with
  | called hArgs hClass => exact .called hArgs hClass
  | refused hRefuses => exact .refused hRefuses
  | missing hArgs => exact .missing hArgs

namespace Attended

theorem nil : Attended rt [] := by
  intro before t args after m hEq
  simp at hEq

/- A moment at which nothing is entered. -/
theorem cons_other
    {x : Moment}
    (hOther : ∀ t args, x ≠ event (.entered t args))
    (hAttended : Attended rt ms) :
    Attended rt (x :: ms) := by
  intro before t args after m hEq hMethod
  cases before with
  | nil =>
      cases hEq
      exact absurd rfl (hOther t args)
  | cons y before =>
      cases hEq
      exact hAttended before t args after m rfl hMethod

theorem cons_entered
    (hNext :
      ∀ m, t.form.method? = some m → Attends rt t m args ms)
    (hAttended : Attended rt ms) :
    Attended rt (event (.entered t args) :: ms) := by
  intro before u as after m hEq hMethod
  cases before with
  | nil =>
      cases hEq
      exact hNext m hMethod
  | cons y before =>
      cases hEq
      exact hAttended before u as after m rfl hMethod

theorem append
    (hLeft : Attended rt ms)
    (hRight : Attended rt ns) :
    Attended rt (ms ++ ns) := by
  intro before t args after m hEq hMethod
  rcases List.append_eq_append_iff.1 hEq with
    ⟨mid, rfl, hNs⟩ | ⟨mid, rfl, hRest⟩
  · exact hRight mid t args after m hNs hMethod
  · cases mid with
    | nil =>
        rw [List.nil_append] at hRest
        exact hRight [] t args after m hRest.symm hMethod
    | cons x mid =>
        cases hRest
        exact (hLeft before t args mid m rfl hMethod).append ns

theorem failed (e : Halt) :
    Attended rt [failed e] :=
  cons_other nofun nil

theorem failureOf
    (r : EStateM.Result Halt State α) :
    Attended rt (failureOf r) := by
  cases r with
  | ok a s => exact nil
  | error e s => exact failed e

end Attended

/- On a course, entries are attended to where they are made. -/
theorem Course.attended
    {m : Enter → Run α}
    (hEnter : ∀ t args s, Attended rt (telling t args s))
    (c : Course rt α m)
    (s : State) :
    Attended rt (c.moments enter telling s) := by
  induction c generalizing s with
  | own m hSilent => exact .failureOf _
  | call code args => exact .cons_other nofun (.failureOf _)
  | allocate n => exact .cons_other nofun (.failureOf _)
  | enter t args => exact hEnter t args s
  | bind first rest ihFirst ihRest =>
      unfold moments
      apply (ihFirst s).append
      split
      · exact ihRest _ _
      · exact .nil
  | holding rs inner ih => exact ih _
  | catching caught inner rest ihInner ihRest =>
      unfold moments
      apply (ihInner s).append
      split
      · split
        · exact ihRest _ _
        · exact .nil
      · exact .nil
  | same inner hSame ih => exact ih s

------------------------------------------------------------
-- What a Node Does with Its Receiver
------------------------------------------------------------

/- The receiver is the first argument, or it is refused. -/
theorem receiverOf_cases
    (m : Method)
    (args : List Value)
    (s : State) :
    (∃ o rest,
      args = .ref o :: rest ∧ receiverOf m args s = .ok o s) ∨
    ∃ f, f.Refuses ∧ receiverOf m args s = .error (.fault f) s := by
  cases args with
  | nil => exact Or.inr ⟨_, .null _, rfl⟩
  | cons v rest =>
      cases v with
      | ref o => exact Or.inl ⟨o, rest, rfl, rfl⟩
      | null => exact Or.inr ⟨_, .null _, rfl⟩
      | void => exact Or.inr ⟨_, .mismatch _ _, rfl⟩
      | prim p => exact Or.inr ⟨_, .mismatch _ _, rfl⟩

/- First the receiver is read, and then the host is called. -/
theorem attends_receiver_bind
    {m : Method}
    {f : Obj → Enter → Run Value}
    {rest : ∀ o, Course rt Value (f o)}
    (hRest :
      ∀ o vs, args = .ref o :: vs →
        Attends rt t m args ((rest o).moments enter telling s)) :
    Attends rt t m args
      (Course.moments enter telling
        (.bind (.own (receiverOf m args) .receiverOf) rest :
          Course rt Value
            (fun enter => receiverOf m args >>= fun o => f o enter))
        s) := by
  rcases receiverOf_cases m args s with
    ⟨o, vs, hArgs, hRun⟩ | ⟨g, hRefuses, hRun⟩
  · rw [Course.moments_bind_ok hRun, Course.moments_own, hRun]
    exact hRest o vs hArgs
  · rw [Course.moments_bind_error hRun, Course.moments_own, hRun]
    exact .refused hRefuses

/-
  What a node for an instance method does next: it calls the
  host on its receiver, or it fails.
-/
theorem Course.attends_behave
    (hMethod : t.form.method? = some m) :
    Attends rt t m args
      ((behave t args : Course rt Value _).moments enter telling s) := by
  rcases t with ⟨i, sig, c, form⟩
  cases form with
  | direct meth how entry =>
      cases how with
      | isVirtual =>
          cases hMethod
          exact attends_receiver_bind
            (fun o vs hArgs => .called hArgs nofun)
      | isInterface =>
          cases hMethod
          exact attends_receiver_bind
            (fun o vs hArgs => .called hArgs nofun)
      | isSpecial =>
          cases hMethod
          exact attends_receiver_bind
            (fun o vs hArgs => .called hArgs nofun)
      | isStatic => cases hMethod
      | isConstructor => cases hMethod
  | virtual meth slot =>
      cases hMethod
      apply attends_receiver_bind
      intro o vs hArgs
      generalize rt.host.virtualEntry o.type slot = entry
      cases entry with
      | none => exact .missing hArgs
      | some code => exact .called hArgs nofun
  | interface meth slot =>
      cases hMethod
      apply attends_receiver_bind
      intro o vs hArgs
      unfold ite
      split
      · rename_i hClass
        unfold moments
        generalize
          rt.host.interfaceEntry o.type m.declaring slot = entry
        cases entry with
        | none => exact .missing hArgs
        | some code => exact .called hArgs (fun _ => hClass)
      · exact .refused (.cast _ _)
  | _ => cases hMethod

------------------------------------------------------------
-- Runs
------------------------------------------------------------

theorem attended_momentsOf
    (n : Nat)
    (stub : Stub)
    (t : Target)
    (args : List Value)
    (s : State) :
    Attended rt (momentsOf rt n stub t args s) := by
  induction n generalizing stub t args s with
  | zero => exact .failed _
  | succ n ih =>
      unfold momentsOf
      split
      · apply Attended.cons_entered
        · intro m hMethod
          exact Course.attends_behave hMethod
        · exact Course.attended (fun u => ih u.stub u) _ _
      · apply Attended.cons_entered
        · intro m _
          exact .refused (.mismatch _ _)
        · exact .failed _

namespace Entry

theorem attended
    {fuel : Nat}
    (x : Entry)
    (s : State) :
    Attended rt (x.story rt fuel t args s) := by
  have hCourse (w : Way) :
      Attended rt ((way w).moments rt fuel t args s) :=
    (w.course t args).attended
      (fun u => attended_momentsOf fuel u.stub u) s
  cases x with
  | stub c => exact attended_momentsOf fuel c t args s
  | way w =>
      cases w with
      | interpret =>
          apply Attended.cons_entered
          · intro m hMethod
            exact Course.attends_behave hMethod
          · exact hCourse .interpret
      | _ => exact hCourse _

end Entry

end Linkage
