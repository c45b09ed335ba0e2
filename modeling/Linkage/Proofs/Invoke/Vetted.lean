import Linkage.Proofs.Invoke.Calls
import Linkage.Proofs.Invoke.Moments

/-
  Vetted runs.  A vetted run stops outside as soon as a target
  is entered that is not as it should be.  Otherwise it goes
  as the run that is not vetted.  A run from a known state
  that is in line with signatures never stops outside; so all
  that is entered in it is as every listed target is.

  Key definitions include:
    * `Moment.AllEntered`
    * `enterVetted`
    * `Vets`
    * `Entry.InLine`

  Key theorems include:
    * `Course.vets`
    * `entering_enterVetted`
    * `Entry.allEntered`
-/

------------------------------------------------------------
-- Vetting
------------------------------------------------------------

namespace Linkage

open Moment

/- What holds of targets and the arguments they get. -/
abbrev Vetting :=
  Target → List Value → Prop

/- It holds of all that is entered. -/
def Moment.AllEntered
    (P : Vetting)
    (ms : List Moment) : Prop :=
  ∀ t args, event (.entered t args) ∈ ms → P t args

variable {α : Type}
variable {P : Vetting}
variable {rt : Runtime}
variable {ms ns : List Moment}

namespace Moment.AllEntered

theorem append
    (hLeft : AllEntered P ms)
    (hRight : AllEntered P ns) :
    AllEntered P (ms ++ ns) := by
  intro t args hMem
  rcases List.mem_append.1 hMem with hOld | hNew
  · exact hLeft t args hOld
  · exact hRight t args hNew

theorem left
    (hAll : AllEntered P (ms ++ ns)) :
    AllEntered P ms := by
  intro t args hMem
  exact hAll t args (List.mem_append_left ns hMem)

theorem right
    (hAll : AllEntered P (ms ++ ns)) :
    AllEntered P ns := by
  intro t args hMem
  exact hAll t args (List.mem_append_right ms hMem)

theorem failed (e : Halt) :
    AllEntered P [failed e] := by
  intro t args hMem
  cases List.mem_singleton.1 hMem

theorem failureOf
    (r : EStateM.Result Halt State α) :
    AllEntered P (failureOf r) := by
  cases r with
  | ok a s => exact nofun
  | error e s => exact failed e

theorem cons
    {e : Event}
    (hEvent : ∀ t args, e = .entered t args → P t args)
    (hRest : AllEntered P ms) :
    AllEntered P (event e :: ms) := by
  intro t args hMem
  rcases List.mem_cons.1 hMem with hEq | hOld
  · cases hEq
    exact hEvent t args rfl
  · exact hRest t args hOld

end Moment.AllEntered

open Classical in
/- Enter a target through a stub, and vet it and all else. -/
noncomputable def enterVetted
    (P : Vetting)
    (rt : Runtime) : Nat → Stub → Enter
| 0, _, _, _ => throw .unfinished
| n + 1, stub, t, args =>
    if P t args then do
      modify (fun s => s.log (.entered t args))
      if args.length = stub.arity then
        t.behave rt (fun u => enterVetted P rt n u.stub u) args
      else Run.fault (wrongCount stub args)
    else throw .outside

/-
  A vetted result is that of the run that is not vetted, in
  which all that was entered is as it should be; or the run
  stopped outside.
-/
def Vets
    (P : Vetting)
    (vetted plain : EStateM.Result Halt State α)
    (ms : List Moment) : Prop :=
  (vetted = plain ∧ AllEntered P ms) ∨
    ∃ s, vetted = .error .outside s

theorem Vets.own
    {r : EStateM.Result Halt State α}
    (hEntered : AllEntered P ms) :
    Vets P r r ms :=
  Or.inl ⟨rfl, hEntered⟩

variable {m : Enter → Run α}
variable {enter enter' : Enter}
variable {telling : Telling}

/- What stops outside is not caught. -/
theorem Course.vets
    (hEnter :
      ∀ t args s,
        Vets P (enter' t args s) (enter t args s)
          (telling t args s))
    (c : Course rt α m)
    (s : State) :
    Vets P (m enter' s) (m enter s)
      (c.moments enter telling s) := by
  induction c generalizing s with
  | own m hSilent => exact .own (.failureOf _)
  | call code args => exact .own (.cons nofun (.failureOf _))
  | allocate n => exact .own (.cons nofun (.failureOf _))
  | enter t args => exact hEnter t args s
  | @bind _ _ m f first rest ihFirst ihRest =>
      change
        Vets P (EStateM.bind (m enter') (f enter') s)
          (EStateM.bind (m enter) (f enter) s) _
      unfold EStateM.bind
      rcases ihFirst s with ⟨hSame, hEntered⟩ | ⟨s', hOutside⟩
      · rw [hSame]
        cases hRun : m enter s with
        | ok b s' =>
            rw [moments_bind_ok hRun]
            rcases ihRest b s' with ⟨hRest, hLater⟩ | hOutside
            · exact Or.inl ⟨hRest, hEntered.append hLater⟩
            · exact Or.inr hOutside
        | error e s' =>
            rw [moments_bind_error hRun]
            exact .own hEntered
      · rw [hOutside]
        exact Or.inr ⟨s', rfl⟩
  | @holding _ m rs inner ih =>
      unfold moments
      dsimp only
      unfold Run.holding
      rcases ih { s with held := rs ++ s.held } with
        ⟨hSame, hEntered⟩ | ⟨s', hOutside⟩
      · rw [hSame]
        exact .own hEntered
      · rw [hOutside]
        exact Or.inr ⟨_, rfl⟩
  | @catching _ m handler caught inner rest ihInner ihRest =>
      unfold moments
      dsimp only
      unfold Run.catching
      rcases ihInner s with ⟨hSame, hEntered⟩ | ⟨s', hOutside⟩
      · rw [hSame]
        cases m enter s with
        | ok a s' =>
            dsimp only
            rw [List.append_nil]
            exact .own hEntered
        | error e s' =>
            cases e with
            | fault f =>
                dsimp only
                split
                · rcases ihRest f s' with ⟨hRest, hLater⟩ | hOutside
                  · exact Or.inl ⟨hRest, hEntered.append hLater⟩
                  · exact Or.inr hOutside
                · rw [List.append_nil]
                  exact .own hEntered
            | outside => exact Or.inr ⟨s', rfl⟩
            | unfinished =>
                dsimp only
                rw [List.append_nil]
                exact .own hEntered
      · rw [hOutside]
        exact Or.inr ⟨s', rfl⟩
  | same inner hSame ih =>
      rw [← hSame, ← hSame]
      exact ih s

theorem enterVetted_vets
    (n : Nat)
    (stub : Stub)
    (t : Target)
    (args : List Value)
    (s : State) :
    Vets P (enterVetted P rt n stub t args s)
      (enterStub rt n stub t args s)
      (momentsOf rt n stub t args s) := by
  induction n generalizing stub t args s with
  | zero => exact .own (.failed _)
  | succ n ih =>
      rw [enterStub_succ]
      unfold enterVetted momentsOf
      by_cases hVet : P t args
      · rw [if_pos hVet]
        change
          Vets P
            ((if args.length = stub.arity then
              t.behave rt (fun u => enterVetted P rt n u.stub u) args
            else Run.fault (wrongCount stub args))
              (s.log (.entered t args))) _ _
        have hEntered :
            ∀ u as, Event.entered t args = .entered u as → P u as := by
          intro u as hEq
          cases hEq
          exact hVet
        split
        · rcases
            (Course.behave t args).vets (fun u => ih u.stub u)
              (s.log (.entered t args)) with
            ⟨hSame, hRest⟩ | hOutside
          · exact Or.inl ⟨hSame, .cons hEntered hRest⟩
          · exact Or.inr hOutside
        · exact .own (.cons hEntered (.failed _))
      · rw [if_neg hVet]
        exact Or.inr ⟨s, rfl⟩

------------------------------------------------------------
-- Vetted Runs That Are in Line
------------------------------------------------------------

variable {base : List Event}
variable {c : Catalog}
variable {t : Target}
variable {args : List Value}

/- Every listed target is as it should be. -/
def Vetting.Lists
    (P : Vetting)
    (rt : Runtime) : Prop :=
  ∀ (c : Catalog) t args,
    c.Fits rt → c.Valid rt → t ∈ c.made →
      args.length = t.count → P t args

theorem orderly_enterVetted
    {n : Nat}
    {stub : Stub}
    (hHost : rt.host.MakesNoTargets)
    (hLists : P.Lists rt)
    (hEnter :
      Entering True rt base (fun u => enterVetted P rt n u.stub u))
    (ht : t ∈ c.made)
    (hArity : t.stub.arity = t.count)
    (hStub : stub.arity = t.count)
    (hCount : args.length = t.count) :
    Orderly True rt base c (enterVetted P rt (n + 1) stub t args)
      (fun _ => True) := by
  apply Orderly.known
  intro hFits hValid
  unfold enterVetted
  rw [if_pos (hLists c t args hFits hValid ht hCount)]
  exact
    Entering.counting hHost hEnter ht (fun _ => hArity)
      (fun _ => hStub) (fun _ => hCount)

theorem entering_enterVetted
    (hHost : rt.host.MakesNoTargets)
    (hCompile : rt.compile = .checking)
    (hLists : P.Lists rt)
    (n : Nat) :
    Entering True rt base (fun u => enterVetted P rt n u.stub u) := by
  induction n with
  | zero =>
      intro c t args _ _
      exact Orderly.unfinished
  | succ n ih =>
      intro c t args ht hCount
      apply Orderly.known
      intro _ hValid
      have hArity : t.stub.arity = t.count :=
        (hValid.serves t ht).arity_eq hCompile
      exact
        orderly_enterVetted hHost hLists ih ht hArity hArity
          (hCount trivial)

namespace Entry

/-
  The call has as many arguments as there are parameters, if
  nobody else counts them.
-/
def InLine
    (t : Target)
    (args : List Value) : Entry → Prop
| way .interpret => args.length = t.count
| way _ => True
| .stub c => c.arity = t.count ∧ args.length = t.count

end Entry

theorem Way.orderly
    {enter : Enter}
    {w : Way}
    (hHost : rt.host.MakesNoTargets)
    (hEnter : Entering True rt base enter)
    (ht : t ∈ c.made)
    (hInLine : (Entry.way w).InLine t args) :
    Orderly True rt base c (w.run rt enter t args)
      (fun _ => True) := by
  cases w with
  | exact => exact hEnter.invokeExact ht
  | flexible => exact hEnter.invokeFlexibly ht
  | exactTyped sig => exact hEnter.invokeExactTyped ht
  | typed sig => exact hEnter.invokeTyped ht
  | interpret => exact hEnter.behave hHost ht (fun _ => hInLine)

/- It holds of the node that is called, too. -/
theorem Moment.AllEntered.story
    {fuel : Nat}
    {s : State}
    {x : Entry}
    (hEntered : AllEntered P (x.moments rt fuel t args s))
    (hRoot : P t args) :
    AllEntered P (x.story rt fuel t args s) := by
  cases x with
  | stub k => exact hEntered
  | way w =>
      cases w with
      | interpret =>
          apply AllEntered.cons _ hEntered
          intro u as hEq
          cases hEq
          exact hRoot
      | _ => exact hEntered

/-
  All that is entered in a call of a listed target is as every
  listed target is.
-/
theorem Entry.allEntered
    {fuel : Nat}
    {s : State}
    {x : Entry}
    (hHost : rt.host.MakesNoTargets)
    (hCompile : rt.compile = .checking)
    (hLists : P.Lists rt)
    (hFits : c.Fits rt)
    (hSound : s.Sound rt c)
    (ht : t ∈ c.made)
    (hInLine : x.InLine t args) :
    AllEntered P (x.moments rt fuel t args s) := by
  have hKnown :
      Known rt (CountedSince True s.trace) c s :=
    ⟨hFits, hSound, fun _ _ _ => Or.inl⟩
  have hEnter :
      ∀ n, Entering True rt s.trace
        (fun u => enterVetted P rt n u.stub u) :=
    entering_enterVetted hHost hCompile hLists
  have hNever :
      ∀ {m : Run Value} {plain},
        Orderly True rt s.trace c m (fun _ => True) →
          Vets P (m s) plain (x.moments rt fuel t args s) →
            AllEntered P (x.moments rt fuel t args s) := by
    intro m plain hOrderly hVets
    rcases hVets with ⟨_, hEntered⟩ | ⟨s', hOutside⟩
    · exact hEntered
    · have hLeaves := hOrderly s hKnown
      rw [hOutside] at hLeaves
      rcases hLeaves with ⟨_, _, _, hProper⟩
      exact absurd rfl (hProper trivial).1
  cases x with
  | way w =>
      apply hNever (Way.orderly hHost (hEnter fuel) ht hInLine)
      exact
        (w.course t args).vets
          (fun u => enterVetted_vets fuel u.stub u) s
  | stub k =>
      refine hNever ?_ (enterVetted_vets fuel k t args s)
      cases fuel with
      | zero => exact Orderly.unfinished
      | succ n =>
          exact
            orderly_enterVetted hHost hLists (hEnter n) ht
              ((hSound.valid.serves t ht).arity_eq hCompile)
              hInLine.1 hInLine.2

end Linkage
