import Linkage.Proofs.Invoke.Silent

/-
  The course of an operation: what it does step by step.  A
  step is an operation of the node's own, a call of the host,
  or the entry of a target, whichever way targets are
  entered.  Every behaviour has a course, and so has every
  way of calling; what is to be said of all of them is said
  of courses, with one case for each sort of step.

  Key definitions include:
    * `Course`
    * `Course.Straight`
    * `Course.behave`
    * `Course.invokeFlexibly`

  Key theorems include:
    * `Course.straight_behave`
    * `Course.sites_eq`
-/

------------------------------------------------------------
-- Courses
------------------------------------------------------------

namespace Linkage

/- Run, and run a handler after a fault of a class. -/
def Run.catching
    {α : Type}
    (T : ClassTable)
    (caught : ClassName)
    (m : Run α)
    (handler : Fault → Run α) : Run α :=
  fun s =>
    match m s with
    | .error (.fault f) s' =>
        if f.isInstance T caught then handler f s'
        else .error (.fault f) s'
    | r => r

/-
  The course of an operation that may enter targets.  It is
  bound to the operation itself: there is no course that does
  anything else.
-/
inductive Course
    (rt : Runtime) :
    (α : Type) → (Enter → Run α) → Type 1
| own
    {α : Type} (m : Run α) (hSilent : Silent m) :
    Course rt α (fun _ => m)
| call (code : Code) (args : List Value) :
    Course rt Value (fun _ => Run.call rt code args)
| allocate (n : ClassName) :
    Course rt Obj (fun _ => Run.allocate rt n)
| enter (t : Target) (args : List Value) :
    Course rt Value (fun enter => enter t args)
| bind
    {α β : Type} {m : Enter → Run β} {f : Enter → β → Run α}
    (first : Course rt β m)
    (rest : ∀ b, Course rt α (fun enter => f enter b)) :
    Course rt α (fun enter => m enter >>= f enter)
| holding
    {α : Type} {m : Enter → Run α} (rs : List Root)
    (inner : Course rt α m) :
    Course rt α (fun enter => Run.holding rs (m enter))
| catching
    {α : Type} {m : Enter → Run α}
    {handler : Enter → Fault → Run α} (caught : ClassName)
    (inner : Course rt α m)
    (rest : ∀ f, Course rt α (fun enter => handler enter f)) :
    Course rt α
      (fun enter =>
        Run.catching rt.classes caught (m enter) (handler enter))
| same
    {α : Type} {m n : Enter → Run α}
    (inner : Course rt α m)
    (hSame : ∀ enter, m enter = n enter) :
    Course rt α n

namespace Course

variable {α β : Type}
variable {rt : Runtime}
variable {m n : Enter → Run α}

/- No fault is caught on the way. -/
def Straight :
    {α : Type} → {m : Enter → Run α} → Course rt α m → Prop
| _, _, own _ _ => True
| _, _, call _ _ => True
| _, _, allocate _ => True
| _, _, enter _ _ => True
| _, _, bind first rest => first.Straight ∧ ∀ b, (rest b).Straight
| _, _, holding _ inner => inner.Straight
| _, _, catching _ _ _ => False
| _, _, same inner _ => inner.Straight

------------------------------------------------------------
-- Branches
------------------------------------------------------------

/- A result that is at hand, and a fault. -/
def pure (a : α) : Course rt α (fun _ => Pure.pure a) :=
  own _ (.pure a)

def fault (f : Fault) : Course rt α (fun _ => Run.fault f) :=
  own _ (.fault f)

/- Either branch. -/
def ite
    (p : Prop)
    [Decidable p]
    (yes : Course rt α m)
    (no : Course rt α n) :
    Course rt α (fun enter => if p then m enter else n enter) :=
  if h : p
  then same yes (fun _ => (if_pos h).symm)
  else same no (fun _ => (if_neg h).symm)

/- Something that may be missing, and that is read. -/
def option
    {f : Enter → β → Run α}
    (o : Option β)
    (none : Course rt α m)
    (some : ∀ b, Course rt α (fun enter => f enter b)) :
    Course rt α
      (fun enter =>
        match o with
        | .none => m enter
        | .some b => f enter b) :=
  match o with
  | .none => none
  | .some b => some b

/-
  Something that may be missing, and that is read in the
  state, but not in the trace.
-/
def look
    {f : Enter → β → Run α}
    {k : Enter → State → Run α}
    (g : State → Option β)
    (hBlind : ∀ s es, g { s with trace := es } = g s)
    (none : Course rt α m)
    (some : ∀ b, Course rt α (fun enter => f enter b))
    (hCases :
      ∀ enter s,
        k enter s =
          match g s with
          | .none => m enter
          | .some b => f enter b) :
    Course rt α (fun enter => MonadState.get >>= k enter) :=
  same
    (bind
      (own (fun s => .ok (g s) s)
        ⟨fun s es => by rw [hBlind]; rfl, fun _ => rfl⟩)
      fun o => option o none some)
    (fun enter => by
      funext s
      change _ = k enter s s
      rw [hCases]
      rfl)

------------------------------------------------------------
-- Code of the Host
------------------------------------------------------------

variable {sig : Signature}
variable {args : List Value}

def runDirect
    (meth : Method)
    (how : MethodKind)
    (entry : Code)
    (args : List Value) :
    Course rt Value
      (fun _ => Linkage.runDirect rt meth how entry args) :=
  match how with
  | .isStatic => call entry args
  | .isConstructor =>
      bind (allocate meth.declaring) fun o =>
        bind (call entry (Value.ref o :: args)) fun _ =>
          pure (Value.ref o)
  | .isVirtual | .isInterface | .isSpecial =>
      bind (own _ .receiverOf) fun _ => call entry args

def runVirtual
    (meth : Method)
    (slot : Nat)
    (args : List Value) :
    Course rt Value
      (fun _ => Linkage.runVirtual rt meth slot args) :=
  bind (own _ .receiverOf) fun o =>
    match rt.host.virtualEntry o.type slot with
    | some code => call code args
    | none => fault (missingCode meth o.type)

def runInterface
    (meth : Method)
    (slot : Nat)
    (args : List Value) :
    Course rt Value
      (fun _ => Linkage.runInterface rt meth slot args) :=
  bind (own _ .receiverOf) fun o =>
    ite (rt.classes.isAssignable o.type (.cls meth.declaring))
      (match
        rt.host.interfaceEntry o.type meth.declaring slot
      with
        | some code => call code args
        | none => fault (missingCode meth o.type))
      (fault _)

------------------------------------------------------------
-- Fields and Arrays
------------------------------------------------------------

def runFieldGet
    (f : Field)
    (offset : Nat)
    (args : List Value) :
    Course rt Value
      (fun _ => Linkage.runFieldGet rt f offset args) :=
  bind (own _ .fieldPlace) fun _ =>
    own _
      (.get_bind (fun _ _ => rfl) fun _ => by
        split
        · exact .pure _
        · exact .fault _)

def runFieldSet
    (f : Field)
    (offset : Nat)
    (args : List Value) :
    Course rt Value
      (fun _ => Linkage.runFieldSet rt f offset args) :=
  bind (own _ .fieldPlace) fun place =>
    match place with
    | none => fault (missingField f)
    | some r =>
        own _
          (.get_bind (fun _ _ => rfl) fun _ => by
            split
            · exact .fault _
            · exact .bind
                (.changeHeap
                  (fun h => h.storeCell r (splitLast args).1))
                (fun _ => .pure _))

def runArrayGet (args : List Value) :
    Course rt Value (fun _ => Linkage.runArrayGet args) :=
  bind (own _ .elementOf) fun (_, vs, i) =>
    own _ (by
      dsimp only
      split
      · exact .pure _
      · exact .fault _)

def runArraySet (args : List Value) :
    Course rt Value (fun _ => Linkage.runArraySet rt args) :=
  bind (own _ .elementOf) fun (o, _, i) =>
    ite _
      (bind
        (own _
          (.changeHeap
            (fun h => h.setElement o i (splitLast args).1)))
        fun _ => pure Value.void)
      (fault _)

def runArrayLength (args : List Value) :
    Course rt Value (fun _ => Linkage.runArrayLength args) :=
  bind (own _ .arrayOf) fun (_, _) => pure _

def runThrow (args : List Value) :
    Course rt Value (fun _ => Linkage.runThrow args) :=
  own _ (by
    unfold Linkage.runThrow
    split
    · exact .fault _
    · exact .fault _)

------------------------------------------------------------
-- Conversions and Edits of Arguments
------------------------------------------------------------

/- Arguments are converted one by one. -/
theorem onHeap_applyAll_cons
    (T : ClassTable)
    (c : Conversion)
    (cs : List Conversion)
    (v : Value)
    (vs : List Value) :
    (do
      let w ← Run.onHeap (c.apply T v)
      let ws ← Run.onHeap (applyAll T cs vs)
      Pure.pure (w :: ws)) =
    Run.onHeap (applyAll T (c :: cs) (v :: vs)) := by
  funext s
  change
    EStateM.bind (Run.onHeap (c.apply T v))
      (fun w =>
        EStateM.bind (Run.onHeap (applyAll T cs vs))
          (fun ws => Pure.pure (w :: ws))) s = _
  unfold EStateM.bind Run.onHeap
  conv => rhs; unfold applyAll
  rcases c.apply T v s.heap with ⟨x, h⟩
  cases x with
  | error e => rfl
  | ok w =>
      dsimp only
      rcases applyAll T cs vs h with ⟨y, h'⟩
      cases y with
      | error e => rfl
      | ok ws => rfl

def convertArgs :
    (cs : List Conversion) → (vs : List Value) →
      Course rt (List Value)
        (fun _ => Run.onHeap (applyAll rt.classes cs vs))
| c :: cs, v :: vs =>
    same
      (bind (own (Run.onHeap (c.apply rt.classes v)) (.onHeap _))
        fun w => bind (convertArgs cs vs) fun ws => pure (w :: ws))
      (fun _ => onHeap_applyAll_cons rt.classes c cs v vs)
| [], _ => own _ (.onHeap _)
| _ :: _, [] => own _ (.onHeap _)

def permuteArgs
    (sig : Signature)
    (args : List Value) :
    (order : List Nat) →
      Course rt (List Value)
        (fun _ => Linkage.permuteArgs sig args order)
| [] => pure []
| i :: is =>
    match h : args[i]? with
    | none =>
        same (fault (.tooFew sig (i + 1)))
          (fun _ => by
            unfold Linkage.permuteArgs
            rw [h])
    | some v =>
        same
          (bind (permuteArgs sig args is) fun vs => pure (v :: vs))
          (fun _ => by
            conv => rhs; unfold Linkage.permuteArgs
            rw [h])

/- Each filter is entered with one argument. -/
def runFilters
    (sig : Signature) :
    (i : Nat) → (fs : List (Option Target)) →
      (args : List Value) →
      Course rt (List Value)
        (fun enter => Linkage.runFilters enter sig i fs args)
| _, [], args => pure args
| i, none :: fs, args => runFilters sig (i + 1) fs args
| i, some f :: fs, args =>
    match h : args[i]? with
    | none =>
        same (fault (.tooFew sig (i + 1)))
          (fun _ => by
            unfold Linkage.runFilters
            rw [h])
    | some v =>
        same
          (bind (holding (rootsOf (args.set i .null)) (enter f [v]))
            fun w => runFilters sig (i + 1) fs (args.set i w))
          (fun _ => by
            conv => rhs; unfold Linkage.runFilters
            rw [h])

------------------------------------------------------------
-- Folds, Guards and Handlers
------------------------------------------------------------

def runFold
    (sig : Signature)
    (t combiner : Target)
    (args : List Value) :
    Course rt Value
      (fun enter => Linkage.runFold enter sig t combiner args) :=
  bind (own _ .leadingArgs) fun first =>
    bind (holding (rootsOf args) (enter combiner first)) fun v =>
      ite combiner.ret.IsVoid (enter t args) (enter t (v :: args))

def runGuard
    (test yes no : Target)
    (sig : Signature)
    (args : List Value) :
    Course rt Value
      (fun enter => Linkage.runGuard enter test yes no sig args) :=
  bind (own _ .leadingArgs) fun first =>
    bind (holding (rootsOf args) (enter test first)) fun v =>
      match v with
      | .prim (.boolean true) => enter yes args
      | .prim (.boolean false) => enter no args
      | .void | .null | .ref _
      | .prim (.byte _) | .prim (.short _) | .prim (.char _)
      | .prim (.int _) | .prim (.long _) | .prim (.float _)
      | .prim (.double _) => fault _

/- What a handler does is done after a fault that it catches. -/
theorem runRescue_eq
    (enter : Enter)
    (sig : Signature)
    (t : Target)
    (caught : ClassName)
    (handler : Target)
    (args : List Value) :
    Linkage.runRescue rt enter sig t caught handler args =
      (do
        let first ← Linkage.leadingArgs sig (handler.count - 1) args
        Run.catching rt.classes caught
          (Run.holding (rootsOf first) (enter t args))
          (fun f =>
            Run.holding f.roots
              (do
                let o ← Run.throwable f
                enter handler (.ref o :: first)))) := by
  unfold Linkage.runRescue
  congr 1
  funext first s
  unfold Run.catching
  rcases Run.holding (rootsOf first) (enter t args) s with
    _ | ⟨_ | _ | _, _⟩ <;> rfl

def runRescue
    (sig : Signature)
    (t : Target)
    (caught : ClassName)
    (handler : Target)
    (args : List Value) :
    Course rt Value
      (fun enter =>
        Linkage.runRescue rt enter sig t caught handler args) :=
  same
    (bind (own _ .leadingArgs) fun first =>
      catching caught (holding (rootsOf first) (enter t args))
        fun f =>
          holding f.roots
            (bind (own _ (.throwable f)) fun o =>
              enter handler (Value.ref o :: first)))
    (fun enter => (runRescue_eq enter sig t caught handler args).symm)

------------------------------------------------------------
-- Call Sites, Handles and Ways of Calling
------------------------------------------------------------

def runSite
    (i : SiteId)
    (args : List Value) :
    Course rt Value (fun enter => Linkage.runSite enter i args) :=
  look (fun s => s.site? i) (fun _ _ => rfl)
    (own _ (.throw .unfinished))
    (fun x =>
      holding [.target x.target] (enter x.target args))
    (fun _ s => by cases s.site? i <;> rfl)

def invokeExact
    (t : Target)
    (args : List Value) :
    Course rt Value (fun enter => t.invokeExact rt enter args) :=
  bind (own _ (.ite (.pure _) (.fault _))) fun _ => enter t args

def invokeExactTyped
    (t : Target)
    (sig : Signature)
    (args : List Value) :
    Course rt Value
      (fun enter => t.invokeExactTyped rt enter sig args) :=
  ite (sig = t.signature) (invokeExact t args) (fault _)

def invokeTyped
    (t : Target)
    (sig : Signature)
    (args : List Value) :
    Course rt Value
      (fun enter => t.invokeTyped rt enter sig args) :=
  bind (holding _ (own _ (.ofLink _ .asType))) fun adapted =>
    holding [.target adapted] (invokeExact adapted args)

def invokeFlexibly
    (t : Target)
    (args : List Value) :
    Course rt Value
      (fun enter => t.invokeFlexibly rt enter args) :=
  bind (holding _ (own _ .arityAdapted)) fun u =>
    holding [.target u]
      (bind (own _ .callType) fun sig => invokeTyped u sig args)

def runInvoker
    (whole : Signature)
    (exact : Bool)
    (sig : Signature)
    (args : List Value) :
    Course rt Value
      (fun enter =>
        Linkage.runInvoker rt enter whole exact sig args) :=
  match args with
  | [] => fault _
  | .ref o :: rest =>
      look (fun s => s.heap.handle? o) (fun _ _ => rfl)
        (fault _)
        (fun t =>
          holding [.target t]
            (ite (exact = true) (invokeExactTyped t sig rest)
              (invokeTyped t sig rest)))
        (fun _ s => by cases s.heap.handle? o <;> rfl)
  | .void :: _ | .null :: _ | .prim _ :: _ => fault _

------------------------------------------------------------
-- Behaviours
------------------------------------------------------------

/- What a node does with its arguments. -/
def behave
    (t : Target)
    (args : List Value) :
    Course rt Value (fun enter => t.behave rt enter args) :=
  match t with
  | .node _ sig _ form =>
      match form with
      | .direct m how entry => runDirect m how entry args
      | .virtual m slot => runVirtual m slot args
      | .interface m slot => runInterface m slot args
      | .fieldGet f offset => runFieldGet f offset args
      | .fieldSet f offset => runFieldSet f offset args
      | .bound u v => enter u (v :: args)
      | .convertArguments u cs =>
          bind (convertArgs cs args) fun vs => enter u vs
      | .convertReturn u c =>
          bind (enter u args) fun v =>
            own (Run.onHeap (c.apply rt.classes v)) (.onHeap _)
      | .filterReturn u f =>
          bind (enter u args) fun v =>
            enter f (if u.ret.IsVoid then [] else [v])
      | .filterArguments u pos fs =>
          bind (runFilters sig pos fs args) fun vs => enter u vs
      | .collect u _ _ =>
          bind (own _ .collectArgs) fun vs => enter u vs
      | .spread u _ =>
          bind (own _ .spreadArgs) fun vs => enter u vs
      | .permute u order =>
          bind (permuteArgs sig args order) fun vs =>
            holding (rootsOf args) (enter u vs)
      | .insert u _ _ =>
          bind (own _ (.ite (.pure _) (.throw _))) fun vs =>
            enter u vs
      | .drop u _ _ =>
          bind (own _ (.ite (.pure _) (.throw _))) fun vs =>
            enter u vs
      | .fold u c => runFold sig u c args
      | .guard c yes no => runGuard c yes no sig args
      | .rescue u n h => runRescue sig u n h args
      | .varargs u _ => enter u args
      | .site i => runSite i args
      | .constant v => pure v
      | .identity =>
          match args with
          | [] => fault _
          | v :: _ => pure v
      | .throw => runThrow args
      | .arrayGet => runArrayGet args
      | .arraySet => runArraySet args
      | .arrayLength => runArrayLength args
      | .invoker exact s => runInvoker sig exact s args
      | .unlinked => fault _

------------------------------------------------------------
-- Courses on Which Nothing Is Caught
------------------------------------------------------------

theorem straight_ite
    {p : Prop}
    [Decidable p]
    {yes : Course rt α m}
    {no : Course rt α n}
    (hYes : yes.Straight)
    (hNo : no.Straight) :
    (ite p yes no).Straight := by
  unfold ite
  split
  · exact hYes
  · exact hNo

theorem straight_look
    {f : Enter → β → Run α}
    {k : Enter → State → Run α}
    {g : State → Option β}
    {hBlind : ∀ s es, g { s with trace := es } = g s}
    {none : Course rt α m}
    {some : ∀ b, Course rt α (fun enter => f enter b)}
    {hCases :
      ∀ enter s,
        k enter s =
          match g s with
          | .none => m enter
          | .some b => f enter b}
    (hNone : none.Straight)
    (hSome : ∀ b, (some b).Straight) :
    (look g hBlind none some hCases).Straight := by
  refine ⟨trivial, ?_⟩
  intro o
  cases o with
  | none => exact hNone
  | some b => exact hSome b

theorem straight_runDirect
    {meth : Method}
    {how : MethodKind}
    {entry : Code} :
    (runDirect meth how entry args : Course rt _ _).Straight := by
  cases how with
  | isStatic => trivial
  | isConstructor =>
      exact ⟨trivial, fun _ => ⟨trivial, fun _ => trivial⟩⟩
  | isVirtual => exact ⟨trivial, fun _ => trivial⟩
  | isInterface => exact ⟨trivial, fun _ => trivial⟩
  | isSpecial => exact ⟨trivial, fun _ => trivial⟩

theorem straight_runVirtual
    {meth : Method}
    {slot : Nat} :
    (runVirtual meth slot args : Course rt _ _).Straight := by
  refine ⟨trivial, ?_⟩
  intro o
  dsimp only
  generalize rt.host.virtualEntry o.type slot = entry
  cases entry with
  | _ => trivial

theorem straight_runInterface
    {meth : Method}
    {slot : Nat} :
    (runInterface meth slot args : Course rt _ _).Straight := by
  refine ⟨trivial, ?_⟩
  intro o
  apply straight_ite
  · generalize
      rt.host.interfaceEntry o.type meth.declaring slot = entry
    cases entry with
    | _ => trivial
  · trivial

theorem straight_runFieldSet
    {f : Field}
    {offset : Nat} :
    (runFieldSet f offset args : Course rt _ _).Straight := by
  refine ⟨trivial, ?_⟩
  intro place
  cases place with
  | none => trivial
  | some r => trivial

theorem straight_runArraySet :
    (runArraySet args : Course rt _ _).Straight := by
  refine ⟨trivial, ?_⟩
  rintro ⟨o, _, i⟩
  exact straight_ite ⟨trivial, fun _ => trivial⟩ trivial

theorem straight_convertArgs
    {cs : List Conversion} :
    (convertArgs cs args : Course rt _ _).Straight := by
  fun_induction convertArgs cs args with
  | case1 c cs v vs ih =>
      exact ⟨trivial, fun _ => ⟨ih, fun _ => trivial⟩⟩
  | case2 => trivial
  | case3 => trivial

theorem straight_permuteArgs
    {order : List Nat} :
    (permuteArgs sig args order : Course rt _ _).Straight := by
  induction order with
  | nil => trivial
  | cons i is ih =>
      unfold permuteArgs
      split
      · trivial
      · exact ⟨ih, fun _ => trivial⟩

theorem straight_runFilters
    {pos : Nat}
    {fs : List (Option Target)} :
    (runFilters sig pos fs args : Course rt _ _).Straight := by
  induction fs generalizing pos args with
  | nil => trivial
  | cons f fs ih =>
      cases f with
      | none => exact ih
      | some f =>
          unfold runFilters
          split
          · trivial
          · exact ⟨trivial, fun _ => ih⟩

theorem straight_runFold
    {t combiner : Target} :
    (runFold sig t combiner args : Course rt _ _).Straight :=
  ⟨trivial, fun _ =>
    ⟨trivial, fun _ => straight_ite trivial trivial⟩⟩

theorem straight_runGuard
    {test yes no : Target} :
    (runGuard test yes no sig args : Course rt _ _).Straight := by
  refine ⟨trivial, fun _ => ⟨trivial, ?_⟩⟩
  intro v
  dsimp only
  split
  all_goals trivial

theorem straight_runSite
    {i : SiteId} :
    (runSite i args : Course rt _ _).Straight :=
  straight_look trivial (fun _ => trivial)

theorem straight_invokeExact
    {t : Target} :
    (invokeExact t args : Course rt _ _).Straight :=
  ⟨trivial, fun _ => trivial⟩

theorem straight_invokeExactTyped
    {t : Target} :
    (invokeExactTyped t sig args : Course rt _ _).Straight :=
  straight_ite straight_invokeExact trivial

theorem straight_invokeTyped
    {t : Target} :
    (invokeTyped t sig args : Course rt _ _).Straight :=
  ⟨trivial, fun _ => straight_invokeExact⟩

theorem straight_invokeFlexibly
    {t : Target} :
    (invokeFlexibly t args : Course rt _ _).Straight :=
  ⟨trivial, fun _ => ⟨trivial, fun _ => straight_invokeTyped⟩⟩

theorem straight_runInvoker
    {whole : Signature}
    {exact : Bool} :
    (runInvoker whole exact sig args : Course rt _ _).Straight := by
  unfold runInvoker
  split
  · trivial
  · apply straight_look
    · trivial
    · intro t
      exact straight_ite straight_invokeExactTyped straight_invokeTyped
  all_goals trivial

/- Only an exception guard catches faults. -/
theorem straight_behave
    {t : Target}
    (hKind : t.kind ≠ .exceptionGuard) :
    (behave t args : Course rt _ _).Straight := by
  rcases t with ⟨i, sig, c, form⟩
  cases form with
  | direct m how entry => exact straight_runDirect
  | virtual m slot => exact straight_runVirtual
  | interface m slot => exact straight_runInterface
  | fieldGet f offset => exact ⟨trivial, fun _ => trivial⟩
  | fieldSet f offset => exact straight_runFieldSet
  | convertArguments u cs =>
      exact ⟨straight_convertArgs, fun _ => trivial⟩
  | filterArguments u pos fs =>
      exact ⟨straight_runFilters, fun _ => trivial⟩
  | permute u order => exact ⟨straight_permuteArgs, fun _ => trivial⟩
  | fold u c => exact straight_runFold
  | guard c yes no => exact straight_runGuard
  | rescue u n h => exact absurd rfl hKind
  | site i => exact straight_runSite
  | identity =>
      cases args with
      | nil => trivial
      | cons v vs => trivial
  | arrayGet => exact ⟨trivial, fun _ => trivial⟩
  | arraySet => exact straight_runArraySet
  | arrayLength => exact ⟨trivial, fun _ => trivial⟩
  | invoker exact s => exact straight_runInvoker
  | convertReturn | filterReturn | collect | spread | insert
  | drop => exact ⟨trivial, fun _ => trivial⟩
  | bound | varargs | constant | throw | unlinked => trivial

------------------------------------------------------------
-- Courses Change No Call Sites
------------------------------------------------------------

/- No step changes a call site if no entry does. -/
theorem sites_eq
    {enter : Enter}
    (hEnter :
      ∀ t args s, (Run.final (enter t args s)).sites = s.sites)
    (c : Course rt α m)
    (s : State) :
    (Run.final (m enter s)).sites = s.sites := by
  induction c generalizing s with
  | own m hSilent => exact hSilent.sites s
  | call code args =>
      exact
        (Silent.onHeap (rt.host.call code args)).sites
          (s.log (.called code args s.heap))
  | allocate n =>
      unfold Run.allocate
      dsimp only
      split
      all_goals rfl
  | enter t args => exact hEnter t args s
  | @bind _ _ m f first rest ihFirst ihRest =>
      have hFirst := ihFirst s
      change
        (Run.final (EStateM.bind (m enter) (f enter) s)).sites = _
      unfold EStateM.bind
      cases hRun : m enter s with
      | ok b s' =>
          rw [hRun] at hFirst
          exact (ihRest b s').trans hFirst
      | error e s' =>
          rw [hRun] at hFirst
          exact hFirst
  | @holding _ m rs inner ih =>
      have hInner := ih { s with held := rs ++ s.held }
      dsimp only
      unfold Run.holding
      cases hRun : m enter { s with held := rs ++ s.held } with
      | _ =>
          rw [hRun] at hInner
          exact hInner
  | @catching _ m handler caught inner rest ihInner ihRest =>
      have hInner := ihInner s
      dsimp only
      unfold Run.catching
      cases hRun : m enter s with
      | ok a s' =>
          rw [hRun] at hInner
          exact hInner
      | error e s' =>
          rw [hRun] at hInner
          cases e with
          | fault f =>
              dsimp only
              split
              · exact (ihRest f s').trans hInner
              · exact hInner
          | outside => exact hInner
          | unfinished => exact hInner
  | same inner hSame ih =>
      rw [← hSame]
      exact ih s

end Course

end Linkage
