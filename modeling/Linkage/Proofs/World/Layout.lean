import Linkage.Proofs.ClassTable.Chains
import Linkage.Proofs.Heap
import Mathlib.Data.List.Basic

/-
  Where the fields of a world are.  A field is declared at an
  offset that is settled by what was declared before it, and
  instances are laid out later, class by class.  The two agree
  in a world in which no class comes after a field, and no
  field of a superclass after one of a class below it.

  Key definitions include:
    * `World.Declared`
    * `World.fieldsOf`
    * `World.fieldsAlong`
    * `World.SupersFirst`
    * `World.LaidOut`
    * `World.Puts`

  Key theorems include:
    * `World.LaidOut.puts`
    * `World.Declared.laidOut`
-/

------------------------------------------------------------
-- Declared Worlds
------------------------------------------------------------

namespace Linkage

namespace World

variable {w w' : World}
variable {n m : ClassName}
variable {ns : List ClassName}
variable {owner : ClassName}
variable {name : String}
variable {t : Ty}
variable {flags : Flags}
variable {f g : Field}
variable {k : Nat}

/-
  A world that was declared step by step, in which no class
  comes after a field.
-/
inductive Declared : World → Prop
| initial (T : ClassTable) : Declared (.initial T)
| addClass
    {w : World}
    (c : ClassInfo)
    (hDeclared : Declared w)
    (hNone : w.fields = []) :
    Declared { w with classes := w.classes.add c }
| addMethod
    {w w' : World}
    {owner : ClassName}
    {name : String}
    {sig : Signature}
    {flags : Flags}
    {body : Option Body}
    (hDeclared : Declared w)
    (hAdd : w.addMethod owner name sig flags body = some w') :
    Declared w'
| addConstructor
    {w : World}
    (owner : ClassName)
    (sig : Signature)
    (body : Body)
    (hDeclared : Declared w) :
    Declared (w.addConstructor owner sig body)
| addField
    {w w' : World}
    {owner : ClassName}
    {name : String}
    {t : Ty}
    {flags : Flags}
    (hDeclared : Declared w)
    (hAdd : w.addField owner name t flags = some w') :
    Declared w'
| deny
    {w : World}
    (n : ClassName)
    (hDeclared : Declared w) :
    Declared (w.deny n)

/- The static fields of a class, or the other ones. -/
def fieldsOf
    (w : World)
    (isStatic : Bool)
    (n : ClassName) : List Field :=
  w.fields.filter
    (fun f =>
      f.declaring = n && f.flags.has .isStatic == isStatic)

/- The fields of an instance, by the chain of its class. -/
def fieldsAlong
    (w : World)
    (ns : List ClassName) : List Field :=
  ns.reverse.flatMap (w.fieldsOf false)

/-
  No field of an instance is declared in a superclass after
  one that is declared in a class below.
-/
def SupersFirst (w : World) : Prop :=
  w.fields.Pairwise
    (fun f g =>
      f.flags.has .isStatic = false →
      g.flags.has .isStatic = false →
        ¬w.classes.IsBelow f.declaring g.declaring)

theorem mem_fieldsOf
    {isStatic : Bool} :
    f ∈ w.fieldsOf isStatic n ↔
      f ∈ w.fields ∧ f.declaring = n ∧
        f.flags.has .isStatic = isStatic := by
  simp [fieldsOf]

theorem mem_fieldsAlong :
    f ∈ w.fieldsAlong ns ↔
      f ∈ w.fields ∧ f.declaring ∈ ns ∧
        f.flags.has .isStatic = false := by
  simp only [fieldsAlong, List.mem_flatMap, List.mem_reverse,
    mem_fieldsOf]
  constructor
  · rintro ⟨n, hn, hField, rfl, hInstance⟩
    exact ⟨hField, hn, hInstance⟩
  · rintro ⟨hField, hn, hInstance⟩
    exact ⟨_, hn, hField, rfl, hInstance⟩

theorem fieldsAlong_cons
    (w : World)
    (n : ClassName)
    (ns : List ClassName) :
    w.fieldsAlong (n :: ns) =
      w.fieldsAlong ns ++ w.fieldsOf false n := by
  simp [fieldsAlong]

theorem fieldsAlong_append
    (w : World)
    (ms ns : List ClassName) :
    w.fieldsAlong (ms ++ ns) =
      w.fieldsAlong ns ++ w.fieldsAlong ms := by
  simp [fieldsAlong]

------------------------------------------------------------
-- Layouts
------------------------------------------------------------

/- Each field is at the offset of its place in the list. -/
def InOrder (fs : List Field) : Prop :=
  ∀ (k : Nat) (f : Field), fs[k]? = some f → f.slot = .fieldOffset k

theorem InOrder.concat
    {fs : List Field}
    (hOrder : InOrder fs)
    (hSlot : f.slot = .fieldOffset fs.length) :
    InOrder (fs ++ [f]) := by
  intro k g hAt
  by_cases hIn : k < fs.length
  · rw [List.getElem?_append_left hIn] at hAt
    exact hOrder k g hAt
  · rw [List.getElem?_append_right (Nat.le_of_not_lt hIn),
      List.getElem?_singleton] at hAt
    split at hAt
    · cases hAt
      rw [hSlot]
      congr 1
      omega
    · cases hAt

/-
  Fields are kept in the order in which they were declared:
  static ones with their class, the others after those of the
  superclasses.
-/
structure LaidOut (w : World) : Prop where
  placed : w.overrides = []
  layouts :
    ∀ n,
      entryOf n w.layouts = (w.fieldsOf false n).map Field.type
  statics :
    ∀ n, entryOf n w.statics = (w.fieldsOf true n).map Field.type
  staticOrder : ∀ n, InOrder (w.fieldsOf true n)
  order :
    ∀ n ns, w.classes.Chain n ns → InOrder (w.fieldsAlong ns)

theorem entryOf_cons
    (n m : ClassName)
    (ts : List Ty)
    (es : List (ClassName × List Ty)) :
    entryOf n ((m, ts) :: es) =
      if n = m then ts else entryOf n es := by
  unfold entryOf
  rw [List.lookup_cons]
  by_cases hSame : n = m
  · rw [if_pos hSame, beq_iff_eq.2 hSame]
    rfl
  · rw [if_neg hSame, beq_eq_false_iff_ne.2 hSame]

theorem entryOf_appendTo
    (n m : ClassName)
    (t : Ty)
    (es : List (ClassName × List Ty)) :
    entryOf n (appendTo m t es) =
      if n = m then entryOf n es ++ [t] else entryOf n es := by
  induction es with
  | nil =>
      rw [appendTo, entryOf_cons]
      rfl
  | cons e es ih =>
      rcases e with ⟨k, ts⟩
      rw [appendTo, entryOf_cons]
      by_cases hKey : k = m
      · subst hKey
        rw [if_pos rfl, entryOf_cons]
        split
        · rfl
        · rfl
      · rw [if_neg hKey, entryOf_cons, ih]
        by_cases hHead : n = k
        · subst hHead
          rw [if_pos rfl, if_pos rfl, if_neg hKey]
        · rw [if_neg hHead, if_neg hHead]

/- Two worlds in which the same is known of the fields. -/
structure SameFields (w w' : World) : Prop where
  classes : w'.classes = w.classes
  fields : w'.fields = w.fields
  layouts : w'.layouts = w.layouts
  statics : w'.statics = w.statics
  overrides : w'.overrides = w.overrides

theorem SameFields.refl (w : World) : w.SameFields w :=
  ⟨rfl, rfl, rfl, rfl, rfl⟩

theorem SameFields.trans
    {w'' : World}
    (hFirst : w.SameFields w')
    (hSecond : w'.SameFields w'') :
    w.SameFields w'' where
  classes := hSecond.classes.trans hFirst.classes
  fields := hSecond.fields.trans hFirst.fields
  layouts := hSecond.layouts.trans hFirst.layouts
  statics := hSecond.statics.trans hFirst.statics
  overrides := hSecond.overrides.trans hFirst.overrides

theorem LaidOut.congr
    (hLaid : w.LaidOut)
    (hSame : w.SameFields w') :
    w'.LaidOut := by
  have hOf : w'.fieldsOf = w.fieldsOf := by
    unfold fieldsOf
    rw [hSame.fields]
  have hAlong : w'.fieldsAlong = w.fieldsAlong := by
    unfold fieldsAlong
    rw [hOf]
  constructor
  · rw [hSame.overrides]
    exact hLaid.placed
  · rw [hSame.layouts, hOf]
    exact hLaid.layouts
  · rw [hSame.statics, hOf]
    exact hLaid.statics
  · rw [hOf]
    exact hLaid.staticOrder
  · rw [hSame.classes, hAlong]
    exact hLaid.order

/- A method takes no room among the fields. -/
theorem sameFields_addMethod
    {sig : Signature}
    {body : Option Body}
    (hAdd : w.addMethod owner name sig flags body = some w') :
    w.SameFields w' := by
  have hTake (w : World) :
      w.SameFields (w.takeSlot owner name sig).2 := by
    unfold takeSlot
    split
    · exact .refl w
    · exact ⟨rfl, rfl, rfl, rfl, rfl⟩
  have hImplement (w : World) (n : Nat) (code : Option Code) :
      w.SameFields (w.implement owner n code) := by
    cases code with
    | none => exact .refl w
    | some c => exact ⟨rfl, rfl, rfl, rfl, rfl⟩
  have hTable (w : World) (code : Option Code) :
      w.SameFields
        ((w.takeSlot owner name sig).2.implement owner
          (w.takeSlot owner name sig).1 code) :=
    (hTake w).trans (hImplement _ _ _)
  unfold addMethod at hAdd
  cases body with
  | none =>
      dsimp only at hAdd
      split at hAdd
      · cases hAdd
      · cases hAdd
        have h := hTable w none
        exact ⟨h.classes, h.fields, h.layouts, h.statics, h.overrides⟩
  | some b =>
      dsimp only at hAdd
      split at hAdd
      · cases hAdd
        exact ⟨rfl, rfl, rfl, rfl, rfl⟩
      · cases hAdd
        have h := hTable (w.pushBody name b).2 (w.pushBody name b).1
        exact ⟨h.classes, h.fields, h.layouts, h.statics, h.overrides⟩

/- The cells of an instance are those of the fields it has. -/
theorem LaidOut.layout?_eq
    (hLaid : w.LaidOut)
    (n : ClassName) :
    w.layout? n =
      (w.classes.superclasses? n).map
        (fun ns => (w.fieldsAlong ns).map Field.type) := by
  unfold layout? fieldsAlong
  congr 1
  funext ns
  rw [List.map_flatMap]
  exact congrArg (ns.reverse.flatMap ·) (funext hLaid.layouts)

theorem LaidOut.of_layout?
    {ts : List Ty}
    (hLaid : w.LaidOut)
    (hSome : w.layout? n = some ts) :
    ∃ ns,
      w.classes.Chain n ns ∧
        ts = (w.fieldsAlong ns).map Field.type := by
  rw [hLaid.layout?_eq] at hSome
  rcases Option.map_eq_some_iff.1 hSome with ⟨ns, hWalk, rfl⟩
  exact ⟨ns, ClassTable.chain_of_superclasses? hWalk, rfl⟩

------------------------------------------------------------
-- One More Field
------------------------------------------------------------

section Declaring

variable (hFields : w'.fields = w.fields ++ [f])
include hFields

theorem fieldsOf_concat
    (isStatic : Bool)
    (n : ClassName) :
    w'.fieldsOf isStatic n =
      w.fieldsOf isStatic n ++
        if f.declaring = n ∧ f.flags.has .isStatic = isStatic
        then [f]
        else [] := by
  unfold fieldsOf
  rw [hFields, List.filter_append, List.filter_cons]
  simp

theorem fieldsOf_of_other
    {isStatic : Bool}
    (hOther : f.flags.has .isStatic ≠ isStatic) :
    w'.fieldsOf isStatic = w.fieldsOf isStatic := by
  funext n
  rw [fieldsOf_concat hFields,
    if_neg (fun hBoth => hOther hBoth.2), List.append_nil]

/- The type of a new field goes where the field goes. -/
theorem entryOf_concat
    {isStatic : Bool}
    {es : List (ClassName × List Ty)}
    (hSort : f.flags.has .isStatic = isStatic)
    (hEntries :
      ∀ n, entryOf n es = (w.fieldsOf isStatic n).map Field.type)
    (n : ClassName) :
    entryOf n (appendTo f.declaring f.type es) =
      (w'.fieldsOf isStatic n).map Field.type := by
  rw [entryOf_appendTo, fieldsOf_concat hFields, hEntries]
  by_cases hOwn : n = f.declaring
  · rw [if_pos hOwn, if_pos ⟨hOwn.symm, hSort⟩, List.map_append]
    rfl
  · rw [if_neg hOwn, if_neg (fun hBoth => hOwn hBoth.1.symm),
      List.append_nil]

/- A field is no part of instances of classes it is not in. -/
theorem fieldsAlong_of_not_mem
    (hOther : f.flags.has .isStatic = false → f.declaring ∉ ns) :
    w'.fieldsAlong ns = w.fieldsAlong ns := by
  unfold fieldsAlong
  refine List.flatMap_congr ?_
  intro n hn
  rw [fieldsOf_concat hFields, if_neg, List.append_nil]
  rintro ⟨rfl, hInstance⟩
  exact hOther hInstance (List.mem_reverse.1 hn)

/-
  A field that is declared in no superclass of a class that
  has fields comes last in all instances it is a part of, at
  the place that it has in those of its own class.
-/
theorem fieldsAlong_of_mem
    {after : List ClassName}
    (hInstance : f.flags.has .isStatic = false)
    (hLast :
      ∀ g ∈ w.fields,
        g.flags.has .isStatic = false →
          ¬w.classes.IsBelow g.declaring f.declaring)
    (hChain : w.classes.Chain n ns)
    (hMem : f.declaring ∈ ns)
    (hOwn : w.classes.Chain f.declaring after) :
    w'.fieldsAlong ns = w.fieldsAlong ns ++ [f] ∧
      w.fieldsAlong ns = w.fieldsAlong after := by
  rcases hChain.split hMem with
    ⟨before, after', rfl, hAfter, hBefore⟩
  cases hAfter.unique hOwn
  rcases hOwn.head with ⟨rest, rfl⟩
  have hNodup := List.nodup_append.1 hChain.nodup
  have hApart : f.declaring ∉ before :=
    fun hIn => hNodup.2.2 _ hIn _ List.mem_cons_self rfl
  have hRest : f.declaring ∉ rest :=
    (List.nodup_cons.1 hNodup.2.1).1
  have hNone : w.fieldsAlong before = [] := by
    rw [List.eq_nil_iff_forall_not_mem]
    intro g hg
    rcases mem_fieldsAlong.1 hg with ⟨hField, hIn, hPlain⟩
    exact hLast g hField hPlain (hBefore _ hIn)
  constructor
  · rw [fieldsAlong_append, fieldsAlong_append,
      fieldsAlong_cons, fieldsAlong_cons,
      fieldsAlong_of_not_mem hFields (fun _ => hApart),
      fieldsAlong_of_not_mem hFields (fun _ => hRest),
      fieldsOf_concat hFields, if_pos ⟨rfl, hInstance⟩, hNone]
    simp
  · rw [fieldsAlong_append, hNone, List.append_nil]

end Declaring

/- A field that was added, and where it was put. -/
inductive Puts
    (w : World)
    (f : Field)
    (w' : World) : Prop
| static
    (hStatic : f.flags.has .isStatic = true)
    (hSlot :
      f.slot =
        .fieldOffset (entryOf f.declaring w.statics).length)
    (hStatics :
      w'.statics = appendTo f.declaring f.type w.statics)
    (hLayouts : w'.layouts = w.layouts)
| inside
    {before : List Ty}
    (hInstance : f.flags.has .isStatic = false)
    (hBefore : w.layout? f.declaring = some before)
    (hSlot : f.slot = .fieldOffset before.length)
    (hStatics : w'.statics = w.statics)
    (hLayouts :
      w'.layouts = appendTo f.declaring f.type w.layouts)

theorem of_addField
    (hAdd : w.addField owner name t flags = some w') :
    ∃ f,
      w'.fields = w.fields ++ [f] ∧ w'.classes = w.classes ∧
        w'.overrides = w.overrides ∧ w.Puts f w' := by
  unfold addField at hAdd
  dsimp only at hAdd
  by_cases hStatic : flags.has .isStatic = true
  · rw [if_pos hStatic] at hAdd
    cases hAdd
    exact ⟨_, rfl, rfl, rfl, .static hStatic rfl rfl rfl⟩
  · rw [if_neg hStatic] at hAdd
    rcases Option.map_eq_some_iff.1 hAdd with
      ⟨before, hBefore, rfl⟩
    exact
      ⟨_, rfl, rfl, rfl,
        .inside (Bool.eq_false_iff.2 hStatic) hBefore rfl rfl rfl⟩

/- One more field goes to the end of what it is a part of. -/
theorem LaidOut.puts
    (hLaid : w.LaidOut)
    (hFields : w'.fields = w.fields ++ [f])
    (hClasses : w'.classes = w.classes)
    (hPlaced : w'.overrides = w.overrides)
    (hPuts : w.Puts f w')
    (hLast :
      f.flags.has .isStatic = false →
        ∀ g ∈ w.fields,
          g.flags.has .isStatic = false →
            ¬w.classes.IsBelow g.declaring f.declaring) :
    w'.LaidOut := by
  cases hPuts with
  | static hStatic hSlot hStatics hLayouts =>
      have hOther : f.flags.has .isStatic ≠ false := by
        rw [hStatic]
        decide
      refine ⟨hPlaced.trans hLaid.placed, ?_, ?_, ?_, ?_⟩
      · rw [hLayouts, fieldsOf_of_other hFields hOther]
        exact hLaid.layouts
      · rw [hStatics]
        exact entryOf_concat hFields hStatic hLaid.statics
      · intro n
        rw [fieldsOf_concat hFields]
        by_cases hOwn : f.declaring = n
        · rw [if_pos ⟨hOwn, hStatic⟩]
          apply (hLaid.staticOrder n).concat
          rw [hSlot, hLaid.statics, hOwn, List.length_map]
        · rw [if_neg (fun hBoth => hOwn hBoth.1),
            List.append_nil]
          exact hLaid.staticOrder n
      · intro n ns hChain
        rw [hClasses] at hChain
        rw [fieldsAlong_of_not_mem hFields
          (fun hInstance => absurd hInstance hOther)]
        exact hLaid.order n ns hChain
  | inside hInstance hBefore hSlot hStatics hLayouts =>
      have hOther : f.flags.has .isStatic ≠ true := by
        rw [hInstance]
        decide
      refine ⟨hPlaced.trans hLaid.placed, ?_, ?_, ?_, ?_⟩
      · rw [hLayouts]
        exact entryOf_concat hFields hInstance hLaid.layouts
      · rw [hStatics, fieldsOf_of_other hFields hOther]
        exact hLaid.statics
      · rw [fieldsOf_of_other hFields hOther]
        exact hLaid.staticOrder
      · intro n ns hChain
        rw [hClasses] at hChain
        by_cases hMem : f.declaring ∈ ns
        · rcases hLaid.of_layout? hBefore with
            ⟨after, hOwn, rfl⟩
          rcases
            fieldsAlong_of_mem hFields hInstance
              (hLast hInstance) hChain hMem hOwn
            with ⟨hAlong, hSame⟩
          rw [hAlong]
          apply (hLaid.order n ns hChain).concat
          rw [hSlot, hSame, List.length_map]
        · rw [fieldsAlong_of_not_mem hFields (fun _ => hMem)]
          exact hLaid.order n ns hChain

------------------------------------------------------------
-- Declared Worlds are Laid Out
------------------------------------------------------------

theorem inOrder_fieldsAlong_of_none
    (hNone : w.fields = [])
    (ns : List ClassName) :
    InOrder (w.fieldsAlong ns) := by
  intro k f hAt
  have hMem := (mem_fieldsAlong.1 (List.mem_of_getElem? hAt)).1
  rw [hNone] at hMem
  cases hMem

theorem laidOut_initial (T : ClassTable) :
    (initial T).LaidOut where
  placed := rfl
  layouts := fun _ => rfl
  statics := fun _ => rfl
  staticOrder := by
    intro n k f hAt
    cases hAt
  order := fun _ ns _ => inOrder_fieldsAlong_of_none rfl ns

theorem Declared.laidOut
    (hDeclared : w.Declared)
    (hOrder : w.SupersFirst) :
    w.LaidOut := by
  induction hDeclared with
  | initial T => exact laidOut_initial T
  | @addClass w c hDeclared hNone ih =>
      have hLaid : w.LaidOut := by
        apply ih
        unfold SupersFirst
        rw [hNone]
        exact .nil
      exact
        { placed := hLaid.placed
          layouts := hLaid.layouts
          statics := hLaid.statics
          staticOrder := hLaid.staticOrder
          order := fun n ns _ =>
            inOrder_fieldsAlong_of_none hNone ns }
  | addMethod hDeclared hAdd ih =>
      have hSame := sameFields_addMethod hAdd
      unfold SupersFirst at hOrder
      rw [hSame.fields, hSame.classes] at hOrder
      exact (ih hOrder).congr hSame
  | addConstructor owner sig body hDeclared ih =>
      exact (ih hOrder).congr ⟨rfl, rfl, rfl, rfl, rfl⟩
  | addField hDeclared hAdd ih =>
      rcases of_addField hAdd with
        ⟨f, hFields, hClasses, hPlaced, hPuts⟩
      unfold SupersFirst at hOrder
      rw [hFields, hClasses, List.pairwise_append] at hOrder
      rcases hOrder with ⟨hBefore, -, hLast⟩
      refine
        (ih hBefore).puts hFields hClasses hPlaced hPuts ?_
      intro hInstance g hg hPlain
      exact hLast g hg f List.mem_cons_self hPlain hInstance
  | deny n hDeclared ih =>
      exact (ih hOrder).congr ⟨rfl, rfl, rfl, rfl, rfl⟩

end World

end Linkage
