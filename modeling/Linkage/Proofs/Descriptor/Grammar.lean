import Linkage.Descriptor

/-
  The grammar of descriptors.  A derivation is a tree that
  holds the proofs of its own side conditions, so every tree
  spells some descriptor.  A text is spelled by one tree at
  most, whatever characters the names in it have: brackets
  are counted before an element, a name ends at the first
  semicolon, and no field starts with a parenthesis.

  Key definitions include:
    * `Grammar.Element`
    * `Grammar.Field`
    * `Grammar.Result`
    * `Grammar.Method`
    * `Grammar.Method.text`
    * `Grammar.Method.types`
    * `Grammar.Method.slots`

  Key theorems include:
    * `Grammar.Field.eq_of_append`
    * `Grammar.Field.eq_of_flatMap`
    * `Grammar.Method.text_injective`
-/

------------------------------------------------------------
-- Derivations
------------------------------------------------------------

namespace Linkage

namespace Grammar

/- A field without its brackets: a letter or a class name. -/
inductive Element where
| letter (k : Kind) (notVoid : k ≠ .void)
| name (cs : List Char) (nonempty : cs ≠ []) (closed : ';' ∉ cs)

/- An element after its brackets, of which there may be none. -/
structure Field where
  dimensions : Nat
  element : Element
  shallow : dimensions ≤ maxDimensions

/- What a method may give. -/
inductive Result where
| field (f : Field)
| void

/- The parameters of a method and what it gives. -/
structure Method where
  params : List Field
  result : Result

namespace Element

def text : Element → List Char
| letter k _ => [k.code]
| name cs _ _ => 'L' :: (cs ++ [';'])

def type : Element → Ty
| letter k _ => .prim k
| name cs _ _ => .cls (.ofInternal cs)

end Element

namespace Field

def text (f : Field) : List Char :=
  List.replicate f.dimensions '[' ++ f.element.text

def type (f : Field) : Ty :=
  f.element.type.nested f.dimensions

/- Only a bare `long` or `double` takes two slots. -/
def slots (f : Field) : Nat :=
  match f.dimensions, f.element with
  | 0, .letter .long _ => 2
  | 0, .letter .double _ => 2
  | _, _ => 1

end Field

namespace Result

def text : Result → List Char
| field f => f.text
| void => ['V']

def type : Result → Ty
| field f => f.type
| void => .void

end Result

/- Sums start at the literal zero, whatever is imported. -/
attribute [local instance (2000)] Zero.ofOfNat0

namespace Method

def text (m : Method) : List Char :=
  '(' :: (m.params.flatMap Field.text ++ ')' :: m.result.text)

/- The types of the parameters. -/
def types (m : Method) : List Ty :=
  m.params.map Field.type

def slots (m : Method) : Nat :=
  (m.params.map Field.slots).sum

end Method

/- The letters of fields are those of the kinds but `void`. -/
example :
    (Kind.all.filter (· ≠ .void)).map Kind.code =
      ['Z', 'B', 'S', 'C', 'I', 'J', 'F', 'D'] := rfl

------------------------------------------------------------
-- Where Elements and Fields End
------------------------------------------------------------

variable {rest rest' : List Char}

/- What an element starts with. -/
theorem Element.exists_text (e : Element) :
    ∃ c cs,
      e.text = c :: cs ∧ c ≠ '[' ∧ c ≠ ')' ∧ c ≠ 'V' := by
  cases e with
  | letter k hk =>
      refine ⟨k.code, [], rfl, ?_⟩
      cases k <;> simp_all [Kind.code]
  | name cs _ _ => exact ⟨'L', cs ++ [';'], rfl, by decide⟩

theorem Field.exists_text (f : Field) :
    ∃ c cs, f.text = c :: cs ∧ c ≠ ')' ∧ c ≠ 'V' := by
  rcases f with ⟨n, e, hn⟩
  cases n with
  | zero =>
      rcases e.exists_text with ⟨c, cs, hText, _, hParen, hVoid⟩
      exact ⟨c, cs, by simpa [text] using hText, hParen, hVoid⟩
  | succ n =>
      exact
        ⟨'[', List.replicate n '[' ++ e.text, rfl, by decide⟩

section Names

variable {cs : List Char}
variable (hClosed : ';' ∉ cs)

include hClosed

theorem ne_semicolon :
    ∀ c ∈ cs, decide (c ≠ ';') = true := by
  intro c hc
  exact decide_eq_true (fun hEq => hClosed (hEq ▸ hc))

/- A name reaches up to the first semicolon. -/
theorem takeWhile_closed :
    (cs ++ ';' :: rest).takeWhile (· ≠ ';') = cs := by
  rw [List.takeWhile_append_of_pos (ne_semicolon hClosed)]
  simp

theorem dropWhile_closed :
    (cs ++ ';' :: rest).dropWhile (· ≠ ';') = ';' :: rest := by
  rw [List.dropWhile_append_of_pos (ne_semicolon hClosed)]
  simp

/- Without a semicolon nothing is left after a name. -/
theorem dropWhile_unclosed :
    cs.dropWhile (· ≠ ';') = [] := by
  rw [← List.append_nil cs,
    List.dropWhile_append_of_pos (ne_semicolon hClosed)]
  rfl

end Names

/- A text is the brackets that it opens with and the rest. -/
theorem eq_brackets_append (cs : List Char) :
    cs = List.replicate (openBrackets cs) '[' ++
      cs.dropWhile (· = '[') := by
  have hBrackets :
      cs.takeWhile (· = '[') =
        List.replicate (openBrackets cs) '[' := by
    refine List.eq_replicate_iff.2 ⟨rfl, ?_⟩
    intro c hc
    have hBracket := List.all_eq_true.1 List.all_takeWhile c hc
    exact of_decide_eq_true hBracket
  rw [← hBrackets, List.takeWhile_append_dropWhile]

/- No element adds to the brackets before it. -/
theorem Field.openBrackets_text
    (f : Field)
    (rest : List Char) :
    openBrackets (f.text ++ rest) = f.dimensions := by
  rcases f.element.exists_text with ⟨c, cs, hText, hNe, _⟩
  unfold openBrackets text
  rw [hText, List.append_assoc,
    List.takeWhile_append_of_pos (by simp)]
  simp [hNe]

theorem Field.dropWhile_text
    (f : Field)
    (rest : List Char) :
    (f.text ++ rest).dropWhile (· = '[') =
      f.element.text ++ rest := by
  rcases f.element.exists_text with ⟨c, cs, hText, hNe, _⟩
  unfold text
  rw [hText, List.append_assoc,
    List.dropWhile_append_of_pos (by simp)]
  simp [hNe]

------------------------------------------------------------
-- Unique Readability
------------------------------------------------------------

theorem Element.eq_of_append
    {e e' : Element}
    (hText : e.text ++ rest = e'.text ++ rest') :
    e = e' ∧ rest = rest' := by
  cases e with
  | letter k hk =>
      cases e' with
      | letter k' hk' =>
          simp only [text, List.cons_append, List.nil_append,
            List.cons.injEq] at hText
          have hCode := congrArg Kind.ofCode? hText.1
          simp only [Kind.ofCode?_code, Option.some.injEq] at hCode
          subst hCode
          exact ⟨rfl, hText.2⟩
      | name cs _ _ =>
          cases k <;> simp [text, Kind.code] at hText
  | name cs hs hClosed =>
      cases e' with
      | letter k hk =>
          cases k <;> simp [text, Kind.code] at hText
      | name cs' hs' hClosed' =>
          have hNames :
              cs ++ ';' :: rest = cs' ++ ';' :: rest' := by
            simpa [text] using hText
          have hTake :=
            congrArg (List.takeWhile (· ≠ ';')) hNames
          have hDrop :=
            congrArg (List.dropWhile (· ≠ ';')) hNames
          rw [takeWhile_closed hClosed,
            takeWhile_closed hClosed'] at hTake
          rw [dropWhile_closed hClosed,
            dropWhile_closed hClosed'] at hDrop
          subst hTake
          exact ⟨rfl, List.tail_eq_of_cons_eq hDrop⟩

theorem Field.eq_of_append
    {f g : Field}
    (hText : f.text ++ rest = g.text ++ rest') :
    f = g ∧ rest = rest' := by
  have hDimensions := congrArg openBrackets hText
  have hElements :=
    congrArg (List.dropWhile (· = '[')) hText
  rw [openBrackets_text, openBrackets_text] at hDimensions
  rw [dropWhile_text, dropWhile_text] at hElements
  rcases Element.eq_of_append hElements with ⟨hElement, hRest⟩
  cases f
  cases g
  cases hDimensions
  cases hElement
  exact ⟨rfl, hRest⟩

/- Fields are told apart up to the closing parenthesis. -/
theorem Field.eq_of_flatMap
    {fs gs : List Field}
    (hText :
      fs.flatMap text ++ ')' :: rest =
        gs.flatMap text ++ ')' :: rest') :
    fs = gs ∧ rest = rest' := by
  induction fs generalizing gs with
  | nil =>
      cases gs with
      | nil => simpa using hText
      | cons g gs =>
          rcases g.exists_text with ⟨c, cs, hg, hNe, _⟩
          simp [hg, Ne.symm hNe] at hText
  | cons f fs ih =>
      cases gs with
      | nil =>
          rcases f.exists_text with ⟨c, cs, hf, hNe, _⟩
          simp [hf, hNe] at hText
      | cons g gs =>
          simp only [List.flatMap_cons, List.append_assoc] at hText
          rcases Field.eq_of_append hText with ⟨rfl, hTail⟩
          rcases ih hTail with ⟨rfl, hRest⟩
          exact ⟨rfl, hRest⟩

theorem Result.text_injective
    {r r' : Result}
    (hText : r.text = r'.text) :
    r = r' := by
  cases r with
  | field f =>
      cases r' with
      | field g =>
          have hAppend : f.text ++ [] = g.text ++ [] := by
            simpa [text] using hText
          rw [(Field.eq_of_append hAppend).1]
      | void =>
          rcases f.exists_text with ⟨c, cs, hf, _, hNe⟩
          simp [text, hf, hNe] at hText
  | void =>
      cases r' with
      | field g =>
          rcases g.exists_text with ⟨c, cs, hg, _, hNe⟩
          simp [text, hg, Ne.symm hNe] at hText
      | void => rfl

/- A text is spelled by one derivation at most. -/
theorem Method.text_injective
    {m m' : Method}
    (hText : m.text = m'.text) :
    m = m' := by
  rcases m with ⟨ps, r⟩
  rcases m' with ⟨ps', r'⟩
  have hInside :
      ps.flatMap Field.text ++ ')' :: r.text =
        ps'.flatMap Field.text ++ ')' :: r'.text :=
    List.tail_eq_of_cons_eq hText
  rcases Field.eq_of_flatMap hInside with ⟨rfl, hResults⟩
  rw [Result.text_injective hResults]

end Grammar

end Linkage
